import RemoteCtrl.Daemon.Start
import RemoteCtrl.Foundation.Inet
import Mathlib.Logic.Function.Basic

/-!
# Any number of starts

`main` of the daemon started any number of times, on one machine and at any moments. Each start has its own
options and up to three processes; all of them compete for the lock of LOCKFILE and write their number into it.
The processes take their steps in any order, every call may fail, and each of them may be killed at any moment.
A start asks for the lock in its first process if `bSingle` is set, and in the last if `bIsDaemon` is.
-/

namespace RemoteCtrl.Daemon.Instances

open CProgram CProgram.Transition

/-- A process: the start it belongs to and its place there. -/
structure Id where
  start : Nat
  proc : Proc
  deriving DecidableEq, Repr

/-- What the options leave in the two variables. -/
structure Config where
  bSingle : Bool
  bIsDaemon : Bool
  deriving DecidableEq, Repr

/-- `lockfile` is the content of LOCKFILE, empty as long as there is none. -/
structure State where
  pc : Id → Pc
  lock : Option Id
  lockfile : Bytes

def State.goto (s : State) (id : Id) (pc : Pc) : State := { s with pc := Function.update s.pc id pc }

def State.release (s : State) (id : Id) : State := { s with lock := if s.lock = some id then none else s.lock }

/-- Nothing has been started. The file is what earlier runs have left. -/
def start (lockfile : Bytes) : State := ⟨fun _ => .unborn, none, lockfile⟩

inductive Event
  | launch (n : Nat)
  | call (id : Id) (result : Result)
  /-- `write`: the number of bytes written, none if it fails. -/
  | write (id : Id) (count : Option Nat)
  | kill (id : Id)
  deriving DecidableEq, Repr

section
variable (config : Nat → Config) (pid : Id → Nat)

/-- `main` behind the test of `bSingle`. -/
def afterSingle (n : Nat) : Pc := if (config n).bIsDaemon then .fork else .running

/-- Where a process is when `already_runing` has returned. -/
def returned (alreadyRunning : Bool) (id : Id) : Pc :=
  match id.proc with
  | .original => if alreadyRunning then .exiting 0 else afterSingle config id.start
  | _ => if alreadyRunning then .exiting 1 else .running

/-- `if(fork()!=0) exit(1)`, on both sides of the `fork`. -/
def State.forked (s : State) (id : Id) : State :=
  match id.proc with
  | .original => (s.goto id (.exiting 1)).goto ⟨id.start, .child⟩ .setsid
  | _ => (s.goto id (.exiting 1)).goto ⟨id.start, .grandchild⟩ .chdir

def State.checked (s : State) (id : Id) (result : Result) (done : State) : Option State :=
  match result with
  | .ok => some done
  | .again => none
  | .fails => some (s.goto id (.exiting 1))

/-- `fcntl` with F_SETLK on the whole file. -/
def State.setLock (s : State) (id : Id) (result : Result) : Option State :=
  if result = .again then
    if s.lock = none ∨ s.lock = some id then none else some (s.goto id .closeFile)
  else if result = .ok ∧ s.lock ≠ none ∧ s.lock ≠ some id then none
  else s.checked id result { s.goto id .truncate with lock := some id }

/-- `sprintf(buf, "%ld", (long)getpid())`, and its NUL. -/
def pidText (id : Id) : Bytes := decimal (pid id) ++ [0]

/-- What a `write` at the start of a file leaves. -/
def overwrite (old data : Bytes) : Bytes := data ++ old.drop data.length

def State.call (s : State) (id : Id) (result : Result) : Option State :=
  match s.pc id with
  | .openFile => s.checked id result (s.goto id .setLock)
  | .setLock => s.setLock id result
  | .closeFile => some ((s.goto id (returned config true id)).release id)
  | .truncate => some { s.goto id .writePid with lockfile := if result = .ok then [] else s.lockfile }
  | .fork => s.checked id result (s.forked id)
  | .setsid => s.checked id result (s.goto id .sigaction)
  | .sigaction => s.checked id result (s.goto id .fork)
  | .chdir => s.checked id result (s.goto id .openFile)
  -- the service has returned
  | .running => some (s.goto id (.exiting 0))
  | .exiting status => some ((s.goto id (.exited status)).release id)
  | _ => none

def step (s : State) : Event → Option State
  | .launch n =>
      if s.pc ⟨n, .original⟩ = .unborn then
        some (s.goto ⟨n, .original⟩ (if (config n).bSingle then .openFile else afterSingle config n))
      else none
  | .call id result => s.call config id result
  | .write id count =>
      if s.pc id = .writePid then
        some { s.goto id (returned config false id) with
          lockfile := overwrite s.lockfile ((pidText pid id).take (count.getD 0)) }
      else none
  | .kill id =>
      if s.pc id = .unborn ∨ (s.pc id).hasExited = true then none
      else some ((s.goto id (.exited 9)).release id)

/-! ### Who has the lock -/

/-- The process is behind the lock it has asked for. -/
def Guarded (id : Id) (pc : Pc) : Prop :=
  pc = .truncate ∨ pc = .writePid ∨
    (id.proc = .original ∧ (config id.start).bSingle = true ∧ (pc = .fork ∨ pc = .running)) ∨
    (id.proc = .grandchild ∧ pc = .running)

/-- Places behind the first `fork`. -/
def Pc.afterFork : Pc → Bool
  | .setsid => true
  | .sigaction => true
  | .chdir => true
  | _ => false

/-- The calls of the second process. -/
def Pc.ofChild : Pc → Bool
  | .unborn => true
  | .setsid => true
  | .sigaction => true
  | .fork => true
  | .exiting _ => true
  | .exited _ => true
  | _ => false

/-- A place the process can come to. -/
def Fits (id : Id) (pc : Pc) : Prop :=
  match id.proc with
  | .original => Pc.afterFork pc = false ∧ (pc = .running → (config id.start).bIsDaemon = false)
  | .child => Pc.ofChild pc = true
  | .grandchild => pc = .unborn ∨ pc.ofGrandchild = true

/-- Places where a process may have something to guard. -/
def Pc.guards : Pc → Bool
  | .truncate => true
  | .writePid => true
  | .fork => true
  | .running => true
  | _ => false

/-- What a step can do, and to whom. -/
inductive Moves (s : State) : Event → State → Prop
  | on {e : Event} {id : Id} {pc : Pc} : ¬Guarded config id pc → Fits config id pc → Moves s e (s.goto id pc)
  | forked {e : Event} {id child : Id} {pc : Pc} : Pc.guards pc = false → Fits config child pc →
      Moves s e ((s.goto id (.exiting 1)).goto child pc)
  | leaves {e : Event} {id : Id} {pc : Pc} : Pc.guards pc = false → Fits config id pc →
      Moves s e ((s.goto id pc).release id)
  | locks {e : Event} {id : Id} : s.pc id = .setLock → s.lock = none ∨ s.lock = some id →
      Moves s e { s.goto id .truncate with lock := some id }
  | truncates {e : Event} {id : Id} {lockfile : Bytes} : s.pc id = .truncate →
      Moves s e { s.goto id .writePid with lockfile }
  | writes {id : Id} {count : Option Nat} : s.pc id = .writePid →
      Moves s (.write id count) { s.goto id (returned config false id) with
        lockfile := overwrite s.lockfile ((pidText pid id).take (count.getD 0)) }

structure Inv (s : State) : Prop where
  owner : ∀ id, Guarded config id (s.pc id) → s.lock = some id
  fits : ∀ id, Fits config id (s.pc id)

end

variable {config : Nat → Config} {pid : Id → Nat}

@[simp] theorem goto_self (s : State) (id : Id) (pc : Pc) : (s.goto id pc).pc id = pc := Function.update_self ..

theorem goto_of_ne (s : State) {id other : Id} (hne : other ≠ id) (pc : Pc) : (s.goto id pc).pc other = s.pc other :=
  Function.update_of_ne hne ..

theorem not_guarded {id : Id} {pc : Pc} (hplain : Pc.guards pc = false) : ¬Guarded config id pc := by
  rintro (rfl | rfl | ⟨-, -, rfl | rfl⟩ | ⟨-, rfl⟩) <;> cases hplain

theorem fits_exiting (id : Id) (status : Int) : Fits config id (.exiting status) := by
  obtain ⟨n, proc⟩ := id
  cases proc with
  | original => exact ⟨rfl, Pc.noConfusion⟩
  | child => exact rfl
  | grandchild => exact .inr rfl

theorem fits_exited (id : Id) (status : Int) : Fits config id (.exited status) := by
  obtain ⟨n, proc⟩ := id
  cases proc with
  | original => exact ⟨rfl, Pc.noConfusion⟩
  | child => exact rfl
  | grandchild => exact .inr rfl

/-- The calls of `already_runing`. -/
def Pc.locking : Pc → Bool
  | .openFile => true
  | .setLock => true
  | .closeFile => true
  | .truncate => true
  | .writePid => true
  | _ => false

theorem Pc.of_locking {pc : Pc} (hpc : Pc.locking pc = true) :
    Pc.afterFork pc = false ∧ pc ≠ .running ∧ Pc.ofChild pc = false ∧ pc.ofGrandchild = true := by
  cases pc <;> first | exact ⟨rfl, Pc.noConfusion, rfl, rfl⟩ | cases hpc

/-- Two processes call `already_runing`, and those go through all of it. -/
theorem Fits.locking {id : Id} {pc pc' : Pc} (hfits : Fits config id pc) (hpc : Pc.locking pc = true)
    (hpc' : Pc.locking pc' = true) : Fits config id pc' := by
  obtain ⟨-, -, hchild, -⟩ := Pc.of_locking hpc
  obtain ⟨hafter', hrunning', -, hgrandchild'⟩ := Pc.of_locking hpc'
  obtain ⟨n, proc⟩ := id
  cases proc with
  | original => exact ⟨hafter', fun h => absurd h hrunning'⟩
  | child => exact absurd (hchild.symm.trans hfits) Bool.false_ne_true
  | grandchild => exact .inr hgrandchild'

theorem Fits.returned {id : Id} (hfits : Fits config id .writePid) : Fits config id (returned config false id) := by
  obtain ⟨n, proc⟩ := id
  cases proc with
  | original =>
      show Fits config ⟨n, .original⟩ (afterSingle config n)
      rw [afterSingle]
      split
      · exact ⟨rfl, Pc.noConfusion⟩
      · next hdaemon => exact ⟨rfl, fun _ => Bool.not_eq_true _ ▸ hdaemon⟩
  | child => cases hfits
  | grandchild => exact .inr rfl

/-! ### The steps -/

theorem moves_exiting (s : State) (e : Event) (id : Id) (status : Int) :
    Moves config pid s e (s.goto id (.exiting status)) := .on (not_guarded rfl) (fits_exiting id status)

/-- A call whose failure ends the process. -/
theorem moves_checked {s t done : State} {e : Event} {id : Id} {result : Result} (hdone : Moves config pid s e done)
    (hchecked : s.checked id result done = some t) : Moves config pid s e t := by
  cases result with
  | ok => exact Option.some.inj hchecked ▸ hdone
  | again => cases hchecked
  | fails => exact Option.some.inj hchecked ▸ moves_exiting s e id 1

theorem moves_setLock {s t : State} {e : Event} (hinv : Inv config s) {id : Id} {result : Result}
    (hpc : s.pc id = .setLock) (hlock : s.setLock id result = some t) : Moves config pid s e t := by
  have hfits : Fits config id .setLock := hpc ▸ hinv.fits id
  rw [State.setLock] at hlock
  cases result with
  | ok =>
      simp only [reduceCtorEq, if_false, true_and] at hlock
      split at hlock
      · cases hlock
      · exact Option.some.inj hlock ▸ .locks hpc (by tauto)
  | again =>
      rw [if_pos rfl] at hlock
      split at hlock
      · cases hlock
      · exact Option.some.inj hlock ▸ .on (not_guarded rfl) (hfits.locking rfl rfl)
  | fails =>
      simp only [reduceCtorEq, if_false, false_and] at hlock
      exact Option.some.inj hlock ▸ moves_exiting s e id 1

theorem returned_true (config : Nat → Config) (id : Id) : ∃ status, returned config true id = .exiting status := by
  obtain ⟨n, proc⟩ := id
  cases proc <;> exact ⟨_, rfl⟩

theorem moves_call {s t : State} {e : Event} (hinv : Inv config s) {id : Id} {result : Result}
    (hcall : s.call config id result = some t) : Moves config pid s e t := by
  have hfits := hinv.fits id
  rw [State.call] at hcall
  cases hpc : s.pc id with
  | openFile =>
      simp only [hpc] at hcall hfits
      exact moves_checked (.on (not_guarded rfl) (hfits.locking rfl rfl)) hcall
  | setLock =>
      simp only [hpc] at hcall
      exact moves_setLock hinv hpc hcall
  | closeFile =>
      simp only [hpc, Option.some.injEq] at hcall
      obtain ⟨status, hstatus⟩ := returned_true config id
      rw [hstatus] at hcall
      exact hcall ▸ .leaves rfl (fits_exiting id status)
  | truncate =>
      simp only [hpc, Option.some.injEq] at hcall
      exact hcall ▸ .truncates hpc
  | fork =>
      simp only [hpc] at hcall hfits
      refine moves_checked ?_ hcall
      obtain ⟨n, proc⟩ := id
      cases proc with
      | original => exact .forked rfl rfl
      | child => exact .forked rfl (.inr rfl)
      | grandchild => rcases hfits with h | h <;> cases h
  | setsid =>
      simp only [hpc] at hcall hfits
      obtain ⟨n, proc⟩ := id
      cases proc with
      | original => cases hfits.1
      | child =>
          have hnext : Fits config ⟨n, .child⟩ .sigaction := rfl
          exact moves_checked (.on (not_guarded rfl) hnext) hcall
      | grandchild => rcases hfits with h | h <;> cases h
  | sigaction =>
      simp only [hpc] at hcall hfits
      obtain ⟨n, proc⟩ := id
      cases proc with
      | original => cases hfits.1
      | child =>
          have hnext : Fits config ⟨n, .child⟩ .fork := rfl
          refine moves_checked (.on (fun h => ?_) hnext) hcall
          rcases h with h | h | ⟨h, -⟩ | ⟨-, h⟩ <;> cases h
      | grandchild => rcases hfits with h | h <;> cases h
  | chdir =>
      simp only [hpc] at hcall hfits
      obtain ⟨n, proc⟩ := id
      cases proc with
      | original => cases hfits.1
      | child => cases hfits
      | grandchild =>
          have hnext : Fits config ⟨n, .grandchild⟩ .openFile := .inr rfl
          exact moves_checked (.on (not_guarded rfl) hnext) hcall
  | running =>
      simp only [hpc, Option.some.injEq] at hcall
      exact hcall ▸ moves_exiting s e id 0
  | exiting status =>
      simp only [hpc, Option.some.injEq] at hcall
      exact hcall ▸ .leaves rfl (fits_exited id status)
  | _ => simp [hpc] at hcall

/-- Where a start begins: without `bSingle` there is no lock to be behind. -/
theorem moves_launch (s : State) (e : Event) (n : Nat) :
    Moves config pid s e
      (s.goto ⟨n, .original⟩ (if (config n).bSingle then .openFile else afterSingle config n)) := by
  cases hsingle : (config n).bSingle with
  | true => exact .on (not_guarded rfl) ⟨rfl, Pc.noConfusion⟩
  | false =>
      refine .on (fun h => ?_) ?_
      · rw [if_neg Bool.false_ne_true, afterSingle] at h
        rcases h with h | h | ⟨-, h, -⟩ | ⟨h, -⟩
        · split at h <;> cases h
        · split at h <;> cases h
        · exact absurd (hsingle.symm.trans h) Bool.false_ne_true
        · cases h
      · rw [if_neg Bool.false_ne_true, afterSingle]
        split
        · exact ⟨rfl, Pc.noConfusion⟩
        · next hdaemon => exact ⟨rfl, fun _ => Bool.not_eq_true _ ▸ hdaemon⟩

theorem step_moves {s t : State} {e : Event} (hinv : Inv config s) (hstep : step config pid s e = some t) :
    Moves config pid s e t := by
  cases e with
  | launch n =>
      simp only [Instances.step] at hstep
      split at hstep
      · exact Option.some.inj hstep ▸ moves_launch s (.launch n) n
      · cases hstep
  | call id result => exact moves_call hinv hstep
  | write id count =>
      simp only [Instances.step] at hstep
      split at hstep
      · next hpc => exact Option.some.inj hstep ▸ .writes hpc
      · cases hstep
  | kill id =>
      simp only [Instances.step] at hstep
      split at hstep
      · cases hstep
      · exact Option.some.inj hstep ▸ .leaves rfl (fits_exited id 9)

/-! ### Behind the lock there is one process -/

theorem Inv.start (lockfile : Bytes) : Inv config (start lockfile) where
  owner := fun _ hguarded => absurd hguarded (not_guarded rfl)
  fits := fun id => by
    obtain ⟨n, proc⟩ := id
    cases proc with
    | original => exact ⟨rfl, Pc.noConfusion⟩
    | child => exact rfl
    | grandchild => exact .inl rfl

theorem fits_goto {s : State} (hinv : Inv config s) {id : Id} {pc : Pc} (hfits : Fits config id pc) (other : Id) :
    Fits config other ((s.goto id pc).pc other) := by
  by_cases hother : other = id
  · rw [hother, goto_self]
    exact hfits
  · rw [goto_of_ne s hother]
    exact hinv.fits other

/-- A process goes on; where there is something to guard it has the lock. -/
theorem Inv.goto {s : State} (hinv : Inv config s) {id : Id} {pc : Pc} (hguard : Guarded config id pc → s.lock = some id)
    (hfits : Fits config id pc) (lockfile : Bytes) : Inv config { s.goto id pc with lockfile } where
  owner := fun other hguarded => by
    by_cases hother : other = id
    · have hpc : ({ s.goto id pc with lockfile } : State).pc id = pc := goto_self s id pc
      rw [hother] at hguarded ⊢
      exact hguard (hpc ▸ hguarded)
    · have hpc : ({ s.goto id pc with lockfile } : State).pc other = s.pc other := goto_of_ne s hother pc
      exact hinv.owner other (hpc ▸ hguarded)
  fits := fits_goto hinv hfits

theorem Inv.plain {s : State} (hinv : Inv config s) (id : Id) {pc : Pc} (hfree : ¬Guarded config id pc)
    (hfits : Fits config id pc) : Inv config (s.goto id pc) :=
  hinv.goto (fun h => absurd h hfree) hfits s.lockfile

theorem Inv.release {s : State} (hinv : Inv config s) {id : Id} (hfree : ¬Guarded config id (s.pc id)) :
    Inv config (s.release id) where
  owner := fun other hguarded => by
    have howner := hinv.owner other hguarded
    have hne : s.lock ≠ some id := by
      rw [howner, Ne, Option.some.injEq]
      rintro rfl
      exact hfree hguarded
    rw [State.release]
    exact (if_neg hne).trans howner
  fits := hinv.fits

theorem Inv.leaves {s : State} (hinv : Inv config s) (id : Id) {pc : Pc} (hplain : Pc.guards pc = false)
    (hfits : Fits config id pc) : Inv config ((s.goto id pc).release id) := by
  refine (hinv.plain id (not_guarded hplain) hfits).release ?_
  rw [goto_self]
  exact not_guarded hplain

/-- Nobody else is behind a lock that is free. -/
theorem Inv.lock {s : State} (hinv : Inv config s) {id : Id} (hpc : s.pc id = .setLock)
    (hfree : s.lock = none ∨ s.lock = some id) : Inv config { s.goto id .truncate with lock := some id } where
  owner := fun other hguarded => by
    by_cases hother : other = id
    · exact congrArg some hother.symm
    · have howner := hinv.owner other (goto_of_ne s hother .truncate ▸ hguarded)
      rcases hfree with hnone | hown
      · rw [hnone] at howner
        cases howner
      · rw [hown, Option.some.injEq] at howner
        exact absurd howner.symm hother
  fits := by
    have hfits : Fits config id .setLock := hpc ▸ hinv.fits id
    exact fits_goto hinv (hfits.locking rfl rfl)

theorem Inv.step {s t : State} {e : Event} (hinv : Inv config s) (hstep : step config pid s e = some t) :
    Inv config t := by
  cases step_moves hinv hstep with
  | on hfree hfits => exact hinv.plain _ hfree hfits
  | forked hplain hfits =>
      exact (hinv.plain _ (not_guarded rfl) (fits_exiting _ 1)).plain _ (not_guarded hplain) hfits
  | leaves hplain hfits => exact hinv.leaves _ hplain hfits
  | locks hpc hfree => exact hinv.lock hpc hfree
  | truncates hpc =>
      have hfits := hpc ▸ hinv.fits _
      exact hinv.goto (fun _ => hinv.owner _ (hpc ▸ .inl rfl)) (hfits.locking rfl rfl) _
  | writes hpc =>
      have hfits := hpc ▸ hinv.fits _
      exact hinv.goto (fun _ => hinv.owner _ (hpc ▸ .inr (.inl rfl))) hfits.returned _

theorem Inv.of_reaches {lockfile : Bytes} {s : State}
    (hreach : Reaches (Instances.step config pid) (Instances.start lockfile) s) : Inv config s :=
  hreach.invariant (fun _ _ _ hinv hstep => hinv.step hstep) (.start lockfile)

theorem Inv.one {s : State} (hinv : Inv config s) {id id' : Id} (hguarded : Guarded config id (s.pc id))
    (hguarded' : Guarded config id' (s.pc id')) : id = id' := by
  have howner := hinv.owner id hguarded
  rw [hinv.owner id' hguarded', Option.some.injEq] at howner
  exact howner.symm

/-- **One process behind the lock**, of all the starts on the machine, whatever their options and however they
overlap. -/
theorem one_behind_the_lock {lockfile : Bytes} {s : State}
    (hreach : Reaches (step config pid) (start lockfile) s) {id id' : Id} (hguarded : Guarded config id (s.pc id))
    (hguarded' : Guarded config id' (s.pc id')) : id = id' :=
  (Inv.of_reaches hreach).one hguarded hguarded'

/-- The first start gets through; the second finds the lock taken. -/
def twoStarts : List Event :=
  [.launch 0, .call ⟨0, .original⟩ .ok, .launch 1, .call ⟨1, .original⟩ .ok, .call ⟨0, .original⟩ .ok,
    .call ⟨1, .original⟩ .again, .call ⟨0, .original⟩ .fails, .write ⟨0, .original⟩ (some 5)]

def singleOnly (_ : Nat) : Config := ⟨true, false⟩

def pids (id : Id) : Nat := 4000 + id.start

theorem twoStarts_runs (lockfile : Bytes) :
    ∃ s, run (step singleOnly pids) (start lockfile) twoStarts = some s ∧ s.pc ⟨0, .original⟩ = .running :=
  ⟨_, rfl, rfl⟩

theorem guarded_first {pc : Pc} (hrunning : pc = .running) : Guarded singleOnly ⟨0, .original⟩ pc :=
  .inr (.inr (.inl ⟨rfl, rfl, .inr hrunning⟩))

theorem one_behind_the_lock_two : ∃ s, run (step singleOnly pids) (start []) twoStarts = some s ∧
    ∀ id, Guarded singleOnly id (s.pc id) → id = ⟨0, .original⟩ := by
  obtain ⟨s, hrun, hrunning⟩ := twoStarts_runs []
  exact ⟨s, hrun, fun id hguarded => one_behind_the_lock ⟨twoStarts, hrun⟩ hguarded (guarded_first hrunning)⟩

theorem guarded_of_running {s : State} (hinv : Inv config s)
    (hconfig : ∀ n, (config n).bSingle = true ∨ (config n).bIsDaemon = true) {id : Id} (hrunning : s.pc id = .running) :
    Guarded config id (s.pc id) := by
  have hfits := hinv.fits id
  rw [hrunning] at hfits ⊢
  obtain ⟨n, proc⟩ := id
  cases proc with
  | original =>
      have hdaemon : (config n).bIsDaemon = false := hfits.2 rfl
      rcases hconfig n with hsingle | h
      · exact .inr (.inr (.inl ⟨rfl, hsingle, .inr rfl⟩))
      · exact absurd (hdaemon.symm.trans h) Bool.false_ne_true
  | child => cases hfits
  | grandchild => exact .inr (.inr (.inr ⟨rfl, rfl⟩))

/-! ### A start that gets through -/

/-- The steps of one start lead from one state to the other. -/
def Leads (config : Nat → Config) (pid : Id → Nat) (m : Nat) (s t : State) : Prop :=
  Reaches (step config pid) s t ∧ ∀ id, id.start ≠ m → t.pc id = s.pc id

theorem Leads.trans {m : Nat} {s t u : State} (hfirst : Leads config pid m s t) (hsecond : Leads config pid m t u) :
    Leads config pid m s u :=
  ⟨hfirst.1.trans hsecond.1, fun id hid => (hsecond.2 id hid).trans (hfirst.2 id hid)⟩

section
variable (config pid)

theorem leads_of_step {s t : State} {e : Event} {id : Id} (hstep : step config pid s e = some t)
    (hpc : ∀ other, other.start ≠ id.start → t.pc other = s.pc other) : Leads config pid id.start s t :=
  ⟨.of_step hstep, hpc⟩

/-- A step after which the process stands at `pc`. -/
theorem leads_of_goto {s t : State} {e : Event} (id : Id) (pc : Pc) (hstep : step config pid s e = some t)
    (hpc : t.pc = (s.goto id pc).pc) : Leads config pid id.start s t ∧ t.pc id = pc := by
  refine ⟨leads_of_step config pid hstep fun other hother => ?_, ?_⟩
  · rw [hpc]
    exact goto_of_ne s (fun h => hother (congrArg Id.start h)) pc
  · rw [hpc, goto_self]

/-- A checked call that succeeds and only moves its process. -/
theorem leads_call {s : State} {id : Id} {pc : Pc} (hcall : s.call config id .ok = some (s.goto id pc)) :
    ∃ t, Leads config pid id.start s t ∧ t.pc id = pc ∧ t.lock = s.lock := by
  have hstep : step config pid s (.call id .ok) = some (s.goto id pc) := hcall
  obtain ⟨hleads, hpc⟩ := leads_of_goto config pid id pc hstep rfl
  exact ⟨_, hleads, hpc, rfl⟩

theorem call_openFile {s : State} {id : Id} (hpc : s.pc id = .openFile) :
    s.call config id .ok = some (s.goto id .setLock) := by
  simp [State.call, hpc, State.checked]

theorem call_setsid {s : State} {id : Id} (hpc : s.pc id = .setsid) :
    s.call config id .ok = some (s.goto id .sigaction) := by
  simp [State.call, hpc, State.checked]

theorem call_sigaction {s : State} {id : Id} (hpc : s.pc id = .sigaction) :
    s.call config id .ok = some (s.goto id .fork) := by
  simp [State.call, hpc, State.checked]

theorem call_chdir {s : State} {id : Id} (hpc : s.pc id = .chdir) :
    s.call config id .ok = some (s.goto id .openFile) := by
  simp [State.call, hpc, State.checked]

/-- From `open` to the end of `already_runing`, when the lock is free. -/
theorem leads_locking {s : State} {id : Id} (hpc : s.pc id = .openFile) (hfree : s.lock = none) :
    ∃ t, Leads config pid id.start s t ∧ t.pc id = returned config false id ∧ t.lock = some id := by
  obtain ⟨t, hopen, hpc, hlock⟩ := leads_call config pid (call_openFile config hpc)
  rw [hfree] at hlock
  have hset : step config pid t (.call id .ok) = some { t.goto id .truncate with lock := some id } := by
    simp [Instances.step, State.call, hpc, State.setLock, State.checked, hlock]
  obtain ⟨hset, hpc⟩ := leads_of_goto config pid id .truncate hset rfl
  have htruncate : step config pid { t.goto id .truncate with lock := some id } (.call id .ok)
      = some { { t.goto id .truncate with lock := some id }.goto id .writePid with lockfile := [] } := by
    simp [Instances.step, State.call]
  obtain ⟨htruncate, hpc⟩ := leads_of_goto config pid id .writePid htruncate rfl
  have hwrite := leads_of_goto (e := .write id none) config pid id (returned config false id) (if_pos hpc) rfl
  exact ⟨_, hopen.trans (hset.trans (htruncate.trans hwrite.1)), hwrite.2, rfl⟩

/-- The first process of a start, up to where `bIsDaemon` is tested. -/
theorem leads_afterSingle {s : State} {m : Nat} (hunborn : s.pc ⟨m, .original⟩ = .unborn) (hfree : s.lock = none) :
    ∃ t, Leads config pid m s t ∧ t.pc ⟨m, .original⟩ = afterSingle config m
      ∧ (t.lock = none ∨ t.lock = some ⟨m, .original⟩) := by
  have hstep : step config pid s (.launch m)
      = some (s.goto ⟨m, .original⟩ (if (config m).bSingle then .openFile else afterSingle config m)) := if_pos hunborn
  obtain ⟨hlaunch, hpc⟩ := leads_of_goto config pid ⟨m, .original⟩ _ hstep rfl
  cases hsingle : (config m).bSingle with
  | false =>
      rw [hsingle] at hlaunch hpc
      exact ⟨_, hlaunch, hpc, .inl hfree⟩
  | true =>
      rw [hsingle] at hlaunch hpc
      obtain ⟨t, hlocking, hpc, hheld⟩ := leads_locking config pid hpc hfree
      exact ⟨t, hlaunch.trans hlocking, hpc, .inr hheld⟩

/-- A `fork` moves two processes of its start. -/
theorem leads_fork {s t : State} (id child : Id) {pc : Pc} (hstart : child.start = id.start) (hne : id ≠ child)
    (hstep : step config pid s (.call id .ok) = some t) (ht : t = (s.goto id (.exiting 1)).goto child pc) :
    Leads config pid id.start s t ∧ t.pc id = .exiting 1 ∧ t.pc child = pc ∧ t.lock = s.lock := by
  subst ht
  refine ⟨leads_of_step config pid hstep fun other hother => ?_, ?_, goto_self .., rfl⟩
  · rw [goto_of_ne _ (fun h => hother ((congrArg Id.start h).trans hstart)),
      goto_of_ne _ fun h => hother (congrArg Id.start h)]
  · rw [goto_of_ne _ hne, goto_self]

/-- The first process forks and ends, and with it its lock. -/
theorem leads_forked {s : State} {m : Nat} (hpc : s.pc ⟨m, .original⟩ = .fork)
    (hlock : s.lock = none ∨ s.lock = some ⟨m, .original⟩) :
    ∃ t, Leads config pid m s t ∧ t.pc ⟨m, .child⟩ = .setsid ∧ t.lock = none := by
  have hfork : step config pid s (.call ⟨m, .original⟩ .ok)
      = some ((s.goto ⟨m, .original⟩ (.exiting 1)).goto ⟨m, .child⟩ .setsid) := by
    simp [Instances.step, State.call, hpc, State.checked, State.forked]
  obtain ⟨hforked, hexiting, hsetsid, hsame⟩ :=
    leads_fork config pid ⟨m, .original⟩ ⟨m, .child⟩ rfl (by simp) hfork rfl
  generalize (s.goto ⟨m, .original⟩ (.exiting 1)).goto ⟨m, .child⟩ .setsid = t at hforked hexiting hsetsid hsame
  have hexit : step config pid t (.call ⟨m, .original⟩ .ok)
      = some ((t.goto ⟨m, .original⟩ (.exited 1)).release ⟨m, .original⟩) := by
    simp [Instances.step, State.call, hexiting]
  refine ⟨_, hforked.trans (leads_of_goto config pid ⟨m, .original⟩ (.exited 1) hexit rfl).1, ?_, ?_⟩
  · exact (goto_of_ne t (by simp) _).trans hsetsid
  · show (if t.lock = some ⟨m, .original⟩ then none else t.lock) = none
    rcases hlock with h | h <;> simp [hsame, h]

/-- The second process, up to the `fork` of the last. -/
theorem leads_child {s : State} {m : Nat} (hpc : s.pc ⟨m, .child⟩ = .setsid) :
    ∃ t, Leads config pid m s t ∧ t.pc ⟨m, .grandchild⟩ = .chdir ∧ t.lock = s.lock := by
  obtain ⟨t, hsetsid, hpc, hlock⟩ := leads_call config pid (call_setsid config hpc)
  obtain ⟨u, hsigaction, hpc, hlock'⟩ := leads_call config pid (call_sigaction config hpc)
  have hfork : step config pid u (.call ⟨m, .child⟩ .ok)
      = some ((u.goto ⟨m, .child⟩ (.exiting 1)).goto ⟨m, .grandchild⟩ .chdir) := by
    simp [Instances.step, State.call, hpc, State.checked, State.forked]
  obtain ⟨hforked, -, hchdir, hlock''⟩ :=
    leads_fork config pid ⟨m, .child⟩ ⟨m, .grandchild⟩ rfl (by simp) hfork rfl
  exact ⟨_, hsetsid.trans (hsigaction.trans hforked), hchdir, hlock''.trans (hlock'.trans hlock)⟩

/-- From the first `fork` on, with the first process gone before the last asks for the lock. -/
theorem leads_daemon {s : State} {m : Nat} (hpc : s.pc ⟨m, .original⟩ = .fork)
    (hlock : s.lock = none ∨ s.lock = some ⟨m, .original⟩) :
    ∃ t, Leads config pid m s t ∧ t.pc ⟨m, .grandchild⟩ = .running := by
  obtain ⟨t, hforked, hpc, hfree⟩ := leads_forked config pid hpc hlock
  obtain ⟨u, hchild, hpc, hsame⟩ := leads_child config pid hpc
  obtain ⟨v, hchdir, hpc, hsame'⟩ := leads_call config pid (call_chdir config hpc)
  obtain ⟨w, hlocking, hpc, -⟩ := leads_locking config pid hpc (hsame'.trans (hsame.trans hfree))
  exact ⟨w, hforked.trans (hchild.trans (hchdir.trans hlocking)), hpc⟩

theorem leads_running {s : State} {m : Nat} (hunborn : s.pc ⟨m, .original⟩ = .unborn) (hfree : s.lock = none) :
    ∃ t id, Leads config pid m s t ∧ id.start = m ∧ t.pc id = .running := by
  obtain ⟨t, hfirst, hpc, hlock⟩ := leads_afterSingle config pid hunborn hfree
  rw [afterSingle] at hpc
  cases hdaemon : (config m).bIsDaemon with
  | false =>
      rw [hdaemon, if_neg Bool.false_ne_true] at hpc
      exact ⟨t, ⟨m, .original⟩, hfirst, rfl, hpc⟩
  | true =>
      rw [hdaemon, if_pos rfl] at hpc
      obtain ⟨u, hrest, hpc⟩ := leads_daemon config pid hpc hlock
      exact ⟨u, ⟨m, .grandchild⟩, hfirst.trans hrest, rfl, hpc⟩

/-- **When one service runs at most.** Whatever the starts do, no two of their processes run the service at once,
exactly if each start has the single instance or the daemon mode on. -/
theorem one_service_iff :
    (∀ lockfile s, Reaches (step config pid) (start lockfile) s →
        ∀ id id', s.pc id = .running → s.pc id' = .running → id = id')
      ↔ ∀ n, (config n).bSingle = true ∨ (config n).bIsDaemon = true := by
  constructor
  · intro hone n
    by_contra hneither
    obtain ⟨hsingle, hdaemon⟩ := not_or.mp hneither
    rw [Bool.not_eq_true] at hsingle hdaemon
    -- start `n` runs the service at once and without the lock, and start `n + 1` gets through beside it
    have hlaunch : step config pid (start []) (.launch n) = some ((start []).goto ⟨n, .original⟩ .running) := by
      simp [Instances.step, start, hsingle, afterSingle, hdaemon]
    have hunborn : ((start []).goto ⟨n, .original⟩ .running).pc ⟨n + 1, .original⟩ = .unborn :=
      goto_of_ne _ (by simp) _
    obtain ⟨t, id, ⟨hreach, hsame⟩, hid, hrunning⟩ := leads_running config pid hunborn rfl
    have hfirst : t.pc ⟨n, .original⟩ = .running := (hsame ⟨n, .original⟩ (by simp)).trans (goto_self ..)
    have hequal := hone [] t ((Reaches.of_step hlaunch).trans hreach) ⟨n, .original⟩ id hfirst hrunning
    have hn : n = n + 1 := (congrArg Id.start hequal).trans hid
    omega
  · intro hconfig lockfile s hreach id id' hid hid'
    have hinv := Inv.of_reaches hreach
    exact hinv.one (guarded_of_running hinv hconfig hid) (guarded_of_running hinv hconfig hid')

end

/-! ### What the file says -/

/-- Behind the lock and behind the `write`. -/
def Past (config : Nat → Config) (id : Id) (pc : Pc) : Prop :=
  Guarded config id pc ∧ pc ≠ .truncate ∧ pc ≠ .writePid

/-- The number of the process that is past its `write` stands in the file, with a NUL behind it. -/
def Named (config : Nat → Config) (pid : Id → Nat) (s : State) : Prop :=
  ∀ id, Past config id (s.pc id) → ∃ rest, s.lockfile = decimal (pid id) ++ 0 :: rest

/-- A `write` takes everything. -/
def Whole (pid : Id → Nat) (_ : State) : Event → Prop
  | .write id count => (pidText pid id).length ≤ count.getD 0
  | _ => True

instance (pid : Id → Nat) (s : State) : (e : Event) → Decidable (Whole pid s e)
  | .write id count => inferInstanceAs (Decidable ((pidText pid id).length ≤ count.getD 0))
  | .launch _ => isTrue trivial
  | .call _ _ => isTrue trivial
  | .kill _ => isTrue trivial

theorem Named.goto {s : State} (hnamed : Named config pid s) {id : Id} {pc : Pc} (hfree : ¬Past config id pc) :
    Named config pid (s.goto id pc) := by
  intro other hpast
  by_cases hother : other = id
  · rw [hother, goto_self] at hpast
    exact absurd hpast hfree
  · exact hnamed other (goto_of_ne s hother pc ▸ hpast)

theorem Named.relock {s : State} (hnamed : Named config pid s) {lock : Option Id} :
    Named config pid { s with lock } := hnamed

/-- Only the one behind the lock changes the file. -/
theorem Named.write {s : State} (hinv : Inv config s) {id : Id} {pc : Pc} {lockfile : Bytes}
    (hguarded : Guarded config id (s.pc id))
    (hnew : Past config id pc → ∃ rest, lockfile = decimal (pid id) ++ 0 :: rest) :
    Named config pid { s.goto id pc with lockfile } := by
  intro other hpast
  by_cases hother : other = id
  · rw [hother] at hpast ⊢
    have hpc : ({ s.goto id pc with lockfile } : State).pc id = pc := goto_self s id pc
    exact hnew (hpc ▸ hpast)
  · have hpc : ({ s.goto id pc with lockfile } : State).pc other = s.pc other := goto_of_ne s hother pc
    have howner := hinv.owner other (hpc ▸ hpast).1
    rw [hinv.owner id hguarded, Option.some.injEq] at howner
    exact absurd howner.symm hother

theorem Named.step {s t : State} {e : Event} (hinv : Inv config s) (hnamed : Named config pid s)
    (hwhole : Whole pid s e) (hstep : step config pid s e = some t) : Named config pid t := by
  cases step_moves hinv hstep with
  | on hfree => exact hnamed.goto fun h => hfree h.1
  | forked hplain =>
      exact (hnamed.goto fun h => not_guarded rfl h.1).goto fun h => not_guarded hplain h.1
  -- the lock is no part of what the file says
  | leaves hplain => exact (hnamed.goto fun h => not_guarded hplain h.1).relock
  | locks hpc hfree => exact (hnamed.goto fun h => h.2.1 rfl).relock
  | truncates hpc => exact .write hinv (hpc ▸ .inl rfl) fun h => absurd rfl h.2.2
  | writes hpc =>
      refine .write hinv (hpc ▸ .inr (.inl rfl)) fun _ => ?_
      rw [overwrite, List.take_of_length_le hwhole, pidText, List.append_assoc]
      exact ⟨_, rfl⟩

theorem nulFree_decimal (n : Nat) : NulFree (decimal n) := by
  intro hmem
  exact absurd (isDigit_decimal n 0 hmem) (by decide)

/-- **LOCKFILE names the process behind the lock.** Once it is past its `write`, and as long as it lives, the file
begins with its number, whatever `ftruncate` has done and whatever the others do. -/
theorem lockfile_names_the_holder {lockfile : Bytes} {es : List Event} {s : State}
    (hrun : run (step config pid) (start lockfile) es = some s)
    (hwhole : Along (step config pid) (Whole pid) (start lockfile) es) {id : Id}
    (hpast : Past config id (s.pc id)) : cString s.lockfile = some (decimal (pid id)) := by
  have hkeeps (s : State) (e : Event) (t : State) (hinv : Inv config s ∧ Named config pid s) (hgood : Whole pid s e)
      (hstep : step config pid s e = some t) : Inv config t ∧ Named config pid t :=
    ⟨hinv.1.step hstep, hinv.2.step hinv.1 hgood hstep⟩
  have hstart : Inv config (start lockfile) ∧ Named config pid (start lockfile) :=
    ⟨.start lockfile, fun id h => absurd h.1 (not_guarded rfl)⟩
  obtain ⟨rest, hfile⟩ := (run_invariant_along hkeeps hrun hwhole hstart).2 id hpast
  rw [hfile, cString_append_nul, (nulFree_decimal _).takeWhile]

theorem lockfile_names_the_holder_two :
    ∃ s, run (step singleOnly pids) (start (ascii "31416 ")) twoStarts = some s ∧
      cString s.lockfile = some (decimal (pids ⟨0, .original⟩)) := by
  obtain ⟨s, hrun, hrunning⟩ := twoStarts_runs (ascii "31416 ")
  have hwhole : ∀ e ∈ twoStarts, Whole pids (start []) e := by decide
  have halong : Along (step singleOnly pids) (Whole pids) (start (ascii "31416 ")) twoStarts :=
    (along_trivial _ _).of_mem fun _ e he _ => hwhole e he
  have hpast : Past singleOnly ⟨0, .original⟩ (s.pc ⟨0, .original⟩) :=
    ⟨guarded_first hrunning, by rw [hrunning]; decide, by rw [hrunning]; decide⟩
  exact ⟨s, hrun, lockfile_names_the_holder hrun halong hpast⟩

end RemoteCtrl.Daemon.Instances
