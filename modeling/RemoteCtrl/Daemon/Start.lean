import RemoteCtrl.Foundation.Transition

/-!
# How the daemon starts

`main` with the single instance and the daemon mode both on: `already_runing` takes the lock of LOCKFILE in the
process that was started, `Daemon2` forks a child and the child a grandchild, and `already_runing` is called
again there. The three processes take their steps in any order. A record lock belongs to a process: `fork` does
not pass it on, and it is released when its owner closes the file or ends. Nobody else competes for the lock.
A process that has called `exit` still holds what it holds until the system has ended it. What is written into
the file is left out.
-/

namespace RemoteCtrl.Daemon

open CProgram.Transition

inductive Proc
  | original
  | child
  | grandchild
  deriving DecidableEq, Repr

/-- The call a process makes next. -/
inductive Pc
  | unborn
  | openFile
  | setLock
  | closeFile
  | truncate
  | writePid
  | fork
  | setsid
  | sigaction
  | chdir
  | running
  | exiting (status : Int)
  | exited (status : Int)
  deriving DecidableEq, Repr

structure State where
  original : Pc
  child : Pc
  grandchild : Pc
  lock : Option Proc
  deriving DecidableEq, Repr

def start : State where
  original := .openFile
  child := .unborn
  grandchild := .unborn
  lock := none

def State.pc (s : State) : Proc → Pc
  | .original => s.original
  | .child => s.child
  | .grandchild => s.grandchild

def State.goto (s : State) (p : Proc) (pc : Pc) : State :=
  match p with
  | .original => { s with original := pc }
  | .child => { s with child := pc }
  | .grandchild => { s with grandchild := pc }

def State.release (s : State) (p : Proc) : State := { s with lock := if s.lock = some p then none else s.lock }

/-! ### Steps -/

/-- How a call returns: `again` is EACCES or EAGAIN from `fcntl`, `fails` any other error. -/
inductive Result
  | ok
  | again
  | fails
  deriving DecidableEq, Repr

structure Event where
  proc : Proc
  result : Result
  deriving DecidableEq, Repr

/-- Where a process is when `already_runing` has returned: back in `main`, or in `Daemon2`. -/
def returned (alreadyRunning : Bool) : Proc → Pc
  | .original => if alreadyRunning then .exiting 0 else .fork
  | _ => if alreadyRunning then .exiting 1 else .running

/-- `if(fork()!=0) exit(1)`, on both sides of the `fork`. -/
def State.forked (s : State) : Proc → State
  | .original => { s with original := .exiting 1, child := .setsid }
  | _ => { s with child := .exiting 1, grandchild := .chdir }

/-- A call whose failure ends the process. -/
def State.checked (s : State) (e : Event) (done : State) : Option State :=
  match e.result with
  | .ok => some done
  | .again => none
  | .fails => some (s.goto e.proc (.exiting 1))

/-- `fcntl` with F_SETLK on the whole file. -/
def State.setLock (s : State) (e : Event) : Option State :=
  if e.result = .again then
    if s.lock = none ∨ s.lock = some e.proc then none else some (s.goto e.proc .closeFile)
  else if e.result = .ok ∧ s.lock ≠ none ∧ s.lock ≠ some e.proc then none
  else s.checked e { s.goto e.proc .truncate with lock := some e.proc }

def step (s : State) (e : Event) : Option State :=
  match s.pc e.proc with
  | .unborn => none
  | .openFile => s.checked e (s.goto e.proc .setLock)
  | .setLock => s.setLock e
  | .closeFile => some ((s.goto e.proc (returned true e.proc)).release e.proc)
  -- nobody looks at the results of these two
  | .truncate => some (s.goto e.proc .writePid)
  | .writePid => some (s.goto e.proc (returned false e.proc))
  | .fork => s.checked e (s.forked e.proc)
  | .setsid => s.checked e (s.goto e.proc .sigaction)
  | .sigaction => s.checked e (s.goto e.proc .fork)
  | .chdir => s.checked e (s.goto e.proc .openFile)
  | .running => none
  | .exiting status => some ((s.goto e.proc (.exited status)).release e.proc)
  | .exited _ => none

/-! ### What goes well -/

def Pc.hasExited : Pc → Bool
  | .exited _ => true
  | _ => false

def Pc.leaves : Pc → Bool
  | .exiting _ => true
  | .exited _ => true
  | _ => false

/-- A call that ends the process when it fails. -/
def Pc.isChecked : Pc → Bool
  | .openFile => true
  | .setLock => true
  | .fork => true
  | .setsid => true
  | .sigaction => true
  | .chdir => true
  | _ => false

/-- No checked call fails, and the grandchild asks for the lock when the original process has ended. -/
def Good (s : State) (e : Event) : Prop :=
  ((s.pc e.proc).isChecked = true → e.result ≠ .fails) ∧
    (e.proc = .grandchild → s.grandchild = .setLock → s.original.hasExited = true)

instance (s : State) (e : Event) : Decidable (Good s e) := inferInstanceAs (Decidable (_ ∧ _))

def DaemonUp (s : State) : Prop := s.grandchild = .running ∧ s.lock = some .grandchild

instance (s : State) : Decidable (DaemonUp s) := inferInstanceAs (Decidable (_ ∧ _))

/-- Not in the middle of its part of the start. -/
def Pc.atRest : Pc → Bool
  | .unborn => true
  | .running => true
  | .exited _ => true
  | _ => false

/-- The original process and the child have ended. -/
def Ended (s : State) : Prop := s.original.hasExited = true ∧ s.child.hasExited = true

instance (s : State) : Decidable (Ended s) := inferInstanceAs (Decidable (_ ∧ _))

/-! ### One process after the other -/

/-- On the way to a running daemon. -/
def Pc.onTheWay : Pc → Bool
  | .openFile => true
  | .setLock => true
  | .truncate => true
  | .writePid => true
  | .fork => true
  | .setsid => true
  | .sigaction => true
  | .chdir => true
  | .running => true
  | _ => false

def Alive (s : State) : Prop :=
  s.original.onTheWay = true ∨ s.child.onTheWay = true ∨ s.grandchild.onTheWay = true

instance (s : State) : Decidable (Alive s) := inferInstanceAs (Decidable (_ ∨ _ ∨ _))

/-- The original process leaves with the lock and takes it along. -/
def Leaves (original : Pc) (lock : Option Proc) : Prop :=
  (∃ status, original = .exiting status) ∧ lock = some .original ∨
    (∃ status, original = .exited status) ∧ (lock = none ∨ lock = some .grandchild)

/-- Behind the successful `fcntl`. -/
def Pc.holds : Pc → Bool
  | .truncate => true
  | .writePid => true
  | .running => true
  | _ => false

/-- The calls of the grandchild. -/
def Pc.ofGrandchild : Pc → Bool
  | .unborn => false
  | .fork => false
  | .setsid => false
  | .sigaction => false
  | _ => true

/-- Where the three processes can be together, and who has the lock. -/
inductive Inv : State → Prop
  | opening {o : Pc} : o = .openFile ∨ o = .setLock → Inv ⟨o, .unborn, .unborn, none⟩
  | locked {o : Pc} : o = .truncate ∨ o = .writePid ∨ o = .fork → Inv ⟨o, .unborn, .unborn, some .original⟩
  | stopped {o : Pc} {lock : Option Proc} : o.leaves = true → Inv ⟨o, .unborn, .unborn, lock⟩
  | forked {o c : Pc} {lock : Option Proc} : Leaves o lock → lock ≠ some .grandchild →
      (c = .setsid ∨ c = .sigaction ∨ c = .fork) ∨ c.leaves = true → Inv ⟨o, c, .unborn, lock⟩
  | daemon {o c g : Pc} {lock : Option Proc} : Leaves o lock → c.leaves = true → g.ofGrandchild = true →
      (g.holds = true → lock = some .grandchild) → Inv ⟨o, c, g, lock⟩

theorem checked_eq_some {s t done : State} {e : Event} (hchecked : s.checked e done = some t) :
    e.result = .ok ∧ t = done ∨ e.result = .fails ∧ t = s.goto e.proc (.exiting 1) := by
  rw [State.checked] at hchecked
  cases hresult : e.result with
  | ok =>
      rw [hresult] at hchecked
      exact .inl ⟨rfl, (Option.some.inj hchecked).symm⟩
  | again =>
      rw [hresult] at hchecked
      cases hchecked
  | fails =>
      rw [hresult] at hchecked
      exact .inr ⟨rfl, (Option.some.inj hchecked).symm⟩

theorem setLock_eq_some {s t : State} {e : Event} (hlock : s.setLock e = some t) :
    (e.result = .ok ∧ (s.lock = none ∨ s.lock = some e.proc) ∧
        t = { s.goto e.proc .truncate with lock := some e.proc }) ∨
      (e.result = .again ∧ s.lock ≠ none ∧ s.lock ≠ some e.proc ∧ t = s.goto e.proc .closeFile) ∨
      (e.result = .fails ∧ t = s.goto e.proc (.exiting 1)) := by
  rw [State.setLock] at hlock
  cases hresult : e.result with
  | ok =>
      simp only [hresult, reduceCtorEq, if_false, true_and, State.checked] at hlock
      split at hlock
      · cases hlock
      · next hfree => exact .inl ⟨rfl, by tauto, (Option.some.inj hlock).symm⟩
  | again =>
      rw [if_pos hresult] at hlock
      split at hlock
      · cases hlock
      · next hheld =>
          obtain ⟨hnone, hother⟩ := not_or.mp hheld
          exact .inr (.inl ⟨rfl, hnone, hother, (Option.some.inj hlock).symm⟩)
  | fails =>
      simp only [hresult, reduceCtorEq, if_false, false_and, State.checked] at hlock
      exact .inr (.inr ⟨rfl, (Option.some.inj hlock).symm⟩)

theorem good_of_ok {s : State} {p : Proc} (hpc : s.pc p ≠ .setLock) : Good s ⟨p, .ok⟩ := by
  refine ⟨fun _ => by simp, ?_⟩
  rintro rfl hlock
  exact absurd hlock hpc

theorem good_of_unchecked {s : State} {e : Event} (hpc : (s.pc e.proc).isChecked = false) : Good s e := by
  refine ⟨fun hchecked => absurd (hpc.symm.trans hchecked) Bool.false_ne_true, fun hsame hlock => ?_⟩
  rw [hsame, State.pc, hlock] at hpc
  exact absurd hpc (by decide)

/-- A step that goes well. -/
theorem alive_iff_of_good {s t : State} {e : Event} (halive : Alive t ↔ Alive s) (hgood : Good s e) :
    Alive t ↔ Alive s ∧ Good s e := by
  rw [halive, and_iff_left hgood]

/-- A step that defeats the start. -/
theorem alive_iff_of_bad {s t : State} {e : Event} (hdead : ¬Alive t) (hbad : ¬Good s e) :
    Alive t ↔ Alive s ∧ Good s e :=
  iff_of_false hdead fun h => hbad h.2

theorem not_good_of_fails {s : State} {p : Proc} (hpc : (s.pc p).isChecked = true) : ¬Good s ⟨p, .fails⟩ :=
  fun hgood => hgood.1 hpc rfl

theorem Pc.leaves_iff {pc : Pc} :
    pc.leaves = true ↔ (∃ status, pc = .exiting status) ∨ ∃ status, pc = .exited status := by
  cases pc <;> simp [Pc.leaves]

theorem Leaves.lock_ne_child {o : Pc} {lock : Option Proc} (hleaves : Leaves o lock) : lock ≠ some .child := by
  obtain ⟨-, rfl⟩ | ⟨-, rfl | rfl⟩ := hleaves <;> decide

theorem Leaves.leaves {o : Pc} {lock : Option Proc} (hleaves : Leaves o lock) : o.leaves = true := by
  obtain ⟨⟨status, rfl⟩, -⟩ | ⟨⟨status, rfl⟩, -⟩ := hleaves <;> rfl

/-- A process that leaves no longer counts. -/
theorem alive_iff_of_leaves {o c g : Pc} {lock : Option Proc} (ho : o.leaves = true) :
    Alive ⟨o, c, g, lock⟩ ↔ c.onTheWay = true ∨ g.onTheWay = true := by
  obtain ⟨status, rfl⟩ | ⟨status, rfl⟩ := Pc.leaves_iff.mp ho <;> simp [Alive, Pc.onTheWay]

section
variable {o c g : Pc} {lock : Option Proc} {r : Result} {t : State}

/-- The original process opens the file and takes the lock, which is free. -/
theorem step_opening (ho : o = .openFile ∨ o = .setLock)
    (hstep : step ⟨o, .unborn, .unborn, none⟩ ⟨.original, r⟩ = some t) :
    Inv t ∧ (Alive t ↔ Alive ⟨o, .unborn, .unborn, none⟩ ∧ Good ⟨o, .unborn, .unborn, none⟩ ⟨.original, r⟩) := by
  rcases ho with rfl | rfl
  · obtain ⟨rfl, rfl⟩ | ⟨rfl, rfl⟩ := checked_eq_some hstep
    · exact ⟨.opening (.inr rfl), alive_iff_of_good (by decide) (by decide)⟩
    · exact ⟨.stopped rfl, alive_iff_of_bad (by decide) (not_good_of_fails rfl)⟩
  · obtain ⟨rfl, -, rfl⟩ | ⟨-, hheld, -⟩ | ⟨rfl, rfl⟩ := setLock_eq_some hstep
    · exact ⟨.locked (.inl rfl), alive_iff_of_good (by decide) (by decide)⟩
    · exact absurd rfl hheld
    · exact ⟨.stopped rfl, alive_iff_of_bad (by decide) (not_good_of_fails rfl)⟩

/-- It writes the file and forks. -/
theorem step_locked (ho : o = .truncate ∨ o = .writePid ∨ o = .fork)
    (hstep : step ⟨o, .unborn, .unborn, some .original⟩ ⟨.original, r⟩ = some t) :
    Inv t ∧ (Alive t ↔ Alive ⟨o, .unborn, .unborn, some .original⟩ ∧
      Good ⟨o, .unborn, .unborn, some .original⟩ ⟨.original, r⟩) := by
  rcases ho with rfl | rfl | rfl
  · obtain rfl := Option.some.inj hstep
    have halive : Alive ⟨.writePid, .unborn, .unborn, some .original⟩ := .inl rfl
    exact ⟨.locked (.inr (.inl rfl)), alive_iff_of_good (iff_of_true halive (.inl rfl)) (good_of_unchecked rfl)⟩
  · obtain rfl := Option.some.inj hstep
    have halive : Alive ⟨.fork, .unborn, .unborn, some .original⟩ := .inl rfl
    exact ⟨.locked (.inr (.inr rfl)), alive_iff_of_good (iff_of_true halive (.inl rfl)) (good_of_unchecked rfl)⟩
  · obtain ⟨rfl, rfl⟩ | ⟨rfl, rfl⟩ := checked_eq_some hstep
    · have hleaves : Leaves (.exiting 1) (some .original) := .inl ⟨⟨1, rfl⟩, rfl⟩
      exact ⟨.forked hleaves (by decide) (.inl (.inl rfl)), alive_iff_of_good (by decide) (by decide)⟩
    · exact ⟨.stopped rfl, alive_iff_of_bad (by decide) (not_good_of_fails rfl)⟩

/-- All the original process still does once it leaves is to end, and then its lock is free. -/
theorem step_original_leaves (hleaves : Leaves o lock) (hstep : step ⟨o, c, g, lock⟩ ⟨.original, r⟩ = some t) :
    lock = some .original ∧ ∃ status, o = .exiting status ∧ t = ⟨.exited status, c, g, none⟩ := by
  obtain ⟨⟨status, rfl⟩, rfl⟩ | ⟨⟨status, rfl⟩, -⟩ := hleaves
  · exact ⟨rfl, status, rfl, (Option.some.inj hstep).symm⟩
  · cases hstep

theorem step_child_leaves (hleaves : c.leaves = true) (hlock : lock ≠ some .child)
    (hstep : step ⟨o, c, g, lock⟩ ⟨.child, r⟩ = some t) :
    ∃ status, c = .exiting status ∧ t = ⟨o, .exited status, g, lock⟩ := by
  obtain ⟨status, rfl⟩ | ⟨status, rfl⟩ := Pc.leaves_iff.mp hleaves
  · refine ⟨status, rfl, ?_⟩
    obtain rfl := Option.some.inj hstep
    simp [State.release, State.goto, hlock]
  · cases hstep

/-- The child detaches itself and forks the grandchild. -/
theorem step_forked (hleaves : Leaves o lock) (hlock : lock ≠ some .grandchild)
    (hc : c = .setsid ∨ c = .sigaction ∨ c = .fork) (hstep : step ⟨o, c, .unborn, lock⟩ ⟨.child, r⟩ = some t) :
    Inv t ∧ (Alive t ↔ Alive ⟨o, c, .unborn, lock⟩ ∧ Good ⟨o, c, .unborn, lock⟩ ⟨.child, r⟩) := by
  have hdead : ¬Alive ⟨o, .exiting 1, .unborn, lock⟩ := by
    rw [alive_iff_of_leaves hleaves.leaves]
    decide
  have hfails : Inv ⟨o, .exiting 1, .unborn, lock⟩ := .forked hleaves hlock (.inr rfl)
  rcases hc with rfl | rfl | rfl
  · obtain ⟨rfl, rfl⟩ | ⟨rfl, rfl⟩ := checked_eq_some hstep
    · have halive : Alive ⟨o, .sigaction, .unborn, lock⟩ := .inr (.inl rfl)
      refine ⟨.forked hleaves hlock (.inl (.inr (.inl rfl))), ?_⟩
      exact alive_iff_of_good (iff_of_true halive (.inr (.inl rfl))) (good_of_ok (by simp [State.pc]))
    · exact ⟨hfails, alive_iff_of_bad hdead (not_good_of_fails rfl)⟩
  · obtain ⟨rfl, rfl⟩ | ⟨rfl, rfl⟩ := checked_eq_some hstep
    · have halive : Alive ⟨o, .fork, .unborn, lock⟩ := .inr (.inl rfl)
      refine ⟨.forked hleaves hlock (.inl (.inr (.inr rfl))), ?_⟩
      exact alive_iff_of_good (iff_of_true halive (.inr (.inl rfl))) (good_of_ok (by simp [State.pc]))
    · exact ⟨hfails, alive_iff_of_bad hdead (not_good_of_fails rfl)⟩
  · obtain ⟨rfl, rfl⟩ | ⟨rfl, rfl⟩ := checked_eq_some hstep
    · have halive : Alive ⟨o, .exiting 1, .chdir, lock⟩ := .inr (.inr rfl)
      refine ⟨.daemon hleaves rfl rfl (fun hholds => absurd hholds Bool.false_ne_true), ?_⟩
      exact alive_iff_of_good (iff_of_true halive (.inr (.inl rfl))) (good_of_ok (by simp [State.pc]))
    · exact ⟨hfails, alive_iff_of_bad hdead (not_good_of_fails rfl)⟩

theorem alive_iff_grandchild (ho : o.leaves = true) (hc : c.leaves = true) :
    Alive ⟨o, c, g, lock⟩ ↔ g.onTheWay = true := by
  rw [alive_iff_of_leaves ho]
  obtain ⟨status, rfl⟩ | ⟨status, rfl⟩ := Pc.leaves_iff.mp hc <;> simp [Pc.onTheWay]

/-- A step of the grandchild that leaves it on its way, or off it. -/
theorem daemon_goes {g' : Pc} {lock' : Option Proc} {e : Event} (hleaves : Leaves o lock) (hleaves' : Leaves o lock')
    (hc : c.leaves = true) (hg' : g'.ofGrandchild = true) (hholds' : g'.holds = true → lock' = some .grandchild)
    (hsame : g'.onTheWay = g.onTheWay) (hgood : Good ⟨o, c, g, lock⟩ e) :
    Inv ⟨o, c, g', lock'⟩ ∧ (Alive ⟨o, c, g', lock'⟩ ↔ Alive ⟨o, c, g, lock⟩ ∧ Good ⟨o, c, g, lock⟩ e) := by
  refine ⟨.daemon hleaves' hc hg' hholds', alive_iff_of_good ?_ hgood⟩
  rw [alive_iff_grandchild hleaves'.leaves hc, alive_iff_grandchild hleaves.leaves hc, hsame]

/-- A step of the grandchild that defeats the start. -/
theorem daemon_stops {g' : Pc} {e : Event} (hleaves : Leaves o lock) (hc : c.leaves = true)
    (hg' : g'.ofGrandchild = true) (hoff : g'.onTheWay = false) (hbad : ¬Good ⟨o, c, g, lock⟩ e) :
    Inv ⟨o, c, g', lock⟩ ∧ (Alive ⟨o, c, g', lock⟩ ↔ Alive ⟨o, c, g, lock⟩ ∧ Good ⟨o, c, g, lock⟩ e) := by
  have hfree : g'.holds = false := by cases g' <;> first | rfl | cases hoff
  refine ⟨.daemon hleaves hc hg' fun hholds => absurd (hfree.symm.trans hholds) Bool.false_ne_true, ?_⟩
  apply alive_iff_of_bad _ hbad
  rw [alive_iff_grandchild hleaves.leaves hc, hoff]
  exact Bool.false_ne_true

/-- The grandchild gets the lock exactly when the original process has ended. -/
theorem step_setLock (hleaves : Leaves o lock) (hc : c.leaves = true)
    (hstep : step ⟨o, c, .setLock, lock⟩ ⟨.grandchild, r⟩ = some t) :
    Inv t ∧ (Alive t ↔ Alive ⟨o, c, .setLock, lock⟩ ∧ Good ⟨o, c, .setLock, lock⟩ ⟨.grandchild, r⟩) := by
  obtain ⟨rfl, hfree, rfl⟩ | ⟨rfl, hnone, hother, rfl⟩ | ⟨rfl, rfl⟩ := setLock_eq_some hstep
  · obtain ⟨-, rfl⟩ | ⟨⟨status, rfl⟩, hlock⟩ := hleaves
    · rcases hfree with hnone | hown
      · cases hnone
      · cases hown
    · have hlocked : Leaves (.exited status) (some .grandchild) := .inr ⟨⟨status, rfl⟩, .inr rfl⟩
      exact daemon_goes (.inr ⟨⟨status, rfl⟩, hlock⟩) hlocked hc rfl (fun _ => rfl) rfl ⟨by simp, fun _ _ => rfl⟩
  · apply daemon_stops hleaves hc rfl rfl
    intro hgood
    obtain ⟨⟨status, rfl⟩, -⟩ | ⟨-, hlock⟩ := hleaves
    · exact absurd (hgood.2 rfl rfl) Bool.false_ne_true
    · exact hlock.elim hnone hother
  · exact daemon_stops hleaves hc rfl rfl (not_good_of_fails rfl)

/-- A process that closes the file or ends gives up no lock but its own. -/
theorem Leaves.release (hleaves : Leaves o lock) :
    Leaves o (if lock = some .grandchild then none else lock) := by
  split
  · next hlock =>
      obtain ⟨-, rfl⟩ | ⟨hexited, -⟩ := hleaves
      · cases hlock
      · exact .inr ⟨hexited, .inl rfl⟩
  · exact hleaves

theorem step_grandchild (hleaves : Leaves o lock) (hc : c.leaves = true) (hg : g.ofGrandchild = true)
    (hholds : g.holds = true → lock = some .grandchild) (hstep : step ⟨o, c, g, lock⟩ ⟨.grandchild, r⟩ = some t) :
    Inv t ∧ (Alive t ↔ Alive ⟨o, c, g, lock⟩ ∧ Good ⟨o, c, g, lock⟩ ⟨.grandchild, r⟩) := by
  have hfree {lock : Option Proc} : false = true → lock = some .grandchild := fun h => absurd h Bool.false_ne_true
  cases g with
  | unborn => cases hg
  | fork => cases hg
  | setsid => cases hg
  | sigaction => cases hg
  | running => cases hstep
  | exited status => cases hstep
  | chdir =>
      obtain ⟨rfl, rfl⟩ | ⟨rfl, rfl⟩ := checked_eq_some hstep
      · exact daemon_goes hleaves hleaves hc rfl hfree rfl (good_of_ok (by simp [State.pc]))
      · exact daemon_stops hleaves hc rfl rfl (not_good_of_fails rfl)
  | openFile =>
      obtain ⟨rfl, rfl⟩ | ⟨rfl, rfl⟩ := checked_eq_some hstep
      · exact daemon_goes hleaves hleaves hc rfl hfree rfl (good_of_ok (by simp [State.pc]))
      · exact daemon_stops hleaves hc rfl rfl (not_good_of_fails rfl)
  | setLock => exact step_setLock hleaves hc hstep
  | closeFile =>
      obtain rfl := Option.some.inj hstep
      exact daemon_goes hleaves hleaves.release hc rfl hfree rfl (good_of_unchecked rfl)
  | truncate =>
      obtain rfl := Option.some.inj hstep
      exact daemon_goes hleaves hleaves hc rfl (fun _ => hholds rfl) rfl (good_of_unchecked rfl)
  | writePid =>
      obtain rfl := Option.some.inj hstep
      exact daemon_goes hleaves hleaves hc rfl (fun _ => hholds rfl) rfl (good_of_unchecked rfl)
  | exiting status =>
      obtain rfl := Option.some.inj hstep
      exact daemon_goes hleaves hleaves.release hc rfl hfree rfl (good_of_unchecked rfl)

end

/-- A step leaves the start alive exactly when it was alive and the step goes well. -/
theorem step_inv {s t : State} {e : Event} (hinv : Inv s) (hstep : step s e = some t) :
    Inv t ∧ (Alive t ↔ Alive s ∧ Good s e) := by
  obtain ⟨p, r⟩ := e
  cases hinv with
  | opening ho =>
      cases p with
      | original => exact step_opening ho hstep
      | child => cases hstep
      | grandchild => cases hstep
  | locked ho =>
      cases p with
      | original => exact step_locked ho hstep
      | child => cases hstep
      | grandchild => cases hstep
  | stopped ho =>
      cases p with
      | original =>
          obtain ⟨status, rfl⟩ | ⟨status, rfl⟩ := Pc.leaves_iff.mp ho
          · obtain rfl := Option.some.inj hstep
            refine ⟨.stopped rfl, alive_iff_of_good ?_ (good_of_unchecked rfl)⟩
            exact (alive_iff_of_leaves rfl).trans (alive_iff_of_leaves ho).symm
          · cases hstep
      | child => cases hstep
      | grandchild => cases hstep
  | forked hleaves hlock hc =>
      cases p with
      | original =>
          obtain ⟨rfl, status, rfl, rfl⟩ := step_original_leaves hleaves hstep
          have hleft : Leaves (.exited status) none := .inr ⟨⟨status, rfl⟩, .inl rfl⟩
          refine ⟨.forked hleft (by decide) hc, alive_iff_of_good ?_ (good_of_unchecked rfl)⟩
          exact (alive_iff_of_leaves rfl).trans (alive_iff_of_leaves hleaves.leaves).symm
      | child =>
          rcases hc with hpc | hleft
          · exact step_forked hleaves hlock hpc hstep
          · obtain ⟨status, rfl, rfl⟩ := step_child_leaves hleft hleaves.lock_ne_child hstep
            refine ⟨.forked hleaves hlock (.inr rfl), alive_iff_of_good ?_ (good_of_unchecked rfl)⟩
            rw [alive_iff_grandchild hleaves.leaves rfl, alive_iff_grandchild hleaves.leaves hleft]
      | grandchild => cases hstep
  | daemon hleaves hc hg hholds =>
      cases p with
      | original =>
          obtain ⟨rfl, status, rfl, rfl⟩ := step_original_leaves hleaves hstep
          have hleft : Leaves (.exited status) none := .inr ⟨⟨status, rfl⟩, .inl rfl⟩
          have hholds' : _ = true → (none : Option Proc) = some .grandchild := fun h => absurd (hholds h) (by decide)
          refine ⟨.daemon hleft hc hg hholds', alive_iff_of_good ?_ (good_of_unchecked rfl)⟩
          exact (alive_iff_of_leaves rfl).trans (alive_iff_of_leaves hleaves.leaves).symm
      | child =>
          obtain ⟨status, rfl, rfl⟩ := step_child_leaves hc hleaves.lock_ne_child hstep
          refine ⟨.daemon hleaves rfl hg hholds, alive_iff_of_good ?_ (good_of_unchecked rfl)⟩
          rw [alive_iff_grandchild hleaves.leaves rfl, alive_iff_grandchild hleaves.leaves hc]
      | grandchild => exact step_grandchild hleaves hc hg hholds hstep

theorem Pc.leaves_of_hasExited {pc : Pc} (hexited : pc.hasExited = true) : pc.leaves = true := by
  cases pc <;> first | rfl | cases hexited

theorem Pc.running_of_atRest {pc : Pc} (hrest : pc.atRest = true) (hway : pc.onTheWay = true) : pc = .running := by
  cases pc <;> simp [Pc.atRest, Pc.onTheWay] at hrest hway ⊢

theorem alive_iff_of_ended {s : State} (hended : Ended s) : Alive s ↔ s.grandchild.onTheWay = true :=
  alive_iff_grandchild (Pc.leaves_of_hasExited hended.1) (Pc.leaves_of_hasExited hended.2)

theorem daemonUp_iff_onTheWay {s : State} (hinv : Inv s) (hended : Ended s) (hrest : s.grandchild.atRest = true) :
    DaemonUp s ↔ s.grandchild.onTheWay = true := by
  constructor
  · rintro ⟨hrunning, -⟩
    rw [hrunning]
    rfl
  · intro hway
    have hrunning : s.grandchild = .running := Pc.running_of_atRest hrest hway
    refine ⟨hrunning, ?_⟩
    cases hinv with
    | opening hpc => cases hrunning
    | locked hpc => cases hrunning
    | stopped hleaves => cases hrunning
    | forked hleaves hlock hpc => cases hrunning
    | daemon hleaves hc hg hholds =>
        obtain rfl := hrunning
        exact hholds rfl

/-- Whatever the order of the three processes and whatever fails: once the original process and the child have
ended and the grandchild is through its start, it runs with the lock exactly when no checked call has failed and
it asked for the lock after the original process had ended; and until then it is on its way exactly when this
has been so. -/
theorem daemon_up_iff (es : List Event) (s : State) (hrun : run step start es = some s) (hended : Ended s) :
    (s.grandchild.atRest = true → (DaemonUp s ↔ Along step Good start es)) ∧
      (s.grandchild.atRest = false → (s.grandchild.onTheWay = true ↔ Along step Good start es)) := by
  have hstart : Inv start := .opening (.inl rfl)
  have hinv : Inv s := run_invariant (fun s e t hinv hstep => (step_inv hinv hstep).1) hrun hstart
  have hway : s.grandchild.onTheWay = true ↔ Along step Good start es := by
    rw [← alive_iff_of_ended hended, run_iff_along (fun s e t hinv hstep => step_inv hinv hstep) hrun hstart]
    exact and_iff_right (.inl rfl)
  exact ⟨fun hrest => (daemonUp_iff_onTheWay hinv hended hrest).trans hway, fun _ => hway⟩

/-- The steps up to the first call of the grandchild, all of them successful. -/
private def twoForks : List Event :=
  List.replicate 5 ⟨.original, .ok⟩ ++ List.replicate 3 ⟨.child, .ok⟩

theorem daemon_up_after_exit : DaemonUp ⟨.exited 1, .exited 1, .running, some .grandchild⟩ :=
  ((daemon_up_iff (twoForks ++ ⟨.original, .ok⟩ :: ⟨.child, .ok⟩ :: List.replicate 5 ⟨.grandchild, .ok⟩) _
    (by decide) (by decide)).1 rfl).mpr (by decide)

/-- No call fails, but the grandchild asks for the lock while the original process is still in `exit`. -/
theorem daemon_defeats_itself :
    ¬∀ es s, (∀ e ∈ es, e.result ≠ .fails) → run step start es = some s → Ended s →
      s.grandchild.atRest = true → DaemonUp s := by
  intro hclaim
  have hup := hclaim (twoForks ++ [⟨.grandchild, .ok⟩, ⟨.grandchild, .ok⟩, ⟨.grandchild, .again⟩, ⟨.original, .ok⟩,
    ⟨.child, .ok⟩, ⟨.grandchild, .ok⟩, ⟨.grandchild, .ok⟩]) ⟨.exited 1, .exited 1, .exited 1, none⟩
    (by decide) (by decide) (by decide) rfl
  exact absurd hup (by decide)

end RemoteCtrl.Daemon
