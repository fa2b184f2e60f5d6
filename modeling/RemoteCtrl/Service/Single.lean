import RemoteCtrl.Service.Slot

/-!
# The service as a single seat

What the loop is for: one seat, which is granted to a client when it is free, is kept until the client's process
has ended and has been waited for, and is free again after that. `Seat` is this machine, with one transition
more than it should have: a process that is waited for before its number is noted leaves the seat `lost`, and
nothing leads out of there. The loop refines the machine step by step (`seat_refines`), so what the
machine can do decides what the service does over whole runs: the seat is lost exactly when the run has such a
step (`lost_iff`), and from then on no client is served (`lost_for_ever`).
-/

namespace RemoteCtrl.Service

open CProgram CProgram.Transition

/-! ### The seat -/

inductive Seat
  | free
  | serving (p : Int)
  | ended (p : Int)
  | lost
  deriving DecidableEq, Repr

inductive SeatEvent
  | grant (p : Int)
  | exit
  | wait
  /-- The process is waited for before its number is noted. -/
  | forget
  | idle
  deriving DecidableEq, Repr

def Seat.step : Seat → SeatEvent → Option Seat
  | seat, .idle => some seat
  | .free, .grant p => some (.serving p)
  | .serving p, .exit => some (.ended p)
  | .ended _, .wait => some .free
  | .ended _, .forget => some .lost
  | _, _ => none

theorem Seat.step_lost {e : SeatEvent} {seat : Seat} (hstep : Seat.step .lost e = some seat) : seat = .lost := by
  cases e with
  | idle => exact (Option.some.inj hstep).symm
  | _ => cases hstep

/-! ### The seat of a state -/

def State.seat (s : State) : Seat :=
  if s.slot = -1 then .free
  else if s.slot ∈ s.kids.alive then .serving s.slot
  else if s.slot ∈ s.kids.zombies then .ended s.slot
  else .lost

def label (s : State) : Event → SeatEvent
  | .run (.fork _ (some p)) => .grant p
  | .childExit _ => .exit
  | .waitpid (.child _) => if s.pc.granting then .forget else .wait
  | _ => .idle

/-- `_pid` is clear while the slot is granted, and a child not waited for owns the slot. -/
structure Sole (s : State) : Prop where
  clear : s.pc.granting = true → s.pid = -1
  owner : ∀ k, s.kids.Has k → k = s.slot

theorem Sole.start : Sole start := ⟨fun _ => rfl, fun _ hk => hk.elim (absurd · List.not_mem_nil) (absurd · List.not_mem_nil)⟩

section
variable {s : State} (hinv : Sole s)

include hinv

theorem Sole.none_of_free (hfree : s.slot = -1) (k : Int) : ¬s.kids.Has k := by
  intro hk
  have hpos := s.kids.pos k (List.mem_append.mpr hk)
  have howner := hinv.owner k hk
  omega

theorem Sole.seat_of_alive {p : Int} (hp : p ∈ s.kids.alive) : s.slot = p ∧ s.seat = .serving p := by
  have howner : p = s.slot := hinv.owner p (.inl hp)
  have hpos := s.kids.pos p (List.mem_append_left _ hp)
  refine ⟨howner.symm, ?_⟩
  rw [State.seat, if_neg (by omega), ← howner, if_pos hp]

theorem Sole.seat_of_zombie {p : Int} (hp : p ∈ s.kids.zombies) : s.slot = p ∧ s.seat = .ended p := by
  have howner : p = s.slot := hinv.owner p (.inr hp)
  have hpos := s.kids.pos p (List.mem_append_right _ hp)
  refine ⟨howner.symm, ?_⟩
  rw [State.seat, if_neg (by omega), ← howner, if_neg (Children.not_alive_of_zombie hp), if_pos hp]

end

theorem seat_of_free {s : State} (hfree : s.slot = -1) : s.seat = .free := if_pos hfree

theorem seat_of_gone {s : State} {p : Int} (hslot : s.slot = p) (hpos : 0 < p) (hgone : ¬s.kids.Has p) :
    s.seat = .lost := by
  rw [State.seat, hslot, if_neg (by omega), if_neg fun h => hgone (.inl h), if_neg fun h => hgone (.inr h)]

theorem seat_congr {s t : State} (hslot : t.slot = s.slot) (hkids : t.kids = s.kids) : t.seat = s.seat := by
  rw [State.seat, State.seat, hslot, hkids]

/-! ### The steps of the loop on the seat -/

theorem slot_exec {s : State} {stmt : Stmt} (hpc : s.pc = stmt.pc)
    (hfork : ∀ c p, stmt ≠ .fork c (some p)) :
    (stmt.exec s).slot = s.slot ∧ (stmt.exec s).kids = s.kids
      ∧ ((stmt.exec s).pc.granting = true → (stmt.exec s).pid = -1) := by
  cases hslotted : stmt.slotted with
  | false =>
      obtain ⟨⟨hpid, hkids⟩, hafter, hbefore⟩ := exec_of_not_slotted hslotted hpc
      refine ⟨?_, hkids, fun h => absurd h (by rw [hafter]; decide)⟩
      rw [slot_of_not_granting hafter, hpid, slot_of_not_granting hbefore]
  | true =>
      cases stmt with
      | testPid c =>
          have hslot : s.slot = s.pid := by rw [State.slot, hpc]; rfl
          by_cases hfree : s.pid = -1
          · rw [Stmt.exec, if_pos hfree]
            exact ⟨hslot.symm, rfl, fun _ => hfree⟩
          · rw [Stmt.exec, if_neg hfree]
            exact ⟨hslot.symm, rfl, fun h => absurd h Bool.false_ne_true⟩
      | fork c pid =>
          cases pid with
          | none =>
              have hslot : s.slot = s.pid := by rw [State.slot, hpc]; rfl
              exact ⟨hslot.symm, rfl, fun h => absurd h Bool.false_ne_true⟩
          | some p => exact absurd rfl (hfork c p)
      | assignPid c p =>
          have hslot : s.slot = p := by rw [State.slot, hpc]; rfl
          exact ⟨hslot.symm, rfl, fun h => absurd h Bool.false_ne_true⟩
      | _ => simp [Stmt.slotted] at hslotted

/-- The child just forked owns the slot, and the slot was free before. -/
theorem slot_fork {s : State} {c : Nat} {p : Int} (hinv : Sole s) (hpc : s.pc = .fork c) :
    s.slot = -1 ∧ ((Stmt.fork c (some p)).exec s).slot = p := by
  have hslot : s.slot = s.pid := by rw [State.slot, hpc]; rfl
  exact ⟨hslot.trans (hinv.clear (by rw [hpc]; rfl)), rfl⟩

theorem Children.zombies_fork {kids : Children} {p : Int} (hfresh : kids.Fresh p) :
    (kids.fork p).zombies = kids.zombies := by
  rw [fork, dif_pos hfresh]

theorem Children.zombies_exit {kids : Children} {p : Int} (hp : p ∈ kids.alive) :
    (kids.exit p).zombies = p :: kids.zombies := by
  rw [exit, dif_pos hp]

theorem Children.has_of_wait {kids : Children} {r : WaitResult} {k : Int} (hk : (kids.wait r).Has k) : kids.Has k := by
  cases r with
  | child p => exact hk.imp id List.mem_of_mem_erase
  | _ => exact hk

theorem Children.not_has_wait {kids : Children} {p : Int} (hp : p ∈ kids.zombies) : ¬(kids.wait (.child p)).Has p := by
  rintro (halive | hzombie)
  · exact Children.not_alive_of_zombie hp halive
  · have hnodup : kids.zombies.Nodup := (List.nodup_append.mp kids.nodup).2.1
    exact hnodup.not_mem_erase hzombie

theorem Children.has_exit_iff {kids : Children} {p k : Int} (hp : p ∈ kids.alive) :
    (kids.exit p).Has k ↔ kids.Has k := by
  rw [Children.Has, Children.Has, ← List.mem_append, ← List.mem_append, Children.exit, dif_pos hp]
  exact (Children.exit_perm hp).mem_iff.symm

theorem Sole.step {s t : State} {e : Event} (hinv : Sole s) (hstep : step s e = some t) : Sole t := by
  obtain ⟨henabled, rfl⟩ := step_eq_some.mp hstep
  cases e with
  | run stmt =>
      obtain ⟨-, hpc, hpossible⟩ := henabled
      by_cases hfork : ∃ c p, stmt = .fork c (some p)
      · obtain ⟨c, p, rfl⟩ := hfork
        obtain ⟨hfree, hslot⟩ := slot_fork (p := p) hinv hpc
        refine ⟨fun _ => hinv.clear (by rw [hpc]; rfl), fun k hk => ?_⟩
        rw [next, hslot]
        have halive : (s.kids.fork p).alive = p :: s.kids.alive := Children.alive_fork hpossible
        have hzombies : (s.kids.fork p).zombies = s.kids.zombies := Children.zombies_fork hpossible
        -- nobody was there before the fork
        rcases hk with hk | hk
        · rcases List.mem_cons.mp (halive ▸ hk) with rfl | hold
          · rfl
          · exact absurd (.inl hold) (hinv.none_of_free hfree k)
        · exact absurd (.inr (hzombies ▸ hk)) (hinv.none_of_free hfree k)
      · obtain ⟨hslot, hkids, hclear⟩ := slot_exec hpc fun c p h => hfork ⟨c, p, h⟩
        exact ⟨hclear, fun k hk => (hinv.owner k (hkids ▸ hk)).trans hslot.symm⟩
  | peerReset c => exact ⟨hinv.clear, hinv.owner⟩
  | childExit p => exact ⟨hinv.clear, fun k hk => hinv.owner k ((Children.has_exit_iff henabled).mp hk)⟩
  | sigchld => exact ⟨hinv.clear, hinv.owner⟩
  | handler => exact ⟨hinv.clear, hinv.owner⟩
  | waitpid r =>
      obtain ⟨hpid, hslot⟩ := slot_reap hinv.clear (s.handler.getD false) r
      refine ⟨fun h => ?_, fun k hk => ?_⟩
      · rw [next, hpid, hinv.clear h, ite_self]
      · have hbefore : k = s.slot := hinv.owner k (Children.has_of_wait hk)
        rw [next, hslot]
        split
        · next hreaped =>
            obtain ⟨-, rfl⟩ := hreaped
            exact absurd (hbefore ▸ hk) (Children.not_has_wait henabled.2)
        · exact hbefore

theorem seat_step {s t : State} {e : Event} (hinv : Sole s) (hstep : step s e = some t) :
    Seat.step s.seat (label s e) = some t.seat := by
  have hnext := hinv.step hstep
  obtain ⟨henabled, rfl⟩ := step_eq_some.mp hstep
  cases e with
  | run stmt =>
      obtain ⟨-, hpc, hpossible⟩ := henabled
      by_cases hfork : ∃ c p, stmt = .fork c (some p)
      · obtain ⟨c, p, rfl⟩ := hfork
        have hnew : p ∈ (next s (.run (.fork c (some p)))).kids.alive := by
          show p ∈ (s.kids.fork p).alive
          rw [Children.alive_fork hpossible]
          exact List.mem_cons_self
        rw [seat_of_free (slot_fork (p := p) hinv hpc).1, (hnext.seat_of_alive hnew).2]
        rfl
      · obtain ⟨hslot, hkids, -⟩ := slot_exec hpc fun c p h => hfork ⟨c, p, h⟩
        have hsame : (next s (.run stmt)).seat = s.seat := seat_congr hslot hkids
        have hidle : label s (.run stmt) = .idle := by
          cases stmt with
          | fork c pid =>
              cases pid with
              | none => rfl
              | some p => exact absurd ⟨c, p, rfl⟩ hfork
          | _ => rfl
        rw [hidle, hsame]
        rfl
  | peerReset c => rfl
  | childExit p =>
      have hended : p ∈ (next s (.childExit p)).kids.zombies := by
        show p ∈ (s.kids.exit p).zombies
        rw [Children.zombies_exit henabled]
        exact List.mem_cons_self
      rw [(hinv.seat_of_alive henabled).2, (hnext.seat_of_zombie hended).2]
      rfl
  | sigchld => rfl
  | handler => rfl
  | waitpid r =>
      obtain ⟨-, hslot⟩ := slot_reap hinv.clear (s.handler.getD false) r
      cases r with
      | running =>
          have hsame : (next s (.waitpid .running)).seat = s.seat :=
            seat_congr (hslot.trans (if_neg (by simp))) rfl
          rw [hsame]
          rfl
      | error errno =>
          have hsame : (next s (.waitpid (.error errno))).seat = s.seat :=
            seat_congr (hslot.trans (if_neg (by simp))) rfl
          rw [hsame]
          rfl
      | child p =>
          obtain ⟨howner, hended⟩ := hinv.seat_of_zombie henabled.2
          rw [howner] at hslot
          rw [hended, label]
          cases hgranting : s.pc.granting with
          | false =>
              have hfree : (next s (.waitpid (.child p))).slot = -1 := hslot.trans (if_pos ⟨hgranting, rfl⟩)
              rw [seat_of_free hfree]
              rfl
          | true =>
              have hkept : (next s (.waitpid (.child p))).slot = p :=
                hslot.trans (if_neg fun h => Bool.noConfusion (hgranting.symm.trans h.1))
              rw [seat_of_gone hkept (s.kids.pos p (List.mem_append_right _ henabled.2))
                (Children.not_has_wait henabled.2)]
              rfl

/-! ### Runs of the loop -/

theorem Sole.of_reaches {s : State} (hreach : Reaches Service.step Service.start s) : Sole s :=
  hreach.invariant (fun _ _ _ hinv hstep => hinv.step hstep) .start

/-- The handler has been told of every child that has ended. -/
def Told (s : State) : Prop := s.handler = none → s.sigchld = false → s.kids.zombies = []

theorem exec_frame {s : State} (stmt : Stmt) (hpossible : stmt.Possible s) :
    (stmt.exec s).handler = s.handler ∧ (stmt.exec s).sigchld = s.sigchld
      ∧ (stmt.exec s).kids.zombies = s.kids.zombies := by
  cases stmt with
  | select ready => cases ready <;> exact ⟨rfl, rfl, rfl⟩
  | accept tfd => cases tfd <;> exact ⟨rfl, rfl, rfl⟩
  | testPid c =>
      rw [Stmt.exec]
      split <;> exact ⟨rfl, rfl, rfl⟩
  | fork c pid =>
      cases pid with
      | none => exact ⟨rfl, rfl, rfl⟩
      | some p => exact ⟨rfl, rfl, Children.zombies_fork hpossible⟩
  | sendHead c outcome => cases outcome <;> exact ⟨rfl, rfl, rfl⟩
  | sendBody c outcome => cases outcome <;> exact ⟨rfl, rfl, rfl⟩
  | recvfrom i => cases i <;> exact ⟨rfl, rfl, rfl⟩
  | _ => exact ⟨rfl, rfl, rfl⟩

theorem Sole.zombies_of_mem {s : State} (hinv : Sole s) {p : Int} (hp : p ∈ s.kids.zombies) : s.kids.zombies = [p] := by
  have hnodup : s.kids.zombies.Nodup := (List.nodup_append.mp s.kids.nodup).2.1
  have hall : ∀ k ∈ s.kids.zombies, k = p := fun k hk => (hinv.owner k (.inr hk)).trans (hinv.owner p (.inr hp)).symm
  have hle : s.kids.zombies.length ≤ 1 := by
    rw [List.eq_replicate_of_mem hall] at hnodup
    exact List.nodup_replicate.mp hnodup
  obtain ⟨k, hk⟩ := List.length_eq_one_iff.mp (Nat.le_antisymm hle (List.length_pos_of_mem hp))
  rw [hk, List.mem_singleton] at hp
  rw [hk, hp]

/-- A turn after which the handler returns leaves nobody behind. -/
theorem Sole.zombies_of_returns {s : State} (hinv : Sole s) {one : Bool} {r : WaitResult} (hmay : s.kids.MayReturn r)
    (hreturns : (waitTurn one s.pid r).1 = none) : (s.kids.wait r).zombies = [] := by
  cases r with
  | running => exact hmay.1
  | child p =>
      show s.kids.zombies.erase p = []
      rw [hinv.zombies_of_mem hmay, List.erase_cons_head]
  | error errno =>
      cases errno with
      | EINTR => cases hreturns
      | ECHILD => exact hmay.1
      | EAGAIN => exact hmay.elim
      | other => exact hmay.elim

theorem Told.step {s t : State} {e : Event} (hinv : Told s) (hsole : Sole s) (hstep : step s e = some t) : Told t := by
  obtain ⟨henabled, rfl⟩ := step_eq_some.mp hstep
  cases e with
  | run stmt =>
      obtain ⟨hhandler, hsigchld, hzombies⟩ := exec_frame stmt henabled.2.2
      intro hnone hfalse
      rw [next, hzombies]
      exact hinv (hhandler ▸ hnone) (hsigchld ▸ hfalse)
  | peerReset c => exact hinv
  | childExit p => exact fun _ hfalse => Bool.noConfusion hfalse
  | sigchld => exact fun _ hfalse => Bool.noConfusion hfalse
  | handler =>
      intro hnone
      cases hnone
  | waitpid r => exact fun hnone _ => hsole.zombies_of_returns henabled.2 hnone

/-- **At most one child is left to wait for**, and none that has ended once the handler has nothing to do. -/
theorem one_child_to_wait_for {s : State} (hreach : Reaches step start s) :
    (s.kids.alive ++ s.kids.zombies).length ≤ 1
      ∧ (s.handler = none → s.sigchld = false → s.kids.zombies = []) := by
  have hsole := Sole.of_reaches hreach
  have hkeeps (s : State) (e : Event) (t : State) (hinv : Sole s ∧ Told s) (hstep : step s e = some t) :
      Sole t ∧ Told t := ⟨hinv.1.step hstep, hinv.2.step hinv.1 hstep⟩
  have htold : Sole s ∧ Told s := hreach.invariant hkeeps ⟨.start, fun _ _ => rfl⟩
  have hnodup := s.kids.nodup
  rw [List.eq_replicate_of_mem fun k hk => hsole.owner k (List.mem_append.mp hk)] at hnodup
  exact ⟨List.nodup_replicate.mp hnodup, htold.2⟩

theorem one_child_to_wait_for_served : ∃ s, run step start served = some s ∧
    (s.kids.alive ++ s.kids.zombies).length ≤ 1 ∧ s.kids.zombies = [] := by
  refine ⟨_, rfl, ?_⟩
  obtain ⟨hone, hreaped⟩ := one_child_to_wait_for ⟨served, rfl⟩
  exact ⟨hone, hreaped rfl rfl⟩

/-! ### The lost seat -/

theorem Seat.lost_step_iff {seat seat' : Seat} {e : SeatEvent} (hstep : Seat.step seat e = some seat') :
    seat' ≠ .lost ↔ seat ≠ .lost ∧ e ≠ .forget := by
  cases seat <;> cases e <;> cases hstep <;> simp

theorem assignedFirst_iff {s : State} {e : Event} (hinv : Sole s) (henabled : Enabled s e) :
    AssignedFirst s e ↔ label s e ≠ .forget := by
  cases e with
  | waitpid r =>
      cases r with
      | child p =>
          have howner := (hinv.seat_of_zombie henabled.2).1
          have hpos := s.kids.pos p (List.mem_append_right _ henabled.2)
          cases hgranting : s.pc.granting with
          | false =>
              refine iff_of_true (fun q hq => ?_) ?_
              · rw [forked_of_not_granting hgranting] at hq
                cases hq
              · rw [label, hgranting]
                exact SeatEvent.noConfusion
          | true =>
              refine iff_of_false (fun hfirst => ?_) (fun h => h (by rw [label, hgranting]; rfl))
              cases hforked : s.pc.forked with
              | none =>
                  rw [State.slot, hforked, Option.getD_none, hinv.clear hgranting] at howner
                  omega
              | some q =>
                  rw [State.slot, hforked, Option.getD_some] at howner
                  exact hfirst q hforked (howner ▸ rfl)
      | _ => exact iff_of_true (fun _ _ => by simp) SeatEvent.noConfusion
  | run stmt =>
      refine iff_of_true (fun _ _ => by simp) ?_
      cases stmt with
      | fork c pid => cases pid <;> exact SeatEvent.noConfusion
      | _ => exact SeatEvent.noConfusion
  | _ => exact iff_of_true (fun _ _ => by simp) SeatEvent.noConfusion

theorem lost_iff {es : List Event} {s : State} (hrun : run step start es = some s) :
    s.seat ≠ .lost ↔ Along step AssignedFirst start es := by
  have hkeeps (s : State) (e : Event) (t : State) (hinv : Sole s) (hstep : step s e = some t) :
      Sole t ∧ (t.seat ≠ .lost ↔ s.seat ≠ .lost ∧ AssignedFirst s e) := by
    refine ⟨hinv.step hstep, ?_⟩
    rw [Seat.lost_step_iff (seat_step hinv hstep), assignedFirst_iff hinv (step_eq_some.mp hstep).1]
  rw [run_iff_along hkeeps hrun .start]
  exact and_iff_right Seat.noConfusion

/-- **The exact condition for a free slot.** When the parent is quiet `_pid` is -1 if and only if no child of the
run was waited for before its number was assigned. -/
theorem quiet_free_iff {es : List Event} {s : State} (hrun : run step start es = some s) (hquiet : Quiet s) :
    s.pid = -1 ↔ Along step AssignedFirst start es := by
  have hslot : s.slot = s.pid := by rw [State.slot, hquiet.pc]; rfl
  rw [← lost_iff hrun, State.seat, hslot, hquiet.alive, hquiet.zombies]
  by_cases hfree : s.pid = -1
  · rw [if_pos hfree]
    exact iff_of_true hfree Seat.noConfusion
  · rw [if_neg hfree, if_neg List.not_mem_nil, if_neg List.not_mem_nil]
    exact iff_of_false hfree fun h => h rfl

theorem quiet_free_iff_served : ∃ s, run step start served = some s ∧ Quiet s ∧
    (s.pid = -1 ↔ Along step AssignedFirst start served) :=
  ⟨_, rfl, ⟨rfl, rfl, rfl, rfl, rfl⟩, quiet_free_iff rfl ⟨rfl, rfl, rfl, rfl, rfl⟩⟩

theorem onConn_children (s : State) (c : Nat) {f : Conn → Conn} (hf : ∀ conn, (f conn).child = conn.child) :
    (s.onConn c f).conns.map Conn.child = s.conns.map Conn.child := by
  apply List.ext_getElem?
  intro d
  rw [List.getElem?_map, List.getElem?_map, onConn_getElem?, Option.map_map]
  congr 1
  funext conn
  show (if c = d then f conn else conn).child = conn.child
  split
  · exact hf conn
  · rfl

theorem sendPart_children (s : State) (c : Nat) (outcome : SendOutcome) (data : Bytes) (next : Int → Pc) :
    (s.sendPart c outcome data next).conns.map Conn.child = s.conns.map Conn.child := by
  cases outcome with
  | sigpipe => rfl
  | _ => exact onConn_children s c fun _ => rfl

/-- Only a `fork` hands a connection to a child. -/
theorem children_exec {s : State} {stmt : Stmt} (hfork : ∀ c p, stmt ≠ .fork c (some p)) :
    ∃ count, (stmt.exec s).conns.map Conn.child = s.conns.map Conn.child ++ List.replicate count none := by
  have hsame {conns : List Conn} (h : conns.map Conn.child = s.conns.map Conn.child) :
      ∃ count, conns.map Conn.child = s.conns.map Conn.child ++ List.replicate count none :=
    ⟨0, h.trans (List.append_nil _).symm⟩
  cases stmt with
  | select ready => cases ready <;> exact hsame rfl
  | accept tfd =>
      cases tfd with
      | none => exact hsame rfl
      | some tfd => exact ⟨1, List.map_append⟩
  | testPid c =>
      rw [Stmt.exec]
      split
      · exact hsame rfl
      · exact hsame (onConn_children s c fun _ => rfl)
  | fork c pid =>
      cases pid with
      | none => exact hsame rfl
      | some p => exact absurd rfl (hfork c p)
  | closeGiven c => exact hsame (onConn_children s c fun _ => rfl)
  | sendHead c outcome => exact hsame (sendPart_children s c outcome _ _)
  | sendBody c outcome => exact hsame (sendPart_children s c outcome _ _)
  | close c => exact hsame (onConn_children s c fun _ => rfl)
  | recvfrom i => cases i <;> exact hsame rfl
  | _ => exact hsame rfl

/-- A state with a lost seat, and what became of the connections since. -/
structure Unserved (children : List (Option Int)) (s : State) : Prop where
  sole : Sole s
  seat : s.seat = .lost
  conns : ∃ count, s.conns.map Conn.child = children ++ List.replicate count none

theorem Unserved.step {children : List (Option Int)} {s t : State} {e : Event} (hinv : Unserved children s)
    (hstep : step s e = some t) : Unserved children t := by
  have hseat := seat_step hinv.sole hstep
  rw [hinv.seat] at hseat
  refine ⟨hinv.sole.step hstep, Seat.step_lost hseat, ?_⟩
  obtain ⟨count, hconns⟩ := hinv.conns
  obtain ⟨-, rfl⟩ := step_eq_some.mp hstep
  cases e with
  | run stmt =>
      -- a `fork` that succeeds would grant the seat, which is not free
      have hfork (c : Nat) (p : Int) : stmt ≠ .fork c (some p) := by
        rintro rfl
        cases hseat
      obtain ⟨more, hmore⟩ := children_exec (s := s) hfork
      exact ⟨count + more, by rw [next, hmore, hconns, List.append_assoc, List.replicate_append_replicate]⟩
  | peerReset c =>
      have hsame : (next s (.peerReset c)).conns.map Conn.child = s.conns.map Conn.child :=
        onConn_children s c fun _ => rfl
      exact ⟨count, hsame.trans hconns⟩
  | childExit p => exact ⟨count, hconns⟩
  | sigchld => exact ⟨count, hconns⟩
  | handler => exact ⟨count, hconns⟩
  | waitpid r => exact ⟨count, hconns⟩

/-- **A lost seat stays lost.** Whatever happens from then on, no child is ever alive, and every connection
accepted later is handed to none. -/
theorem lost_for_ever {s t : State} (hreach : Reaches step start s) (hlost : s.seat = .lost)
    (hlater : Reaches step s t) :
    t.seat = .lost ∧ t.kids.alive = []
      ∧ ∃ count, t.conns.map Conn.child = s.conns.map Conn.child ++ List.replicate count none := by
  have hunserved : Unserved (s.conns.map Conn.child) t :=
    hlater.invariant (fun _ _ _ hinv hstep => hinv.step hstep)
      ⟨Sole.of_reaches hreach, hlost, 0, (List.append_nil _).symm⟩
  refine ⟨hunserved.seat, List.eq_nil_iff_forall_not_mem.mpr fun p hp => ?_, hunserved.conns⟩
  have hserving := (hunserved.sole.seat_of_alive hp).2
  rw [hunserved.seat] at hserving
  cases hserving

def forgotten : List Event :=
  [.run (.select .listen), .run (.accept (some 7)), .run (.testPid 0), .run (.fork 0 (some 100)), .childExit 100,
    .handler, .waitpid (.child 100), .waitpid (.error .ECHILD), .run (.assignPid 0 100)]

theorem lost_for_ever_forgotten : ∃ s t, run step start forgotten = some s ∧
    run step s [.run (.closeGiven 0), .run (.select .listen), .run (.accept (some 8))] = some t ∧
    t.seat = .lost ∧ t.kids.alive = [] :=
  have hlost := lost_for_ever ⟨forgotten, rfl⟩ (by decide)
    ⟨[.run (.closeGiven 0), .run (.select .listen), .run (.accept (some 8))], rfl⟩
  ⟨_, _, rfl, rfl, hlost.1, hlost.2.1⟩

end RemoteCtrl.Service
