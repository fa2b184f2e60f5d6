import RemoteCtrl.Service.Loop

/-!
# The slot of the single client

The slot belongs to a child: the one `_pid` names or, from `fork` to the assignment of `_pid`, the one just
forked. Every live child is the owner of the slot, in every reachable state. The owner is also a child that
has not been waited for, as long as the handler never reaps a child before its number is assigned; a child
reaped too early leaves the slot taken for ever.
-/

namespace RemoteCtrl.Service

open CProgram CProgram.Transition

def Pc.forked : Pc → Option Int
  | .assignPid _ p => some p
  | _ => none

def Pc.granting : Pc → Bool
  | .fork _ => true
  | .assignPid _ _ => true
  | _ => false

/-- The owner of the slot, -1 if there is none. -/
def State.slot (s : State) : Int := s.pc.forked.getD s.pid

theorem forked_of_not_granting {pc : Pc} (h : pc.granting = false) : pc.forked = none := by
  cases pc <;> first | rfl | simp [Pc.granting] at h

theorem slot_of_not_granting {s : State} (h : s.pc.granting = false) : s.slot = s.pid := by
  rw [State.slot, forked_of_not_granting h, Option.getD_none]

/-! ### Statements that leave the slot alone -/

def Stmt.slotted : Stmt → Bool
  | .testPid _ => true
  | .fork _ _ => true
  | .assignPid _ _ => true
  | _ => false

theorem sendPart_frame (s : State) (c : Nat) (outcome : SendOutcome) (data : Bytes) (next : Int → Pc) :
    (s.sendPart c outcome data next).pid = s.pid ∧ (s.sendPart c outcome data next).kids = s.kids := by
  cases outcome <;> exact ⟨rfl, rfl⟩

theorem exec_of_not_slotted {s : State} {stmt : Stmt} (hplain : stmt.slotted = false) (hpc : s.pc = stmt.pc) :
    ((stmt.exec s).pid = s.pid ∧ (stmt.exec s).kids = s.kids) ∧ (stmt.exec s).pc.granting = false ∧
      s.pc.granting = false := by
  have hgoes := goes_exec hpc
  refine ⟨?_, ?_, ?_⟩
  · cases stmt with
    | testPid c => simp [Stmt.slotted] at hplain
    | fork c pid => simp [Stmt.slotted] at hplain
    | assignPid c p => simp [Stmt.slotted] at hplain
    | select ready => cases ready <;> exact ⟨rfl, rfl⟩
    | accept tfd => cases tfd <;> exact ⟨rfl, rfl⟩
    | sendHead c outcome => exact sendPart_frame s c outcome _ _
    | sendBody c outcome => exact sendPart_frame s c outcome _ _
    | recvfrom i => cases i <;> exact ⟨rfl, rfl⟩
    | _ => exact ⟨rfl, rfl⟩
  · generalize (stmt.exec s).pc = pc at hgoes
    cases hgoes with
    | free => simp [Stmt.slotted] at hplain
    | forked => simp [Stmt.slotted] at hplain
    | _ => rfl
  · rw [hpc]
    cases stmt with
    | fork c pid => simp [Stmt.slotted] at hplain
    | assignPid c p => simp [Stmt.slotted] at hplain
    | _ => rfl

/-- What a turn of the handler leaves of the slot: it is cleared, outside the granting points, exactly when
its owner is reaped. -/
theorem slot_reap {s : State} (hclear : s.pc.granting = true → s.pid = -1) (one : Bool) (r : WaitResult) :
    (s.reap one r).pid = (if r = .child s.pid then -1 else s.pid) ∧
      (s.reap one r).slot = if s.pc.granting = false ∧ r = .child s.slot then -1 else s.slot := by
  have hpid : (s.reap one r).pid = if r = .child s.pid then -1 else s.pid := waitTurn_slot one s.pid r
  refine ⟨hpid, ?_⟩
  show s.pc.forked.getD (s.reap one r).pid = _
  rw [hpid]
  cases hgranting : s.pc.granting with
  | false =>
      rw [slot_of_not_granting hgranting, forked_of_not_granting hgranting, Option.getD_none]
      simp
  | true =>
      simp only [hclear hgranting, ite_self, Bool.true_eq_false, false_and, if_false]
      rw [State.slot, hclear hgranting]

/-! ### Every live child owns the slot -/

/-- `_pid` is clear while the slot is granted, and no child but the slot's owner is alive. -/
structure Exclusive (s : State) : Prop where
  clear : s.pc.granting = true → s.pid = -1
  owner : ∀ k ∈ s.kids.alive, k = s.slot

theorem Exclusive.start : Exclusive start := ⟨fun _ => rfl, fun _ hk => absurd hk List.not_mem_nil⟩

theorem Exclusive.alive_of_free {s : State} (hinv : Exclusive s) (hfree : s.slot = -1) : s.kids.alive = [] := by
  refine List.eq_nil_iff_forall_not_mem.mpr fun k hk => ?_
  have hpos := s.kids.pos k (List.mem_append_left _ hk)
  have howner := hinv.owner k hk
  omega

theorem Exclusive.exec {s : State} (hinv : Exclusive s) {stmt : Stmt} (hpc : s.pc = stmt.pc)
    (hpossible : stmt.Possible s) : Exclusive (stmt.exec s) := by
  cases hslotted : stmt.slotted with
  | false =>
      obtain ⟨⟨hpid, hkids⟩, hafter, hbefore⟩ := exec_of_not_slotted hslotted hpc
      refine ⟨fun h => absurd h (by rw [hafter]; decide), fun k hk => ?_⟩
      rw [slot_of_not_granting hafter, hpid, ← slot_of_not_granting hbefore]
      exact hinv.owner k (hkids ▸ hk)
  | true =>
      cases stmt with
      | testPid c =>
          have hslot : s.slot = s.pid := by rw [State.slot, hpc]; rfl
          by_cases hfree : s.pid = -1
          · rw [Stmt.exec, if_pos hfree]
            exact ⟨fun _ => hfree, fun k hk => (hinv.owner k hk).trans hslot⟩
          · rw [Stmt.exec, if_neg hfree]
            exact ⟨fun h => absurd h Bool.false_ne_true, fun k hk => (hinv.owner k hk).trans hslot⟩
      | fork c pid =>
          have hclear : s.pid = -1 := hinv.clear (by rw [hpc]; rfl)
          have hslot : s.slot = s.pid := by rw [State.slot, hpc]; rfl
          cases pid with
          | none => exact ⟨fun h => absurd h Bool.false_ne_true, fun k hk => (hinv.owner k hk).trans hslot⟩
          | some p =>
              refine ⟨fun _ => hclear, fun k hk => ?_⟩
              -- nobody was alive before the fork
              have halive : (s.kids.fork p).alive = [p] := by
                rw [Children.alive_fork hpossible, hinv.alive_of_free (hslot.trans hclear)]
              have hp : k = p := List.mem_singleton.mp (halive ▸ hk)
              exact hp
      | assignPid c p =>
          have hslot : s.slot = p := by rw [State.slot, hpc]; rfl
          exact ⟨fun h => absurd h Bool.false_ne_true, fun k hk => (hinv.owner k hk).trans hslot⟩
      | _ => simp [Stmt.slotted] at hslotted

theorem Exclusive.step {s t : State} {e : Event} (hinv : Exclusive s) (hstep : step s e = some t) :
    Exclusive t := by
  obtain ⟨henabled, rfl⟩ := step_eq_some.mp hstep
  cases e with
  | run stmt => exact hinv.exec henabled.2.1 henabled.2.2
  | peerReset c => exact ⟨hinv.clear, hinv.owner⟩
  | childExit p => exact ⟨hinv.clear, fun k hk => hinv.owner k (Children.mem_alive_of_exit hk)⟩
  | sigchld => exact ⟨hinv.clear, hinv.owner⟩
  | handler => exact ⟨hinv.clear, hinv.owner⟩
  | waitpid r =>
      obtain ⟨hpid, hslot⟩ := slot_reap hinv.clear (s.handler.getD false) r
      refine ⟨fun h => ?_, fun k hk => ?_⟩
      · show (s.reap (s.handler.getD false) r).pid = -1
        rw [hpid, hinv.clear h, ite_self]
      · have halive : k ∈ s.kids.alive := Children.alive_wait s.kids r ▸ hk
        show k = (s.reap (s.handler.getD false) r).slot
        rw [hslot]
        split
        · next hreaped =>
            -- the owner has ended, so it is not alive
            obtain ⟨-, rfl⟩ := hreaped
            have hzombie : s.slot ∈ s.kids.zombies := henabled.2
            exact absurd (hinv.owner k halive ▸ halive) (Children.not_alive_of_zombie hzombie)
        · exact hinv.owner k halive

theorem Exclusive.of_reaches {s : State} (hreach : Reaches Service.step Service.start s) : Exclusive s :=
  hreach.invariant (fun _ _ _ hinv hstep => hinv.step hstep) .start

theorem Exclusive.length_le_one {s : State} (hinv : Exclusive s) : s.kids.alive.length ≤ 1 := by
  have hnodup : s.kids.alive.Nodup := (List.nodup_append.mp s.kids.nodup).1
  cases halive : s.kids.alive with
  | nil => exact Nat.zero_le 1
  | cons k more =>
      cases more with
      | nil => exact Nat.le_refl 1
      | cons k' more =>
          have hfirst : k = s.slot := hinv.owner k (by simp [halive])
          have hsecond : k' = s.slot := hinv.owner k' (by simp [halive])
          rw [halive, hfirst, hsecond] at hnodup
          simp at hnodup

/-! ### When the slot comes free again -/

/-- The handler does not reap the child just forked before `_pid=pid`. -/
def AssignedFirst (s : State) (e : Event) : Prop := ∀ p, s.pc.forked = some p → e ≠ .waitpid (.child p)

instance (s : State) (e : Event) : Decidable (AssignedFirst s e) :=
  inferInstanceAs (Decidable (∀ p ∈ s.pc.forked, e ≠ .waitpid (.child p)))

structure Quiet (s : State) : Prop where
  pc : s.pc = .select
  alive : s.kids.alive = []
  zombies : s.kids.zombies = []
  sigchld : s.sigchld = false
  handler : s.handler = none

/-- A taken slot belongs to a child that has not been waited for. -/
structure Held (s : State) : Prop where
  exclusive : Exclusive s
  owner : s.slot ≠ -1 → s.kids.Has s.slot

theorem Held.start : Held start := ⟨.start, fun h => absurd rfl h⟩

theorem Held.exec {s : State} (hinv : Held s) {stmt : Stmt} (hpc : s.pc = stmt.pc)
    (hpossible : stmt.Possible s) : Held (stmt.exec s) := by
  refine ⟨hinv.exclusive.exec hpc hpossible, ?_⟩
  cases hslotted : stmt.slotted with
  | false =>
      obtain ⟨⟨hpid, hkids⟩, hafter, hbefore⟩ := exec_of_not_slotted hslotted hpc
      rw [slot_of_not_granting hafter, hpid, hkids, ← slot_of_not_granting hbefore]
      exact hinv.owner
  | true =>
      cases stmt with
      | testPid c =>
          have hslot : s.slot = s.pid := by rw [State.slot, hpc]; rfl
          by_cases hfree : s.pid = -1
          · rw [Stmt.exec, if_pos hfree]
            exact fun htaken => absurd hfree htaken
          · rw [Stmt.exec, if_neg hfree]
            have howner := hinv.owner
            rw [hslot] at howner
            exact howner
      | fork c pid =>
          have hclear : s.pid = -1 := hinv.exclusive.clear (by rw [hpc]; rfl)
          cases pid with
          | none => exact fun htaken => absurd hclear htaken
          | some p => exact fun _ => Children.has_fork_self hpossible
      | assignPid c p =>
          have hslot : s.slot = p := by rw [State.slot, hpc]; rfl
          have howner := hinv.owner
          rw [hslot] at howner
          exact howner
      | _ => simp [Stmt.slotted] at hslotted

theorem Held.step {s t : State} {e : Event} (hinv : Held s) (hfirst : AssignedFirst s e)
    (hstep : step s e = some t) : Held t := by
  have hexclusive := hinv.exclusive.step hstep
  obtain ⟨henabled, rfl⟩ := step_eq_some.mp hstep
  cases e with
  | run stmt => exact hinv.exec henabled.2.1 henabled.2.2
  | peerReset c => exact ⟨hexclusive, hinv.owner⟩
  | childExit p => exact ⟨hexclusive, fun htaken => Children.has_exit (hinv.owner htaken)⟩
  | sigchld => exact ⟨hexclusive, hinv.owner⟩
  | handler => exact ⟨hexclusive, hinv.owner⟩
  | waitpid r =>
      refine ⟨hexclusive, fun htaken => ?_⟩
      obtain ⟨-, hslot⟩ := slot_reap hinv.exclusive.clear (s.handler.getD false) r
      replace htaken : (s.reap (s.handler.getD false) r).slot ≠ -1 := htaken
      show (s.kids.wait r).Has (s.reap (s.handler.getD false) r).slot
      rw [hslot] at htaken ⊢
      by_cases hreaped : s.pc.granting = false ∧ r = .child s.slot
      · exact absurd (if_pos hreaped) htaken
      · rw [if_neg hreaped] at htaken ⊢
        refine Children.has_wait (hinv.owner htaken) fun howner => ?_
        -- inside the granting points the owner is the child just forked
        cases hforked : s.pc.forked with
        | none =>
            have hslotPid : s.slot = s.pid := by rw [State.slot, hforked, Option.getD_none]
            cases hgranting : s.pc.granting with
            | false => exact hreaped ⟨hgranting, howner⟩
            | true => exact htaken (hslotPid.trans (hinv.exclusive.clear hgranting))
        | some p =>
            have hslotForked : s.slot = p := by rw [State.slot, hforked, Option.getD_some]
            exact hfirst p hforked (hslotForked ▸ howner ▸ rfl)

/-- **The slot comes free.** In a run in which no child is reaped before its number is assigned, `_pid` is -1
whenever the parent is quiet, and the next connection is served. -/
theorem slot_free_when_quiet {es : List Event} {s : State} (hrun : run step start es = some s)
    (hfirst : Along step AssignedFirst start es) (hquiet : Quiet s) :
    s.pid = -1 ∧ ∀ tfd, 0 < tfd → ∃ t, run step s [.run (.select .listen), .run (.accept (some tfd)),
      .run (.testPid s.conns.length)] = some t ∧ t.pc = .fork s.conns.length := by
  have hinv : Held s := run_invariant_along (fun _ _ _ hheld hgood hstep => hheld.step hgood hstep) hrun hfirst
    .start
  have hfree : s.pid = -1 := by
    have hslot : s.slot = s.pid := by rw [State.slot, hquiet.pc]; rfl
    by_contra htaken
    rcases hinv.owner (hslot ▸ htaken) with halive | hzombie
    · rw [hquiet.alive] at halive
      contradiction
    · rw [hquiet.zombies] at hzombie
      contradiction
  refine ⟨hfree, fun tfd htfd => ?_⟩
  refine ⟨{ s with pc := .fork s.conns.length, conns := s.conns ++ [{ fd := tfd }] }, ?_, rfl⟩
  simp only [run_cons, run_nil, step_eq_some, Option.some.injEq]
  refine ⟨_, ⟨⟨hquiet.handler, hquiet.pc, trivial⟩, rfl⟩, _, ⟨⟨hquiet.handler, rfl, htfd.le⟩, rfl⟩, _,
    ⟨⟨hquiet.handler, ?_, trivial⟩, rfl⟩, ?_⟩
  · show (if tfd > 0 then Pc.testPid s.conns.length else .select) = _
    rw [if_pos htfd]
    rfl
  · show (if s.pid = -1 then _ else _) = _
    rw [if_pos hfree]
    rfl

def served : List Event :=
  [.run (.select .listen), .run (.accept (some 7)), .run (.testPid 0), .run (.fork 0 (some 100)),
    .run (.assignPid 0 100), .run (.closeGiven 0), .childExit 100, .handler, .waitpid (.child 100)]

theorem slot_free_when_quiet_served : ∃ s, run step start served = some s ∧ Quiet s ∧ s.pid = -1 := by
  have hfirst : Along step AssignedFirst start served := by decide
  exact ⟨_, rfl, ⟨rfl, rfl, rfl, rfl, rfl⟩, (slot_free_when_quiet rfl hfirst ⟨rfl, rfl, rfl, rfl, rfl⟩).1⟩

/-- The child ends and is reaped before `_pid` is assigned: the slot stays taken. -/
theorem reaped_before_assigned :
    ∃ s, run step start [.run (.select .listen), .run (.accept (some 7)), .run (.testPid 0),
        .run (.fork 0 (some 100)), .childExit 100, .handler, .waitpid (.child 100), .waitpid (.error .ECHILD),
        .run (.assignPid 0 100), .run (.closeGiven 0)] = some s ∧ Quiet s ∧ s.pid ≠ -1 :=
  ⟨_, rfl, ⟨rfl, rfl, rfl, rfl, rfl⟩, by decide⟩

end RemoteCtrl.Service
