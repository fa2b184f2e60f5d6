import RemoteCtrl.Service.Machine

/-!
# Who holds the ports

No `RemoteCtrlServiceClose`, and no exit of `InitSocket` behind the `bind`, gives back the broadcast socket: a process
that has bound it is the last that can bring the service up on the machine, itself included, until it ends. That is so
in every run in which no process opens the service while one of its service threads still runs.
-/

namespace RemoteCtrl.Machine

open CProgram.Transition

/-! ### What a process has -/

/-- Behind the `bind` of the broadcast socket. -/
def Pc.broadcasts : Pc → Bool
  | .membership => true
  | .looping => true
  | _ => false

/-- Behind `listen`. -/
def Pc.listens : Pc → Bool
  | .broadcastSocket => true
  | .broadcastBind => true
  | pc => pc.broadcasts

/-- Behind the `bind` of the listening socket. -/
def Pc.hasPort : Pc → Bool
  | .listen => true
  | pc => pc.listens

/-- The service is opened in a process none of whose service threads runs. -/
def OneThread (s : State) : Event → Prop
  | .serviceOpen p => s.pc p = .idle
  | _ => True

instance (s : State) : (e : Event) → Decidable (OneThread s e)
  | .serviceOpen p => inferInstanceAs (Decidable (s.pc p = .idle))
  | .call .. => .isTrue trivial
  | .leave _ => .isTrue trivial
  | .serviceClose _ => .isTrue trivial
  | .overlapped .. => .isTrue trivial
  | .exit _ => .isTrue trivial
  | .takePort _ => .isTrue trivial
  | .givePort _ => .isTrue trivial
  | .takeBroadcast => .isTrue trivial
  | .giveBroadcast => .isTrue trivial

/-- A process has what it has come by in this start, and a process that has come through holds the broadcast port for
as long as it lives. -/
structure Inv (s : State) : Prop where
  single : ∀ p, s.pc p ≠ .overlapping
  broadcasts : ∀ p, (s.pc p).broadcasts = true → s.broadcast = some (.service p)
  listens : ∀ p, (s.pc p).listens = true → s.listening (s.bound p) = some (.service p)
  hasPort : ∀ p, (s.pc p).hasPort = true → 0 < s.port p → s.port p < 65536 → s.bound p = s.port p
  holds : ∀ p ∈ s.succeeded, s.pc p ≠ .ended → s.broadcast = some (.service p)
  fresh : ∀ p, s.pc p = .membership → p ∉ s.succeeded
  once : s.succeeded.Nodup
  earlier : ∀ p ∈ s.succeeded.dropLast, s.pc p = .ended

theorem dropHolder_of_ne {holder holder' : Holder} (hne : holder' ≠ holder) :
    dropHolder holder (some holder') = some holder' := if_neg fun h => hne (Option.some.inj h)

/-- A process goes on to where it needs nothing that it has not got. -/
theorem Inv.goto {s : State} (hinv : Inv s) {p : Nat} {pc : Pc} (halive : s.pc p ≠ .ended)
    (hsingle : pc ≠ .overlapping)
    (hbroadcasts : pc.broadcasts = true → s.broadcast = some (.service p))
    (hlistens : pc.listens = true → s.listening (s.bound p) = some (.service p))
    (hport : pc.hasPort = true → 0 < s.port p → s.port p < 65536 → s.bound p = s.port p)
    (hfresh : pc = .membership → p ∉ s.succeeded) : Inv (s.goto p pc) := by
  have hended (p' : Nat) (hp : s.pc p' = .ended) : (s.goto p pc).pc p' = .ended := by
    have hne : p' ≠ p := by
      rintro rfl
      exact halive hp
    rw [goto_of_ne s hne, hp]
  refine ⟨
    goto_cases (motive := fun _ x => x ≠ .overlapping) hsingle hinv.single,
    goto_cases (motive := fun p' x => x.broadcasts = true → s.broadcast = some (.service p')) hbroadcasts
      hinv.broadcasts,
    goto_cases (motive := fun p' x => x.listens = true → s.listening (s.bound p') = some (.service p')) hlistens
      hinv.listens,
    goto_cases
      (motive := fun p' x => x.hasPort = true → 0 < s.port p' → s.port p' < 65536 → s.bound p' = s.port p') hport
      hinv.hasPort,
    fun p' hp hpc => hinv.holds p' hp fun h => hpc (hended p' h),
    goto_cases (motive := fun p' x => x = .membership → p' ∉ s.succeeded) hfresh hinv.fresh, hinv.once,
    fun p' hp => hended p' (hinv.earlier p' hp)⟩

theorem Inv.idle {s : State} (hinv : Inv s) {p : Nat} (halive : s.pc p ≠ .ended) : Inv (s.goto p .idle) :=
  hinv.goto halive nofun nofun nofun nofun nofun

theorem not_ended {s : State} {p : Nat} {pc : Pc} (hpc : s.pc p = pc) (hne : pc ≠ .ended) : s.pc p ≠ .ended :=
  hpc ▸ hne

/-! ### Ports change hands -/

theorem Inv.relisten {s : State} (hinv : Inv s) {listening : Nat → Option Holder}
    (hkeeps : ∀ p, (s.pc p).listens = true → listening (s.bound p) = some (.service p)) :
    Inv { s with listening } :=
  ⟨hinv.single, hinv.broadcasts, hkeeps, hinv.hasPort, hinv.holds, hinv.fresh, hinv.once, hinv.earlier⟩

/-- A port on which nobody listens is taken. -/
theorem Inv.listened {s : State} (hinv : Inv s) {q : Nat} (hfree : s.listening q = none) (holder : Holder) :
    Inv { s with listening := Function.update s.listening q (some holder) } := by
  refine hinv.relisten fun p hp => ?_
  have hlistens := hinv.listens p hp
  have hne : s.bound p ≠ q := by
    rintro rfl
    rw [hfree] at hlistens
    contradiction
  rw [Function.update_of_ne hne, hlistens]

theorem Inv.rebroadcast {s : State} (hinv : Inv s) {broadcast : Option Holder}
    (hkeeps : ∀ p, s.broadcast = some (.service p) → broadcast = some (.service p)) : Inv { s with broadcast } :=
  ⟨hinv.single, fun p hp => hkeeps p (hinv.broadcasts p hp), hinv.listens, hinv.hasPort,
    fun p hp hpc => hkeeps p (hinv.holds p hp hpc), hinv.fresh, hinv.once, hinv.earlier⟩

theorem Inv.rebind {s : State} (hinv : Inv s) {p : Nat} (hpc : (s.pc p).hasPort = false)
    (hlistens : (s.pc p).listens = false) (q : Nat) : Inv { s with bound := Function.update s.bound p q } := by
  refine ⟨hinv.single, hinv.broadcasts, fun p' hp => ?_, fun p' hp hpos hlow => ?_, hinv.holds, hinv.fresh, hinv.once,
    hinv.earlier⟩
  · have hne : p' ≠ p := by
      rintro rfl
      rw [hlistens] at hp
      contradiction
    dsimp only
    rw [Function.update_of_ne hne, hinv.listens p' hp]
  · have hne : p' ≠ p := by
      rintro rfl
      rw [hpc] at hp
      contradiction
    dsimp only
    rw [Function.update_of_ne hne, hinv.hasPort p' hp hpos hlow]

theorem Inv.renumber {s : State} (hinv : Inv s) {p : Nat} (hpc : (s.pc p).hasPort = false) (port : Nat) :
    Inv { s with port := Function.update s.port p port } := by
  refine ⟨hinv.single, hinv.broadcasts, hinv.listens, fun p' hp => ?_, hinv.holds, hinv.fresh, hinv.once, hinv.earlier⟩
  have hne : p' ≠ p := by
    rintro rfl
    rw [hpc] at hp
    contradiction
  dsimp only
  rw [Function.update_of_ne hne]
  exact hinv.hasPort p' hp

theorem boundPort_of_pos {ephemeral port : Nat} (hpos : 0 < port) (hlow : port < 65536) :
    boundPort ephemeral port = port := by
  rw [boundPort, Nat.mod_eq_of_lt hlow, if_neg (by omega)]

/-- A start that comes through. Every process that has come through before has ended, or it would hold the port. -/
theorem Inv.succeed {s : State} (hinv : Inv s) {p : Nat} (hpc : s.pc p = .membership) :
    Inv { s.goto p .looping with succeeded := s.succeeded ++ [p] } := by
  have hholds : s.broadcast = some (.service p) := hinv.broadcasts p (by rw [hpc]; rfl)
  have hlooping : Inv (s.goto p .looping) :=
    hinv.goto (not_ended hpc nofun) nofun (fun _ => hholds) (fun _ => hinv.listens p (by rw [hpc]; rfl))
      (fun _ => hinv.hasPort p (by rw [hpc]; rfl)) nofun
  have hbefore (p' : Nat) (hp : p' ∈ s.succeeded) : s.pc p' = .ended := by
    by_contra hlives
    -- it would hold the port beside `p`, and so be `p`
    have hsame := (hinv.holds p' hp hlives).symm.trans hholds
    obtain rfl : p' = p := by injection hsame with h; injection h
    exact hinv.fresh p' hpc hp
  refine ⟨hlooping.single, hlooping.broadcasts, hlooping.listens, hlooping.hasPort, fun p' hp hlives => ?_,
    fun p' hmember hp => ?_, ?_, ?_⟩
  · rcases List.mem_append.mp hp with h | h
    · exact hlooping.holds p' h hlives
    · exact List.mem_singleton.mp h ▸ hholds
  · rcases List.mem_append.mp hp with h | h
    · exact hlooping.fresh p' hmember h
    · obtain rfl := List.mem_singleton.mp h
      have hnow : (s.goto p' .looping).pc p' = .looping := goto_self s p' .looping
      exact absurd (hmember.symm.trans hnow) (by simp)
  · exact List.nodup_append.mpr ⟨hinv.once, List.nodup_singleton p, fun p' hp q hq =>
      fun heq => hinv.fresh p hpc (List.mem_singleton.mp hq ▸ heq ▸ hp)⟩
  · intro p' hp
    rw [List.dropLast_concat] at hp
    have hne : p' ≠ p := fun h => hinv.fresh p hpc (h ▸ hp)
    exact (goto_of_ne s hne .looping).trans (hbefore p' hp)

theorem Inv.call {s t : State} (hinv : Inv s) {p ephemeral : Nat} {ok : Bool} (hmade : Made s p ephemeral ok t) :
    Inv t := by
  cases hmade with
  | fails hpc => exact hinv.idle fun h => hpc (by simp [h])
  | socket hpc => exact hinv.goto (not_ended hpc (by simp)) nofun nofun nofun nofun nofun
  | reuse hpc => exact hinv.goto (not_ended hpc (by simp)) nofun nofun nofun nofun nofun
  | bindFails hpc =>
      have hnext := hinv.renumber (p := p) (by rw [hpc]; rfl) (nextPort (s.port p))
      refine hnext.goto (not_ended hpc (by simp)) ?_ ?_ ?_ ?_ ?_ <;> split <;>
        simp [Pc.hasPort, Pc.listens, Pc.broadcasts]
  | binds hpc hfree =>
      have hbound := hinv.rebind (p := p) (by rw [hpc]; rfl) (by rw [hpc]; rfl) (boundPort ephemeral (s.port p))
      refine hbound.goto (not_ended hpc (by simp)) (by simp) (by simp [Pc.broadcasts])
        (by simp [Pc.listens, Pc.broadcasts]) (fun _ hpos hlow => ?_) (by simp)
      dsimp only
      rw [Function.update_self, boundPort_of_pos hpos hlow]
  | listens hpc hfree =>
      exact (hinv.listened hfree (.service p)).goto (not_ended hpc (by simp)) (by simp) (by simp [Pc.broadcasts])
        (fun _ => Function.update_self ..) (fun _ => hinv.hasPort p (by rw [hpc]; rfl)) (by simp)
  | broadcastSocket hpc =>
      exact hinv.goto (not_ended hpc (by simp)) nofun nofun (fun _ => hinv.listens p (by rw [hpc]; rfl))
        (fun _ => hinv.hasPort p (by rw [hpc]; rfl)) nofun
  | broadcastBinds hpc hfree =>
      have halive := not_ended hpc (by simp)
      have htaken : Inv { s with broadcast := some (.service p) } :=
        hinv.rebroadcast fun p' h => absurd (hfree.symm.trans h) (by simp)
      refine htaken.goto halive nofun (fun _ => rfl) (fun _ => hinv.listens p (by rw [hpc]; rfl))
        (fun _ => hinv.hasPort p (by rw [hpc]; rfl)) fun _ hp => ?_
      exact absurd (hfree.symm.trans (hinv.holds p hp halive)) (by simp)
  | succeeds hpc => exact hinv.succeed hpc

theorem Inv.exit {s : State} (hinv : Inv s) {p : Nat} (halive : s.pc p ≠ .ended) :
    Inv { s.goto p .ended with
      listening := fun q => dropHolder (.service p) (s.listening q)
      broadcast := dropHolder (.service p) s.broadcast } := by
  have hended : Inv (s.goto p .ended) := hinv.goto halive nofun nofun nofun nofun nofun
  have hother {p' : Nat} (hpc : (s.goto p .ended).pc p' ≠ .ended) : Holder.service p' ≠ .service p := by
    intro heq
    obtain rfl : p' = p := by injection heq
    exact hpc (goto_self s p' .ended)
  refine ⟨hended.single, fun p' hp => ?_, fun p' hp => ?_, hended.hasPort, fun p' hp hpc => ?_, hended.fresh,
    hended.once, hended.earlier⟩
  · have hlives : (s.goto p .ended).pc p' ≠ .ended := fun h => by simp [h, Pc.broadcasts] at hp
    rw [show s.broadcast = some (.service p') from hended.broadcasts p' hp, dropHolder_of_ne (hother hlives)]
  · have hlives : (s.goto p .ended).pc p' ≠ .ended := fun h => by simp [h, Pc.listens, Pc.broadcasts] at hp
    dsimp only [State.goto]
    rw [show s.listening (s.bound p') = some (.service p') from hended.listens p' hp, dropHolder_of_ne (hother hlives)]
  · rw [show s.broadcast = some (.service p') from hended.holds p' hp hpc, dropHolder_of_ne (hother hpc)]

theorem Inv.step {s t : State} {e : Event} (hinv : Inv s) (hone : OneThread s e) (hstep : step s e = some t) :
    Inv t := by
  cases moves_of_step hstep with
  | serviceOpen hpc => exact hinv.goto (not_ended hpc (by simp)) nofun nofun nofun nofun nofun
  | call hmade => exact hinv.call hmade
  | leave hpc => exact hinv.idle (not_ended hpc (by simp))
  | overlaps hpc => exact absurd (show s.pc _ = .idle from hone) fun h => hpc (by simp [h])
  | serviceClose hpc => exact hinv.idle fun h => hpc (by simp [h])
  | overlapped hpc => exact absurd hpc (hinv.single _)
  | exit halive => exact hinv.exit halive
  | takePort hfree => exact hinv.listened hfree .stranger
  | @givePort q =>
      refine hinv.relisten fun p hp => ?_
      have hlistens := hinv.listens p hp
      by_cases hq : s.bound p = q
      · rw [← hq, Function.update_self, hlistens, dropHolder_of_ne (by simp)]
      · rw [Function.update_of_ne hq, hlistens]
  | takeBroadcast hfree => exact hinv.rebroadcast fun p h => absurd (hfree.symm.trans h) (by simp)
  | giveBroadcast =>
      refine hinv.rebroadcast fun p h => ?_
      rw [h, dropHolder_of_ne (by simp)]

theorem Inv.start : Inv start := ⟨nofun, nofun, nofun, nofun, nofun, nofun, List.nodup_nil, nofun⟩

theorem Inv.of_run {s t : State} {es : List Event} (hinv : Inv s) (hrun : run Machine.step s es = some t)
    (hone : Along Machine.step OneThread s es) : Inv t :=
  run_invariant_along (fun _ _ _ hinv hone hstep => hinv.step hone hstep) hrun hone hinv

/-! ### One start for a process, one process at a time -/

/-- **A process brings the service up at most once**, and no other does before it has ended: of all the starts that
have ever come through only the last is of a process that still lives. -/
theorem one_start_each {es : List Event} {s : State} (hrun : run step start es = some s)
    (hone : Along step OneThread start es) : s.succeeded.Nodup ∧ ∀ p ∈ s.succeeded.dropLast, s.pc p = .ended :=
  have hinv := Inv.start.of_run hrun hone
  ⟨hinv.once, hinv.earlier⟩

/-- A start in which no call fails. -/
def opens (p : Nat) : List Event := .serviceOpen p :: List.replicate 7 (.call p true 0)

/-- One process serves and ends, and the next one serves. -/
def relay : List Event := opens 1 ++ [.leave 1, .exit 1] ++ opens 2

theorem relay_alone : Along step OneThread start relay := by decide

theorem relay_runs : ∃ s, run step start relay = some s ∧ s.succeeded = [1, 2] ∧ s.pc 2 = .looping := ⟨_, rfl, rfl, rfl⟩

theorem one_start_each_relay : ∃ s, run step start relay = some s ∧ s.succeeded.Nodup ∧ s.pc 1 = .ended := by
  obtain ⟨s, hrun, hsucceeded, -⟩ := relay_runs
  obtain ⟨honce, hearlier⟩ := one_start_each hrun relay_alone
  rw [hsucceeded] at hearlier
  exact ⟨s, hrun, honce, hearlier 1 (List.mem_singleton_self 1)⟩

/-- A service that runs is the only one, and alone listens on its port. -/
theorem looping_alone {es : List Event} {s : State} (hrun : run step start es = some s)
    (hone : Along step OneThread start es) {p : Nat} (hpc : s.pc p = .looping) :
    s.broadcast = some (.service p) ∧ s.listening (s.bound p) = some (.service p) ∧
      (0 < s.port p → s.port p < 65536 → s.bound p = s.port p) ∧ ∀ p', s.pc p' = .looping → p' = p := by
  have hinv := Inv.start.of_run hrun hone
  have hholds : s.broadcast = some (.service p) := hinv.broadcasts p (by rw [hpc]; rfl)
  refine ⟨hholds, hinv.listens p (by rw [hpc]; rfl), hinv.hasPort p (by rw [hpc]; rfl), fun p' hpc' => ?_⟩
  have hsame := (hinv.broadcasts p' (by rw [hpc']; rfl)).symm.trans hholds
  injection hsame with h
  injection h

theorem looping_alone_relay : ∃ s, run step start relay = some s ∧ ∀ p, s.pc p = .looping → p = 2 := by
  obtain ⟨s, hrun, -, hlooping⟩ := relay_runs
  exact ⟨s, hrun, (looping_alone hrun relay_alone hlooping).2.2.2⟩

/-! ### A port that is not given back -/

/-- A call leaves the broadcast port and the record alone and brings nobody to the membership; or it binds the port,
which is free; or it ends a start. -/
theorem Made.cases {s t : State} {p ephemeral : Nat} {ok : Bool} (hmade : Made s p ephemeral ok t) :
    (t.broadcast = s.broadcast ∧ t.succeeded = s.succeeded ∧ ∀ p', t.pc p' = .membership → s.pc p' = .membership) ∨
      s.broadcast = none ∨ s.pc p = .membership := by
  have hgoto {pc : Pc} (hne : pc ≠ .membership) (p' : Nat) (h : (s.goto p pc).pc p' = .membership) :
      s.pc p' = .membership :=
    goto_cases (motive := fun p' x => x = .membership → s.pc p' = .membership) (fun h => absurd h hne) (fun _ h => h)
      p' h
  cases hmade with
  | fails | socket | reuse | binds | listens | broadcastSocket => exact .inl ⟨rfl, rfl, hgoto (by simp)⟩
  | bindFails => exact .inl ⟨rfl, rfl, hgoto (by split <;> simp)⟩
  | broadcastBinds hpc hfree => exact .inr (.inl hfree)
  | succeeds hpc => exact .inr (.inr hpc)

/-- The process has the broadcast port and is not in the start that has bound it. -/
structure Blocked (p : Nat) (succeeded : List Nat) (s : State) : Prop where
  inv : Inv s
  holds : s.broadcast = some (.service p)
  past : s.pc p ≠ .membership
  record : s.succeeded = succeeded

theorem Blocked.goto {p : Nat} {succeeded : List Nat} {s : State} (hblocked : Blocked p succeeded s) {p' : Nat}
    {pc : Pc} (hne : pc ≠ .membership) (hinv : Inv (s.goto p' pc)) : Blocked p succeeded (s.goto p' pc) := by
  refine ⟨hinv, hblocked.holds, ?_, hblocked.record⟩
  by_cases hp : p = p'
  · subst hp
    rw [goto_self]
    exact hne
  · rw [goto_of_ne s hp]
    exact hblocked.past

theorem Blocked.step {p : Nat} {succeeded : List Nat} {s t : State} {e : Event} (hblocked : Blocked p succeeded s)
    (hone : OneThread s e) (hstays : e ≠ .exit p) (hstep : step s e = some t) : Blocked p succeeded t := by
  have hinv : Inv t := hblocked.inv.step hone hstep
  cases moves_of_step hstep with
  | overlaps hpc => exact absurd (show s.pc _ = .idle from hone) fun h => hpc (by simp [h])
  | overlapped hpc => exact absurd hpc (hblocked.inv.single _)
  | serviceOpen | leave | serviceClose => exact hblocked.goto (by simp) hinv
  | @call p' _ _ _ hmade =>
      rcases hmade.cases with ⟨hbroadcast, hrecord, hpast⟩ | hfree | hmember
      · exact ⟨hinv, hbroadcast.trans hblocked.holds, fun h => hblocked.past (hpast p h), hrecord.trans hblocked.record⟩
      · exact absurd (hfree.symm.trans hblocked.holds) (by simp)
      · have hsame := (hblocked.inv.broadcasts p' (by rw [hmember]; rfl)).symm.trans hblocked.holds
        obtain rfl : p' = p := by injection hsame with h; injection h
        exact absurd hmember hblocked.past
  | @exit p' halive =>
      have hne : p ≠ p' := fun h => hstays (h ▸ rfl)
      have hholder : Holder.service p ≠ .service p' := fun h => hne (by injection h)
      refine ⟨hinv, ?_, fun h => hblocked.past ((goto_of_ne s hne .ended).symm.trans h), hblocked.record⟩
      dsimp only
      rw [hblocked.holds, dropHolder_of_ne hholder]
  | takePort | givePort => exact ⟨hinv, hblocked.holds, hblocked.past, hblocked.record⟩
  | takeBroadcast hfree => exact absurd (hfree.symm.trans hblocked.holds) (by simp)
  | giveBroadcast =>
      refine ⟨hinv, ?_, hblocked.past, hblocked.record⟩
      dsimp only
      rw [hblocked.holds, dropHolder_of_ne (by simp)]

/-- **A bound broadcast port is lost until its process ends.** Whether the start that bound it came through or not,
and whatever is opened and closed, no start of any process comes through. -/
theorem no_start_while_bound {es : List Event} {s : State} (hrun : run step start es = some s)
    (hone : Along step OneThread start es) {p : Nat} (hholds : s.broadcast = some (.service p))
    (hpast : s.pc p ≠ .membership) {later : List Event} {t : State} (hlater : run step s later = some t)
    (honeLater : Along step OneThread s later) (hstays : .exit p ∉ later) :
    t.broadcast = some (.service p) ∧ t.succeeded = s.succeeded := by
  have hblocked : Blocked p s.succeeded s := ⟨Inv.start.of_run hrun hone, hholds, hpast, rfl⟩
  have halong : Along step (fun s e => OneThread s e ∧ e ≠ .exit p) s later :=
    honeLater.of_mem fun _ e he hone => ⟨hone, by
      rintro rfl
      exact hstays he⟩
  have hend := run_invariant_along
    (fun _ _ _ (hblocked : Blocked p s.succeeded _) hboth hstep => hblocked.step hboth.1 hboth.2 hstep) hlater halong
    hblocked
  exact ⟨hend.holds, hend.record⟩

/-- A process that has served opens the service again, and then another process tries. -/
def reopened : List Event :=
  [.serviceOpen 1, .call 1 true 0, .call 1 true 0, .call 1 false 0, .call 1 true 0, .call 1 true 0, .call 1 true 0,
    .call 1 false 0, .serviceOpen 2, .call 2 true 0, .call 2 true 0]

theorem no_start_while_bound_reopened : ∃ s t, run step start (opens 1 ++ [.serviceClose 1]) = some s ∧
    run step s reopened = some t ∧ t.broadcast = some (.service 1) ∧ t.succeeded = [1] := by
  obtain ⟨s, hrun, hholds, hpast, hrecord⟩ : ∃ s, run step start (opens 1 ++ [.serviceClose 1]) = some s ∧
      s.broadcast = some (.service 1) ∧ s.pc 1 = .idle ∧ s.succeeded = [1] := ⟨_, rfl, rfl, rfl, rfl⟩
  obtain ⟨t, ht⟩ : ∃ t, run step start (opens 1 ++ [.serviceClose 1] ++ reopened) = some t := ⟨_, rfl⟩
  have hboth : Along step OneThread start (opens 1 ++ [.serviceClose 1] ++ reopened) := by decide
  obtain ⟨hone, hlater⟩ := (along_append hrun).mp hboth
  rw [run_append, hrun, Option.bind_some] at ht
  have hend := no_start_while_bound hrun hone hholds (by rw [hpast]; simp) ht hlater (by decide)
  exact ⟨s, t, hrun, ht, hend.1, hend.2.trans hrecord⟩

end RemoteCtrl.Machine
