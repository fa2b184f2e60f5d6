import RemoteCtrl.Service.Machine

/-!
# A start that can come through

In front of its first call a process can bring the service up, if the others keep still, exactly when nobody holds the
broadcast port and nobody listens on one of the ports its search comes to.
-/

namespace RemoteCtrl.Machine

open CProgram.Transition

/-- A process left alone with its calls. -/
def callStep (p : Nat) (s : State) (result : Bool × Nat) : Option State := s.call p result.1 result.2

/-- A port of the search on which nobody listens. -/
def FreePort (s : State) (p : Nat) : Prop :=
  ∃ q ∈ searchPorts (s.port p), ∃ ephemeral, s.listening (boundPort ephemeral q) = none

/-- Nothing has been taken yet, and the search has not left what it began with. -/
structure Searching (s : State) (p : Nat) (t : State) : Prop where
  broadcast : t.broadcast = s.broadcast
  listening : t.listening = s.listening
  port_lt : t.port p < 2 ^ 32
  ports : ∀ q ∈ searchPorts (t.port p), q ∈ searchPorts (s.port p)

/-- What a start that has come so far has found. -/
def Found (s : State) (p : Nat) (t : State) : Prop :=
  match t.pc p with
  | .socket => Searching s p t
  | .reuse => Searching s p t
  | .bind => Searching s p t
  | .listen => t.broadcast = s.broadcast ∧ FreePort s p
  | .broadcastSocket => t.broadcast = s.broadcast ∧ FreePort s p
  | .broadcastBind => t.broadcast = s.broadcast ∧ FreePort s p
  | .membership => s.broadcast = none ∧ FreePort s p
  | .looping => s.broadcast = none ∧ FreePort s p
  | _ => True

theorem found_call {s t u : State} {p ephemeral : Nat} {ok : Bool} (hfound : Found s p t)
    (hstep : t.call p ok ephemeral = some u) : Found s p u := by
  rw [Found] at hfound ⊢
  cases made_of_call hstep with
  | fails hpc =>
      rw [goto_self]
      trivial
  | socket hpc | reuse hpc =>
      rw [goto_self]
      rw [hpc] at hfound
      exact ⟨hfound.broadcast, hfound.listening, hfound.port_lt, hfound.ports⟩
  | bindFails hpc =>
      rw [hpc] at hfound
      dsimp only
      rw [goto_self]
      by_cases hnext : nextPort (t.port p) > lastPort
      · rw [if_pos hnext]
        trivial
      · rw [if_neg hnext]
        refine ⟨hfound.broadcast, hfound.listening, ?_, fun q hq => ?_⟩
        · dsimp only
          rw [Function.update_self]
          exact Nat.mod_lt _ (by decide)
        · dsimp only at hq
          rw [Function.update_self] at hq
          apply hfound.ports
          rw [searchPorts_eq hfound.port_lt, if_neg hnext]
          exact List.mem_cons_of_mem _ hq
  | binds hpc hfree =>
      rw [hpc] at hfound
      dsimp only
      rw [goto_self]
      refine ⟨hfound.broadcast, t.port p, hfound.ports _ ?_, ephemeral, hfound.listening ▸ hfree⟩
      rw [searchPorts_eq hfound.port_lt]
      exact List.mem_cons_self
  | listens hpc hfree =>
      rw [hpc] at hfound
      dsimp only
      rw [goto_self]
      exact hfound
  | broadcastSocket hpc =>
      rw [hpc] at hfound
      rw [goto_self]
      exact hfound
  | broadcastBinds hpc hfree =>
      rw [hpc] at hfound
      dsimp only
      rw [goto_self]
      exact ⟨hfound.1.symm.trans hfree, hfound.2⟩
  | succeeds hpc =>
      rw [hpc] at hfound
      dsimp only
      rw [goto_self]
      exact hfound

/-- The search comes to a port of its own that is free. -/
theorem search_finds {p q ephemeral : Nat} (port : Nat) {s : State} (hpc : s.pc p = .bind) (hport : s.port p = port)
    (hlt : port < 2 ^ 32) (hq : q ∈ searchPorts port) (hfree : s.listening (boundPort ephemeral q) = none) :
    ∃ t, Reaches (callStep p) s t ∧ t.pc p = .listen ∧ t.listening (t.bound p) = none ∧
      t.broadcast = s.broadcast := by
  -- along the search that only this port satisfies
  induction port using portSearch.induct (fun port => decide (port = q)) generalizing s with
  | case1 port hbinds =>
      obtain rfl : port = q := of_decide_eq_true hbinds
      subst hport
      refine ⟨_, .of_step (e := (true, ephemeral)) (call_of_made (.binds hpc hfree)), goto_self s p _, ?_, rfl⟩
      dsimp only
      rw [Function.update_self]
      exact hfree
  | case2 port hbinds hnext =>
      rw [searchPorts_eq hlt, if_pos hnext, List.mem_singleton] at hq
      exact absurd (decide_eq_true hq.symm) hbinds
  | case3 port hbinds hnext ih =>
      rw [searchPorts_eq hlt, if_neg hnext] at hq
      have hlater : q ∈ searchPorts (nextPort port) :=
        (List.mem_cons.mp hq).resolve_left fun h => hbinds (decide_eq_true h.symm)
      subst hport
      have hstep : callStep p s (false, 0) = some _ := call_of_made (.bindFails hpc)
      rw [if_neg hnext] at hstep
      obtain ⟨t, hreach, hend⟩ :=
        ih (s := { s.goto p .bind with port := Function.update s.port p (nextPort (s.port p)) }) (goto_self s p _)
          (Function.update_self ..) (Nat.mod_lt _ (by decide)) hlater hfree
      exact ⟨t, (Reaches.of_step hstep).trans hreach, hend⟩

theorem port_lt_step {s t : State} {e : Event} (hport : ∀ p, s.port p < 2 ^ 32) (hstep : step s e = some t) :
    ∀ p, t.port p < 2 ^ 32 := by
  cases moves_of_step hstep with
  | @call p _ _ _ hmade =>
      cases hmade with
      | bindFails hpc =>
          have hnext : nextPort (s.port p) < 2 ^ 32 := Nat.mod_lt _ (by decide)
          exact (Function.forall_update_iff s.port fun _ n => n < 2 ^ 32).mpr ⟨hnext, fun p' _ => hport p'⟩
      | _ => exact hport
  | overlapped hpc heffect => exact (overlapped_frame heffect).2.2 hport
  | _ => exact hport

/-- **A start can come through, left alone, exactly when** nobody holds the broadcast port and nobody listens on one of
the ports of its search. -/
theorem comes_through_iff {s : State} (hreach : Reaches step start s) {p : Nat} (hpc : s.pc p = .socket) :
    (∃ t, Reaches (callStep p) s t ∧ t.pc p = .looping) ↔ s.broadcast = none ∧ FreePort s p := by
  have hports : ∀ p, s.port p < 2 ^ 32 :=
    hreach.invariant (fun _ _ _ hport hstep => port_lt_step hport hstep)
      fun _ => show serviceBasePort < 2 ^ 32 by decide
  constructor
  · rintro ⟨t, hreach, hlooping⟩
    have hbegin : Found s p s := by
      rw [Found, hpc]
      exact ⟨rfl, rfl, hports p, fun _ h => h⟩
    have hend : Found s p t := hreach.invariant (fun _ _ _ hfound hstep => found_call hfound hstep) hbegin
    rw [Found, hlooping] at hend
    exact hend
  · rintro ⟨hbroadcast, q, hq, ephemeral, hfree⟩
    have hsocket : callStep p s (true, 0) = some _ := call_of_made (.socket hpc)
    have hreuse : callStep p (s.goto p .reuse) (true, 0) = some _ := call_of_made (.reuse (goto_self s p _))
    obtain ⟨t, hsearch, hlisten, hbound, hsame⟩ :=
      search_finds (s.port p) (s := (s.goto p .reuse).goto p .bind) (goto_self _ p _) rfl (hports p) hq hfree
    have hlistens : callStep p t (true, 0) = some _ := call_of_made (.listens hlisten hbound)
    obtain ⟨u, hu, hupc, hubroadcast⟩ : ∃ u, callStep p t (true, 0) = some u ∧ u.pc p = .broadcastSocket ∧
        u.broadcast = none := ⟨_, hlistens, goto_self t p _, hsame.trans hbroadcast⟩
    have hbroadcastSocket : callStep p u (true, 0) = some _ := call_of_made (.broadcastSocket hupc)
    have hbinds : callStep p (u.goto p .broadcastBind) (true, 0) = some _ :=
      call_of_made (.broadcastBinds (goto_self u p _) hubroadcast)
    have hsucceeds : callStep p { (u.goto p .broadcastBind).goto p .membership with
        broadcast := some (.service p) } (true, 0) = some _ := call_of_made (.succeeds (goto_self _ p _))
    refine ⟨_, ((Reaches.of_step hsocket).trans (.of_step hreuse)).trans (hsearch.trans ((Reaches.of_step hu).trans
      ((Reaches.of_step hbroadcastSocket).trans ((Reaches.of_step hbinds).trans (.of_step hsucceeds))))), ?_⟩
    exact goto_self _ p _

/-- A process in front of its first call; the first port of the range is taken. -/
def opened : State :=
  { start.goto 1 .socket with
    listening := Function.update start.listening serviceBasePort (some .stranger) }

theorem comes_through_iff_second_port : ∃ t, Reaches (callStep 1) opened t ∧ t.pc 1 = .looping := by
  have hreach : Reaches step start opened := ⟨[.takePort serviceBasePort, .serviceOpen 1], rfl⟩
  exact (comes_through_iff hreach rfl).mpr ⟨rfl, serviceBasePort + 1, by decide, 0, rfl⟩

end RemoteCtrl.Machine
