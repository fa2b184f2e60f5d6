import RemoteCtrl.Service.Progress

/-!
# A start among others

A process that makes the calls of `InitSocket` among all the others, and has them answered alike, comes where the
function comes to when it runs alone.
-/

namespace RemoteCtrl.Machine

open CProgram.Transition

/-- What `env` answers to the next call. -/
def allows (env : InitEnv) (port : Nat) : Pc → Bool
  | .socket => 0 ≤ env.tcpSocket
  | .reuse => 0 ≤ env.reuseAddr
  | .bind => env.binds port
  | .listen => 0 ≤ env.listen
  | .broadcastSocket => env.udpSocket ≠ -1
  | .broadcastBind => env.udpBind = 0
  | .membership => 0 ≤ env.membership
  | _ => false

/-- The process makes its calls, and `env` answers them. What the others do is free. -/
def Answered (env : InitEnv) (p : Nat) (s : State) : Event → Prop
  | .call p' ok ephemeral => p' = p → ok = allows env (s.port p) (s.pc p) ∧ ephemeral = env.ephemeral
  | .serviceOpen p' => p' ≠ p
  | .leave p' => p' ≠ p
  | .serviceClose p' => p' ≠ p
  | .exit p' => p' ≠ p
  | _ => True

instance (env : InitEnv) (p : Nat) (s : State) : (e : Event) → Decidable (Answered env p s e)
  | .call .. => inferInstanceAs (Decidable (_ → _ ∧ _))
  | .serviceOpen _ => inferInstanceAs (Decidable (_ ≠ _))
  | .leave _ => inferInstanceAs (Decidable (_ ≠ _))
  | .serviceClose _ => inferInstanceAs (Decidable (_ ≠ _))
  | .overlapped .. => .isTrue trivial
  | .exit _ => inferInstanceAs (Decidable (_ ≠ _))
  | .takePort _ => .isTrue trivial
  | .givePort _ => .isTrue trivial
  | .takeBroadcast => .isTrue trivial
  | .giveBroadcast => .isTrue trivial

section
variable (env : InitEnv) (globals : Globals)

/-- The search is over and has found this port. -/
def HasBound (port bound : Nat) : Prop :=
  (0 ≤ env.tcpSocket ∧ 0 ≤ env.reuseAddr) ∧ (portSearch env.binds globals.port).bound = some port ∧
    bound = boundPort env.ephemeral port

/-- `InitSocket` leaves these ports behind. -/
def Leaves (port bound : Nat) : Prop :=
  (initSocket env globals).globals.port = port ∧ ∀ q, (initSocket env globals).bound = some q → bound = q

/-- How far a start has come that goes as `InitSocket` goes from `globals`. -/
def Follows (port bound : Nat) : Pc → Prop
  | .socket => port = globals.port
  | .reuse => port = globals.port ∧ 0 ≤ env.tcpSocket
  | .bind => (0 ≤ env.tcpSocket ∧ 0 ≤ env.reuseAddr) ∧
      (portSearch env.binds port).bound = (portSearch env.binds globals.port).bound ∧
      (portSearch env.binds port).port = (portSearch env.binds globals.port).port
  | .listen => HasBound env globals port bound
  | .broadcastSocket => HasBound env globals port bound ∧ 0 ≤ env.listen
  | .broadcastBind => HasBound env globals port bound ∧ 0 ≤ env.listen ∧ env.udpSocket ≠ -1
  | .membership => HasBound env globals port bound ∧ 0 ≤ env.listen ∧ env.udpSocket ≠ -1 ∧ env.udpBind = 0
  | .looping => Leaves env globals port bound ∧ 0 ≤ (initSocket env globals).ret
  | .idle => Leaves env globals port bound ∧ (initSocket env globals).ret < 0
  | .overlapping => False
  | .ended => False

variable {env globals}

theorem leaves_of_refused {port bound : Nat} (hport : port = globals.port)
    (hrefused : ¬ (0 ≤ env.tcpSocket ∧ 0 ≤ env.reuseAddr)) :
    Leaves env globals port bound ∧ (initSocket env globals).ret < 0 := by
  subst hport
  rw [Leaves]
  simp only [initSocket]
  split
  · exact ⟨⟨rfl, fun _ h => by simp at h⟩, show (-1 : Int) < 0 by decide⟩
  · next hsocket =>
      have hreuse : env.reuseAddr < 0 := by omega
      rw [if_pos hreuse]
      exact ⟨⟨rfl, fun _ h => by simp at h⟩, hreuse⟩

theorem leaves_of_unbound {port bound : Nat} (hreaches : 0 ≤ env.tcpSocket ∧ 0 ≤ env.reuseAddr)
    (hnone : (portSearch env.binds globals.port).bound = none)
    (hport : (portSearch env.binds globals.port).port = port) :
    Leaves env globals port bound ∧ (initSocket env globals).ret < 0 := by
  rw [Leaves]
  simp only [initSocket, if_neg (Int.not_lt.mpr hreaches.1), if_neg (Int.not_lt.mpr hreaches.2), hnone]
  exact ⟨⟨hport, fun _ h => by simp at h⟩, by decide⟩

theorem HasBound.leaves {port bound : Nat} (hbound : HasBound env globals port bound) :
    Leaves env globals port bound ∧ (0 ≤ (initSocket env globals).ret ↔ env.Completes) := by
  obtain ⟨hreaches, hsome, rfl⟩ := hbound
  have hsearch := (portSearch_spec env.binds globals.port_lt).1
  rcases initSocket_cases env globals with ⟨hnot, -⟩ | ⟨-, hnone, -⟩ | ⟨-, q, hfind, hq, hport, hret⟩
  · exact absurd hreaches hnot
  · rw [hsome, hnone] at hsearch
    contradiction
  · obtain rfl : port = q := Option.some.inj (hsome.symm.trans (hsearch.trans hfind))
    exact ⟨⟨hport, fun q' hq' => Option.some.inj (hq.symm.trans hq')⟩, hret⟩

theorem HasBound.fails {port bound : Nat} (hbound : HasBound env globals port bound) (hnot : ¬ env.Completes) :
    Leaves env globals port bound ∧ (initSocket env globals).ret < 0 :=
  ⟨hbound.leaves.1, Int.not_le.mp fun h => hnot (hbound.leaves.2.mp h)⟩

end

def State.Follows (env : InitEnv) (globals : Globals) (p : Nat) (s : State) : Prop :=
  Machine.Follows env globals (s.port p) (s.bound p) (s.pc p)

section
variable {env : InitEnv} {globals : Globals} {p : Nat}

theorem follows_of {t : State} {pc : Pc} {port bound : Nat} (hpc : t.pc p = pc) (hport : t.port p = port)
    (hbound : t.bound p = bound) (hfollows : Machine.Follows env globals port bound pc) : t.Follows env globals p := by
  rw [State.Follows, hpc, hport, hbound]
  exact hfollows

/-- The next call of the search. -/
theorem portSearch_next {binds : Nat → Bool} {port : Nat} (hfails : binds port = false)
    (hnext : ¬ nextPort port > lastPort) :
    (portSearch binds port).bound = (portSearch binds (nextPort port)).bound ∧
      (portSearch binds port).port = (portSearch binds (nextPort port)).port := by
  rw [portSearch, if_neg (by simp [hfails]), if_neg hnext]
  exact ⟨rfl, rfl⟩

theorem portSearch_last {binds : Nat → Bool} {port : Nat} (hfails : binds port = false)
    (hnext : nextPort port > lastPort) :
    (portSearch binds port).bound = none ∧ (portSearch binds port).port = nextPort port := by
  rw [portSearch, if_neg (by simp [hfails]), if_pos hnext]
  exact ⟨rfl, rfl⟩

theorem portSearch_first {binds : Nat → Bool} {port : Nat} (hbinds : binds port = true) :
    (portSearch binds port).bound = some port := by
  rw [portSearch, if_pos hbinds]

theorem follows_call {s t : State} {ok : Bool} (hfollows : s.Follows env globals p)
    (hok : ok = allows env (s.port p) (s.pc p)) (hmade : Made s p env.ephemeral ok t) : t.Follows env globals p := by
  rw [State.Follows] at hfollows
  cases hmade with
  | fails hpc =>
      refine follows_of (goto_self s p _) rfl rfl ?_
      cases hcall : s.pc p with
      | socket =>
          rw [hcall] at hfollows hok
          exact leaves_of_refused hfollows fun h => of_decide_eq_false hok.symm h.1
      | reuse =>
          rw [hcall] at hfollows hok
          exact leaves_of_refused hfollows.1 fun h => of_decide_eq_false hok.symm h.2
      | listen =>
          rw [hcall] at hfollows hok
          exact hfollows.fails fun h => of_decide_eq_false hok.symm h.1
      | broadcastSocket =>
          rw [hcall] at hfollows hok
          exact hfollows.1.fails fun h => of_decide_eq_false hok.symm h.2.1
      | broadcastBind =>
          rw [hcall] at hfollows hok
          exact hfollows.1.fails fun h => of_decide_eq_false hok.symm h.2.2.1
      | membership =>
          rw [hcall] at hfollows hok
          exact hfollows.1.fails fun h => of_decide_eq_false hok.symm h.2.2.2
      | idle | bind | looping | overlapping | ended => exact absurd (by simp [hcall]) hpc
  | socket hpc =>
      rw [hpc] at hfollows hok
      exact follows_of (goto_self s p _) rfl rfl ⟨hfollows, of_decide_eq_true hok.symm⟩
  | reuse hpc =>
      rw [hpc] at hfollows hok
      obtain ⟨hport, hsocket⟩ := hfollows
      exact follows_of (goto_self s p _) hport rfl ⟨⟨hsocket, of_decide_eq_true hok.symm⟩, rfl, rfl⟩
  | bindFails hpc =>
      rw [hpc] at hfollows hok
      obtain ⟨hreaches, hbound, hport⟩ := hfollows
      have hfails : env.binds (s.port p) = false := hok.symm
      refine follows_of (goto_self s p _) (Function.update_self ..) rfl ?_
      split
      · next hnext =>
          obtain ⟨hnone, hlast⟩ := portSearch_last hfails hnext
          exact leaves_of_unbound hreaches (hbound.symm.trans hnone) (hport.symm.trans hlast)
      · next hnext =>
          obtain ⟨hsame, hsamePort⟩ := portSearch_next hfails hnext
          exact ⟨hreaches, hsame.symm.trans hbound, hsamePort.symm.trans hport⟩
  | binds hpc hfree =>
      rw [hpc] at hfollows hok
      obtain ⟨hreaches, hbound, -⟩ := hfollows
      exact follows_of (goto_self s p _) rfl (Function.update_self ..)
        ⟨hreaches, hbound.symm.trans (portSearch_first hok.symm), rfl⟩
  | listens hpc hfree =>
      rw [hpc] at hfollows hok
      exact follows_of (goto_self s p _) rfl rfl ⟨hfollows, of_decide_eq_true hok.symm⟩
  | broadcastSocket hpc =>
      rw [hpc] at hfollows hok
      exact follows_of (goto_self s p _) rfl rfl ⟨hfollows.1, hfollows.2, of_decide_eq_true hok.symm⟩
  | broadcastBinds hpc hfree =>
      rw [hpc] at hfollows hok
      exact follows_of (goto_self s p _) rfl rfl
        ⟨hfollows.1, hfollows.2.1, hfollows.2.2, of_decide_eq_true hok.symm⟩
  | succeeds hpc =>
      rw [hpc] at hfollows hok
      obtain ⟨hbound, hlisten, hsocket, hbind⟩ := hfollows
      exact follows_of (goto_self s p _) rfl rfl
        ⟨hbound.leaves.1, hbound.leaves.2.mpr ⟨hlisten, hsocket, hbind, of_decide_eq_true hok.symm⟩⟩

theorem follows_other {s : State} {p' : Nat} (hfollows : s.Follows env globals p) (hne : p' ≠ p) (pc : Pc) :
    (s.goto p' pc).Follows env globals p :=
  follows_of (goto_of_ne s hne.symm pc) rfl rfl hfollows

theorem follows_step {s t : State} {e : Event} (hfollows : s.Follows env globals p) (hanswered : Answered env p s e)
    (hstep : step s e = some t) : t.Follows env globals p := by
  cases moves_of_step hstep with
  | serviceOpen | overlaps | leave | serviceClose | exit => exact follows_other hfollows hanswered _
  | @overlapped p' _ _ hpc heffect =>
      have hne : p ≠ p' := by
        rintro rfl
        rw [State.Follows, hpc] at hfollows
        exact hfollows
      obtain ⟨hpcs, hglobals, -⟩ := overlapped_frame heffect
      exact follows_of (congrFun hpcs p) (hglobals p hne).1 (hglobals p hne).2 hfollows
  | @call p' ephemeral _ _ hmade =>
      by_cases hp : p' = p
      · subst hp
        obtain ⟨hok, rfl⟩ := hanswered rfl
        exact follows_call hfollows hok hmade
      · obtain ⟨hpc, hport, hbound⟩ := hmade.frame (Ne.symm hp)
        exact follows_of hpc hport hbound hfollows
  | takePort | givePort | takeBroadcast | giveBroadcast => exact hfollows

/-- **Among others a start does what `InitSocket` does alone**, when its calls are answered alike: it comes to the loop
if the function succeeds, and leaves the same `_port` and the same port of the listening socket. -/
theorem start_follows_initSocket {s t : State} {es : List Event} (hrun : run step s es = some t)
    (hanswered : Along step (Answered env p) s es) (hpc : s.pc p = .socket) (hport : s.port p = globals.port)
    (hrest : t.pc p = .idle ∨ t.pc p = .looping) :
    (t.pc p = .looping ↔ 0 ≤ (initSocket env globals).ret) ∧ t.port p = (initSocket env globals).globals.port ∧
      ∀ q, (initSocket env globals).bound = some q → t.bound p = q := by
  have hbegin : s.Follows env globals p := by
    rw [State.Follows, hpc]
    exact hport
  have hend : t.Follows env globals p :=
    run_invariant_along (fun _ _ _ hfollows hanswered hstep => follows_step hfollows hanswered hstep) hrun hanswered
      hbegin
  rw [State.Follows] at hend
  rcases hrest with hidle | hlooping
  · rw [hidle] at hend ⊢
    exact ⟨iff_of_false (by simp) (Int.not_le.mpr hend.2), hend.1.1.symm, hend.1.2⟩
  · rw [hlooping] at hend ⊢
    exact ⟨iff_of_true rfl hend.2, hend.1.1.symm, hend.1.2⟩

end

/-- The first port of the range is taken. -/
def firstTaken : InitEnv := { startWith true with binds := fun q => q ≠ serviceBasePort }

/-- A start with another beside it, and the first port given back on the way. -/
def besideAnother : List Event :=
  [.call 1 true 32768, .serviceOpen 2, .call 1 true 32768, .call 1 false 32768, .givePort serviceBasePort,
    .call 2 true 32768, .call 1 true 32768, .call 1 true 32768, .call 1 true 32768, .call 1 true 32768,
    .call 1 true 32768]

theorem start_follows_initSocket_beside : ∃ t, run step opened besideAnother = some t ∧
    t.pc 1 = .looping ∧ t.port 1 = (initSocket firstTaken Server.new.globals).globals.port := by
  obtain ⟨t, ht, hlooping⟩ : ∃ t, run step opened besideAnother = some t ∧ t.pc 1 = .looping := ⟨_, rfl, rfl⟩
  have hanswered : Along step (Answered firstTaken 1) opened besideAnother := by decide
  have hport : opened.port 1 = Server.new.globals.port := rfl
  exact ⟨t, ht, hlooping, (start_follows_initSocket ht hanswered rfl hport (.inr hlooping)).2.1⟩

end RemoteCtrl.Machine
