import RemoteCtrl.Service.Listen

/-!
# What a start leaves behind

`InitSocket` has eight exits. The last one is a start. Of the seven others, the one behind the first call has
opened nothing and the one of the search closes the socket; the other five leave at least one socket open in
`_listenfd`. No exit sets `_broadcastfd` back to -1.
-/

namespace RemoteCtrl

/-- Both globals are sockets this call has opened, bound and left open; the first one listens. -/
structure Started (env : InitEnv) (run : InitRun) : Prop where
  ret : 0 ≤ run.ret
  listenfd : run.globals.listenfd ∈ run.opened ∧ run.globals.listenfd ∉ run.closed
  listening : run.bound.isSome ∧ 0 ≤ env.listen
  broadcastfd : run.globals.broadcastfd ∈ run.opened ∧ run.globals.broadcastfd ∉ run.closed
  receiving : env.udpBind = 0

/-- Nothing is left of the call. -/
structure Undone (run : InitRun) : Prop where
  ret : run.ret < 0
  closed : ∀ fd ∈ run.opened, fd ∈ run.closed
  listenfd : run.globals.listenfd = -1
  broadcastfd : run.globals.broadcastfd = -1

def AllOrNothing (env : InitEnv) (run : InitRun) : Prop := Started env run ∨ Undone run

/-- Some port the search comes to can be bound. -/
def PortFree (env : InitEnv) (globals : Globals) : Prop := ∃ q ∈ searchPorts globals.port, env.binds q = true

/-- Every call succeeds; or the first one fails, or the search does, in a process that has no broadcast socket. -/
def CleanExit (env : InitEnv) (globals : Globals) : Prop :=
  (0 ≤ env.tcpSocket ∧ 0 ≤ env.reuseAddr ∧ PortFree env globals ∧ env.Completes) ∨
    (globals.broadcastfd = -1 ∧
      (env.tcpSocket = -1 ∨ (0 ≤ env.tcpSocket ∧ 0 ≤ env.reuseAddr ∧ ¬PortFree env globals)))

theorem portSearch_bound_iff (env : InitEnv) (globals : Globals) :
    (portSearch env.binds globals.port).bound.isSome ↔ PortFree env globals := by
  rw [(portSearch_spec env.binds globals.port_lt).1, List.find?_isSome, PortFree]

/-! ### The exits -/

/-- A negative result with a descriptor left open, or with one of the globals still set, is neither. -/
theorem not_allOrNothing {env : InitEnv} {run : InitRun} (hret : run.ret < 0) (hlistenfd : run.globals.listenfd ≠ -1) :
    ¬AllOrNothing env run := by
  rintro (hstarted | hundone)
  · have hpos := hstarted.ret
    omega
  · exact hlistenfd hundone.listenfd

theorem allOrNothing_of_ret {env : InitEnv} {run : InitRun} (hret : run.ret < 0) : AllOrNothing env run ↔ Undone run :=
  or_iff_right fun hstarted => by
    have hpos := hstarted.ret
    omega

/-- The exits behind `listen`. The listening socket is never given back there. -/
theorem initBroadcast_allOrNothing {env : InitEnv} {run : InitRun} (hfd : 0 ≤ run.globals.listenfd)
    (hopened : run.opened = [run.globals.listenfd]) (hclosed : run.closed = []) (hbound : run.bound.isSome)
    (hlisten : 0 ≤ env.listen) :
    AllOrNothing env (initBroadcast env run) ↔ env.udpSocket ≠ -1 ∧ env.udpBind = 0 ∧ 0 ≤ env.membership := by
  have hset : run.globals.listenfd ≠ -1 := by omega
  have hfail : (-1 : Int) < 0 := by decide
  simp only [initBroadcast]
  split
  · next hsocket => exact iff_of_false (not_allOrNothing hfail hset) fun h => h.1 hsocket
  · next hsocket =>
      split
      · next hbind => exact iff_of_false (not_allOrNothing hfail hset) fun h => hbind h.2.1
      · next hbind =>
          split
          · next hmember => exact iff_of_false (not_allOrNothing hfail hset) fun h => by omega
          · next hmember =>
              refine iff_of_true (.inl ?_) ⟨hsocket, not_not.mp hbind, by omega⟩
              constructor
              · exact hfd
              · simp [hopened, hclosed]
              · exact ⟨hbound, hlisten⟩
              · simp [hclosed]
              · exact not_not.mp hbind

/-- **Starts.** `InitSocket` is all-or-nothing exactly when every call succeeds, or the first one or the search
fails while `_broadcastfd` is -1. -/
theorem all_or_nothing_iff (env : InitEnv) (globals : Globals) :
    AllOrNothing env (initSocket env globals) ↔ CleanExit env globals := by
  have hfail : (-1 : Int) < 0 := by decide
  have hfree := portSearch_bound_iff env globals
  rw [CleanExit, initSocket]
  by_cases hsocket : env.tcpSocket < 0
  · rw [if_pos hsocket]
    refine Iff.trans (allOrNothing_of_ret hfail) ?_
    constructor
    · intro hundone
      exact .inr ⟨hundone.broadcastfd, .inl hundone.listenfd⟩
    · rintro (⟨hpos, -⟩ | ⟨hbroadcast, htcp | ⟨hpos, -⟩⟩)
      · omega
      · exact ⟨hfail, by simp, htcp, hbroadcast⟩
      · omega
  have hset : env.tcpSocket ≠ -1 := by omega
  have hfd : 0 ≤ env.tcpSocket := Int.not_lt.mp hsocket
  simp only [hsocket, if_false, hset, false_or, hfd, true_and]
  by_cases hreuse : env.reuseAddr < 0
  · simp only [hreuse, if_true, Int.not_le.mpr hreuse, false_and, and_false, or_false, iff_false]
    exact not_allOrNothing hreuse hset
  simp only [hreuse, if_false, Int.not_lt.mp hreuse, true_and]
  split
  · next hnone =>
      have htaken : ¬PortFree env globals := by
        rw [← hfree, hnone]
        simp
      simp only [htaken, false_and, false_or, not_false_eq_true, and_true]
      refine Iff.trans (allOrNothing_of_ret hfail) ?_
      constructor
      · intro hundone
        exact hundone.broadcastfd
      · intro hbroadcast
        exact ⟨hfail, fun fd hfd => hfd, rfl, hbroadcast⟩
  · next port hsome =>
      have hport : PortFree env globals := by
        rw [← hfree, hsome]
        simp
      simp only [hport, true_and, not_true_eq_false, and_false, or_false, InitEnv.Completes]
      split
      · next hlisten => exact iff_of_false (not_allOrNothing hlisten hset) fun h => by omega
      · next hlisten =>
          rw [initBroadcast_allOrNothing (by exact hfd) rfl rfl rfl (Int.not_lt.mp hlisten)]
          exact (and_iff_right (Int.not_lt.mp hlisten)).symm

/-- The broadcast port is taken: the second `bind` fails. -/
def broadcastTaken : InitEnv := { startWith true with udpBind := -1 }

/-- The first socket stays open and listens, and `_broadcastfd` keeps the number of the closed one. -/
theorem failed_start_listens :
    (initSocket broadcastTaken Server.new.globals).ret = -1 ∧
      (initSocket broadcastTaken Server.new.globals).globals.listenfd = 3 ∧
      (initSocket broadcastTaken Server.new.globals).globals.broadcastfd = 4 ∧
      (initSocket broadcastTaken Server.new.globals).closed = [4] ∧
      ¬AllOrNothing broadcastTaken (initSocket broadcastTaken Server.new.globals) := by
  have hsearch (port : Nat) :
      portSearch broadcastTaken.binds port = { tried := [port], bound := some port, port } := by
    have hbinds : broadcastTaken.binds port = true := rfl
    rw [portSearch, if_pos hbinds]
  have hrun : (initSocket broadcastTaken Server.new.globals).ret = -1 ∧
      (initSocket broadcastTaken Server.new.globals).globals.listenfd = 3 ∧
      (initSocket broadcastTaken Server.new.globals).globals.broadcastfd = 4 ∧
      (initSocket broadcastTaken Server.new.globals).closed = [4] := by
    simp only [initSocket, hsearch]
    exact ⟨rfl, rfl, rfl, rfl⟩
  obtain ⟨hret, hlistenfd, hbroadcastfd, hclosed⟩ := hrun
  refine ⟨hret, hlistenfd, hbroadcastfd, hclosed, not_allOrNothing ?_ ?_⟩
  · rw [hret]
    decide
  · rw [hlistenfd]
    decide

end RemoteCtrl
