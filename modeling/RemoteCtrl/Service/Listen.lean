import RemoteCtrl.Foundation.Transition
import Mathlib.Data.List.Range
import Mathlib.Tactic.Ring

/-!
# The sockets of the service

`InitSocket` and the starts of `RemoteCtrlServer`. The search for a port begins at the global `_port`, which
a failed bind advances before the limit is tested and nothing resets. So a start after a failed one begins
where that one has stopped, and the law of the port range holds of exactly those starts that find a port in
the range, or try the whole of it.
-/

namespace RemoteCtrl

open CProgram.Transition

def serviceBasePort : Nat := 4011

def lastPort : Nat := serviceBasePort + 100

/-! ### The search -/

/-- `++_port` on an `unsigned int`. -/
def nextPort (port : Nat) : Nat := (port + 1) % 2 ^ 32

structure PortSearch where
  tried : List Nat
  bound : Option Nat
  port : Nat
  deriving DecidableEq, Repr

theorem nextPort_lt {port : Nat} (hnext : nextPort port ≤ lastPort) :
    (if nextPort port ≤ lastPort then lastPort - nextPort port else lastPort + 1) <
      if port ≤ lastPort then lastPort - port else lastPort + 1 := by
  rw [if_pos hnext]
  have hmod : nextPort port = (port + 1) % 2 ^ 32 := rfl
  have hlast : lastPort = 4111 := rfl
  split
  · omega
  · omega

/-- The loop around `bind`; `binds` tells of which value of `_port` the call succeeds. -/
def portSearch (binds : Nat → Bool) (port : Nat) : PortSearch :=
  if binds port then
    { tried := [port], bound := some port, port }
  else if nextPort port > lastPort then
    { tried := [port], bound := none, port := nextPort port }
  else
    let rest := portSearch binds (nextPort port)
    { rest with tried := port :: rest.tried }
termination_by if port ≤ lastPort then lastPort - port else lastPort + 1
decreasing_by exact nextPort_lt (by omega)

/-- The values of `_port` the loop runs through as long as `bind` fails. Only the largest `unsigned int`
leads back into the range. -/
def searchPorts (port : Nat) : List Nat :=
  if port ≤ lastPort then List.range' port (lastPort + 1 - port)
  else if port + 1 = 2 ^ 32 then port :: List.range' 0 (lastPort + 1)
  else [port]

theorem searchPorts_eq {port : Nat} (hport : port < 2 ^ 32) :
    searchPorts port = port :: if nextPort port > lastPort then [] else searchPorts (nextPort port) := by
  by_cases hrange : port ≤ lastPort
  · have hnext : nextPort port = port + 1 := by
      simp only [nextPort, lastPort, serviceBasePort] at *
      omega
    rw [searchPorts, if_pos hrange, hnext, show lastPort + 1 - port = (lastPort - port) + 1 by omega,
      List.range'_succ]
    congr 1
    split
    · rw [show lastPort - port = 0 by omega, List.range'_zero]
    · rw [searchPorts, if_pos (by omega), show lastPort + 1 - (port + 1) = lastPort - port by omega]
  · rw [searchPorts, if_neg hrange]
    by_cases hwrap : port + 1 = 2 ^ 32
    · have hnext : nextPort port = 0 := by rw [nextPort, hwrap, Nat.mod_self]
      rw [if_pos hwrap, hnext, if_neg (Nat.not_lt_zero _), searchPorts, if_pos (Nat.zero_le _), Nat.sub_zero]
    · have hnext : nextPort port = port + 1 := Nat.mod_eq_of_lt (by omega)
      rw [if_neg hwrap, hnext, if_pos (by omega)]

/-- `_port` behind a search that binds nothing. -/
def portBehind (port : Nat) : Nat := if port ≤ lastPort ∨ port + 1 = 2 ^ 32 then lastPort + 1 else port + 1

theorem portBehind_of_next {port : Nat} (hport : port < 2 ^ 32) (hnext : lastPort < nextPort port) :
    nextPort port = portBehind port := by
  have hlast : lastPort = 4111 := rfl
  rw [nextPort] at hnext ⊢
  rw [portBehind]
  split
  · omega
  · omega

theorem portBehind_nextPort {port : Nat} (hport : port < 2 ^ 32) (hnext : nextPort port ≤ lastPort) :
    portBehind (nextPort port) = portBehind port := by
  have hlast : lastPort = 4111 := rfl
  rw [portBehind, if_pos (.inl hnext), portBehind, if_pos]
  rw [nextPort] at hnext
  omega

/-- The search binds the first of its ports that can be bound. If there is none it has tried them all, and leaves
`_port` behind the range. -/
theorem portSearch_spec (binds : Nat → Bool) {port : Nat} (hport : port < 2 ^ 32) :
    (portSearch binds port).bound = (searchPorts port).find? binds ∧
      (∀ q, (portSearch binds port).bound = some q → (portSearch binds port).port = q) ∧
      ((portSearch binds port).bound = none →
        (portSearch binds port).tried = searchPorts port ∧ (portSearch binds port).port = portBehind port) := by
  induction port using portSearch.induct binds with
  | case1 port hbinds =>
      rw [portSearch, if_pos hbinds, searchPorts_eq hport, List.find?_cons_of_pos hbinds]
      exact ⟨rfl, fun q hq => Option.some.inj hq, nofun⟩
  | case2 port hbinds hnext =>
      rw [portSearch, if_neg hbinds, if_pos hnext, searchPorts_eq hport, if_pos hnext, List.find?_cons_of_neg hbinds]
      exact ⟨rfl, nofun, fun _ => ⟨rfl, portBehind_of_next hport hnext⟩⟩
  | case3 port hbinds hnext ih =>
      obtain ⟨hbound, hsome, hnone⟩ := ih (Nat.mod_lt _ (by decide))
      rw [portBehind_nextPort hport (Nat.le_of_not_lt hnext)] at hnone
      rw [portSearch, if_neg hbinds, if_neg hnext, searchPorts_eq hport, if_neg hnext, List.find?_cons_of_neg hbinds]
      exact ⟨hbound, hsome, fun hfail => (hnone hfail).imp_left (congrArg (port :: ·))⟩

theorem range_subset_searchPorts {port : Nat} (hport : port < 2 ^ 32) :
    (∀ q, serviceBasePort ≤ q → q ≤ lastPort → q ∈ searchPorts port) ↔
      port ≤ serviceBasePort ∨ port + 1 = 2 ^ 32 := by
  simp only [searchPorts]
  split
  · next hrange =>
      simp only [List.mem_range'_1, lastPort, serviceBasePort] at *
      constructor
      · intro hall
        have hfirst := hall 4011 (by omega) (by omega)
        omega
      · intro hbegin q hlow hhigh
        omega
  · next hrange =>
      split
      · next hwrap =>
          refine iff_of_true (fun q _ hhigh => List.mem_cons_of_mem _ ?_) (.inr hwrap)
          rw [List.mem_range'_1]
          omega
      · next hwrap =>
          refine iff_of_false (fun hall => ?_) (by simp only [lastPort, serviceBasePort] at *; omega)
          have hfirst := List.mem_singleton.mp (hall serviceBasePort (Nat.le_refl _) (Nat.le_add_right _ _))
          simp only [lastPort, serviceBasePort] at *
          omega

/-! ### The function -/

structure Globals where
  listenfd : Int
  broadcastfd : Int
  port : Nat
  port_lt : port < 2 ^ 32
  deriving DecidableEq, Repr

/-- What the system calls of one `InitSocket` return. `binds` is about the TCP socket, by the value of `_port`;
asked for port 0 the system picks `ephemeral`. -/
structure InitEnv where
  tcpSocket : Int
  reuseAddr : Int
  binds : Nat → Bool
  ephemeral : Nat
  listen : Int
  udpSocket : Int
  udpBind : Int
  membership : Int

structure InitRun where
  globals : Globals
  opened : List Int
  closed : List Int
  tried : List Nat
  bound : Option Nat
  ret : Int
  deriving DecidableEq, Repr

/-- `htons` takes the low 16 bits, and a socket asked for port 0 gets one from the system. -/
def boundPort (ephemeral port : Nat) : Nat := if port % 65536 = 0 then ephemeral else port % 65536

theorem portSearch_port_lt (binds : Nat → Bool) {port : Nat} (hport : port < 2 ^ 32) :
    (portSearch binds port).port < 2 ^ 32 := by
  induction port using portSearch.induct binds with
  | case1 port hbinds =>
      rw [portSearch, if_pos hbinds]
      exact hport
  | case2 port hbinds hnext =>
      rw [portSearch, if_neg hbinds, if_pos hnext]
      exact Nat.mod_lt _ (by decide)
  | case3 port hbinds hnext ih =>
      rw [portSearch, if_neg hbinds, if_neg hnext]
      exact ih (Nat.mod_lt _ (by decide))

def initBroadcast (env : InitEnv) (run : InitRun) : InitRun :=
  let run := { run with globals := { run.globals with broadcastfd := env.udpSocket } }
  if env.udpSocket = -1 then { run with ret := -1 }
  else
    let run := { run with opened := run.opened ++ [env.udpSocket] }
    if env.udpBind ≠ 0 then { run with closed := run.closed ++ [env.udpSocket], ret := -1 }
    -- the result of IP_MULTICAST_LOOP is not looked at
    else if env.membership < 0 then { run with ret := -1 }
    else { run with ret := run.globals.listenfd }

def initSocket (env : InitEnv) (globals : Globals) : InitRun :=
  let run : InitRun :=
    { globals := { globals with listenfd := env.tcpSocket }, opened := [], closed := [], tried := [], bound := none
      ret := -1 }
  if env.tcpSocket < 0 then run
  else
    let run := { run with opened := [env.tcpSocket] }
    if env.reuseAddr < 0 then { run with ret := env.reuseAddr }
    else
      let search := portSearch env.binds globals.port
      let port_lt := portSearch_port_lt env.binds globals.port_lt
      let run := { run with tried := search.tried }
      match search.bound with
      | none =>
          { run with
            globals := { run.globals with listenfd := -1, port := search.port, port_lt }
            closed := [env.tcpSocket] }
      | some port =>
          let run :=
            { run with
              globals := { run.globals with port := search.port, port_lt }
              bound := some (boundPort env.ephemeral port) }
          if env.listen < 0 then { run with ret := env.listen } else initBroadcast env run

/-! ### Repeated starts -/

structure Server where
  globals : Globals
  looping : Bool
  deriving DecidableEq, Repr

def Server.new : Server where
  globals := { listenfd := -1, broadcastfd := -1, port := serviceBasePort, port_lt := by decide }
  looping := false

def remoteCtrlServer (server : Server) (env : InitEnv) : Option Server :=
  if server.looping then none
  else some { globals := (initSocket env server.globals).globals, looping := 0 ≤ (initSocket env server.globals).ret }

/-- A start that succeeds listens on `_port`, inside the range; one that fails in the search has tried the
whole range. -/
def PortLaw (server : Server) (env : InitEnv) : Prop :=
  (0 ≤ (initSocket env server.globals).ret →
    (initSocket env server.globals).bound = some (initSocket env server.globals).globals.port ∧
      serviceBasePort ≤ (initSocket env server.globals).globals.port ∧
      (initSocket env server.globals).globals.port ≤ lastPort) ∧
    ((initSocket env server.globals).tried ≠ [] → (initSocket env server.globals).bound = none →
      ∀ q, serviceBasePort ≤ q → q ≤ lastPort → q ∈ (initSocket env server.globals).tried)

def InitEnv.Completes (env : InitEnv) : Prop :=
  0 ≤ env.listen ∧ env.udpSocket ≠ -1 ∧ env.udpBind = 0 ∧ 0 ≤ env.membership

/-- A start that reaches the search finds its first free port inside the range, unless a later call fails
anyway; or there is no free port, and the search begins with the first of the range. -/
def PortInRange (server : Server) (env : InitEnv) : Prop :=
  0 ≤ env.tcpSocket → 0 ≤ env.reuseAddr →
    match (searchPorts server.globals.port).find? env.binds with
    | some q => env.Completes → serviceBasePort ≤ q ∧ q ≤ lastPort
    | none => server.globals.port ≤ serviceBasePort ∨ server.globals.port + 1 = 2 ^ 32

theorem initBroadcast_spec (env : InitEnv) (run : InitRun) (hlistenfd : 0 ≤ run.globals.listenfd) :
    (0 ≤ (initBroadcast env run).ret ↔ env.udpSocket ≠ -1 ∧ env.udpBind = 0 ∧ 0 ≤ env.membership) ∧
      (initBroadcast env run).globals.port = run.globals.port ∧ (initBroadcast env run).bound = run.bound := by
  have hfail : ¬ (0 : Int) ≤ -1 := by omega
  simp only [initBroadcast]
  split
  · next hsocket => exact ⟨iff_of_false hfail fun h => h.1 hsocket, rfl, rfl⟩
  · next hsocket =>
      split
      · next hbind => exact ⟨iff_of_false hfail fun h => hbind h.2.1, rfl, rfl⟩
      · next hbind =>
          split
          · next hmember => exact ⟨iff_of_false hfail fun h => by omega, rfl, rfl⟩
          · next hmember => exact ⟨iff_of_true hlistenfd ⟨hsocket, not_not.mp hbind, by omega⟩, rfl, rfl⟩

theorem initSocket_cases (env : InitEnv) (globals : Globals) :
    (¬ (0 ≤ env.tcpSocket ∧ 0 ≤ env.reuseAddr) ∧ (initSocket env globals).tried = [] ∧
        (initSocket env globals).ret < 0 ∧ (initSocket env globals).globals.port = globals.port) ∨
      ((0 ≤ env.tcpSocket ∧ 0 ≤ env.reuseAddr) ∧ (searchPorts globals.port).find? env.binds = none ∧
        (initSocket env globals).tried = searchPorts globals.port ∧ (initSocket env globals).bound = none ∧
        (initSocket env globals).globals.port = portBehind globals.port ∧
        (initSocket env globals).ret < 0) ∨
      ((0 ≤ env.tcpSocket ∧ 0 ≤ env.reuseAddr) ∧ ∃ q, (searchPorts globals.port).find? env.binds = some q ∧
        (initSocket env globals).bound = some (boundPort env.ephemeral q) ∧
        (initSocket env globals).globals.port = q ∧ (0 ≤ (initSocket env globals).ret ↔ env.Completes)) := by
  have hfail : (-1 : Int) < 0 := by omega
  obtain ⟨hbound, hport, htried⟩ := portSearch_spec env.binds globals.port_lt
  simp only [initSocket]
  split
  · next hsocket => exact .inl ⟨by omega, rfl, hfail, rfl⟩
  · next hsocket =>
      split
      · next hreuse => exact .inl ⟨by omega, rfl, hreuse, rfl⟩
      · next hreuse =>
          have hreaches : 0 ≤ env.tcpSocket ∧ 0 ≤ env.reuseAddr := by omega
          split
          · next hnone =>
              exact .inr (.inl ⟨hreaches, hbound ▸ hnone, (htried hnone).1, rfl, (htried hnone).2, hfail⟩)
          · next q hsome =>
              refine .inr (.inr ⟨hreaches, q, hbound ▸ hsome, ?_⟩)
              split
              · next hlisten =>
                  refine ⟨rfl, hport q hsome, iff_of_false (Int.not_le.mpr hlisten) fun hall => ?_⟩
                  have hlistened := hall.1
                  omega
              · next hlisten =>
                  obtain ⟨hret, hglobals, hsocket⟩ := initBroadcast_spec env
                    { globals :=
                        { globals with
                          listenfd := env.tcpSocket, port := (portSearch env.binds globals.port).port
                          port_lt := portSearch_port_lt env.binds globals.port_lt }
                      opened := [env.tcpSocket], closed := [], tried := (portSearch env.binds globals.port).tried
                      bound := some (boundPort env.ephemeral q), ret := -1 } hreaches.1
                  exact ⟨hsocket, hglobals.trans (hport q hsome),
                    hret.trans ⟨fun h => ⟨by omega, h⟩, fun h => h.2⟩⟩

theorem boundPort_of_range {ephemeral port : Nat} (hlow : serviceBasePort ≤ port) (hhigh : port ≤ lastPort) :
    boundPort ephemeral port = port := by
  have hlast : lastPort = 4111 := rfl
  have hbase : serviceBasePort = 4011 := rfl
  rw [boundPort, if_neg (by omega), Nat.mod_eq_of_lt (by omega)]

theorem portLaw_iff (server : Server) (env : InitEnv) : PortLaw server env ↔ PortInRange server env := by
  rw [PortLaw, PortInRange]
  rcases initSocket_cases env server.globals with
    ⟨hnot, htried, hret, -⟩ | ⟨hreaches, hnone, htried, hbound, -, hret⟩ |
      ⟨hreaches, q, hsome, hbound, hport, hret⟩
  · refine iff_of_true ⟨fun hsuccess => by omega, fun hsearch => absurd htried hsearch⟩ ?_
    intro hsocket hreuse
    exact absurd ⟨hsocket, hreuse⟩ hnot
  · have hsearched : searchPorts server.globals.port ≠ [] := by
      rw [searchPorts_eq server.globals.port_lt]
      exact List.cons_ne_nil _ _
    rw [hnone, htried]
    simp only [hreaches.1, hreaches.2, hbound, hsearched, forall_const, ne_eq, not_false_eq_true,
      ← range_subset_searchPorts server.globals.port_lt]
    exact ⟨And.right, fun hall => ⟨fun hsuccess => by omega, hall⟩⟩
  · rw [hsome, hbound, hport, hret]
    simp only [hreaches.1, hreaches.2, true_imp_iff, reduceCtorEq, false_imp_iff, implies_true, and_true,
      Option.some.injEq]
    refine forall_congr' fun _ => ⟨And.right, fun hrange => ⟨boundPort_of_range hrange.1 hrange.2, hrange⟩⟩

/-- `_port` behind a start that finds it at `port`. -/
def portAfter (port : Nat) (env : InitEnv) : Nat :=
  if env.tcpSocket < 0 ∨ env.reuseAddr < 0 then port
  else
    match (searchPorts port).find? env.binds with
    | some q => q
    | none => portBehind port

theorem initSocket_port (env : InitEnv) (globals : Globals) :
    (initSocket env globals).globals.port = portAfter globals.port env := by
  rcases initSocket_cases env globals with
    ⟨hnot, -, -, hkept⟩ | ⟨hreaches, hnone, -, -, hport, -⟩ | ⟨hreaches, q, hsome, -, hport, -⟩
  · rw [hkept, portAfter, if_pos (by omega)]
  · rw [portAfter, if_neg (by omega), hnone, hport]
  · rw [portAfter, if_neg (by omega), hsome, hport]

/-- The starts of a run hand `_port` on, the failed ones too. -/
theorem run_port {envs : List InitEnv} : ∀ {server last : Server}, run remoteCtrlServer server envs = some last →
    last.globals.port = envs.foldl portAfter server.globals.port := by
  induction envs with
  | nil =>
      intro server last hrun
      rw [run_nil, Option.some.injEq] at hrun
      rw [List.foldl_nil, hrun]
  | cons env envs ih =>
      intro server last hrun
      obtain ⟨next, hstart, hrest⟩ := run_cons.mp hrun
      rw [remoteCtrlServer, Option.ite_none_left_eq_some, Option.some.injEq] at hstart
      rw [ih hrest, List.foldl_cons, ← initSocket_port, ← hstart.2]

/-- **Listening port.** Along a run of starts the law of the port holds of every start exactly when every start
finds its port in the range. Where a start begins to search follows from the starts before it. -/
theorem port_law_iff_in_range (envs : List InitEnv) :
    (Along remoteCtrlServer PortLaw .new envs ↔ Along remoteCtrlServer PortInRange .new envs) ∧
      ∀ server, run remoteCtrlServer .new envs = some server →
        server.globals.port = envs.foldl portAfter serviceBasePort :=
  ⟨along_congr portLaw_iff .new envs, fun _ hrun => run_port hrun⟩

/-! ### A start behind a failed one -/

def startWith (free : Bool) : InitEnv where
  tcpSocket := 3
  reuseAddr := 0
  binds _ := free
  ephemeral := 32768
  listen := 0
  udpSocket := 4
  udpBind := 0
  membership := 0

/-- The first start finds the whole range taken; the second one listens behind its end. -/
theorem second_start_out_of_range : ¬ Along remoteCtrlServer PortLaw .new [startWith false, startWith true] := by
  rintro ⟨-, hrest⟩
  obtain ⟨hlaw, -⟩ := hrest _ rfl
  have hrange := (portLaw_iff _ _).mp hlaw (by decide) (by decide)
  have hnone : (searchPorts serviceBasePort).find? (startWith false).binds = none :=
    List.find?_eq_none.mpr fun _ _ => Bool.false_ne_true
  have hport : (initSocket (startWith false) Server.new.globals).globals.port = lastPort + 1 := by
    rw [initSocket_port, portAfter, if_neg (by decide), show Server.new.globals.port = serviceBasePort from rfl, hnone]
    rfl
  rw [searchPorts_eq (Globals.port_lt _), List.find?_cons_of_pos rfl] at hrange
  have hle := (hrange ⟨by decide, by decide, by decide, by decide⟩).2
  exact absurd (hport.symm.trans_le hle) (Nat.not_succ_le_self lastPort)

end RemoteCtrl
