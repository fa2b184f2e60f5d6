import RemoteCtrl.UnixDomain.Peers

/-!
# What a client may expect

A process that has come through `cli_conn` is judged once, if others keep off its name: it is refused only for the age
of its file, and exactly when the server comes to it more than 30 seconds after `bind`. Its address never harms the
server. That of a stranger does if it fills `sun_path`: the NUL behind it is then stored out of bounds.
-/

namespace RemoteCtrl.UnixDomain

open CProgram CProgram.Transition

/-! ### In the server's hands -/

def ServerPc.peer : ServerPc → Option Peer
  | .stat peer _ _ => some peer
  | .time peer _ _ _ => some peer
  | .unlink peer _ _ _ _ => some peer
  | .close peer _ _ => some peer
  | _ => none

/-- All connections so far: in the queue, in the server's hands, judged. -/
def State.heard (s : State) : List Peer := s.queue ++ (s.server.peer.toList ++ s.verdicts.map Verdict.peer)

/-- The calls of `cli_conn` behind a successful `bind`. -/
def ClientPc.isBound : ClientPc → Bool
  | .chmod => true
  | .connect => true
  | .connected => true
  | _ => false

section
variable (setting : Setting) (pid : Pid)

/-- The file of a client, as it has made it. -/
structure Own (boundAt : Int) (statbuf : Stat) : Prop where
  sock : statbuf.mode &&& sIfmt = sIfsock
  uid : statbuf.uid = setting.uid (.client pid)
  atime : statbuf.atime = boundAt
  mtime : statbuf.mtime = boundAt
  ctime : boundAt ≤ statbuf.ctime

/-- Accepted within 30 seconds and told right, or refused for its age later. -/
def Due (boundAt : Int) (v : Verdict) : Prop :=
  (0 ≤ v.ret ∧ v.uid = some (setting.uid (.client pid)) ∧ v.decided ≤ boundAt + stale) ∨
    (v.ret = -5 ∧ v.uid = none ∧ boundAt + stale < v.decided)

/-- The server has the name of the client in hand with the client only, and what is due to it. -/
def ServerPc.Fair (boundAt : Int) : ServerPc → Prop
  | .stat peer _ sunPath => sunPath = (cliPath pid).val ↔ peer = .client pid
  | .time peer _ sunPath statbuf =>
      (sunPath = (cliPath pid).val ↔ peer = .client pid) ∧ (peer = .client pid → Own setting pid boundAt statbuf)
  | .unlink peer clifd sunPath uid decided =>
      (sunPath = (cliPath pid).val ↔ peer = .client pid) ∧
        (peer = .client pid → Due setting pid boundAt ⟨peer, clifd, some uid, decided⟩)
  | .close peer rval decided => peer = .client pid → Due setting pid boundAt ⟨peer, rval, none, decided⟩
  | _ => True

structure Served (s : State) : Prop where
  clock : s.boundAt pid ≤ s.now
  tally : s.heard.count (.client pid) = if s.client pid = .connected then 1 else 0
  address : (s.client pid).isBound = true → s.bound (.client pid) = .path (cliPath pid)
  others : ∀ peer, s.bound peer = .path (cliPath pid) → peer = .client pid
  file : (s.client pid).isBound = true → .client pid ∉ s.verdicts.map Verdict.peer →
    ∃ statbuf, s.files (cliPath pid) = some statbuf ∧ Own setting pid (s.boundAt pid) statbuf ∧
      (s.client pid ≠ .chmod → statbuf.refusal = none)
  server : s.server.Fair setting pid (s.boundAt pid)
  verdicts : ∀ v ∈ s.verdicts, v.peer = .client pid → Due setting pid (s.boundAt pid) v

/-- Others keep off the name of the client. -/
def KeepsOff (_ : State) : Event → Prop
  | .bind _ (.path name) _ => name ≠ cliPath pid
  | .bindElsewhere _ name => name ≠ cliPath pid
  | .put name _ => name ≠ cliPath pid
  | _ => True

variable {setting pid}

/-! ### One step -/

theorem Served.frame {s t : State} (hserved : Served setting pid s) (hnow : s.now ≤ t.now)
    (hboundAt : t.boundAt pid = s.boundAt pid) (hclient : t.client pid = s.client pid)
    (hbound : ∀ peer, t.bound peer = .path (cliPath pid) ↔ s.bound peer = .path (cliPath pid))
    (hfile : t.files (cliPath pid) = s.files (cliPath pid))
    (hqueue : t.queue.count (.client pid) = s.queue.count (.client pid)) (hserver : t.server = s.server)
    (hverdicts : t.verdicts = s.verdicts) : Served setting pid t where
  clock := hboundAt ▸ hserved.clock.trans hnow
  tally := by
    rw [hclient, ← hserved.tally]
    simp only [State.heard, List.count_append, hqueue, hserver, hverdicts]
  address := fun h => (hbound _).mpr (hserved.address (hclient ▸ h))
  others := fun peer h => hserved.others peer ((hbound peer).mp h)
  file := by
    rw [hclient, hfile, hverdicts, hboundAt]
    exact hserved.file
  server := by
    rw [hserver, hboundAt]
    exact hserved.server
  verdicts := by
    rw [hverdicts, hboundAt]
    exact hserved.verdicts

/-- A client that has not come through has not been heard of. -/
theorem Served.unheard {s : State} (hserved : Served setting pid s) (hpc : s.client pid ≠ .connected) :
    .client pid ∉ s.heard := by
  rw [← List.count_eq_zero, hserved.tally, if_neg hpc]

/-- On its way to a call that needs no file. -/
theorem Served.plain {s : State} (hserved : Served setting pid s) (hpc : s.client pid ≠ .connected) {pc : ClientPc}
    (hplain : pc.isBound = false) (files : Files) :
    Served setting pid { s with files, client := Function.update s.client pid pc } := by
  have hnew : Function.update s.client pid pc pid = pc := Function.update_self pid pc s.client
  have hnot : pc ≠ .connected := by
    rintro rfl
    contradiction
  refine ⟨hserved.clock, ?_, ?_, hserved.others, ?_, hserved.server, hserved.verdicts⟩
  · rw [if_neg (hnew.trans_ne hnot)]
    exact List.count_eq_zero.mpr (hserved.unheard hpc)
  · intro h
    dsimp only at h
    rw [hnew, hplain] at h
    contradiction
  · intro h
    dsimp only at h
    rw [hnew, hplain] at h
    contradiction

theorem ServerPc.Fair.rebound {pc : ServerPc} {boundAt : Int} (hfair : pc.Fair setting pid boundAt)
    (hother : pc.peer ≠ some (.client pid)) (boundAt' : Int) : pc.Fair setting pid boundAt' := by
  have hne {peer : Peer} (hpeer : pc.peer = some peer) : peer ≠ .client pid := fun h => hother (h ▸ hpeer)
  cases pc with
  | stat peer clifd sunPath => exact hfair
  | time peer clifd sunPath statbuf => exact ⟨hfair.1, fun h => absurd h (hne rfl)⟩
  | unlink peer clifd sunPath uid decided => exact ⟨hfair.1, fun h => absurd h (hne rfl)⟩
  | close peer rval decided => exact fun h => absurd h (hne rfl)
  | accept | overrun => trivial

/-- A socket without an address is given one that is not the client's. -/
theorem address_iff {s : State} {peer : Peer} (hunnamed : s.bound peer = .unnamed) {addr : Address}
    (haddr : addr ≠ .path (cliPath pid)) (other : Peer) :
    Function.update s.bound peer addr other = .path (cliPath pid) ↔ s.bound other = .path (cliPath pid) := by
  by_cases hpeer : other = peer
  · subst hpeer
    rw [Function.update_self, hunnamed]
    exact iff_of_false haddr (fun h => nomatch h)
  · rw [Function.update_of_ne hpeer]

theorem Served.addressed {s : State} (hserved : Served setting pid s) {peer : Peer} (hunnamed : s.bound peer = .unnamed)
    {addr : Address} (haddr : addr ≠ .path (cliPath pid)) :
    Served setting pid { s with bound := Function.update s.bound peer addr } :=
  hserved.frame le_rfl rfl rfl (address_iff hunnamed haddr) rfl rfl rfl rfl

theorem Served.bindPath {s t : State} (hserved : Served setting pid s) {peer : Peer} {name : Path} {statbuf : Stat}
    (hname : name ≠ cliPath pid) (hbind : s.bindPath peer name statbuf = some t) : Served setting pid t := by
  obtain ⟨⟨hunnamed, -⟩, rfl⟩ := bindPath_eq_some.mp hbind
  have hother : Address.path name ≠ .path (cliPath pid) := fun h => hname (Address.path.inj h)
  exact hserved.frame le_rfl rfl rfl (address_iff hunnamed hother) (setFile_of_ne s hname.symm _) rfl rfl rfl

theorem cliPath_ne {pid' : Pid} (hpid : pid' ≠ pid) : cliPath pid' ≠ cliPath pid := fun h => hpid (cliPath_injective h)

theorem Served.other {s : State} (hserved : Served setting pid s) {pid' : Pid} (hpid : pid' ≠ pid) (pc : ClientPc) :
    Served setting pid (s.goto pid' pc) :=
  hserved.frame le_rfl rfl (goto_of_ne s hpid.symm pc) (fun _ => Iff.rfl) rfl rfl rfl rfl

theorem Served.setFile {s : State} (hserved : Served setting pid s) {name : Path} (hname : name ≠ cliPath pid)
    (file : Option Stat) : Served setting pid (s.setFile name file) :=
  hserved.frame le_rfl rfl rfl (fun _ => Iff.rfl) (setFile_of_ne s hname.symm file) rfl rfl rfl

/-- What another client does. -/
theorem Served.cliConn_other {s t : State} (hserved : Served setting pid s) {pid' : Pid} (hpid : pid' ≠ pid) {ok : Bool}
    (hstep : s.cliConn setting pid' ok = some t) : Served setting pid t := by
  have hname : cliPath pid' ≠ cliPath pid := cliPath_ne hpid
  rw [State.cliConn] at hstep
  cases hpc : s.client pid' with
  | socket | close rval =>
      rw [hpc] at hstep
      obtain rfl := Option.some.inj hstep
      exact hserved.other hpid _
  | unlink =>
      rw [hpc] at hstep
      obtain rfl := Option.some.inj hstep
      cases ok with
      | true => exact (hserved.setFile hname none).other hpid _
      | false => exact hserved.other hpid _
  | bind =>
      rw [hpc] at hstep
      cases ok with
      | true =>
          obtain ⟨u, hbind, rfl⟩ := Option.map_eq_some_iff.mp hstep
          have hbound := hserved.bindPath hname hbind
          have hboundAt : u.boundAt pid = s.boundAt pid := by rw [(bindPath_eq_some.mp hbind).2]; rfl
          exact hbound.frame le_rfl ((Function.update_of_ne hpid.symm s.now s.boundAt).trans hboundAt.symm)
            (goto_of_ne u hpid.symm _) (fun _ => Iff.rfl) rfl rfl rfl rfl
      | false =>
          obtain rfl := Option.some.inj hstep
          exact hserved.other hpid _
  | chmod =>
      rw [hpc] at hstep
      cases ok with
      | true =>
          obtain ⟨statbuf, -, rfl⟩ := Option.map_eq_some_iff.mp hstep
          exact (hserved.setFile hname _).other hpid _
      | false =>
          obtain rfl := Option.some.inj hstep
          exact hserved.other hpid _
  | connect =>
      rw [hpc] at hstep
      dsimp only at hstep
      split at hstep
      · obtain rfl := Option.some.inj hstep
        exact hserved.other hpid _
      · split at hstep
        · obtain rfl := Option.some.inj hstep
          have hpeer : Peer.client pid' ≠ .client pid := fun h => hpid (Peer.client.inj h)
          refine (hserved.other hpid .connected).frame le_rfl rfl rfl (fun _ => Iff.rfl) rfl ?_ rfl rfl
          exact (List.count_append ..).trans (by rw [List.count_singleton, if_neg (by simpa using hpeer)]; rfl)
        · obtain rfl := Option.some.inj hstep
          exact hserved.other hpid _
  | connected | failed rval | overrun =>
      rw [hpc] at hstep
      contradiction

theorem own_socketFile (now : Int) :
    Own setting pid now (socketFile (setting.umask pid) (setting.uid (.client pid)) now) where
  sock := sIssock_socketFile _ _ now
  uid := rfl
  atime := rfl
  mtime := rfl
  ctime := le_rfl

theorem Own.chmod {boundAt now : Int} {statbuf : Stat} (hown : Own setting pid boundAt statbuf) (hnow : boundAt ≤ now) :
    Own setting pid boundAt (UnixDomain.chmod statbuf cliPerm now) where
  sock := by
    rw [UnixDomain.chmod, hown.sock]
    exact (by decide : (sIfsock ||| cliPerm) &&& sIfmt = sIfsock)
  uid := hown.uid
  atime := hown.atime
  mtime := hown.mtime
  ctime := hnow

theorem Served.bound {s t : State} (hserved : Served setting pid s) (hpc : s.client pid = .bind)
    (hbind : s.bindPath (.client pid) (cliPath pid)
      (socketFile (setting.umask pid) (setting.uid (.client pid)) s.now) = some t) :
    Served setting pid { t.goto pid .chmod with boundAt := Function.update s.boundAt pid s.now } := by
  obtain ⟨-, rfl⟩ := bindPath_eq_some.mp hbind
  have hunheard : .client pid ∉ s.heard := hserved.unheard (by rw [hpc]; simp)
  have hboundAt : Function.update s.boundAt pid s.now pid = s.now := Function.update_self pid s.now s.boundAt
  have hnew (t : State) : (t.goto pid .chmod).client pid = .chmod := goto_self t pid .chmod
  refine ⟨hboundAt.le, ?_, fun _ => Function.update_self .., fun peer hpeer => ?_, fun _ _ => ?_, ?_, fun v hv hpeer => ?_⟩
  · rw [if_neg ((hnew _).trans_ne (by simp))]
    exact List.count_eq_zero.mpr hunheard
  · by_contra hother
    exact hother (hserved.others peer ((Function.update_of_ne hother _ s.bound).symm.trans hpeer))
  · refine ⟨_, setFile_self s _ _, ?_, fun h => absurd (hnew _) h⟩
    dsimp only
    rw [hboundAt]
    exact own_socketFile s.now
  · refine hserved.server.rebound (fun hserver => hunheard ?_) _
    exact List.mem_append_right _ (List.mem_append_left _ (Option.mem_toList.mpr hserver))
  · refine absurd ?_ hunheard
    exact hpeer ▸ List.mem_append_right _ (List.mem_append_right _ (List.mem_map_of_mem hv))

/-- What the client does itself. -/
theorem Served.cliConn_self {s t : State} (hserved : Served setting pid s) {ok : Bool}
    (hstep : s.cliConn setting pid ok = some t) : Served setting pid t := by
  rw [State.cliConn] at hstep
  cases hpc : s.client pid with
  | socket =>
      rw [hpc] at hstep
      obtain rfl := Option.some.inj hstep
      exact hserved.plain (by rw [hpc]; simp) (by cases ok <;> rfl) s.files
  | unlink =>
      rw [hpc] at hstep
      obtain rfl := Option.some.inj hstep
      have hplain := hserved.plain (by rw [hpc]; simp) (rfl : ClientPc.isBound .bind = false)
      cases ok with
      | true => exact hplain (s.setFile (cliPath pid) none).files
      | false => exact hplain s.files
  | bind =>
      rw [hpc] at hstep
      cases ok with
      | true =>
          obtain ⟨u, hbind, rfl⟩ := Option.map_eq_some_iff.mp hstep
          exact hserved.bound hpc hbind
      | false =>
          obtain rfl := Option.some.inj hstep
          exact hserved.plain (by rw [hpc]; simp) rfl s.files
  | chmod =>
      rw [hpc] at hstep
      have hunheard : .client pid ∉ s.heard := hserved.unheard (by rw [hpc]; simp)
      cases ok with
      | true =>
          obtain ⟨statbuf, hfile, rfl⟩ := Option.map_eq_some_iff.mp hstep
          have hnew : ((s.setFile (cliPath pid) (some (chmod statbuf cliPerm s.now))).goto pid .connect).client pid =
              .connect := goto_self _ pid .connect
          have hunjudged : .client pid ∉ s.verdicts.map Verdict.peer :=
            fun h => hunheard (List.mem_append_right _ (List.mem_append_right _ h))
          obtain ⟨statbuf', hfile', hown, -⟩ := hserved.file (by rw [hpc]; rfl) hunjudged
          obtain rfl : statbuf = statbuf' := Option.some.inj (hfile.symm.trans hfile')
          refine ⟨hserved.clock, ?_, fun _ => hserved.address (by rw [hpc]; rfl), hserved.others, fun _ _ => ?_,
            hserved.server, hserved.verdicts⟩
          · rw [if_neg (hnew.trans_ne (by simp))]
            exact List.count_eq_zero.mpr hunheard
          · exact ⟨_, setFile_self s _ _, hown.chmod hserved.clock, fun _ => refusal_chmod hown.sock s.now⟩
      | false =>
          obtain rfl := Option.some.inj hstep
          exact hserved.plain (by rw [hpc]; simp) rfl s.files
  | connect =>
      rw [hpc] at hstep
      dsimp only at hstep
      split at hstep
      · obtain rfl := Option.some.inj hstep
        exact hserved.plain (by rw [hpc]; simp) rfl s.files
      · split at hstep
        · obtain rfl := Option.some.inj hstep
          have hnew : (s.goto pid .connected).client pid = .connected := goto_self s pid .connected
          have hcount : s.heard.count (.client pid) = 0 :=
            List.count_eq_zero.mpr (hserved.unheard (by rw [hpc]; simp))
          refine ⟨hserved.clock, ?_, fun _ => hserved.address (by rw [hpc]; rfl), hserved.others, fun _ hunjudged => ?_,
            hserved.server, hserved.verdicts⟩
          · rw [if_pos hnew]
            simp only [State.heard, List.count_append, List.count_singleton_self] at hcount ⊢
            dsimp only [State.goto]
            omega
          · obtain ⟨statbuf, hfile, hown, hmode⟩ := hserved.file (by rw [hpc]; rfl) hunjudged
            exact ⟨statbuf, hfile, hown, fun _ => hmode (by rw [hpc]; simp)⟩
        · obtain rfl := Option.some.inj hstep
          exact hserved.plain (by rw [hpc]; simp) rfl s.files
  | close rval =>
      rw [hpc] at hstep
      obtain rfl := Option.some.inj hstep
      exact hserved.plain (by rw [hpc]; simp) rfl s.files
  | connected | failed rval | overrun =>
      rw [hpc] at hstep
      contradiction

/-! ### The server -/

/-- A client in the server's hands has come through and is not judged. -/
theorem Served.inHand {s : State} (hserved : Served setting pid s) (hpeer : s.server.peer = some (.client pid)) :
    s.client pid = .connected ∧ .client pid ∉ s.verdicts.map Verdict.peer := by
  have htally := hserved.tally
  simp only [State.heard, hpeer, Option.toList_some, List.count_append, List.count_singleton_self] at htally
  split at htally
  · next hpc => exact ⟨hpc, List.count_eq_zero.mp (by omega)⟩
  · omega

/-- The server goes on with the same peer. -/
theorem Served.serverTo {s : State} (hserved : Served setting pid s) {pc : ServerPc} (hpeer : pc.peer = s.server.peer)
    (hfair : pc.Fair setting pid (s.boundAt pid)) : Served setting pid { s with server := pc } where
  clock := hserved.clock
  tally := by
    rw [← hserved.tally]
    simp only [State.heard, hpeer]
  address := hserved.address
  others := hserved.others
  file := hserved.file
  server := hfair
  verdicts := hserved.verdicts

theorem Served.judged {s : State} (hserved : Served setting pid s) {v : Verdict} (hpeer : s.server.peer = some v.peer)
    (hdue : v.peer = .client pid → Due setting pid (s.boundAt pid) v) {files : Files}
    (hfiles : v.peer ≠ .client pid → files (cliPath pid) = s.files (cliPath pid)) :
    Served setting pid ({ s with files }.judged v) where
  clock := hserved.clock
  tally := by
    have hbefore : s.heard = s.queue ++ v.peer :: s.verdicts.map Verdict.peer := by
      rw [State.heard, hpeer]
      rfl
    have hafter : ({ s with files }.judged v).heard = s.queue ++ (s.verdicts.map Verdict.peer ++ [v.peer]) := by
      rw [State.heard, State.judged, List.map_append]
      rfl
    have hcount := hserved.tally
    rw [hbefore, (List.perm_append_singleton v.peer _).symm.append_left s.queue |>.count_eq] at hcount
    rw [hafter]
    exact hcount
  address := hserved.address
  others := hserved.others
  file := by
    intro hbound hunjudged
    simp only [State.judged, List.map_append, List.map_singleton, List.mem_append, List.mem_singleton, not_or] at hunjudged
    obtain ⟨statbuf, hfile, hmode⟩ := hserved.file hbound hunjudged.1
    exact ⟨statbuf, (hfiles (Ne.symm hunjudged.2)).trans hfile, hmode⟩
  server := trivial
  verdicts := by
    intro v' hv'
    rcases List.mem_append.mp hv' with h | h
    · exact hserved.verdicts v' h
    · exact List.mem_singleton.mp h ▸ hdue

theorem length_cliPath_bytes_lt (pid : Pid) : (Address.path (cliPath pid)).bytes.length < sunPathSize := by
  have hlength := length_cliPathText_le pid
  have hbytes : (Address.path (cliPath pid)).bytes.length = (cliPathText pid).length + 1 := by
    rw [Address.bytes, cliPath_val, List.length_append, List.length_singleton]
  have hsize : sunPathSize = 108 := rfl
  omega

theorem Served.accepted {s t : State} (hserved : Served setting pid s) (hserver : s.server = .accept) {clifd : Nat}
    {un : Bytes} (hun : un.length = sunPathSize) (hstep : s.accepted clifd un = some t) : Served setting pid t := by
  rw [State.accepted] at hstep
  cases hqueue : s.queue with
  | nil =>
      rw [hqueue] at hstep
      contradiction
  | cons peer rest =>
      rw [hqueue] at hstep
      obtain rfl := Option.some.inj hstep
      have haddress : peer = .client pid → s.bound peer = .path (cliPath pid) := by
        rintro rfl
        have hcount : s.heard.count (.client pid) ≠ 0 := fun h =>
          List.count_eq_zero.mp h (List.mem_append_left _ (hqueue ▸ List.mem_cons_self))
        have hpc : s.client pid = .connected := by
          by_contra hpc
          rw [hserved.tally, if_neg hpc] at hcount
          exact hcount rfl
        exact hserved.address (by rw [hpc]; rfl)
      have hheard : s.heard = peer :: (rest ++ s.verdicts.map Verdict.peer) := by
        rw [State.heard, hqueue, hserver]
        rfl
      rw [calledFrom_eq hun]
      split_ifs with hroom
      · have htally : (rest ++ peer :: s.verdicts.map Verdict.peer).count (.client pid) = s.heard.count (.client pid) := by
          rw [hheard, List.perm_middle.count_eq]
        refine ⟨hserved.clock, htally.trans hserved.tally, hserved.address, hserved.others, hserved.file,
          ⟨fun htext => ?_, fun hpeer => ?_⟩, hserved.verdicts⟩
        · exact hserved.others peer (eq_path_of_text htext)
        · rw [haddress hpeer]
          rfl
      · have hstranger : peer ≠ .client pid := fun hpeer => hroom (haddress hpeer ▸ length_cliPath_bytes_lt pid)
        have htally : (rest ++ s.verdicts.map Verdict.peer).count (.client pid) = s.heard.count (.client pid) := by
          rw [hheard, List.count_cons_of_ne hstranger]
        exact ⟨hserved.clock, htally.trans hserved.tally, hserved.address, hserved.others, hserved.file, trivial,
          hserved.verdicts⟩

/-- The file of a client in the server's hands is there, and passes the tests of the mode. -/
theorem Served.found {s : State} (hserved : Served setting pid s) (hpeer : s.server.peer = some (.client pid)) :
    ∃ statbuf, lookup s.files (cliPath pid).val = some statbuf ∧ Own setting pid (s.boundAt pid) statbuf ∧
      statbuf.refusal = none := by
  obtain ⟨hpc, hunjudged⟩ := hserved.inHand hpeer
  obtain ⟨statbuf, hfile, hown, hmode⟩ := hserved.file (by rw [hpc]; rfl) hunjudged
  exact ⟨statbuf, (lookup_path s.files _).trans hfile, hown, hmode (by rw [hpc]; simp)⟩

theorem Served.stat {s t : State} (hserved : Served setting pid s) (hstep : step setting s .stat = some t) :
    Served setting pid t := by
  simp only [UnixDomain.step] at hstep
  split at hstep
  · next peer clifd sunPath hpc =>
      have hpeer : s.server.peer = some peer := hpc ▸ rfl
      have hfair : (ServerPc.stat peer clifd sunPath).Fair setting pid (s.boundAt pid) := hpc ▸ hserved.server
      have hfound (hclient : peer = .client pid) : ∃ statbuf, lookup s.files sunPath = some statbuf ∧
          Own setting pid (s.boundAt pid) statbuf ∧ statbuf.refusal = none := by
        rw [hfair.mpr hclient]
        exact hserved.found (hclient ▸ hpeer)
      split at hstep
      · next hnone =>
          obtain rfl := Option.some.inj hstep
          refine hserved.serverTo hpeer.symm fun hclient => ?_
          obtain ⟨statbuf, hsome, -⟩ := hfound hclient
          rw [hnone] at hsome
          contradiction
      · next statbuf hsome =>
          split at hstep
          · next rval hrefusal =>
              obtain rfl := Option.some.inj hstep
              refine hserved.serverTo hpeer.symm fun hclient => ?_
              obtain ⟨statbuf', hsome', -, hmode⟩ := hfound hclient
              obtain rfl : statbuf = statbuf' := Option.some.inj (hsome.symm.trans hsome')
              rw [hrefusal] at hmode
              contradiction
          · obtain rfl := Option.some.inj hstep
            refine hserved.serverTo hpeer.symm ⟨hfair, fun hclient => ?_⟩
            obtain ⟨statbuf', hsome', hown, -⟩ := hfound hclient
            obtain rfl : statbuf = statbuf' := Option.some.inj (hsome.symm.trans hsome')
            exact hown
  · contradiction

theorem Served.time {s t : State} (hserved : Served setting pid s) (hstep : step setting s .time = some t) :
    Served setting pid t := by
  simp only [UnixDomain.step] at hstep
  split at hstep
  · next peer clifd sunPath statbuf hpc =>
      have hpeer : s.server.peer = some peer := hpc ▸ rfl
      obtain ⟨hname, hown⟩ : (ServerPc.time peer clifd sunPath statbuf).Fair setting pid (s.boundAt pid) :=
        hpc ▸ hserved.server
      have hstale (hclient : peer = .client pid) : statbuf.isStale s.now = true ↔ s.boundAt pid + stale < s.now :=
        isStale_iff (hown hclient).atime (hown hclient).mtime (hown hclient).ctime s.now
      split at hstep
      · next hold =>
          obtain rfl := Option.some.inj hstep
          exact hserved.serverTo hpeer.symm fun hclient => .inr ⟨rfl, rfl, (hstale hclient).mp hold⟩
      · next hfresh =>
          obtain rfl := Option.some.inj hstep
          refine hserved.serverTo hpeer.symm ⟨hname, fun hclient => .inl ⟨Int.natCast_nonneg clifd, ?_, ?_⟩⟩
          · exact congrArg some (hown hclient).uid
          · exact not_lt.mp fun h => hfresh ((hstale hclient).mpr h)
  · contradiction

theorem Served.unlink {s t : State} (hserved : Served setting pid s) {ok : Bool}
    (hstep : step setting s (.unlink ok) = some t) : Served setting pid t := by
  simp only [UnixDomain.step] at hstep
  split at hstep
  · next peer clifd sunPath uid decided hpc =>
      obtain ⟨hname, hdue⟩ : (ServerPc.unlink peer clifd sunPath uid decided).Fair setting pid (s.boundAt pid) :=
        hpc ▸ hserved.server
      obtain rfl := Option.some.inj hstep
      refine hserved.judged (hpc ▸ rfl) hdue fun hother => ?_
      cases ok with
      | true => exact if_neg fun h => hother (hname.mp h.symm)
      | false => rfl
  · contradiction

theorem Served.close {s t : State} (hserved : Served setting pid s) (hstep : step setting s .close = some t) :
    Served setting pid t := by
  simp only [UnixDomain.step] at hstep
  split at hstep
  · next peer rval decided hpc =>
      have hdue : (ServerPc.close peer rval decided).Fair setting pid (s.boundAt pid) := hpc ▸ hserved.server
      obtain rfl := Option.some.inj hstep
      exact hserved.judged (v := ⟨peer, rval, none, decided⟩) (hpc ▸ rfl) hdue fun _ => rfl
  · contradiction

/-! ### Runs -/

theorem Served.step {s t : State} {e : Event} (hserved : Served setting pid s) (hoff : KeepsOff pid s e)
    (hstep : step setting s e = some t) : Served setting pid t := by
  cases e with
  | tick =>
      obtain rfl := Option.some.inj hstep
      exact hserved.frame (Int.le_add_of_nonneg_right (by decide)) rfl rfl (fun _ => Iff.rfl) rfl rfl rfl rfl
  | client pid' ok =>
      by_cases hpid : pid' = pid
      · subst hpid
        exact hserved.cliConn_self hstep
      · exact hserved.cliConn_other hpid hstep
  | accept clifd un =>
      simp only [UnixDomain.step] at hstep
      split at hstep
      · obtain rfl := Option.some.inj hstep
        exact hserved
      · next clifd hserver =>
          split at hstep
          · next hun => exact hserved.accepted hserver hun hstep
          · contradiction
      · contradiction
  | stat => exact hserved.stat hstep
  | time => exact hserved.time hstep
  | unlink ok => exact hserved.unlink hstep
  | close => exact hserved.close hstep
  | bind n addr perm =>
      cases addr with
      | path name => exact hserved.bindPath hoff hstep
      | unnamed | abstractName _ =>
          simp only [UnixDomain.step] at hstep
          split at hstep
          · next hunnamed =>
              obtain rfl := Option.some.inj hstep
              exact hserved.addressed hunnamed (by simp)
          · contradiction
  | bindElsewhere n name =>
      simp only [UnixDomain.step] at hstep
      split at hstep
      · next hunnamed =>
          obtain rfl := Option.some.inj hstep
          exact hserved.addressed hunnamed fun h => hoff (Address.path.inj h)
      · contradiction
  | connect n =>
      obtain rfl := Option.some.inj hstep
      refine hserved.frame le_rfl rfl rfl (fun _ => Iff.rfl) rfl ?_ rfl rfl
      rw [List.count_append, List.count_singleton, if_neg (by simp), Nat.add_zero]
  | put name file =>
      obtain rfl := Option.some.inj hstep
      exact hserved.setFile hoff file

theorem Served.start (now : Int) (files : Files) : Served setting pid (start now files) where
  clock := le_rfl
  tally := rfl
  address := nofun
  others := nofun
  file := nofun
  server := trivial
  verdicts := nofun

/-- **A client is judged once**, if others keep off its name: it is accepted and its user told, or it is refused, and
refused exactly when the server comes to it more than 30 seconds after `bind`. -/
theorem client_is_due {now : Int} {files : Files} {es : List Event} {s : State}
    (hrun : run (step setting) (start now files) es = some s)
    (hoff : Along (step setting) (KeepsOff pid) (start now files) es) :
    (s.heard.count (.client pid) = if s.client pid = .connected then 1 else 0) ∧
      ∀ v ∈ s.verdicts, v.peer = .client pid → Due setting pid (s.boundAt pid) v := by
  have hkeeps : ∀ s e t, Served setting pid s → KeepsOff pid s e → UnixDomain.step setting s e = some t →
      Served setting pid t := fun _ _ _ hserved hoff hstep => hserved.step hoff hstep
  have hserved : Served setting pid s := run_invariant_along hkeeps hrun hoff (.start now files)
  exact ⟨hserved.tally, hserved.verdicts⟩

/-- A client who is through at once; the server comes to it 31 seconds later. -/
def lateServer : List Event :=
  List.replicate 5 (.client visitor true) ++ List.replicate 31 .tick ++
    [.accept (some 4) (List.replicate sunPathSize 0), .stat, .time, .close]

theorem client_is_due_late : ∃ s v, run (step users) (start 0 noFiles) lateServer = some s ∧ v ∈ s.verdicts ∧
    v.ret = -5 ∧ Due users visitor (s.boundAt visitor) v := by
  have hverdicts : (run (step users) (start 0 noFiles) lateServer).map State.verdicts =
      some [⟨.client visitor, -5, none, 31⟩] := by decide +kernel
  obtain ⟨s, hrun, hs⟩ := Option.map_eq_some_iff.mp hverdicts
  have hmem : ⟨.client visitor, -5, none, 31⟩ ∈ s.verdicts := hs ▸ List.mem_singleton_self _
  have hoff : Along (step users) (KeepsOff visitor) (start 0 noFiles) lateServer := by
    refine (along_trivial _ _).of_mem fun s e he _ => ?_
    simp only [lateServer, List.mem_append, List.mem_replicate, List.mem_cons, List.not_mem_nil, or_false] at he
    rcases he with (⟨-, rfl⟩ | ⟨-, rfl⟩) | rfl | rfl | rfl | rfl <;> trivial
  exact ⟨s, _, hrun, hmem, rfl, (client_is_due hrun hoff).2 _ hmem rfl⟩

/-! ### Long addresses -/

theorem cliConn_bound {s t : State} {ok : Bool} (hstep : s.cliConn setting pid ok = some t) :
    t.bound = s.bound ∨ t.bound = Function.update s.bound (.client pid) (.path (cliPath pid)) := by
  rw [State.cliConn] at hstep
  cases hpc : s.client pid with
  | socket | close rval =>
      rw [hpc] at hstep
      obtain rfl := Option.some.inj hstep
      exact .inl rfl
  | unlink =>
      rw [hpc] at hstep
      obtain rfl := Option.some.inj hstep
      exact .inl (by cases ok <;> rfl)
  | bind =>
      rw [hpc] at hstep
      cases ok with
      | true =>
          obtain ⟨u, hbind, rfl⟩ := Option.map_eq_some_iff.mp hstep
          exact .inr (congrArg State.bound (bindPath_eq_some.mp hbind).2)
      | false =>
          obtain rfl := Option.some.inj hstep
          exact .inl rfl
  | chmod =>
      rw [hpc] at hstep
      cases ok with
      | true =>
          obtain ⟨statbuf, -, rfl⟩ := Option.map_eq_some_iff.mp hstep
          exact .inl rfl
      | false =>
          obtain rfl := Option.some.inj hstep
          exact .inl rfl
  | connect =>
      rw [hpc] at hstep
      dsimp only at hstep
      split at hstep
      · obtain rfl := Option.some.inj hstep
        exact .inl rfl
      · split at hstep
        · obtain rfl := Option.some.inj hstep
          exact .inl rfl
        · obtain rfl := Option.some.inj hstep
          exact .inl rfl
  | connected | failed rval | overrun =>
      rw [hpc] at hstep
      contradiction

/-- A client's socket has no other address than its name. -/
def OwnName (s : State) : Prop := ∀ pid, s.bound (.client pid) = .unnamed ∨ s.bound (.client pid) = .path (cliPath pid)

theorem OwnName.update {s : State} (hown : OwnName s) (peer : Peer) (addr : Address)
    (hname : ∀ pid, peer = .client pid → addr = .path (cliPath pid)) :
    OwnName { s with bound := Function.update s.bound peer addr } := by
  intro pid
  dsimp only
  by_cases hpeer : Peer.client pid = peer
  · subst hpeer
    rw [Function.update_self]
    exact .inr (hname pid rfl)
  · rw [Function.update_of_ne hpeer]
    exact hown pid

theorem OwnName.step {s t : State} {e : Event} (hown : OwnName s) (hstep : step setting s e = some t) : OwnName t := by
  cases e with
  | client pid ok =>
      rcases cliConn_bound hstep with hbound | hbound
      · exact fun pid' => hbound ▸ hown pid'
      · rw [OwnName, hbound]
        exact hown.update _ _ fun pid' h => congrArg (Address.path ∘ cliPath) (Peer.client.inj h)
  | accept clifd un =>
      simp only [UnixDomain.step, State.accepted] at hstep
      split at hstep
      · obtain rfl := Option.some.inj hstep
        exact hown
      · split at hstep
        · split at hstep
          · contradiction
          · obtain rfl := Option.some.inj hstep
            exact hown
        · contradiction
      · contradiction
  | stat =>
      simp only [UnixDomain.step] at hstep
      split at hstep
      · split at hstep
        · obtain rfl := Option.some.inj hstep
          exact hown
        · split at hstep
          · obtain rfl := Option.some.inj hstep
            exact hown
          · obtain rfl := Option.some.inj hstep
            exact hown
      · contradiction
  | time =>
      simp only [UnixDomain.step] at hstep
      split at hstep
      · split at hstep
        · obtain rfl := Option.some.inj hstep
          exact hown
        · obtain rfl := Option.some.inj hstep
          exact hown
      · contradiction
  | unlink ok | close =>
      simp only [UnixDomain.step] at hstep
      split at hstep
      · obtain rfl := Option.some.inj hstep
        exact hown
      · contradiction
  | bind n addr perm =>
      cases addr with
      | path name =>
          rw [OwnName, (bindPath_eq_some.mp hstep).2]
          exact hown.update (.stranger n) _ fun _ h => Peer.noConfusion h
      | unnamed | abstractName _ =>
          simp only [UnixDomain.step] at hstep
          split at hstep
          · obtain rfl := Option.some.inj hstep
            exact hown.update (.stranger n) _ fun _ h => Peer.noConfusion h
          · contradiction
  | bindElsewhere n name =>
      simp only [UnixDomain.step] at hstep
      split at hstep
      · obtain rfl := Option.some.inj hstep
        exact hown.update (.stranger n) _ fun _ h => Peer.noConfusion h
      · contradiction
  | tick | connect n | put name file =>
      obtain rfl := Option.some.inj hstep
      exact hown

/-- **Only a stranger's address harms the server**, and each that fills `sun_path` does: a path of 107 bytes, or an
abstract name. -/
theorem overrun_iff {now : Int} {files : Files} {s t : State} (hreach : Reaches (step setting) (start now files) s)
    {clifd : Nat} {un : Bytes} (hstep : step setting s (.accept (some clifd) un) = some t) :
    t.server = .overrun ↔ ∃ n rest, s.queue = .stranger n :: rest ∧ sunPathSize ≤ (s.bound (.stranger n)).bytes.length := by
  have hown : OwnName s := hreach.invariant (fun _ _ _ hown hstep => hown.step hstep) fun _ => .inl rfl
  have hclient (pid : Pid) : (s.bound (.client pid)).bytes.length < sunPathSize := by
    rcases hown pid with h | h
    · rw [h]
      decide
    · rw [h]
      exact length_cliPath_bytes_lt pid
  simp only [UnixDomain.step] at hstep
  split at hstep
  · contradiction
  · split at hstep
    · next hun =>
        rw [State.accepted] at hstep
        split at hstep
        · contradiction
        · next peer rest hqueue =>
            obtain rfl := Option.some.inj hstep
            rw [calledFrom_eq hun]
            cases peer with
            | client pid =>
                rw [if_pos (hclient pid)]
                refine iff_of_false (by simp) ?_
                rintro ⟨n, rest', h, -⟩
                rw [hqueue] at h
                exact absurd (List.cons.inj h).1 (by simp)
            | stranger n =>
                split_ifs with hroom
                · refine iff_of_false (by simp) ?_
                  rintro ⟨n', rest', h, hlong⟩
                  rw [hqueue, List.cons.injEq, Peer.stranger.injEq] at h
                  rw [← h.1] at hlong
                  omega
                · exact iff_of_true rfl ⟨n, rest, hqueue, not_lt.mp hroom⟩
    · contradiction
  · contradiction

/-- An abstract name of 107 bytes. -/
def longName : List Event := [.bind 0 (.abstractName (List.replicate 107 120)) 0, .connect 0]

theorem overrun_iff_long_name : ∃ s t, run (step users) (start 0 noFiles) longName = some s ∧
    step users s (.accept (some 4) (List.replicate sunPathSize 0)) = some t ∧ t.server = .overrun := by
  have hready : ∃ s, run (step users) (start 0 noFiles) longName = some s ∧ s.server = .accept ∧
      s.queue = [.stranger 0] ∧ s.bound (.stranger 0) = .abstractName (List.replicate 107 120) := by
    refine ⟨_, rfl, rfl, rfl, ?_⟩
    dsimp only
    rw [Function.update_self]
  obtain ⟨s, hrun, hserver, hqueue, hbound⟩ := hready
  have haccepts : ∃ t, step users s (.accept (some 4) (List.replicate sunPathSize 0)) = some t := by
    simp only [step, hserver, State.accepted, hqueue, List.length_replicate, if_true, Option.some.injEq, exists_eq']
  obtain ⟨t, hstep⟩ := haccepts
  exact ⟨s, t, hrun, hstep, (overrun_iff ⟨longName, hrun⟩ hstep).mpr ⟨0, [], hqueue, by rw [hbound]; decide⟩⟩

end

end RemoteCtrl.UnixDomain
