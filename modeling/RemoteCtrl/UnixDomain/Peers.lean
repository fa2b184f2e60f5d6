import RemoteCtrl.UnixDomain.Sockets
import RemoteCtrl.Foundation.Transition
import Mathlib.Logic.Function.Basic

/-!
# Who a peer is

One server calls `serv_accept` again and again, any number of processes are in `cli_conn`, and strangers do what they
like with files and connections. The calls come in any order, and those of the clients may fail. The server takes the
owner of the file at the peer's address for the user of the peer. He is, if no name is ever given a file of one user
while it is the address of another's socket, nor taken for an address elsewhere while the file it is here is another's;
without that, one who has removed his own file is taken for the next user of the name, and one in another directory for
the user of the name in this one.
-/

namespace RemoteCtrl.UnixDomain

open CProgram CProgram.Transition

/-! ### States -/

/-- Who has a socket that connects: the process of a number in `cli_conn`, or somebody else. -/
inductive Peer
  | client (pid : Pid)
  | stranger (n : Nat)
  deriving DecidableEq

/-- The call of `cli_conn` a process makes next. It calls the function once. -/
inductive ClientPc
  | socket
  | unlink
  | bind
  | chmod
  | connect
  | close (rval : Int)
  | connected
  | failed (rval : Int)
  /-- The name of the server is longer than `sun_path`. -/
  | overrun
  deriving DecidableEq

/-- The call of `serv_accept` the server makes next. What it has found out when is a record. -/
inductive ServerPc
  | accept
  | stat (peer : Peer) (clifd : Nat) (sunPath : Bytes)
  | time (peer : Peer) (clifd : Nat) (sunPath : Bytes) (statbuf : Stat)
  | unlink (peer : Peer) (clifd : Nat) (sunPath : Bytes) (uid : Nat) (decided : Int)
  | close (peer : Peer) (rval : Int) (decided : Int)
  | overrun

/-- What a call of `serv_accept` has returned, and in `*uidptr`, about whom. -/
structure Verdict where
  peer : Peer
  ret : Int
  uid : Option Nat
  decided : Int
  deriving DecidableEq

/-- `boundAt` and `verdicts` are a record. -/
structure State where
  now : Int
  files : Files
  bound : Peer → Address
  boundAt : Pid → Int
  client : Pid → ClientPc
  queue : List Peer
  server : ServerPc
  verdicts : List Verdict

/-- The server has come back from `serv_listen`. Earlier runs may have left files. -/
def start (now : Int) (files : Files) : State where
  now := now
  files := files
  bound _ := .unnamed
  boundAt _ := now
  client _ := .socket
  queue := []
  server := .accept
  verdicts := []

/-! ### Steps -/

/-- What the calls depend on: the users, the masks of the clients and the name `cli_conn` is given. -/
structure Setting where
  uid : Peer → Nat
  umask : Pid → Nat
  name : Bytes

inductive Event
  | tick
  /-- The next call of `cli_conn`, and whether it succeeds. -/
  | client (pid : Pid) (ok : Bool)
  /-- `un` is what is in `sun_path` before the call; there is no descriptor if it fails. -/
  | accept (clifd : Option Nat) (un : Bytes)
  | stat
  | time
  | unlink (ok : Bool)
  | close
  /-- A stranger's socket is given an address. -/
  | bind (n : Nat) (addr : Address) (perm : Nat)
  /-- The same with a name that is another file's where the stranger is than where the server is. -/
  | bindElsewhere (n : Nat) (name : Path)
  | connect (n : Nat)
  /-- A file is made, changed, moved or removed by somebody else. -/
  | put (name : Path) (file : Option Stat)

def State.goto (s : State) (pid : Pid) (pc : ClientPc) : State := { s with client := Function.update s.client pid pc }

def State.setFile (s : State) (name : Path) (file : Option Stat) : State :=
  { s with files := Function.update s.files name file }

/-- A socket without an address can be bound to a name without a file. -/
def State.bindPath (s : State) (peer : Peer) (name : Path) (statbuf : Stat) : Option State :=
  if s.bound peer = .unnamed ∧ s.files name = none then
    some { s.setFile name (some statbuf) with bound := Function.update s.bound peer (.path name) }
  else none

variable (setting : Setting)

def State.cliConn (s : State) (pid : Pid) (ok : Bool) : Option State :=
  let path := cliPath pid
  match s.client pid with
  | .socket => some (s.goto pid (if ok then .unlink else .failed (-1)))
  -- nobody looks at the result
  | .unlink => some ((if ok then s.setFile path none else s).goto pid .bind)
  | .bind =>
      if ok then
        (s.bindPath (.client pid) path (socketFile (setting.umask pid) (setting.uid (.client pid)) s.now)).map
          fun t => { t.goto pid .chmod with boundAt := Function.update s.boundAt pid s.now }
      else some (s.goto pid (.close (-2)))
  | .chmod =>
      if ok then
        (s.files path).map fun statbuf =>
          (s.setFile path (some (UnixDomain.chmod statbuf cliPerm s.now))).goto pid .connect
      else some (s.goto pid (.close (-3)))
  | .connect =>
      if sunPathSize ≤ setting.name.length then some (s.goto pid .overrun)
      else if ok then some { s.goto pid .connected with queue := s.queue ++ [.client pid] }
      else some (s.goto pid (.close (-4)))
  | .close rval => some (s.goto pid (.failed rval))
  | _ => none

/-- `accept`, and the string made of the address. -/
def State.accepted (s : State) (clifd : Nat) (un : Bytes) : Option State :=
  match s.queue with
  | [] => none
  | peer :: rest =>
      let server :=
        match calledFrom un (s.bound peer) with
        | .ret sunPath => .stat peer clifd (sunPath.getD [])
        | _ => .overrun
      some { s with queue := rest, server }

def State.judged (s : State) (verdict : Verdict) : State :=
  { s with server := .accept, verdicts := s.verdicts ++ [verdict] }

def State.unlinked (s : State) (ok : Bool) (sunPath : Bytes) : Files :=
  if ok then fun name => if name.val = sunPath then none else s.files name else s.files

def step (s : State) : Event → Option State
  | .tick => some { s with now := s.now + 1 }
  | .client pid ok => s.cliConn setting pid ok
  | .accept clifd un =>
      match s.server, clifd with
      | .accept, none => some s
      | .accept, some clifd => if un.length = sunPathSize then s.accepted clifd un else none
      | _, _ => none
  | .stat =>
      match s.server with
      | .stat peer clifd sunPath =>
          match lookup s.files sunPath with
          | none => some { s with server := .close peer (-2) s.now }
          | some statbuf =>
              match statbuf.refusal with
              | some rval => some { s with server := .close peer rval s.now }
              | none => some { s with server := .time peer clifd sunPath statbuf }
      | _ => none
  | .time =>
      match s.server with
      | .time peer clifd sunPath statbuf =>
          if statbuf.isStale s.now then some { s with server := .close peer (-5) s.now }
          else some { s with server := .unlink peer clifd sunPath statbuf.uid s.now }
      | _ => none
  | .unlink ok =>
      match s.server with
      | .unlink peer clifd sunPath uid decided =>
          some ({ s with files := s.unlinked ok sunPath }.judged ⟨peer, clifd, some uid, decided⟩)
      | _ => none
  | .close =>
      match s.server with
      | .close peer rval decided => some (s.judged ⟨peer, rval, none, decided⟩)
      | _ => none
  | .bind n addr perm =>
      match addr with
      | .path name => s.bindPath (.stranger n) name (socketFile perm (setting.uid (.stranger n)) s.now)
      | _ => if s.bound (.stranger n) = .unnamed then
          some { s with bound := Function.update s.bound (.stranger n) addr } else none
  | .bindElsewhere n name =>
      if s.bound (.stranger n) = .unnamed then
        some { s with bound := Function.update s.bound (.stranger n) (.path name) } else none
  | .connect n => some { s with queue := s.queue ++ [.stranger n] }
  | .put name file => some (s.setFile name file)

/-! ### Names and users -/

/-- Whoever has the name for an address is the user. -/
def Owned (s : State) (name : Path) (user : Nat) : Prop :=
  ∀ peer, s.bound peer = .path name → setting.uid peer = user

/-- A name is given a file of its users only, and what is taken for an address elsewhere is here no file of others. -/
def Private (s : State) : Event → Prop
  | .client pid true => s.client pid = .bind → Owned setting s (cliPath pid) (setting.uid (.client pid))
  | .bind n (.path name) _ => Owned setting s name (setting.uid (.stranger n))
  | .bindElsewhere n name => ∀ statbuf, s.files name = some statbuf → setting.uid (.stranger n) = statbuf.uid
  | .put name (some statbuf) => Owned setting s name statbuf.uid
  | _ => True

/-- What the server has in hand is about the user of the peer. -/
def ServerPc.Right (bound : Peer → Address) : ServerPc → Prop
  | .stat peer _ sunPath => ∀ name : Path, sunPath = name.val → bound peer = .path name
  | .time peer _ _ statbuf => setting.uid peer = statbuf.uid
  | .unlink peer _ _ uid _ => setting.uid peer = uid
  | _ => True

structure Told (s : State) : Prop where
  files : ∀ name statbuf, s.files name = some statbuf → Owned setting s name statbuf.uid
  server : s.server.Right setting s.bound
  verdicts : ∀ v ∈ s.verdicts, ∀ user, v.uid = some user → user = setting.uid v.peer

variable {setting}

@[simp] theorem setFile_self (s : State) (name : Path) (file : Option Stat) : (s.setFile name file).files name = file := by
  dsimp only [State.setFile]
  rw [Function.update_self]

theorem setFile_of_ne (s : State) {name name' : Path} (hne : name' ≠ name) (file : Option Stat) :
    (s.setFile name file).files name' = s.files name' := by
  dsimp only [State.setFile]
  rw [Function.update_of_ne hne]

@[simp] theorem goto_self (s : State) (pid : Pid) (pc : ClientPc) : (s.goto pid pc).client pid = pc := by
  dsimp only [State.goto]
  rw [Function.update_self]

theorem goto_of_ne (s : State) {pid pid' : Pid} (hne : pid' ≠ pid) (pc : ClientPc) :
    (s.goto pid pc).client pid' = s.client pid' := by
  dsimp only [State.goto]
  rw [Function.update_of_ne hne]

theorem bindPath_eq_some {s t : State} {peer : Peer} {name : Path} {statbuf : Stat} :
    s.bindPath peer name statbuf = some t ↔ (s.bound peer = .unnamed ∧ s.files name = none) ∧
      t = { s.setFile name (some statbuf) with bound := Function.update s.bound peer (.path name) } := by
  rw [State.bindPath, Option.ite_none_right_eq_some, Option.some.injEq]
  exact and_congr_right fun _ => eq_comm

theorem Told.setFile {s : State} (htold : Told setting s) {name : Path} {file : Option Stat}
    (howned : ∀ statbuf, file = some statbuf → Owned setting s name statbuf.uid) : Told setting (s.setFile name file) := by
  refine ⟨fun name' statbuf hfile => ?_, htold.server, htold.verdicts⟩
  by_cases hname : name' = name
  · subst hname
    rw [setFile_self] at hfile
    exact howned statbuf hfile
  · rw [setFile_of_ne s hname] at hfile
    exact htold.files name' statbuf hfile

/-- Only a socket that has none is given an address. -/
theorem ServerPc.Right.address {pc : ServerPc} {bound : Peer → Address} (hright : pc.Right setting bound) {peer : Peer}
    (hunnamed : bound peer = .unnamed) (addr : Address) : pc.Right setting (Function.update bound peer addr) := by
  cases pc with
  | stat other clifd sunPath =>
      intro name hname
      have hbound : bound other = .path name := hright name hname
      have hpeer : other ≠ peer := by
        rintro rfl
        rw [hunnamed] at hbound
        contradiction
      exact (Function.update_of_ne hpeer addr bound).trans hbound
  | _ => exact hright

theorem Told.address {s : State} (htold : Told setting s) {peer : Peer} (hunnamed : s.bound peer = .unnamed)
    {addr : Address} (howned : ∀ name statbuf, addr = .path name → s.files name = some statbuf →
      setting.uid peer = statbuf.uid) :
    Told setting { s with bound := Function.update s.bound peer addr } := by
  refine ⟨fun name statbuf hfile other hother => ?_, htold.server.address hunnamed addr, htold.verdicts⟩
  by_cases hpeer : other = peer
  · subst hpeer
    exact howned name statbuf ((Function.update_self other addr s.bound).symm.trans hother) hfile
  · exact htold.files name statbuf hfile other ((Function.update_of_ne hpeer addr s.bound).symm.trans hother)

theorem Told.bindPath {s t : State} (htold : Told setting s) {peer : Peer} {name : Path} {umask : Nat} {now : Int}
    (hbind : s.bindPath peer name (socketFile umask (setting.uid peer) now) = some t)
    (howned : Owned setting s name (setting.uid peer)) : Told setting t := by
  obtain ⟨⟨hunnamed, -⟩, rfl⟩ := bindPath_eq_some.mp hbind
  have hfile : Told setting (s.setFile name (some (socketFile umask (setting.uid peer) now))) :=
    htold.setFile fun statbuf hstatbuf => Option.some.inj hstatbuf ▸ howned
  refine hfile.address hunnamed fun name' statbuf haddr hfound => ?_
  obtain rfl := Address.path.inj haddr
  rw [setFile_self, Option.some.injEq] at hfound
  rw [← hfound]
  rfl

theorem Told.goto {s : State} (htold : Told setting s) (pid : Pid) (pc : ClientPc) : Told setting (s.goto pid pc) :=
  ⟨htold.files, htold.server, htold.verdicts⟩

theorem Told.cliConn {s t : State} (htold : Told setting s) {pid : Pid} {ok : Bool}
    (hprivate : Private setting s (.client pid ok)) (hstep : s.cliConn setting pid ok = some t) : Told setting t := by
  rw [State.cliConn] at hstep
  cases hpc : s.client pid with
  | socket =>
      rw [hpc] at hstep
      obtain rfl := Option.some.inj hstep
      exact htold.goto pid _
  | unlink =>
      rw [hpc] at hstep
      obtain rfl := Option.some.inj hstep
      cases ok with
      | true => exact (htold.setFile fun _ h => absurd h.symm (Option.some_ne_none _)).goto pid _
      | false => exact htold.goto pid _
  | bind =>
      cases ok with
      | true =>
          rw [hpc] at hstep
          obtain ⟨t', hbind, rfl⟩ := Option.map_eq_some_iff.mp hstep
          have hbound := htold.bindPath hbind (hprivate hpc)
          exact ⟨hbound.files, hbound.server, hbound.verdicts⟩
      | false =>
          rw [hpc] at hstep
          obtain rfl := Option.some.inj hstep
          exact htold.goto pid _
  | chmod =>
      cases ok with
      | true =>
          rw [hpc] at hstep
          obtain ⟨statbuf, hfile, rfl⟩ := Option.map_eq_some_iff.mp hstep
          have hsame := htold.files _ _ hfile
          exact (htold.setFile fun _ h => Option.some.inj h ▸ hsame).goto pid _
      | false =>
          rw [hpc] at hstep
          obtain rfl := Option.some.inj hstep
          exact htold.goto pid _
  | connect =>
      rw [hpc] at hstep
      dsimp only at hstep
      split at hstep
      · obtain rfl := Option.some.inj hstep
        exact htold.goto pid _
      · split at hstep
        · obtain rfl := Option.some.inj hstep
          exact ⟨htold.files, htold.server, htold.verdicts⟩
        · obtain rfl := Option.some.inj hstep
          exact htold.goto pid _
  | close rval =>
      rw [hpc] at hstep
      obtain rfl := Option.some.inj hstep
      exact htold.goto pid _
  | connected | failed rval | overrun =>
      rw [hpc] at hstep
      contradiction

theorem Told.accepted {s t : State} (htold : Told setting s) {clifd : Nat} {un : Bytes} (hun : un.length = sunPathSize)
    (hstep : s.accepted clifd un = some t) : Told setting t := by
  rw [State.accepted] at hstep
  cases hqueue : s.queue with
  | nil =>
      rw [hqueue] at hstep
      contradiction
  | cons peer rest =>
      rw [hqueue] at hstep
      obtain rfl := Option.some.inj hstep
      refine ⟨htold.files, ?_, htold.verdicts⟩
      rw [calledFrom_eq hun]
      split_ifs
      · exact fun name hname => eq_path_of_text hname
      · trivial

theorem Told.judged {s : State} (htold : Told setting s) {verdict : Verdict}
    (hright : ∀ user, verdict.uid = some user → user = setting.uid verdict.peer) : Told setting (s.judged verdict) := by
  refine ⟨htold.files, trivial, fun v hv => ?_⟩
  rcases List.mem_append.mp hv with h | h
  · exact htold.verdicts v h
  · exact List.mem_singleton.mp h ▸ hright

theorem unlinked_le {s : State} {ok : Bool} {sunPath : Bytes} {name : Path} {statbuf : Stat}
    (hfile : s.unlinked ok sunPath name = some statbuf) : s.files name = some statbuf := by
  cases ok with
  | true =>
      rw [State.unlinked, if_pos rfl] at hfile
      split at hfile
      · contradiction
      · exact hfile
  | false => exact hfile

theorem Told.step {s t : State} {e : Event} (htold : Told setting s) (hprivate : Private setting s e)
    (hstep : step setting s e = some t) : Told setting t := by
  cases e with
  | tick =>
      obtain rfl := Option.some.inj hstep
      exact ⟨htold.files, htold.server, htold.verdicts⟩
  | client pid ok => exact htold.cliConn hprivate hstep
  | accept clifd un =>
      simp only [UnixDomain.step] at hstep
      split at hstep
      · obtain rfl := Option.some.inj hstep
        exact htold
      · split at hstep
        · next hun => exact htold.accepted hun hstep
        · contradiction
      · contradiction
  | stat =>
      simp only [UnixDomain.step] at hstep
      split at hstep
      · next peer clifd sunPath hpc =>
          have hright : (ServerPc.stat peer clifd sunPath).Right setting s.bound := hpc ▸ htold.server
          split at hstep
          · obtain rfl := Option.some.inj hstep
            exact ⟨htold.files, trivial, htold.verdicts⟩
          · next statbuf hfound =>
              obtain ⟨name, hname, hfile⟩ := lookup_eq_some hfound
              split at hstep
              · obtain rfl := Option.some.inj hstep
                exact ⟨htold.files, trivial, htold.verdicts⟩
              · obtain rfl := Option.some.inj hstep
                exact ⟨htold.files, htold.files name statbuf hfile peer (hright name hname), htold.verdicts⟩
      · contradiction
  | time =>
      simp only [UnixDomain.step] at hstep
      split at hstep
      · next peer clifd sunPath statbuf hpc =>
          have hright : (ServerPc.time peer clifd sunPath statbuf).Right setting s.bound := hpc ▸ htold.server
          split at hstep
          · obtain rfl := Option.some.inj hstep
            exact ⟨htold.files, trivial, htold.verdicts⟩
          · obtain rfl := Option.some.inj hstep
            exact ⟨htold.files, hright, htold.verdicts⟩
      · contradiction
  | unlink ok =>
      simp only [UnixDomain.step] at hstep
      split at hstep
      · next peer clifd sunPath uid decided hpc =>
          have hright : (ServerPc.unlink peer clifd sunPath uid decided).Right setting s.bound := hpc ▸ htold.server
          obtain rfl := Option.some.inj hstep
          have hremoved : Told setting { s with files := s.unlinked ok sunPath } :=
            ⟨fun name statbuf hfile => htold.files name statbuf (unlinked_le hfile), htold.server, htold.verdicts⟩
          exact hremoved.judged fun user huser => (Option.some.inj huser).symm.trans hright.symm
      · contradiction
  | close =>
      simp only [UnixDomain.step] at hstep
      split at hstep
      · obtain rfl := Option.some.inj hstep
        exact htold.judged fun _ h => absurd h.symm (Option.some_ne_none _)
      · contradiction
  | bind n addr perm =>
      cases addr with
      | path name => exact htold.bindPath hstep hprivate
      | unnamed | abstractName _ =>
          simp only [UnixDomain.step] at hstep
          split at hstep
          · next hunnamed =>
              obtain rfl := Option.some.inj hstep
              exact htold.address hunnamed fun _ _ h => nomatch h
          · contradiction
  | bindElsewhere n name =>
      simp only [UnixDomain.step] at hstep
      split at hstep
      · next hunnamed =>
          obtain rfl := Option.some.inj hstep
          exact htold.address hunnamed fun _ statbuf haddr hfile =>
            hprivate statbuf (Address.path.inj haddr ▸ hfile)
      · contradiction
  | connect n =>
      obtain rfl := Option.some.inj hstep
      exact ⟨htold.files, htold.server, htold.verdicts⟩
  | put name file =>
      obtain rfl := Option.some.inj hstep
      refine htold.setFile fun statbuf hfile => ?_
      subst hfile
      exact hprivate

theorem Told.start (now : Int) (files : Files) : Told setting (start now files) :=
  ⟨fun _ _ _ _ h => (nomatch h), trivial, fun _ h => absurd h List.not_mem_nil⟩

/-- **The user told is the user of the peer**, whatever files there were and whatever strangers do, as long as names
are private. -/
theorem uid_of_peer {now : Int} {files : Files} {es : List Event} {s : State}
    (hrun : run (step setting) (start now files) es = some s)
    (hprivate : Along (step setting) (Private setting) (start now files) es) :
    ∀ v ∈ s.verdicts, ∀ user, v.uid = some user → user = setting.uid v.peer := by
  have hkeeps : ∀ s e t, Told setting s → Private setting s e → UnixDomain.step setting s e = some t → Told setting t :=
    fun _ _ _ htold hprivate hstep => htold.step hprivate hstep
  exact (run_invariant_along hkeeps hrun hprivate (.start now files)).verdicts

def visitor : Pid := 4000

/-- The visitor is of user 1000, the strangers are of user 1001. -/
def users : Setting where
  uid peer := if peer = .client visitor then 1000 else 1001
  umask _ := 0o22
  name := ascii "wyx.socket"

def noFiles : Files := fun _ => none

def acceptOne : List Event := [.accept (some 4) (List.replicate sunPathSize 0), .stat, .time, .unlink true]

/-- A stranger with a file of his own, which his mask leaves to him alone. -/
def visit : List Event := .bind 0 (.path (cliPath visitor)) 0o77 :: .connect 0 :: acceptOne

theorem uid_of_peer_visit : ∃ s v, run (step users) (start 0 noFiles) visit = some s ∧ v ∈ s.verdicts ∧
    v.uid = some 1001 ∧ 1001 = users.uid v.peer := by
  have hverdicts : (run (step users) (start 0 noFiles) visit).map State.verdicts =
      some [⟨.stranger 0, 4, some 1001, 0⟩] := by decide +kernel
  obtain ⟨s, hrun, hs⟩ := Option.map_eq_some_iff.mp hverdicts
  have hmem : ⟨.stranger 0, 4, some 1001, 0⟩ ∈ s.verdicts := hs ▸ List.mem_singleton_self _
  have hprivate : Along (step users) (Private users) (start 0 noFiles) visit := by
    refine ⟨fun _ h => (nomatch h), fun t _ => (along_trivial t _).of_mem fun s e he _ => ?_⟩
    simp only [acceptOne, List.mem_cons, List.not_mem_nil, or_false] at he
    rcases he with rfl | rfl | rfl | rfl | rfl <;> trivial
  exact ⟨s, _, hrun, hmem, rfl, uid_of_peer hrun hprivate _ hmem 1001 rfl⟩

/-- The stranger removes his file, and is taken for the client who binds the name after him. -/
def theft : List Event :=
  [.bind 0 (.path (cliPath visitor)) 0, .connect 0, .put (cliPath visitor) none] ++
    List.replicate 4 (.client visitor true) ++ acceptOne

theorem taken_for_client : ∃ s v, run (step users) (start 0 noFiles) theft = some s ∧ v ∈ s.verdicts ∧
    v.peer = .stranger 0 ∧ v.uid = some 1000 ∧ users.uid v.peer = 1001 := by
  have hverdicts : (run (step users) (start 0 noFiles) theft).map State.verdicts =
      some [⟨.stranger 0, 4, some 1000, 0⟩] := by decide +kernel
  obtain ⟨s, hrun, hs⟩ := Option.map_eq_some_iff.mp hverdicts
  exact ⟨s, _, hrun, hs ▸ List.mem_singleton_self _, rfl, rfl, rfl⟩

/-- A relative name: where the server is it is a file of the visitor's user, where the stranger is it is his own. -/
def relativeName : Path := ⟨ascii "socket", by decide⟩

def disguise : List Event :=
  [.put relativeName (some (socketFile 0o77 1000 0)), .bindElsewhere 0 relativeName, .connect 0] ++ acceptOne

theorem taken_from_elsewhere : ∃ s v, run (step users) (start 0 noFiles) disguise = some s ∧ v ∈ s.verdicts ∧
    v.peer = .stranger 0 ∧ v.uid = some 1000 ∧ users.uid v.peer = 1001 := by
  have hverdicts : (run (step users) (start 0 noFiles) disguise).map State.verdicts =
      some [⟨.stranger 0, 4, some 1000, 0⟩] := by decide +kernel
  obtain ⟨s, hrun, hs⟩ := Option.map_eq_some_iff.mp hverdicts
  exact ⟨s, _, hrun, hs ▸ List.mem_singleton_self _, rfl, rfl, rfl⟩

end RemoteCtrl.UnixDomain
