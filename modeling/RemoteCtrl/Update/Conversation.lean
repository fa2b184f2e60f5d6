import RemoteCtrl.Session.ResponseLaw
import RemoteCtrl.Update.Formatted
import RemoteCtrl.Digest.File

/-!
# A conversation about updates

An operator sends update commands over one connection, and the child runs `DoUpdate` of its task library on each of
them, in one working directory. `converse` says what is meant by that: it knows the fields of a command and the
directory, and no bytes, frames or argument lists. The loop of the child takes bytes, sends bytes, and changes the
directory by running `DoUpdate` on the argument list its buffer gives: it does the same, up to the command that stops
the process if there is one. From the text of an answer the operator can then tell which of the three things has
happened to the directory.
-/

namespace RemoteCtrl.Conversation

open CProgram CProgram.Framing RemoteCtrl.Md5

variable {Loc : Type}

/-! ### The commands -/

/-- The arguments the fields of a command give. -/
def argsOf (fields : List Field) : UpdateArgs where
  argName := lastValue .name fields
  argSize := lastValue .size fields
  argMd5 := lastValue .md5 fields
  argKey := lastValue .key fields
  argVer := lastValue .ver fields
  argIp := lastValue .ip fields
  argPort := lastValue .port fields

/-- An update command with what the system does while it is read and carried out: it fits the receive buffer and
the argument list, and no message it can cause is longer than its buffer. -/
structure Request (Loc : Type) where
  fields : List Field
  read : ReadScript
  spare : Nat
  env : UpdateEnv Loc
  valid : ∀ f ∈ fields, f.Valid
  sendable : Sendable (updateCommand fields)
  delims : (updateCommand fields).countP isDelim ≤ 254
  quiet : read.Quiet
  fits : ∀ name, lastValue .name fields = some name → MessagesFit env (argsOf fields) name

def Request.command (r : Request Loc) : Bytes := updateCommand r.fields

def Request.args (r : Request Loc) : UpdateArgs := argsOf r.fields

/-- An answer, with the directory the command has found. -/
structure Answer (Loc : Type) where
  request : Request Loc
  before : Files Loc
  rspcmd : Bytes

/-- A whole conversation: its answers, where it stands, the directory it leaves, and the shell commands, each with the
directory it has found. -/
structure Transcript (Loc : Type) where
  answers : List (Answer Loc)
  status : Status
  files : Files Loc
  shell : List (ShellRun Loc)

variable [DecidableEq Loc]

/-- What a command does to the directory, from the arguments on. -/
def perform (env : UpdateEnv Loc) (files : Files Loc) (args : UpdateArgs) : UpdateRun Loc :=
  match args.argName with
  | none => { files, checked := none, shell := [], formatted := [], closed := [], result := .fault .nullPointer }
  | some name => connectAndFetch hexMd5 env args (namePath name) (.named files name)

def Request.perform (r : Request Loc) (files : Files Loc) : UpdateRun Loc :=
  Conversation.perform r.env files r.args

/-- Every command finds the directory its predecessor has left; one that stops the process is not answered. -/
def converse : Files Loc → List (Request Loc) → Transcript Loc
  | files, [] => ⟨[], .waiting, files, []⟩
  | files, r :: requests =>
      let run := r.perform files
      match run.result with
      | .ret (_, rspcmd) =>
          let more := converse run.files requests
          ⟨⟨r, files, rspcmd⟩ :: more.answers, more.status, more.files, run.shell ++ more.shell⟩
      | .blocked => ⟨[], .waiting, run.files, run.shell⟩
      | .fault why => ⟨[], .dead why, run.files, run.shell⟩

/-! ### The child -/

/-- `DoUpdate` as a task: the response is what it returns. -/
def doUpdateTask (env : UpdateEnv Loc) (files : Files Loc) : Task := fun cmdarglist => do
  let (_, rspcmd) ← (doUpdate hexMd5 env files cmdarglist).result
  return some rspcmd

/-- The tasks of `libremotetask.so`. -/
def taskLib (env : UpdateEnv Loc) (files : Files Loc) : TaskLib := fun name =>
  if name = ascii "DoUpdate" then some (doUpdateTask env files) else remoteTask name

def Request.turn (r : Request Loc) (files : Files Loc) : Turn where
  read := r.read
  spare := r.spare
  dl := some (taskLib r.env files)
  head := .full
  body := .full

/-- The run of `DoUpdate` behind a string given to `HandleCmd`, if there is one. -/
def updateRun (spare : Nat) (env : UpdateEnv Loc) (files : Files Loc) (cmdstr : Bytes) : Option (UpdateRun Loc) :=
  if EndsInCrLf cmdstr then
    match splitArgs spare cmdargSlots (some cmdstr) with
    | .ret (some name :: more) =>
        if name = ascii "DoUpdate" then some (doUpdate hexMd5 env files (some name :: more)) else none
    | _ => none
  else none

/-- The loop of the child with the directory it works in and the shell commands it runs there. -/
structure Served (Loc : Type) where
  session : Session
  files : Files Loc
  shell : List (ShellRun Loc)

/-- The child, from a directory, the bytes that come and its buffer. -/
def serveUpdates (fd : Int) (idle : List Turn) : Files Loc → List (Request Loc) → Bytes → Bytes → Served Loc
  | files, [], input, buffer => ⟨clientProcess fd false idle input buffer, files, []⟩
  | files, r :: requests, input, buffer =>
      let s := clientTurn fd false (r.turn files) input buffer
      let run := s.dispatched.head?.bind (updateRun r.spare r.env files)
      let left := (run.map UpdateRun.files).getD files
      let shell := (run.map UpdateRun.shell).getD []
      match s.status with
      | .running =>
          let more := serveUpdates fd idle left requests s.input s.buffer
          ⟨s.andThen more.session, more.files, shell ++ more.shell⟩
      | _ => ⟨s, left, shell⟩

/-- The turns of that child: each calls its tasks in the directory the turns before it have left. -/
def turns (fd : Int) (idle : List Turn) : Files Loc → List (Request Loc) → Bytes → Bytes → List Turn
  | _, [], _, _ => idle
  | files, r :: requests, input, buffer =>
      let s := clientTurn fd false (r.turn files) input buffer
      let run := s.dispatched.head?.bind (updateRun r.spare r.env files)
      r.turn files :: turns fd idle ((run.map UpdateRun.files).getD files) requests s.input s.buffer

/-- The child runs the loop of `CreateClientProcess`. -/
theorem serveUpdates_session (fd : Int) (idle : List Turn) (requests : List (Request Loc)) :
    ∀ (files : Files Loc) (input buffer : Bytes),
      (serveUpdates fd idle files requests input buffer).session =
        clientProcess fd false (turns fd idle files requests input buffer) input buffer := by
  induction requests with
  | nil => exact fun files input buffer => rfl
  | cons r requests ih =>
      intro files input buffer
      simp only [serveUpdates, turns, clientProcess]
      cases (clientTurn fd false (r.turn files) input buffer).status with
      | running => simp only [ih]
      | closed => rfl
      | waiting => rfl
      | dead why => rfl

/-! ### One command -/

/-- `HandleCmd` hands `DoUpdate` a list from which it scans the fields. -/
theorem argList_updateCommand {fields : List Field} (hvalid : ∀ f ∈ fields, f.Valid) :
    (∃ more, argList cmdargSlots ((updateCommand fields).splitOnP isDelim) = some (ascii "DoUpdate") :: more) ∧
      ∃ args, scanArgs (argList cmdargSlots ((updateCommand fields).splitOnP isDelim)) {} = .ret args ∧
        ∀ k, args.get k = lastValue k fields := by
  obtain ⟨args, hscan, hargs⟩ := scanArgs_fields (scanned_valid hvalid) _ {}
  rw [splitOnP_updateCommand hvalid]
  refine ⟨⟨_, rfl⟩, args, hscan, fun k => ?_⟩
  rw [hargs k, lastValue_scanned]
  cases k <;> exact Option.or_none

theorem doUpdate_of_get {args : UpdateArgs} {fields : List Field} (hget : ∀ k, args.get k = lastValue k fields)
    (env : UpdateEnv Loc) (files : Files Loc) {cmdarglist : List (Option Bytes)}
    (hscan : scanArgs cmdarglist {} = .ret args) :
    doUpdate hexMd5 env files cmdarglist = perform env files (argsOf fields) := by
  have hname : args.argName = (argsOf fields).argName := hget .name
  have hmd5 : args.argMd5 = (argsOf fields).argMd5 := hget .md5
  have hip : args.argIp = (argsOf fields).argIp := hget .ip
  have hport : args.argPort = (argsOf fields).argPort := hget .port
  rw [doUpdate, hscan, perform]
  simp only [hname]
  cases (argsOf fields).argName with
  | none => rfl
  | some name => simp only [connectAndFetch, fetchAndInstall, hmd5, hip, hport]; rfl

theorem callTask_taskLib (env : UpdateEnv Loc) (files : Files Loc) (name : Bytes) (more : List (Option Bytes)) :
    callTask (some (taskLib env files)) (some name :: more) =
      if name = ascii "DoUpdate" then doUpdateTask env files (some name :: more)
      else callTask (some remoteTask) (some name :: more) := by
  by_cases hname : name = ascii "DoUpdate"
  · rw [if_pos hname, callTask, taskLib, if_pos hname]
  · rw [if_neg hname, callTask, callTask, taskLib, if_neg hname]

/-- What the task returns is what the run of `DoUpdate` returns; without such a run the directory is not looked at. -/
theorem handleCmd_taskLib (spare : Nat) (env : UpdateEnv Loc) (files : Files Loc) (cmdstr : Bytes) :
    handleCmd spare (some (taskLib env files)) cmdstr =
      match updateRun spare env files cmdstr with
      | some run => run.result >>= fun x => .ret (some x.2)
      | none => handleCmd spare (some remoteTask) cmdstr := by
  by_cases hend : EndsInCrLf cmdstr
  · simp only [handleCmd_eq, updateRun, if_pos hend]
    cases splitArgs spare cmdargSlots (some cmdstr) with
    | blocked => simp only [Outcome.blocked_bind]
    | fault why => simp only [Outcome.fault_bind]
    | ret cmdargList =>
        match cmdargList with
        | [] => simp only [Outcome.ret_bind, callTask]
        | none :: more => simp only [Outcome.ret_bind, callTask]
        | some name :: more =>
            rw [Outcome.ret_bind, Outcome.ret_bind, callTask_taskLib]
            by_cases hname : name = ascii "DoUpdate"
            · simp only [if_pos hname, doUpdateTask]
              rfl
            · simp only [if_neg hname]
  · simp only [handleCmd_eq, updateRun, if_neg hend]

theorem updateRun_command (r : Request Loc) (files : Files Loc) :
    updateRun r.spare r.env files r.command = some (r.perform files) := by
  obtain ⟨⟨more, hlist⟩, args, hscan, hargs⟩ := argList_updateCommand r.valid
  have hend : EndsInCrLf (updateCommand r.fields) := endsInCrLf_append _
  rw [hlist] at hscan
  rw [Request.command, updateRun, if_pos hend, splitArgs_command, if_pos (Nat.le_add_right_of_le r.delims), hlist]
  simp only [if_true, doUpdate_of_get hargs r.env files hscan]
  rfl

theorem handleCmd_request (r : Request Loc) (files : Files Loc) :
    handleCmd r.spare (some (taskLib r.env files)) r.command =
      (r.perform files).result >>= fun x => .ret (some x.2) := by
  rw [handleCmd_taskLib, updateRun_command]

theorem perform_exits (env : UpdateEnv Loc) (files : Files Loc) {args : UpdateArgs} {name : Bytes}
    (hname : args.argName = some name) :
    Exits hexMd5 env args (namePath name) (.named files name) (perform env files args) := by
  rw [perform, hname]
  exact connectAndFetch_exits hexMd5 env args (namePath name) (.named files name)

omit [DecidableEq Loc] in
theorem finish_result (u : UpdateState Loc) (connfd filefd : Int) :
    (u.finish connfd filefd).result = .ret (u.res, u.response) := rfl

/-- A run that is answered has come to the label `end`. -/
theorem finish_of_answered {env : UpdateEnv Loc} {args : UpdateArgs} {path : Bytes} {u : UpdateState Loc}
    {run : UpdateRun Loc} (hexits : Exits hexMd5 env args path u run) {res : Int} {rspcmd : Bytes}
    (hret : run.result = .ret (res, rspcmd)) :
    ∃ v : UpdateState Loc, v.res = res ∧ v.response = rspcmd ∧ (256, rspcmd) ∈ run.formatted := by
  have hfinish (v : UpdateState Loc) (connfd filefd : Int) (hrun : run = v.finish connfd filefd) :
      ∃ v : UpdateState Loc, v.res = res ∧ v.response = rspcmd ∧ (256, rspcmd) ∈ run.formatted := by
    rw [hrun, finish_result, Outcome.ret.injEq, Prod.mk.injEq] at hret
    refine ⟨v, hret.1, hret.2, ?_⟩
    rw [hrun, ← hret.2]
    exact List.mem_append_right _ List.mem_cons_self
  cases hexits with
  | socketFails _ => exact hfinish _ _ _ rfl
  | noAddress _ _ => exact absurd hret (by simp [UpdateState.stop])
  | connectFails _ _ _ _ => exact hfinish _ _ _ rfl
  | openFails _ _ => exact hfinish _ _ _ rfl
  | noDigest _ _ _ => exact hfinish _ _ _ rfl
  | noMd5 _ _ _ _ => exact absurd hret (by simp [UpdateState.stop])
  | mismatch _ _ _ _ _ => exact hfinish _ _ _ rfl
  | installed _ _ => exact hfinish _ _ _ rfl

/-- An answer comes from a named command, and has the form of the last `sprintf`. -/
theorem Request.answered (r : Request Loc) {files : Files Loc} {res : Int} {rspcmd : Bytes}
    (hret : (r.perform files).result = .ret (res, rspcmd)) :
    ∃ name, r.args.argName = some name ∧ ∃ v : UpdateState Loc, v.res = res ∧ v.response = rspcmd ∧
      (256, rspcmd) ∈ (r.perform files).formatted := by
  cases hname : r.args.argName with
  | none =>
      rw [Request.perform, Conversation.perform, hname] at hret
      contradiction
  | some name => exact ⟨name, rfl, finish_of_answered (perform_exits r.env files hname) hret⟩

omit [DecidableEq Loc] in
theorem response_ne_namePath (v : UpdateState Loc) (name : Bytes) : v.response ≠ namePath name := by
  intro hsame
  have hhead := congrArg List.head? hsame
  have hresult : (ascii "update:result=").head? = some 117 := by decide
  have hdot : (ascii "./").head? = some 46 := by decide
  simp [UpdateState.response, namePath, List.head?_append, hresult, hdot] at hhead

theorem length_answer_le (r : Request Loc) {files : Files Loc} {res : Int} {rspcmd : Bytes}
    (hret : (r.perform files).result = .ret (res, rspcmd)) : rspcmd.length ≤ 255 := by
  obtain ⟨name, hname, v, -, hresponse, hmem⟩ := r.answered hret
  obtain ⟨more, hformatted, hfits⟩ := (perform_exits r.env files hname).formats
  rw [Request.perform, hformatted, List.singleton_append, List.mem_cons, Prod.mk.injEq] at hmem
  have hmore : (256, rspcmd) ∈ more :=
    hmem.resolve_left fun h => response_ne_namePath v name (hresponse.trans h.2)
  have hlength : rspcmd.length + 1 ≤ 256 := hfits.mpr (r.fits name hname) _ hmore
  omega

/-! ### The loop -/

section
variable {fd : Int} (hfd : 0 < fd)

variable (fd) in
/-- A turn on the frame of a sendable command. -/
theorem clientTurn_wire {t : Turn} (hquiet : t.read.Quiet) {cmd : Bytes} (hsendable : Sendable cmd) {buffer : Bytes}
    (hbuffer : buffer.length = recvBuffLen) (rest : Bytes) :
    ∃ buffer', buffer'.length = recvBuffLen ∧
      clientTurn fd false t (wire cmd ++ rest) buffer =
        ⟨[cmd], (answer fd t cmd).1, rest, buffer', (answer fd t cmd).2⟩ := by
  obtain ⟨read, hread, herr, hstring, hinput, hlen⟩ := readCmd_wire hquiet false hsendable hbuffer rest
  refine ⟨read.buffer, hlen, ?_⟩
  rw [clientTurn_of_read fd hread herr hstring, hinput]

include hfd in
theorem answer_of_answered (r : Request Loc) {files : Files Loc} {res : Int} {rspcmd : Bytes}
    (hret : (r.perform files).result = .ret (res, rspcmd)) :
    answer fd (r.turn files) r.command = (wire rspcmd, .running) := by
  have hlen := length_answer_le r hret
  refine answer_of_reply hfd rfl rfl ?_ (by omega)
  show handleCmd r.spare (some (taskLib r.env files)) r.command = _
  rw [handleCmd_request, hret]
  rfl

variable (fd) in
theorem answer_of_unanswered (r : Request Loc) (files : Files Loc) :
    ((r.perform files).result = .blocked → answer fd (r.turn files) r.command = ([], .waiting)) ∧
      ∀ why, (r.perform files).result = .fault why → answer fd (r.turn files) r.command = ([], .dead why) := by
  have hhandle : handleCmd (r.turn files).spare (r.turn files).dl r.command =
      (r.perform files).result >>= fun x => .ret (some x.2) := handleCmd_request r files
  refine ⟨fun hblocked => ?_, fun why hfault => ?_⟩
  · rw [hblocked, Outcome.blocked_bind] at hhandle
    simp only [answer, hhandle, Outcome.blocked_bind]
  · rw [hfault, Outcome.fault_bind] at hhandle
    simp only [answer, hhandle, Outcome.fault_bind]

/-- The bytes the operator sends. -/
def sent (requests : List (Request Loc)) : Bytes := requests.flatMap fun r => wire r.command

/-- What the child has in common with the conversation: what it has been handed and what it has answered, the directory
it leaves, and the shell commands with the directory each of them has found. -/
structure Agrees (served : Served Loc) (t : Transcript Loc) (requests : List (Request Loc)) : Prop where
  dispatched : served.session.dispatched = (requests.take (t.answers.length + 1)).map Request.command
  output : served.session.output = t.answers.flatMap fun a => wire a.rspcmd
  status : served.session.status = t.status
  files : served.files = t.files
  shell : served.shell = t.shell

variable (fd) in
/-- A turn on a command of the operator. -/
theorem serveUpdates_turn (r : Request Loc) (files : Files Loc) (requests : List (Request Loc)) (idle : List Turn)
    {buffer : Bytes} (hbuffer : buffer.length = recvBuffLen) :
    ∃ buffer', buffer'.length = recvBuffLen ∧
      serveUpdates fd idle files (r :: requests) (sent (r :: requests)) buffer =
        match (answer fd (r.turn files) r.command).2 with
        | .running =>
            let more := serveUpdates fd idle (r.perform files).files requests (sent requests) buffer'
            ⟨Session.andThen ⟨[r.command], (answer fd (r.turn files) r.command).1, sent requests, buffer', .running⟩
                more.session, more.files, (r.perform files).shell ++ more.shell⟩
        | status =>
            ⟨⟨[r.command], (answer fd (r.turn files) r.command).1, sent requests, buffer', status⟩,
              (r.perform files).files, (r.perform files).shell⟩ := by
  obtain ⟨buffer', hlen, hturn⟩ := clientTurn_wire fd (t := r.turn files) r.quiet r.sendable hbuffer (sent requests)
  have hinput : sent (r :: requests) = wire (updateCommand r.fields) ++ sent requests := rfl
  refine ⟨buffer', hlen, ?_⟩
  have hrun : updateRun r.spare r.env files (updateCommand r.fields) = some (r.perform files) :=
    updateRun_command r files
  simp only [serveUpdates, hinput, hturn, List.head?_cons, Option.bind_some, hrun, Option.map_some, Option.getD_some,
    Request.command]
  cases (answer fd (r.turn files) (updateCommand r.fields)).2 <;> rfl

theorem serveUpdates_stop (r : Request Loc) {files : Files Loc} (requests : List (Request Loc)) (idle : List Turn)
    {buffer : Bytes} (hbuffer : buffer.length = recvBuffLen) {status : Status} (hstop : status ≠ .running)
    (hanswer : answer fd (r.turn files) r.command = ([], status)) :
    Agrees (serveUpdates fd idle files (r :: requests) (sent (r :: requests)) buffer)
      ⟨[], status, (r.perform files).files, (r.perform files).shell⟩ (r :: requests) := by
  obtain ⟨buffer', -, hserve⟩ := serveUpdates_turn fd r files requests idle hbuffer
  simp only [hserve, hanswer]
  cases status with
  | running => exact absurd rfl hstop
  | closed => exact ⟨rfl, rfl, rfl, rfl, rfl⟩
  | waiting => exact ⟨rfl, rfl, rfl, rfl, rfl⟩
  | dead why => exact ⟨rfl, rfl, rfl, rfl, rfl⟩

include hfd in
theorem agrees_converse {wait : Turn} (hwait : wait.read.Quiet) (idle : List Turn) (requests : List (Request Loc)) :
    ∀ (files : Files Loc) (buffer : Bytes), buffer.length = recvBuffLen →
      Agrees (serveUpdates fd (wait :: idle) files requests (sent requests) buffer) (converse files requests)
        requests := by
  induction requests with
  | nil =>
      intro files buffer _
      have hturn : clientTurn fd false wait [] buffer = ⟨[], [], [], buffer, .waiting⟩ := by
        simp only [clientTurn, readCmd_wait hwait]
      have hrun : serveUpdates fd (wait :: idle) files [] [] buffer = ⟨⟨[], [], [], buffer, .waiting⟩, files, []⟩ := by
        rw [serveUpdates, clientProcess_stop hturn (by simp)]
      rw [sent, List.flatMap_nil, hrun]
      exact ⟨rfl, rfl, rfl, rfl, rfl⟩
  | cons r requests ih =>
      intro files buffer hbuffer
      obtain ⟨hblocked, hfault⟩ := answer_of_unanswered fd r files
      cases hresult : (r.perform files).result with
      | blocked =>
          simp only [converse, hresult]
          exact serveUpdates_stop r requests _ hbuffer (by simp) (hblocked hresult)
      | fault why =>
          simp only [converse, hresult]
          exact serveUpdates_stop r requests _ hbuffer (by simp) (hfault why hresult)
      | ret value =>
          obtain ⟨res, rspcmd⟩ := value
          obtain ⟨buffer', hlen, hserve⟩ := serveUpdates_turn fd r files requests (wait :: idle) hbuffer
          rw [answer_of_answered hfd r hresult] at hserve
          have hmore := ih (r.perform files).files buffer' hlen
          simp only [converse, hresult]
          rw [hserve]
          exact
            { dispatched := congrArg (r.command :: ·) hmore.dispatched
              output := congrArg (wire rspcmd ++ ·) hmore.output
              status := hmore.status
              files := hmore.files
              shell := congrArg ((r.perform files).shell ++ ·) hmore.shell }

include hfd in
/-- **The loop of the child carries on the conversation.** Its answers come out in order, each in its frame; a command
that stops the process is the last one handed to `HandleCmd`; and the directory and the shell commands are those of
the conversation. -/
theorem serveUpdates_agrees {wait : Turn} (hwait : wait.read.Quiet) (idle : List Turn) (requests : List (Request Loc))
    (files : Files Loc) (buffer : Bytes) (hbuffer : buffer.length = recvBuffLen) :
    (serveUpdates fd (wait :: idle) files requests (sent requests) buffer).session =
        clientProcess fd false (turns fd (wait :: idle) files requests (sent requests) buffer) (sent requests) buffer ∧
      Agrees (serveUpdates fd (wait :: idle) files requests (sent requests) buffer) (converse files requests)
        requests :=
  ⟨serveUpdates_session fd (wait :: idle) requests files (sent requests) buffer,
    agrees_converse hfd hwait idle requests files buffer hbuffer⟩

end

/-- Nothing answers at the address given, and in the second command no name is given. -/
def unreachable (fields : List Field) (hvalid : ∀ f ∈ fields, f.Valid) (hsendable : Sendable (updateCommand fields))
    (hdelims : (updateCommand fields).countP isDelim ≤ 254) : Request Bytes where
  fields := fields
  read := ⟨(0, 0), [], []⟩
  spare := 0
  env := { rejected.env with connect := fun _ _ => some 111, download := [] }
  valid := hvalid
  sendable := hsendable
  delims := hdelims
  quiet := checkKeyExchange.quiet
  fits := fun name _ => by
    refine ⟨fun port ip errno _ _ _ herrno => ?_, fun _ hopen => ?_, fun _ _ turn hturn => ?_⟩
    · obtain rfl := Option.some.inj herrno
      decide
    · exact absurd hopen (by decide)
    · exact absurd hturn List.not_mem_nil

def namedFields : List Field :=
  [.keyed .name archive, .keyed .ip (ascii "10.0.0.1"), .keyed .port (ascii "12345")]

theorem namedFields_valid : ∀ f ∈ namedFields, f.Valid := by
  intro f hf
  simp only [namedFields, List.mem_cons, List.not_mem_nil, or_false] at hf
  rcases hf with rfl | rfl | rfl
  · exact (by decide : Plain archive)
  · exact (by decide : Plain (ascii "10.0.0.1"))
  · exact (by decide : Plain (ascii "12345"))

def named : Request Bytes := unreachable namedFields namedFields_valid (by decide) (by decide)

def unnamed : Request Bytes := unreachable [] (fun _ hf => absurd hf List.not_mem_nil) (by decide) (by decide)

/-- The download comes, and the file cannot be opened for its digest. -/
def unread : Request Bytes :=
  { named with
    env := { rejected.env with fopen := false }
    fits := fun name _ => by
      refine ⟨fun port ip errno _ _ _ herrno => ?_, fun _ hopen => ?_, fun _ _ turn hturn errno herror => ?_⟩
      · exact absurd herrno.symm (Option.some_ne_none errno)
      · exact absurd hopen (by decide)
      · obtain rfl := List.mem_singleton.mp hturn
        exact absurd herror (by simp) }

def oneRejected : List (Request Bytes) := [unread, named, unnamed, named]

/-- The child with these commands. -/
def refusing : Served Bytes :=
  serveUpdates 4 [remoteTurn] emptyDirectory oneRejected (sent oneRejected) (List.replicate recvBuffLen 0)

/-- Two commands are answered, the third stops the process, and the rejected download stays. -/
theorem serveUpdates_agrees_unnamed :
    refusing.session.output = wire (ascii "update:result=-5:message=md5 check failed 2\r\n") ++
        wire (ascii "update:result=-2:message=connect error111\r\n") ∧
      refusing.session.dispatched = [unread.command, named.command, unnamed.command] ∧
      refusing.files.read archive = some (ascii "evil") ∧ refusing.shell = [] := by
  have hagrees : Agrees refusing (converse emptyDirectory oneRejected) oneRejected :=
    (serveUpdates_agrees (by decide : (0 : Int) < 4) checkKeyExchange.quiet [] oneRejected emptyDirectory
      (List.replicate recvBuffLen 0) List.length_replicate).2
  have hanswers : (converse emptyDirectory oneRejected).answers =
      [⟨unread, emptyDirectory, ascii "update:result=-5:message=md5 check failed 2\r\n"⟩,
        ⟨named, (unread.perform emptyDirectory).files, ascii "update:result=-2:message=connect error111\r\n"⟩] := rfl
  have hleft : (converse emptyDirectory oneRejected).files.read archive = some (ascii "evil") := rfl
  obtain ⟨hdispatched, houtput, -, hfiles, hshell⟩ := hagrees
  rw [hanswers] at houtput hdispatched
  rw [← hfiles] at hleft
  exact ⟨houtput, hdispatched, hleft, hshell⟩

/-! ### What an answer tells -/

/-- What an update has done to the directory: nothing, a download that is not accepted in place of the file named, or
an accepted download in its place and the four commands. The first of these extracts `update.tar.gz`, which is that
download only if the name denotes it. -/
inductive Verdict
  | untouched
  | rejected
  | installed
  deriving DecidableEq, Repr

/-- The operator's reading of the text. With -4 a write has failed, and the check has passed all the same. -/
def verdictOf (rspcmd : Bytes) : Option Verdict :=
  let result (res : String) : Bool := (ascii ("update:result=" ++ res ++ ":")).isPrefixOf rspcmd
  if result "0" || result "-4" then some .installed
  else if result "-5" then some .rejected
  else if result "-1" || result "-2" || result "-3" then some .untouched
  else none

def Verdict.Holds (a : Answer Loc) : Verdict → Prop
  | .untouched => (a.request.perform a.before).shell = [] ∧ (a.request.perform a.before).files = a.before
  | .rejected =>
      (a.request.perform a.before).shell = [] ∧ ∃ name, lastValue .name a.request.fields = some name ∧
        (a.request.perform a.before).files = a.before.write (namePath name) (downloaded a.request.env.download)
  | .installed =>
      ∃ name content, lastValue .name a.request.fields = some name ∧
        lastValue .md5 a.request.fields = some (hexMd5 content) ∧
        (a.request.perform a.before).shell.map ShellRun.command = installCommands ∧
        ∃ first, (a.request.perform a.before).shell.head? = some first ∧
          first.before = a.before.write (namePath name) content ∧
          first.before.read archive =
            if a.before.resolve archive = a.before.resolve (namePath name) then some content
            else a.before.read archive

/-- The tests look no further than the colon behind the number. -/
theorem verdictOf_append {text : Bytes} (hlen : 17 ≤ text.length) (rest : Bytes) :
    verdictOf (text ++ rest) = verdictOf text := by
  have hprefix (lit : Bytes) (hlit : lit.length ≤ 17) : lit.isPrefixOf (text ++ rest) = lit.isPrefixOf text := by
    rw [Bool.eq_iff_iff, List.isPrefixOf_iff_prefix, List.isPrefixOf_iff_prefix,
      List.isPrefix_append_of_length (hlit.trans hlen)]
  simp only [verdictOf, hprefix (ascii ("update:result=" ++ "0" ++ ":")) (by decide),
    hprefix (ascii ("update:result=" ++ "-4" ++ ":")) (by decide),
    hprefix (ascii ("update:result=" ++ "-5" ++ ":")) (by decide),
    hprefix (ascii ("update:result=" ++ "-1" ++ ":")) (by decide),
    hprefix (ascii ("update:result=" ++ "-2" ++ ":")) (by decide),
    hprefix (ascii ("update:result=" ++ "-3" ++ ":")) (by decide)]

omit [DecidableEq Loc] in
theorem verdictOf_response {v : UpdateState Loc} {res : Int} (hres : v.res = res) {verdict : Verdict}
    (hlen : 17 ≤ (ascii "update:result=" ++ decimal res ++ ascii ":message=").length)
    (hread : verdictOf (ascii "update:result=" ++ decimal res ++ ascii ":message=") = some verdict) :
    verdictOf v.response = some verdict := by
  have hform : v.response = (ascii "update:result=" ++ decimal res ++ ascii ":message=") ++ (v.msg ++ ascii "\r\n") := by
    simp [UpdateState.response, hres]
  rw [hform, verdictOf_append hlen, hread]

/-- What an answer of `perform` tells holds of the directory. -/
theorem Request.tells (r : Request Loc) {files : Files Loc} {res : Int} {rspcmd : Bytes}
    (hret : (r.perform files).result = .ret (res, rspcmd)) :
    ∃ verdict, verdictOf rspcmd = some verdict ∧ verdict.Holds ⟨r, files, rspcmd⟩ := by
  obtain ⟨name, hname, v, hres, hresponse, -⟩ := r.answered hret
  rw [← hresponse]
  rcases (perform_exits r.env files hname).ends rfl rfl with
    ⟨⟨hshell, hfiles, hnegative⟩, -⟩ | ⟨⟨hshell, hfiles, hfive⟩, -⟩ | ⟨⟨hcommands, hbefore, -, hdone⟩, -, hchecks⟩
  · refine ⟨.untouched, ?_, hshell, hfiles⟩
    rcases hnegative res rspcmd hret with rfl | rfl | rfl
    · exact verdictOf_response hres (by decide) (by decide)
    · exact verdictOf_response hres (by decide) (by decide)
    · exact verdictOf_response hres (by decide) (by decide)
  · refine ⟨.rejected, ?_, hshell, name, hname, hfiles⟩
    obtain rfl := hfive res rspcmd hret
    exact verdictOf_response hres (by decide) (by decide)
  · obtain ⟨first, hfirst, hstart⟩ := Option.map_eq_some_iff.mp hbefore
    have hextracted : first.before.read archive =
        if files.resolve archive = files.resolve (namePath name) then some (downloaded r.env.download)
        else files.read archive := hstart ▸ Files.read_write_of files (namePath name) archive _
    refine ⟨.installed, ?_, name, downloaded r.env.download, hname, hchecks.2.2, hcommands, first, hfirst, hstart,
      hextracted⟩
    rcases hdone res rspcmd hret with rfl | rfl
    · exact verdictOf_response hres (by decide) (by decide)
    · exact verdictOf_response hres (by decide) (by decide)

theorem converse_answers (requests : List (Request Loc)) :
    ∀ files : Files Loc, ∀ a ∈ (converse files requests).answers,
      ∃ res, (a.request.perform a.before).result = .ret (res, a.rspcmd) := by
  induction requests with
  | nil => exact fun files a ha => absurd ha List.not_mem_nil
  | cons r requests ih =>
      intro files a ha
      cases hresult : (r.perform files).result with
      | blocked =>
          simp only [converse, hresult] at ha
          exact absurd ha List.not_mem_nil
      | fault why =>
          simp only [converse, hresult] at ha
          exact absurd ha List.not_mem_nil
      | ret value =>
          simp only [converse, hresult] at ha
          rcases List.mem_cons.mp ha with rfl | hmore
          · exact ⟨value.1, hresult⟩
          · exact ih _ a hmore

/-- **Every answer of a conversation tells what has happened.** After an install the digest given is that of the file
named, and what has been extracted is that file or an older `update.tar.gz`. -/
theorem answers_tell (files : Files Loc) (requests : List (Request Loc)) :
    ∀ a ∈ (converse files requests).answers,
      ∃ verdict, verdictOf a.rspcmd = some verdict ∧ verdict.Holds a := by
  intro a ha
  obtain ⟨res, hret⟩ := converse_answers requests files a ha
  exact a.request.tells hret

/-- The first answer says that the download has been refused; it is in place of the file named. -/
theorem answers_tell_refused :
    (unread.perform emptyDirectory).shell = [] ∧ ∃ name, lastValue .name unread.fields = some name ∧
      (unread.perform emptyDirectory).files =
        emptyDirectory.write (namePath name) (downloaded unread.env.download) := by
  have hmem : ⟨unread, emptyDirectory, ascii "update:result=-5:message=md5 check failed 2\r\n"⟩ ∈
      (converse emptyDirectory oneRejected).answers := List.mem_cons_self
  obtain ⟨verdict, hverdict, hholds⟩ := answers_tell emptyDirectory oneRejected _ hmem
  have hrejected : verdictOf (ascii "update:result=-5:message=md5 check failed 2\r\n") = some .rejected := by decide
  obtain rfl : Verdict.rejected = verdict := Option.some.inj (hrejected.symm.trans hverdict)
  exact hholds

end RemoteCtrl.Conversation
