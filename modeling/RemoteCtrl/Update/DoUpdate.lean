import RemoteCtrl.Update.Args
import Mathlib.Logic.Function.Basic

/-!
# The update task

`DoUpdate` of `Update.c`, from the scanned arguments to the response. The working directory is a map from
locations to contents and the resolution of paths to locations, so that two names may denote one file. The
environment of a command fixes the outcome of every system call. A run records, besides the directory and
the response, the content whose digest compared equal, the shell commands with the directory each of them
started from, and every `sprintf` with the size of its destination.
-/

namespace RemoteCtrl

open CProgram

/-! ### The working directory -/

structure Files (Loc : Type) where
  resolve : Bytes → Loc
  content : Loc → Option Bytes

variable {Loc : Type} [DecidableEq Loc]

def Files.read (files : Files Loc) (path : Bytes) : Option Bytes := files.content (files.resolve path)

def Files.write (files : Files Loc) (path data : Bytes) : Files Loc :=
  { files with content := Function.update files.content (files.resolve path) (some data) }

def Files.append (files : Files Loc) (path data : Bytes) : Files Loc :=
  files.write path ((files.read path).getD [] ++ data)

/-! ### What the system does during a command -/

/-- The bytes of one `read` into `filebuff[1024]`. -/
structure Chunk where
  bytes : Bytes
  pos : 0 < bytes.length
  le : bytes.length ≤ 1024
  deriving DecidableEq, Repr

inductive WriteOutcome
  | full
  | short (count : Nat)
  | error (errno : Int)
  deriving DecidableEq, Repr

/-- How `read` returns a number that is not positive. The loop does not look which. -/
inductive ReadEnd
  | endOfStream
  | error
  deriving DecidableEq, Repr

structure UpdateEnv (Loc : Type) where
  socket : Int
  /-- `connect` to an address text and a port: success, or the value of `errno`. -/
  connect : Bytes → Nat → Option Int
  openFile : Int
  download : List (Chunk × WriteOutcome)
  readEnd : ReadEnd
  fopen : Bool
  /-- `system`: the status of a shell command and the directory it leaves. -/
  system : Bytes → Files Loc → Int × Files Loc

structure ShellRun (Loc : Type) where
  command : Bytes
  before : Files Loc
  status : Int

structure UpdateState (Loc : Type) where
  files : Files Loc
  res : Int
  msg : Bytes
  checked : Option Bytes
  shell : List (ShellRun Loc)
  formatted : List (Nat × Bytes)

/-- What a command leaves: `result` is `res` and the response, or the way the process stops. -/
structure UpdateRun (Loc : Type) where
  files : Files Loc
  checked : Option Bytes
  shell : List (ShellRun Loc)
  formatted : List (Nat × Bytes)
  closed : List Int
  result : Outcome (Int × Bytes)

/-! ### The function -/

/-- `our_MD5File`; `digest` is the hexadecimal MD5 of a content. -/
def ourMD5File (digest : Bytes → Bytes) (fopen : Bool) (files : Files Loc) (path : Bytes) : Option Bytes :=
  if fopen then (files.read path).map digest else none

/-- `sprintf(msg, ...)` into `msg[64]`, and the assignment of `res`. -/
def UpdateState.fail (u : UpdateState Loc) (res : Int) (msg : Bytes) : UpdateState Loc :=
  { u with res, msg, formatted := u.formatted ++ [(64, msg)] }

/-- The read loop. A failing `write` is recorded and the loop goes on. -/
def downloadLoop (namePath : Bytes) : List (Chunk × WriteOutcome) → UpdateState Loc → UpdateState Loc
  | [], u => u
  | (chunk, .full) :: more, u =>
      downloadLoop namePath more { u with files := u.files.append namePath chunk.bytes }
  | (chunk, .short count) :: more, u =>
      downloadLoop namePath more { u with files := u.files.append namePath (chunk.bytes.take count) }
  | (_, .error errno) :: more, u =>
      downloadLoop namePath more
        (u.fail (-4) (ascii "write file " ++ namePath ++ ascii " errno" ++ decimal errno))

def archive : Bytes := ascii "update.tar.gz"

def installCommands : List Bytes :=
  [ascii "tar xvf update.tar.gz", ascii "cp update/* ./ -r -f", ascii "dos2unix update.sh", ascii "bash update.sh"]

def install (system : Bytes → Files Loc → Int × Files Loc) : List Bytes → UpdateState Loc → UpdateState Loc
  | [], u => u
  | command :: more, u =>
      install system more
        { u with
          files := (system command u.files).2
          shell := u.shell ++ [⟨command, u.files, (system command u.files).1⟩] }

/-- The label `end`. -/
def UpdateState.finish (u : UpdateState Loc) (connfd filefd : Int) : UpdateRun Loc :=
  let rspcmd := ascii "update:result=" ++ decimal u.res ++ ascii ":message=" ++ u.msg ++ ascii "\r\n"
  { files := u.files
    checked := u.checked
    shell := u.shell
    formatted := u.formatted ++ [(256, rspcmd)]
    closed := (if connfd > 0 then [connfd] else []) ++ (if filefd > 0 then [filefd] else [])
    result := .ret (u.res, rspcmd) }

def UpdateState.stop (u : UpdateState Loc) (why : Fault) : UpdateRun Loc :=
  { files := u.files, checked := u.checked, shell := u.shell, formatted := u.formatted, closed := []
    result := .fault why }

/-- From `open` on. -/
def fetchAndInstall (digest : Bytes → Bytes) (env : UpdateEnv Loc) (args : UpdateArgs) (namePath : Bytes)
    (u : UpdateState Loc) : UpdateRun Loc :=
  if env.openFile < 0 then
    (u.fail (-3) (ascii "create file " ++ namePath ++ ascii " error")).finish env.socket env.openFile
  else
    -- `O_TRUNC|O_WRONLY|O_CREAT`
    let opened := { u with files := u.files.write namePath [] }
    let u := downloadLoop namePath env.download opened
    match ourMD5File digest env.fopen u.files namePath with
    | none => (u.fail (-5) (ascii "md5 check failed 2")).finish env.socket env.openFile
    | some mdstring =>
        match args.argMd5 with
        | none => u.stop .nullPointer
        | some md5 =>
            if strcmp mdstring md5 ≠ 0 then
              (u.fail (-5) (ascii "md5 check failed 2")).finish env.socket env.openFile
            else
              (install env.system installCommands { u with checked := u.files.read namePath }).finish
                env.socket env.openFile

/-- From `socket` on. -/
def connectAndFetch (digest : Bytes → Bytes) (env : UpdateEnv Loc) (args : UpdateArgs) (namePath : Bytes)
    (u : UpdateState Loc) : UpdateRun Loc :=
  if env.socket < 0 then
    (u.fail (-1) (ascii "socket error")).finish env.socket (-1)
  else
    match args.argPort, args.argIp with
    | some port, some ip =>
        match env.connect ip (atoi port % 65536).toNat with
        | some errno => (u.fail (-2) (ascii "connect error" ++ decimal errno)).finish env.socket (-1)
        | none => fetchAndInstall digest env args namePath u
    | _, _ => u.stop .nullPointer

/-- `DoUpdate`. `NamePath` has `strlen(ArgName)` bytes; what the `sprintf` into it writes behind them is
taken to hit nothing the function uses. -/
def doUpdate (digest : Bytes → Bytes) (env : UpdateEnv Loc) (files : Files Loc)
    (cmdarglist : List (Option Bytes)) : UpdateRun Loc :=
  let u : UpdateState Loc :=
    { files, res := 0, msg := ascii "successful", checked := none, shell := [], formatted := [] }
  match scanArgs cmdarglist {} with
  | .ret args =>
      match args.argName with
      | none => u.stop .nullPointer
      | some name =>
          connectAndFetch digest env args (ascii "./" ++ name)
            { u with formatted := [(name.length, ascii "./" ++ name)] }
  | _ => u.stop .outOfBounds

/-! ### The directory -/

@[simp] theorem Files.read_write (files : Files Loc) (path data : Bytes) :
    (files.write path data).read path = some data := by
  simp [Files.read, Files.write]

@[simp] theorem Files.write_write (files : Files Loc) (path first second : Bytes) :
    (files.write path first).write path second = files.write path second := by
  simp [Files.write]

theorem Files.read_write_of (files : Files Loc) (path other data : Bytes) :
    (files.write path data).read other =
      if files.resolve other = files.resolve path then some data else files.read other := by
  simp only [Files.read, Files.write, Function.update_apply]

theorem Files.append_write (files : Files Loc) (path data more : Bytes) :
    (files.write path data).append path more = files.write path (data ++ more) := by
  rw [Files.append, Files.read_write, Files.write_write, Option.getD_some]

/-! ### The download -/

def written : Chunk × WriteOutcome → Bytes
  | (chunk, .full) => chunk.bytes
  | (chunk, .short count) => chunk.bytes.take count
  | (_, .error _) => []

def downloaded (download : List (Chunk × WriteOutcome)) : Bytes := download.flatMap written

/-- The loop touches the one file, and of the variables only `res`, `msg` and what has been formatted. -/
theorem downloadLoop_spec (namePath : Bytes) (download : List (Chunk × WriteOutcome)) :
    ∀ (u : UpdateState Loc) (files : Files Loc) (data : Bytes), u.files = files.write namePath data →
      (downloadLoop namePath download u).files = files.write namePath (data ++ downloaded download) ∧
        (downloadLoop namePath download u).shell = u.shell ∧
        (downloadLoop namePath download u).checked = u.checked ∧
        ((downloadLoop namePath download u).res = u.res ∨ (downloadLoop namePath download u).res = -4) := by
  induction download with
  | nil =>
      intro u files data hfiles
      exact ⟨by simpa [downloadLoop, downloaded] using hfiles, rfl, rfl, .inl rfl⟩
  | cons turn more ih =>
      intro u files data hfiles
      obtain ⟨chunk, outcome⟩ := turn
      have hmore : downloaded ((chunk, outcome) :: more) = written (chunk, outcome) ++ downloaded more := rfl
      rw [hmore, ← List.append_assoc]
      cases outcome with
      | full => exact ih _ files _ (by simp only [hfiles, Files.append_write, written])
      | short count => exact ih _ files _ (by simp only [hfiles, Files.append_write, written])
      | error errno =>
          obtain ⟨hloop, hshell, hchecked, hres⟩ := ih
            (u.fail (-4) (ascii "write file " ++ namePath ++ ascii " errno" ++ decimal errno)) files data hfiles
          refine ⟨?_, hshell, hchecked, .inr (hres.elim id id)⟩
          rw [written, List.append_nil]
          exact hloop

/-! ### The install steps -/

omit [DecidableEq Loc] in
theorem install_shell (system : Bytes → Files Loc → Int × Files Loc) (commands : List Bytes) :
    ∀ u : UpdateState Loc, ∃ runs, (install system commands u).shell = u.shell ++ runs ∧
      runs.map ShellRun.command = commands ∧
      runs.head?.map ShellRun.before = commands.head?.map (fun _ => u.files) ∧
      (install system commands u).checked = u.checked ∧ (install system commands u).res = u.res := by
  induction commands with
  | nil => exact fun u => ⟨[], (List.append_nil _).symm, rfl, rfl, rfl, rfl⟩
  | cons command more ih =>
      intro u
      obtain ⟨runs, hshell, hcommands, _, hchecked, hres⟩ := ih
        { u with
          files := (system command u.files).2
          shell := u.shell ++ [⟨command, u.files, (system command u.files).1⟩] }
      refine ⟨⟨command, u.files, (system command u.files).1⟩ :: runs, ?_, ?_, rfl, hchecked, hres⟩
      · rw [install, hshell, List.append_assoc]
        rfl
      · rw [List.map_cons, hcommands]

end RemoteCtrl
