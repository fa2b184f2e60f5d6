import RemoteCtrl.Update.Verified

/-!
# The result an update reports

`res` starts at 0, and after the download only a failing `write` and the check of the digest change it. A short
`write`, an error that ends the read loop and the four results of `system` are not looked at: a command that is
admitted reports 0 exactly when no `write` has failed, whatever else has.
-/

namespace RemoteCtrl

open CProgram

variable {Loc : Type}

def readBytes (download : List (Chunk × WriteOutcome)) : Bytes := download.flatMap fun turn => turn.1.bytes

def writeFails : Chunk × WriteOutcome → Bool
  | (_, .error _) => true
  | _ => false

/-- The results of shell commands run one after the other. -/
def statuses (system : Bytes → Files Loc → Int × Files Loc) : List Bytes → Files Loc → List Int
  | [], _ => []
  | command :: more, files => (system command files).1 :: statuses system more (system command files).2

/-- The response carries this result. -/
def UpdateRun.Reports (run : UpdateRun Loc) (res : Int) : Prop :=
  ∃ msg, run.result = .ret (res, ascii "update:result=" ++ decimal res ++ ascii ":message=" ++ msg ++ ascii "\r\n")

/-- What result 0 says: the file checked has every byte received, in order, the download has come to its end,
the digest is the one given, and the four steps have succeeded. -/
structure Succeeded (digest : Bytes → Bytes) (env : UpdateEnv Loc) (cmdarglist : List (Option Bytes))
    (run : UpdateRun Loc) : Prop where
  written : run.checked = some (readBytes env.download)
  ended : env.readEnd = .endOfStream
  md5 : ∃ args, scanArgs cmdarglist {} = .ret args ∧ args.argMd5 = some (digest (readBytes env.download))
  commands : run.shell.map ShellRun.command = installCommands
  statuses : ∀ step ∈ run.shell, step.status = 0

/-- The result agrees with what has happened. -/
def Truthful (digest : Bytes → Bytes) (env : UpdateEnv Loc) (cmdarglist : List (Option Bytes))
    (run : UpdateRun Loc) : Prop :=
  (run.Reports 0 → Succeeded digest env cmdarglist run) ∧
    (run.shell ≠ [] → Succeeded digest env cmdarglist run → run.Reports 0)

/-! ### The writes -/

theorem written_starts_chunk (turn : Chunk × WriteOutcome) : written turn <+: turn.1.bytes := by
  obtain ⟨chunk, outcome⟩ := turn
  cases outcome with
  | full => exact List.prefix_rfl
  | short count => exact List.take_prefix count chunk.bytes
  | error errno => exact List.nil_prefix

theorem length_downloaded_le (download : List (Chunk × WriteOutcome)) :
    (downloaded download).length ≤ (readBytes download).length := by
  induction download with
  | nil => exact Nat.le_refl 0
  | cons turn more ih =>
      have hhead := (written_starts_chunk turn).length_le
      simp only [downloaded, readBytes, List.flatMap_cons, List.length_append] at ih ⊢
      omega

/-- Nothing a later turn writes makes up for a byte an earlier one has lost. -/
theorem downloaded_eq_readBytes_iff (download : List (Chunk × WriteOutcome)) :
    downloaded download = readBytes download ↔ ∀ turn ∈ download, written turn = turn.1.bytes := by
  induction download with
  | nil => exact iff_of_true rfl fun turn hturn => absurd hturn List.not_mem_nil
  | cons turn more ih =>
      have hdownloaded : downloaded (turn :: more) = written turn ++ downloaded more := List.flatMap_cons
      have hread : readBytes (turn :: more) = turn.1.bytes ++ readBytes more := List.flatMap_cons
      rw [hdownloaded, hread, List.forall_mem_cons, ← ih]
      constructor
      · intro hsame
        have hhead := (written_starts_chunk turn).length_le
        have htail := length_downloaded_le more
        have hlength := congrArg List.length hsame
        rw [List.length_append, List.length_append] at hlength
        exact List.append_inj hsame (by omega)
      · intro hboth
        rw [hboth.1, hboth.2]

theorem writeFails_of_whole {turn : Chunk × WriteOutcome} (hwhole : written turn = turn.1.bytes) :
    writeFails turn = false := by
  obtain ⟨chunk, outcome⟩ := turn
  cases outcome with
  | full => rfl
  | short count => rfl
  | error errno =>
      have hpos := chunk.pos
      rw [← show [] = chunk.bytes from hwhole] at hpos
      contradiction

variable [DecidableEq Loc]

theorem downloadLoop_res (path : Bytes) (download : List (Chunk × WriteOutcome)) :
    ∀ u : UpdateState Loc, (downloadLoop path download u).res = if download.any writeFails then -4 else u.res := by
  induction download with
  | nil => exact fun u => rfl
  | cons turn more ih =>
      intro u
      obtain ⟨chunk, outcome⟩ := turn
      cases outcome with
      | full => exact ih _
      | short count => exact ih _
      | error errno =>
          rw [downloadLoop, ih]
          exact ite_self _

/-! ### The shell commands -/

omit [DecidableEq Loc] in
theorem install_statuses (system : Bytes → Files Loc → Int × Files Loc) (commands : List Bytes) :
    ∀ u : UpdateState Loc, (install system commands u).shell.map ShellRun.status =
      u.shell.map ShellRun.status ++ statuses system commands u.files := by
  induction commands with
  | nil => exact fun u => (List.append_nil _).symm
  | cons command more ih =>
      intro u
      rw [install, ih, List.map_append, List.append_assoc]
      rfl

/-! ### The report -/

omit [DecidableEq Loc] in
theorem reports_finish_iff (u : UpdateState Loc) (connfd filefd res : Int) :
    (u.finish connfd filefd).Reports res ↔ u.res = res := by
  constructor
  · rintro ⟨msg, hresult⟩
    exact congrArg Prod.fst (Outcome.ret.inj hresult)
  · rintro rfl
    exact ⟨u.msg, rfl⟩

omit [DecidableEq Loc] in
theorem truthful_of_failed {digest : Bytes → Bytes} {env : UpdateEnv Loc} {cmdarglist : List (Option Bytes)}
    {run : UpdateRun Loc} (hshell : run.shell = []) (hres : ∀ res rsp, run.result = .ret (res, rsp) → res ≠ 0) :
    Truthful digest env cmdarglist run := by
  refine ⟨fun hreports => ?_, fun hinstalled => absurd hshell hinstalled⟩
  obtain ⟨msg, hresult⟩ := hreports
  exact absurd rfl (hres _ _ hresult)

section
variable {digest : Bytes → Bytes} {env : UpdateEnv Loc} {files : Files Loc} {cmdarglist : List (Option Bytes)}
  {name : Bytes} (hadmitted : Admitted digest env cmdarglist name)

include hadmitted

theorem reports_zero_iff :
    (doUpdate digest env files cmdarglist).Reports 0 ↔ env.download.any writeFails = false := by
  obtain ⟨runs, -, -, -, -, hres⟩ := install_shell env.system installCommands
    { env.fetch (namePath name) (.named files name) with checked := some (downloaded env.download) }
  rw [doUpdate_of_admitted hadmitted, reports_finish_iff, hres]
  show (downloadLoop (namePath name) env.download _).res = 0 ↔ _
  rw [downloadLoop_res]
  cases env.download.any writeFails with
  | true => exact iff_of_false (by simp) (by simp)
  | false => exact iff_of_true rfl rfl

theorem statuses_of_admitted :
    (doUpdate digest env files cmdarglist).shell.map ShellRun.status =
      statuses env.system installCommands (files.write (namePath name) (downloaded env.download)) := by
  obtain ⟨hfiles, hshell, -⟩ := fetch_spec env (namePath name) (.named files name)
  rw [doUpdate_of_admitted hadmitted]
  show (install env.system installCommands _).shell.map ShellRun.status = _
  rw [install_statuses, hshell, hfiles]
  rfl

theorem succeeded_iff :
    Succeeded digest env cmdarglist (doUpdate digest env files cmdarglist) ↔
      (∀ turn ∈ env.download, written turn = turn.1.bytes) ∧ env.readEnd = .endOfStream ∧
        ∀ status ∈ statuses env.system installCommands (files.write (namePath name) (downloaded env.download)),
          status = 0 := by
  obtain ⟨hcommands, -, hchecked, -⟩ := installed_of_admitted files hadmitted
  rw [← downloaded_eq_readBytes_iff, ← statuses_of_admitted hadmitted, List.forall_mem_map]
  constructor
  · intro hsucceeded
    have hwritten := hsucceeded.written
    rw [hchecked, Option.some.injEq] at hwritten
    exact ⟨hwritten, hsucceeded.ended, hsucceeded.statuses⟩
  · rintro ⟨hwritten, hended, hstatuses⟩
    obtain ⟨args, hscan, -, -, -, -, hmd5⟩ := hadmitted
    exact ⟨by rw [hchecked, hwritten], hended, ⟨args, hscan, hwritten ▸ hmd5⟩, hcommands, hstatuses⟩

end

/-- What the code leaves unchecked has not gone wrong: a command that is admitted, and whose writes have not
failed, has written every byte, read to the end, and run four commands that succeed. -/
def UncheckedHolds (digest : Bytes → Bytes) (env : UpdateEnv Loc) (files : Files Loc)
    (cmdarglist : List (Option Bytes)) : Prop :=
  ∀ name, Admitted digest env cmdarglist name → env.download.any writeFails = false →
    (∀ turn ∈ env.download, written turn = turn.1.bytes) ∧ env.readEnd = .endOfStream ∧
      ∀ status ∈ statuses env.system installCommands (files.write (namePath name) (downloaded env.download)), status = 0

/-- **The report.** What an update reports agrees with what has happened exactly when what it leaves unchecked
has not gone wrong. -/
theorem truthful_iff (digest : Bytes → Bytes) (env : UpdateEnv Loc) (files : Files Loc)
    (cmdarglist : List (Option Bytes)) :
    Truthful digest env cmdarglist (doUpdate digest env files cmdarglist) ↔
      UncheckedHolds digest env files cmdarglist := by
  rcases doUpdate_cases digest env files cmdarglist with
    ⟨⟨hshell, -, hres⟩, hnot⟩ | ⟨-, -, -, -, ⟨hshell, -, hres⟩, hnot⟩ | ⟨name, hinstalled, hadmitted⟩
  · refine iff_of_true (truthful_of_failed hshell fun res rsp hret => ?_) fun name h => absurd h (hnot name)
    have hfailed := hres res rsp hret
    omega
  · refine iff_of_true (truthful_of_failed hshell fun res rsp hret => ?_) fun name h => absurd h (hnot name)
    have hfailed := hres res rsp hret
    omega
  · have hran : (doUpdate digest env files cmdarglist).shell ≠ [] := by
      intro hnone
      have hcommands := hinstalled.1
      rw [hnone] at hcommands
      contradiction
    rw [Truthful, reports_zero_iff hadmitted, succeeded_iff hadmitted, UncheckedHolds]
    constructor
    · intro htruthful name' hadmitted' hwrites
      exact hadmitted.name_unique hadmitted' ▸ htruthful.1 hwrites
    · intro hunchecked
      refine ⟨fun hwrites => hunchecked name hadmitted hwrites, fun _ hsucceeded => ?_⟩
      -- a write that fails loses its bytes
      rw [List.any_eq_false]
      intro turn hturn
      rw [writeFails_of_whole (hsucceeded.1 turn hturn)]
      exact Bool.false_ne_true

def failingInstall : UpdateCommand Bytes where
  env := { (accepted archive).env with system := fun _ files => (256, files) }
  cmdarglist := (accepted archive).cmdarglist

/-- Every shell command fails, and the response says 0. -/
theorem failed_install_reported :
    (doUpdate id failingInstall.env emptyDirectory failingInstall.cmdarglist).result =
        .ret (0, ascii "update:result=0:message=successful\r\n") ∧
      (doUpdate id failingInstall.env emptyDirectory failingInstall.cmdarglist).shell.map ShellRun.status =
        [256, 256, 256, 256] ∧
      ¬Truthful id failingInstall.env failingInstall.cmdarglist
        (doUpdate id failingInstall.env emptyDirectory failingInstall.cmdarglist) := by
  have hstatuses : (doUpdate id failingInstall.env emptyDirectory failingInstall.cmdarglist).shell.map ShellRun.status =
      [256, 256, 256, 256] := rfl
  refine ⟨rfl, hstatuses, fun htruthful => ?_⟩
  have hsucceeded := htruthful.1 ⟨ascii "successful", rfl⟩
  have hzero : ∀ status ∈ [256, 256, 256, 256], status = (0 : Int) :=
    hstatuses ▸ List.forall_mem_map.mpr hsucceeded.statuses
  exact absurd (hzero 256 List.mem_cons_self) (by decide)

end RemoteCtrl
