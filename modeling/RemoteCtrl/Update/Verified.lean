import RemoteCtrl.Update.Exits
import RemoteCtrl.Foundation.Transition

/-!
# What an update command installs

A command reaches the install steps exactly when every check on its way passes. The file it checks is
`./<name>`, the file it installs is `update.tar.gz`: the two contents agree exactly when both names denote
one file, or when the archive already was what has been downloaded. Over a run of commands in one
directory, only verified archives are installed exactly when every command that is admitted meets this. A
command that fails has run no install step, but a rejected download stays.
-/

namespace RemoteCtrl

open CProgram CProgram.Transition

variable {Loc : Type}

/-! ### The ways a command ends -/

def UpdateRun.Untouched (run : UpdateRun Loc) (files : Files Loc) : Prop :=
  run.shell = [] ∧ run.files = files ∧
    ∀ res rsp, run.result = .ret (res, rsp) → res = -1 ∨ res = -2 ∨ res = -3

theorem UpdateState.res_of_finish {u : UpdateState Loc} {connfd filefd res : Int} {rsp : Bytes}
    (hret : (u.finish connfd filefd).result = .ret (res, rsp)) : res = u.res := by
  simp only [UpdateState.finish, Outcome.ret.injEq, Prod.mk.injEq] at hret
  exact hret.1.symm

theorem untouched_of_fail {v : UpdateState Loc} (hshell : v.shell = []) {res : Int}
    (hres : res = -1 ∨ res = -2 ∨ res = -3) (msg : Bytes) (connfd filefd : Int) :
    ((v.fail res msg).finish connfd filefd).Untouched v.files := by
  refine ⟨hshell, rfl, fun res' rsp hret => ?_⟩
  rw [UpdateState.res_of_finish hret]
  exact hres

theorem untouched_of_stop {v : UpdateState Loc} (hshell : v.shell = []) (why : Fault) :
    (v.stop why).Untouched v.files := by
  refine ⟨hshell, rfl, fun res rsp hret => ?_⟩
  simp only [UpdateState.stop, reduceCtorEq] at hret

variable [DecidableEq Loc]

def UpdateRun.Rejected (run : UpdateRun Loc) (files : Files Loc) (path data : Bytes) : Prop :=
  run.shell = [] ∧ run.files = files.write path data ∧ ∀ res rsp, run.result = .ret (res, rsp) → res = -5

def UpdateRun.Installed (run : UpdateRun Loc) (files : Files Loc) (path data : Bytes) : Prop :=
  run.shell.map ShellRun.command = installCommands ∧
    run.shell.head?.map ShellRun.before = some (files.write path data) ∧
    run.checked = some data ∧ ∀ res rsp, run.result = .ret (res, rsp) → res = 0 ∨ res = -4

/-- The three ways, the last one exactly for a command that `passes`. -/
def UpdateRun.Ends (run : UpdateRun Loc) (files : Files Loc) (path data : Bytes) (passes : Prop) : Prop :=
  (run.Untouched files ∧ ¬ passes) ∨ (run.Rejected files path data ∧ ¬ passes) ∨
    (run.Installed files path data ∧ passes)

section
variable {v : UpdateState Loc} {files : Files Loc} {path data : Bytes}

theorem rejected_of_fail (hshell : v.shell = []) (hfiles : v.files = files.write path data) (msg : Bytes)
    (connfd filefd : Int) : ((v.fail (-5) msg).finish connfd filefd).Rejected files path data :=
  ⟨hshell, hfiles, fun _ _ hret => UpdateState.res_of_finish hret⟩

theorem rejected_of_stop (hshell : v.shell = []) (hfiles : v.files = files.write path data) (why : Fault) :
    (v.stop why).Rejected files path data := by
  refine ⟨hshell, hfiles, fun res rsp hret => ?_⟩
  simp only [UpdateState.stop, reduceCtorEq] at hret

theorem installed_of_install {u : UpdateState Loc} (hshell : u.shell = []) (hfiles : u.files = files.write path data)
    (hchecked : u.checked = some data) (hres : u.res = 0 ∨ u.res = -4)
    (system : Bytes → Files Loc → Int × Files Loc) (connfd filefd : Int) :
    ((install system installCommands u).finish connfd filefd).Installed files path data := by
  obtain ⟨runs, hruns, hcommands, hbefore, hkept, hresult⟩ := install_shell system installCommands u
  rw [hshell, List.nil_append] at hruns
  refine ⟨?_, ?_, hkept.trans hchecked, fun res rsp hret => ?_⟩
  · rw [UpdateState.finish, hruns, hcommands]
  · rw [UpdateState.finish, hruns, hbefore, hfiles]
    rfl
  · rw [UpdateState.res_of_finish hret, hresult]
    exact hres

end

/-- What each exit leaves. -/
theorem Exits.ends {digest : Bytes → Bytes} {env : UpdateEnv Loc} {args : UpdateArgs} {path : Bytes}
    {u : UpdateState Loc} {run : UpdateRun Loc} (hexits : Exits digest env args path u run) (hshell : u.shell = [])
    (hres : u.res = 0) :
    run.Ends u.files path (downloaded env.download) (Connects env args ∧ Checks digest env args) := by
  obtain ⟨hfiles, hloop, -, hloopRes⟩ := fetch_spec env path u
  replace hloop : (env.fetch path u).shell = [] := hloop.trans hshell
  by_cases hpasses : Connects env args ∧ Checks digest env args
  · rw [hexits.of_passes hpasses.1 hpasses.2]
    refine .inr (.inr ⟨?_, hpasses⟩)
    exact installed_of_install (u := { env.fetch path u with checked := some (downloaded env.download) }) hloop hfiles
      rfl (hloopRes.imp_left fun h => h.trans hres) _ _ _
  · cases hexits with
    | socketFails _ => exact .inl ⟨untouched_of_fail hshell (.inl rfl) _ _ _, hpasses⟩
    | noAddress _ _ => exact .inl ⟨untouched_of_stop hshell _, hpasses⟩
    | connectFails _ _ _ _ => exact .inl ⟨untouched_of_fail hshell (.inr (.inl rfl)) _ _ _, hpasses⟩
    | openFails _ _ => exact .inl ⟨untouched_of_fail hshell (.inr (.inr rfl)) _ _ _, hpasses⟩
    | noDigest _ _ _ => exact .inr (.inl ⟨rejected_of_fail hloop hfiles _ _ _, hpasses⟩)
    | noMd5 _ _ _ _ => exact .inr (.inl ⟨rejected_of_stop hloop hfiles _, hpasses⟩)
    | mismatch _ _ _ _ _ => exact .inr (.inl ⟨rejected_of_fail hloop hfiles _ _ _, hpasses⟩)
    | installed hconnects hchecks => exact absurd ⟨hconnects, hchecks⟩ hpasses

/-- The ways a command ends: nothing touched, a download rejected, or the install steps. The last exactly
when the command is admitted. -/
theorem doUpdate_cases (digest : Bytes → Bytes) (env : UpdateEnv Loc) (files : Files Loc)
    (cmdarglist : List (Option Bytes)) :
    ((doUpdate digest env files cmdarglist).Untouched files ∧ ∀ name, ¬ Admitted digest env cmdarglist name) ∨
      (∃ args name, scanArgs cmdarglist {} = .ret args ∧ args.argName = some name ∧
        (doUpdate digest env files cmdarglist).Rejected files (namePath name) (downloaded env.download) ∧
        ∀ name, ¬ Admitted digest env cmdarglist name) ∨
      ∃ name, (doUpdate digest env files cmdarglist).Installed files (namePath name) (downloaded env.download) ∧
        Admitted digest env cmdarglist name := by
  by_cases hscanned : ∃ args, scanArgs cmdarglist {} = .ret args
  · obtain ⟨args, hscan⟩ := hscanned
    have hadmitted (name : Bytes) (h : Admitted digest env cmdarglist name) :
        args.argName = some name ∧ Connects env args ∧ Checks digest env args := by
      obtain ⟨args', hscan', hrest⟩ := h
      rw [hscan, Outcome.ret.injEq] at hscan'
      exact hscan' ▸ hrest
    cases hname : args.argName with
    | none =>
        refine .inl ⟨?_, fun name h => ?_⟩
        · rw [doUpdate_unnamed hscan hname]
          exact ⟨rfl, rfl, fun res rsp hret => absurd hret (by simp)⟩
        · rw [(hadmitted name h).1] at hname
          contradiction
    | some name =>
        rcases (doUpdate_named digest env files hscan hname).ends rfl rfl with
          ⟨huntouched, hnot⟩ | ⟨hrejected, hnot⟩ | ⟨hinstalled, hyes⟩
        · exact .inl ⟨huntouched, fun name' h => hnot (hadmitted name' h).2⟩
        · exact .inr (.inl ⟨args, name, hscan, hname, hrejected, fun name' h => hnot (hadmitted name' h).2⟩)
        · exact .inr (.inr ⟨name, hinstalled, args, hscan, hname, hyes⟩)
  · refine .inl ⟨?_, fun name h => hscanned ⟨h.choose, h.choose_spec.1⟩⟩
    rw [doUpdate]
    split
    · next args hscan => exact absurd ⟨args, hscan⟩ hscanned
    · exact untouched_of_stop rfl _

theorem installed_of_admitted {digest : Bytes → Bytes} {env : UpdateEnv Loc} {cmdarglist : List (Option Bytes)}
    {name : Bytes} (files : Files Loc) (hadmitted : Admitted digest env cmdarglist name) :
    (doUpdate digest env files cmdarglist).Installed files (namePath name) (downloaded env.download) := by
  rcases doUpdate_cases digest env files cmdarglist with
    ⟨-, hnot⟩ | ⟨-, -, -, -, -, hnot⟩ | ⟨name', hinstalled, hadmitted'⟩
  · exact absurd hadmitted (hnot name)
  · exact absurd hadmitted (hnot name)
  · exact hadmitted.name_unique hadmitted' ▸ hinstalled

/-! ### Runs of commands in one directory -/

structure UpdateCommand (Loc : Type) where
  env : UpdateEnv Loc
  cmdarglist : List (Option Bytes)

def emptyDirectory : Files Bytes where
  resolve path := if (ascii "./").isPrefixOf path then path.drop 2 else path
  content _ := none

def fetchCommand (name md5 : Bytes) (data : Chunk) : UpdateCommand Bytes where
  env :=
    { socket := 5, connect := fun _ _ => none, openFile := 6, download := [(data, .full)]
      readEnd := .endOfStream, fopen := true, system := fun _ files => (0, files) }
  cmdarglist :=
    [ascii "DoUpdate", ascii "name=" ++ name, ascii "size=4", ascii "md5=" ++ md5, ascii "key=1", ascii "ver=1",
      ascii "ip=10.0.0.1", ascii "port=12345", [], []].map some ++ [none]

def accepted (name : Bytes) : UpdateCommand Bytes :=
  fetchCommand name (ascii "good") ⟨ascii "good", by decide, by decide⟩

def rejected : UpdateCommand Bytes := fetchCommand archive (ascii "good") ⟨ascii "evil", by decide, by decide⟩

/-- A command that answers with a failure other than the recorded write error has run no install step. It has
touched nothing, or left the rejected download in place of what its file was. -/
theorem failed_update_leaves {digest : Bytes → Bytes} {env : UpdateEnv Loc} {files : Files Loc}
    {cmdarglist : List (Option Bytes)} {res : Int} {rsp : Bytes}
    (hresult : (doUpdate digest env files cmdarglist).result = .ret (res, rsp))
    (hfailed : res ≠ 0) (hwrite : res ≠ -4) :
    (doUpdate digest env files cmdarglist).shell = [] ∧
      (((res = -1 ∨ res = -2 ∨ res = -3) ∧ (doUpdate digest env files cmdarglist).files = files) ∨
        (res = -5 ∧ ∃ args name, scanArgs cmdarglist {} = .ret args ∧ args.argName = some name ∧
          (doUpdate digest env files cmdarglist).files =
            files.write (namePath name) (downloaded env.download))) := by
  rcases doUpdate_cases digest env files cmdarglist with
    ⟨huntouched, -⟩ | ⟨args, name, hscan, hname, hrejected, -⟩ | ⟨name, ⟨-, -, -, hres⟩, -⟩
  · obtain ⟨hshell, hfiles, hres⟩ := huntouched
    exact ⟨hshell, .inl ⟨hres res rsp hresult, hfiles⟩⟩
  · obtain ⟨hshell, hfiles, hres⟩ := hrejected
    exact ⟨hshell, .inr ⟨hres res rsp hresult, args, name, hscan, hname, hfiles⟩⟩
  · have hdone := hres res rsp hresult
    omega

/-- An update that nothing answers, and one whose download is rejected. -/
theorem failed_update_leaves_unreachable :
    (doUpdate id { rejected.env with connect := fun _ _ => some 111 } emptyDirectory
        rejected.cmdarglist).shell = [] ∧
      (doUpdate id rejected.env emptyDirectory rejected.cmdarglist).shell = [] ∧
      (doUpdate id rejected.env emptyDirectory rejected.cmdarglist).files =
        emptyDirectory.write (namePath archive) (ascii "evil") := by
  have hresult : (doUpdate id { rejected.env with connect := fun _ _ => some 111 } emptyDirectory
      rejected.cmdarglist).result =
        .ret (-2, ascii "update:result=-2:message=connect error111\r\n") := by rfl
  have hrejected : (doUpdate id rejected.env emptyDirectory rejected.cmdarglist).result =
      .ret (-5, ascii "update:result=-5:message=md5 check failed 2\r\n") := by rfl
  obtain ⟨hshell, hleft⟩ := failed_update_leaves hrejected (by decide) (by decide)
  refine ⟨(failed_update_leaves hresult (by decide) (by decide)).1, hshell, ?_⟩
  rcases hleft with ⟨hres, -⟩ | ⟨-, args, name, hscan, hname, hfiles⟩
  · omega
  · obtain rfl : _ = args := Outcome.ret.inj hscan
    obtain rfl : archive = name := Option.some.inj hname
    exact hfiles

/-- The file was there before, and all seven fields are given: the rejected download has taken its place. -/
theorem rejected_download_replaces_file :
    (∃ args, scanArgs rejected.cmdarglist {} = .ret args ∧ ∀ k, (args.get k).isSome = true) ∧
      (∃ rsp, (doUpdate id rejected.env (emptyDirectory.write archive (ascii "good"))
        rejected.cmdarglist).result = .ret (-5, rsp)) ∧
      (doUpdate id rejected.env (emptyDirectory.write archive (ascii "good")) rejected.cmdarglist).files ≠
        emptyDirectory.write archive (ascii "good") := by
  refine ⟨⟨_, rfl, fun k => by cases k <;> rfl⟩, ⟨_, rfl⟩, fun hsame => ?_⟩
  have hread := congrArg (fun files => files.read archive) hsame
  exact absurd hread (by decide)

end RemoteCtrl
