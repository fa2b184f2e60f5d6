import RemoteCtrl.Update.DoUpdate

/-!
# The exits of the update task

`DoUpdate` leaves through its label `end` from five places, of which the failed check is two here, and stops where
it uses an argument that is missing. The exits are listed once, each with the tests in front of it, and every later
result about a command goes through this list.
-/

namespace RemoteCtrl

open CProgram

variable {Loc : Type}

/-! ### The tests -/

def namePath (name : Bytes) : Bytes := ascii "./" ++ name

def Connects (env : UpdateEnv Loc) (args : UpdateArgs) : Prop :=
  0 ≤ env.socket ∧ ∃ port ip, args.argPort = some port ∧ args.argIp = some ip ∧
    env.connect ip (atoi port % 65536).toNat = none

theorem Connects.connect_eq {env : UpdateEnv Loc} {args : UpdateArgs} {port ip : Bytes} (h : Connects env args)
    (hport : args.argPort = some port) (hip : args.argIp = some ip) :
    env.connect ip (atoi port % 65536).toNat = none := by
  obtain ⟨-, port', ip', hport', hip', hconnect⟩ := h
  rw [hport, Option.some.injEq] at hport'
  rw [hip, Option.some.injEq] at hip'
  rw [hport', hip', hconnect]

def Checks (digest : Bytes → Bytes) (env : UpdateEnv Loc) (args : UpdateArgs) : Prop :=
  0 ≤ env.openFile ∧ env.fopen = true ∧ args.argMd5 = some (digest (downloaded env.download))

/-- The command passes every check, with this name. -/
def Admitted (digest : Bytes → Bytes) (env : UpdateEnv Loc) (cmdarglist : List (Option Bytes))
    (name : Bytes) : Prop :=
  ∃ args, scanArgs cmdarglist {} = .ret args ∧ args.argName = some name ∧ Connects env args ∧
    Checks digest env args

theorem Admitted.name_unique {digest : Bytes → Bytes} {env : UpdateEnv Loc} {cmdarglist : List (Option Bytes)}
    {name name' : Bytes} (h : Admitted digest env cmdarglist name) (h' : Admitted digest env cmdarglist name') :
    name' = name := by
  obtain ⟨args, hscan, hname, -⟩ := h
  obtain ⟨args', hscan', hname', -⟩ := h'
  rw [hscan, Outcome.ret.injEq] at hscan'
  rw [← hscan', hname, Option.some.injEq] at hname'
  exact hname'.symm

variable [DecidableEq Loc]

/-! ### The download, up to the check -/

/-- The file is emptied, and takes what the loop writes. -/
def UpdateEnv.fetch (env : UpdateEnv Loc) (path : Bytes) (u : UpdateState Loc) : UpdateState Loc :=
  downloadLoop path env.download { u with files := u.files.write path [] }

theorem fetch_spec (env : UpdateEnv Loc) (path : Bytes) (u : UpdateState Loc) :
    (env.fetch path u).files = u.files.write path (downloaded env.download) ∧
      (env.fetch path u).shell = u.shell ∧ (env.fetch path u).checked = u.checked ∧
      ((env.fetch path u).res = u.res ∨ (env.fetch path u).res = -4) :=
  downloadLoop_spec path env.download { u with files := u.files.write path [] } u.files [] rfl

theorem fetch_read (env : UpdateEnv Loc) (path : Bytes) (u : UpdateState Loc) :
    (env.fetch path u).files.read path = some (downloaded env.download) := by
  rw [(fetch_spec env path u).1, Files.read_write]

/-! ### The list -/

/-- A command that has a name, with the path of its file and the state in front of `socket`. -/
inductive Exits (digest : Bytes → Bytes) (env : UpdateEnv Loc) (args : UpdateArgs) (path : Bytes)
    (u : UpdateState Loc) : UpdateRun Loc → Prop
  | socketFails : env.socket < 0 →
      Exits digest env args path u ((u.fail (-1) (ascii "socket error")).finish env.socket (-1))
  | noAddress : 0 ≤ env.socket → (args.argPort = none ∨ args.argIp = none) →
      Exits digest env args path u (u.stop .nullPointer)
  | connectFails {port ip : Bytes} {errno : Int} : 0 ≤ env.socket → args.argPort = some port →
      args.argIp = some ip → env.connect ip (atoi port % 65536).toNat = some errno →
      Exits digest env args path u
        ((u.fail (-2) (ascii "connect error" ++ decimal errno)).finish env.socket (-1))
  | openFails : Connects env args → env.openFile < 0 →
      Exits digest env args path u
        ((u.fail (-3) (ascii "create file " ++ path ++ ascii " error")).finish env.socket env.openFile)
  | noDigest : Connects env args → 0 ≤ env.openFile → env.fopen = false →
      Exits digest env args path u
        (((env.fetch path u).fail (-5) (ascii "md5 check failed 2")).finish env.socket env.openFile)
  | noMd5 : Connects env args → 0 ≤ env.openFile → env.fopen = true → args.argMd5 = none →
      Exits digest env args path u ((env.fetch path u).stop .nullPointer)
  | mismatch {md5 : Bytes} : Connects env args → 0 ≤ env.openFile → env.fopen = true → args.argMd5 = some md5 →
      digest (downloaded env.download) ≠ md5 →
      Exits digest env args path u
        (((env.fetch path u).fail (-5) (ascii "md5 check failed 2")).finish env.socket env.openFile)
  | installed : Connects env args → Checks digest env args →
      Exits digest env args path u
        ((install env.system installCommands
          { env.fetch path u with checked := some (downloaded env.download) }).finish env.socket env.openFile)

theorem fetchAndInstall_exits (digest : Bytes → Bytes) {env : UpdateEnv Loc} {args : UpdateArgs} (path : Bytes)
    (u : UpdateState Loc) (hconnects : Connects env args) :
    Exits digest env args path u (fetchAndInstall digest env args path u) := by
  by_cases hopen : env.openFile < 0
  · rw [fetchAndInstall, if_pos hopen]
    exact .openFails hconnects hopen
  · have hopened : 0 ≤ env.openFile := Int.not_lt.mp hopen
    have hread := fetch_read env path u
    have hfetch : downloadLoop path env.download { u with files := u.files.write path [] } = env.fetch path u := rfl
    simp only [fetchAndInstall, if_neg hopen, hfetch]
    cases hfopen : env.fopen with
    | false => exact .noDigest hconnects hopened hfopen
    | true =>
        simp only [ourMD5File, if_true, hread, Option.map_some]
        cases hmd5 : args.argMd5 with
        | none => exact .noMd5 hconnects hopened hfopen hmd5
        | some md5 =>
            by_cases hdigest : digest (downloaded env.download) = md5
            · have hzero : ¬ strcmp (digest (downloaded env.download)) md5 ≠ 0 :=
                not_not_intro (strcmp_eq_zero.mpr hdigest)
              simp only [if_neg hzero]
              exact .installed hconnects ⟨hopened, hfopen, hdigest ▸ hmd5⟩
            · simp only [if_pos (mt strcmp_eq_zero.mp hdigest)]
              exact .mismatch hconnects hopened hfopen hmd5 hdigest

theorem connectAndFetch_exits (digest : Bytes → Bytes) (env : UpdateEnv Loc) (args : UpdateArgs) (path : Bytes)
    (u : UpdateState Loc) : Exits digest env args path u (connectAndFetch digest env args path u) := by
  by_cases hsocket : env.socket < 0
  · rw [connectAndFetch, if_pos hsocket]
    exact .socketFails hsocket
  · have hopened : 0 ≤ env.socket := Int.not_lt.mp hsocket
    rw [connectAndFetch, if_neg hsocket]
    cases hport : args.argPort with
    | none => exact .noAddress hopened (.inl hport)
    | some port =>
        cases hip : args.argIp with
        | none => exact .noAddress hopened (.inr hip)
        | some ip =>
            cases hconnect : env.connect ip (atoi port % 65536).toNat with
            | some errno =>
                simp only [hconnect]
                exact .connectFails hopened hport hip hconnect
            | none =>
                simp only [hconnect]
                exact fetchAndInstall_exits digest path u ⟨hopened, port, ip, hport, hip, hconnect⟩

/-- Only the last exit is open to a command that passes every test. -/
theorem Exits.of_passes {digest : Bytes → Bytes} {env : UpdateEnv Loc} {args : UpdateArgs} {path : Bytes}
    {u : UpdateState Loc} {run : UpdateRun Loc} (hexits : Exits digest env args path u run)
    (hconnects : Connects env args) (hchecks : Checks digest env args) :
    run = (install env.system installCommands
      { env.fetch path u with checked := some (downloaded env.download) }).finish env.socket env.openFile := by
  have hgiven := hconnects
  obtain ⟨hsocket, port, ip, hport, hip, -⟩ := hgiven
  obtain ⟨hopen, hfopen, hmd5⟩ := hchecks
  cases hexits with
  | socketFails hfails => omega
  | noAddress _ hmissing => simp [hport, hip] at hmissing
  | connectFails _ hport' hip' hfails =>
      rw [hconnects.connect_eq hport' hip'] at hfails
      contradiction
  | openFails _ hfails => omega
  | noDigest _ _ hfails => simp [hfopen] at hfails
  | noMd5 _ _ _ hmissing => simp [hmd5] at hmissing
  | mismatch _ _ _ hmd5' hdiffers =>
      rw [hmd5, Option.some.injEq] at hmd5'
      exact absurd hmd5' hdiffers
  | installed _ _ => rfl

/-- The variables of a command with this name, in front of `socket`. -/
def UpdateState.named (files : Files Loc) (name : Bytes) : UpdateState Loc where
  files := files
  res := 0
  msg := ascii "successful"
  checked := none
  shell := []
  formatted := [(name.length, namePath name)]

section
variable {digest : Bytes → Bytes} {env : UpdateEnv Loc} {files : Files Loc} {cmdarglist : List (Option Bytes)}
  {args : UpdateArgs}

variable (digest env files) in
theorem doUpdate_named {name : Bytes} (hscan : scanArgs cmdarglist {} = .ret args) (hname : args.argName = some name) :
    Exits digest env args (namePath name) (.named files name) (doUpdate digest env files cmdarglist) := by
  rw [doUpdate, hscan]
  simp only [hname]
  exact connectAndFetch_exits digest env args (namePath name) (.named files name)

theorem doUpdate_unnamed (hscan : scanArgs cmdarglist {} = .ret args) (hname : args.argName = none) :
    doUpdate digest env files cmdarglist =
      { files, checked := none, shell := [], formatted := [], closed := [], result := .fault .nullPointer } := by
  rw [doUpdate, hscan]
  simp only [hname]
  rfl

theorem doUpdate_of_admitted {name : Bytes} (hadmitted : Admitted digest env cmdarglist name) :
    doUpdate digest env files cmdarglist =
      (install env.system installCommands
        { env.fetch (namePath name) (.named files name) with checked := some (downloaded env.download) }).finish
          env.socket env.openFile := by
  obtain ⟨args, hscan, hname, hconnects, hchecks⟩ := hadmitted
  exact (doUpdate_named digest env files hscan hname).of_passes hconnects hchecks

end

end RemoteCtrl
