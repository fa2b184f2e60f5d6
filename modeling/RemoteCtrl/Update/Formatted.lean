import RemoteCtrl.Update.Verified

/-!
# The formatted strings

`NamePath` has as many bytes as the name, and receives two more and a NUL: its `sprintf` never fits. The messages
are 64 bytes, and two of them contain the path; the response is 256 bytes, and takes every message that fits.
-/

namespace RemoteCtrl

open CProgram

variable {Loc : Type}

/-- The text and its NUL are no longer than the destination. -/
def Fits (entry : Nat × Bytes) : Prop := entry.2.length + 1 ≤ entry.1

instance (entry : Nat × Bytes) : Decidable (Fits entry) := inferInstanceAs (Decidable (_ ≤ _))

/-- The text at the label `end`. -/
def UpdateState.response (u : UpdateState Loc) : Bytes :=
  ascii "update:result=" ++ decimal u.res ++ ascii ":message=" ++ u.msg ++ ascii "\r\n"

/-- What the messages need: an `errno` with at most 50 digits, and a name that leaves room in the two messages
that contain the path. -/
def MessagesFit (env : UpdateEnv Loc) (args : UpdateArgs) (name : Bytes) : Prop :=
  (∀ port ip errno, 0 ≤ env.socket → args.argPort = some port → args.argIp = some ip →
      env.connect ip (atoi port % 65536).toNat = some errno → (decimal errno).length ≤ 50) ∧
    (Connects env args → env.openFile < 0 → name.length ≤ 43) ∧
    (Connects env args → 0 ≤ env.openFile → ∀ turn ∈ env.download, ∀ errno, turn.2 = .error errno →
      name.length + (decimal errno).length ≤ 44)

/-! ### The texts -/

theorem not_fits_namePath (name : Bytes) : ¬Fits (name.length, namePath name) := by
  have hdot : (ascii "./").length = 2 := by decide
  rw [Fits, namePath, List.length_append]
  omega

theorem fits_connectError_iff (errno : Int) :
    Fits (64, ascii "connect error" ++ decimal errno) ↔ (decimal errno).length ≤ 50 := by
  have htext : (ascii "connect error").length = 13 := by decide
  rw [Fits, List.length_append]
  omega

theorem fits_createError_iff (name : Bytes) :
    Fits (64, ascii "create file " ++ namePath name ++ ascii " error") ↔ name.length ≤ 43 := by
  have hdot : (ascii "./").length = 2 := by decide
  have hcreate : (ascii "create file ").length = 12 := by decide
  have herror : (ascii " error").length = 6 := by decide
  simp only [Fits, namePath, List.length_append]
  omega

def writeError (path : Bytes) (errno : Int) : Nat × Bytes :=
  (64, ascii "write file " ++ path ++ ascii " errno" ++ decimal errno)

theorem fits_writeError_iff (name : Bytes) (errno : Int) :
    Fits (writeError (namePath name) errno) ↔ name.length + (decimal errno).length ≤ 44 := by
  have hdot : (ascii "./").length = 2 := by decide
  have hwrite : (ascii "write file ").length = 11 := by decide
  have herrno : (ascii " errno").length = 6 := by decide
  simp only [Fits, writeError, namePath, List.length_append]
  omega

/-- The response has room for a message that fits its own buffer. -/
theorem fits_response {u : UpdateState Loc} (hres : (decimal u.res).length ≤ 2) (hmsg : Fits (64, u.msg)) :
    Fits (256, u.response) := by
  have hresult : (ascii "update:result=").length = 14 := by decide
  have hmessage : (ascii ":message=").length = 9 := by decide
  have hend : (ascii "\r\n").length = 2 := by decide
  simp only [Fits, UpdateState.response, List.length_append] at hmsg ⊢
  omega

/-! ### What a command formats -/

/-- The command has formatted `more`, and all of it fits exactly when `fits`. -/
def UpdateRun.Formats (run : UpdateRun Loc) (before more : List (Nat × Bytes)) (fits : Prop) : Prop :=
  run.formatted = before ++ more ∧ ((∀ entry ∈ more, Fits entry) ↔ fits)

/-- A message, and the response with it: both fit when the message does. -/
theorem formats_of_fail (u : UpdateState Loc) (res : Int) (hres : (decimal res).length ≤ 2) (msg : Bytes)
    (connfd filefd : Int) :
    ∃ more, ((u.fail res msg).finish connfd filefd).Formats u.formatted more (Fits (64, msg)) := by
  refine ⟨[(64, msg)] ++ [(256, (u.fail res msg).response)], List.append_assoc _ _ _, ?_⟩
  rw [List.forall_mem_append, List.forall_mem_singleton, List.forall_mem_singleton, and_iff_left_iff_imp]
  exact fun hmsg => fits_response (u := u.fail res msg) hres hmsg

variable [DecidableEq Loc]

/-- The messages of the failing writes. -/
def writeErrors (path : Bytes) (download : List (Chunk × WriteOutcome)) : List (Nat × Bytes) :=
  download.filterMap fun turn =>
    match turn.2 with
    | .error errno => some (writeError path errno)
    | _ => none

theorem mem_writeErrors {path : Bytes} {download : List (Chunk × WriteOutcome)} {entry : Nat × Bytes} :
    entry ∈ writeErrors path download ↔
      ∃ turn ∈ download, ∃ errno, turn.2 = .error errno ∧ writeError path errno = entry := by
  rw [writeErrors, List.mem_filterMap]
  refine exists_congr fun turn => and_congr_right fun _ => ?_
  cases turn.2 with
  | full => simp
  | short count => simp
  | error errno => simp

theorem downloadLoop_formatted (path : Bytes) (download : List (Chunk × WriteOutcome)) :
    ∀ u : UpdateState Loc,
      (downloadLoop path download u).formatted = u.formatted ++ writeErrors path download ∧
        ((downloadLoop path download u).msg = u.msg ∧ (downloadLoop path download u).res = u.res ∨
          (64, (downloadLoop path download u).msg) ∈ writeErrors path download ∧
            (downloadLoop path download u).res = -4) := by
  induction download with
  | nil => exact fun u => ⟨(List.append_nil _).symm, .inl ⟨rfl, rfl⟩⟩
  | cons turn more ih =>
      intro u
      obtain ⟨chunk, outcome⟩ := turn
      cases outcome with
      | full => exact ih _
      | short count => exact ih _
      | error errno =>
          have hcons : writeErrors path ((chunk, .error errno) :: more) =
              writeError path errno :: writeErrors path more := rfl
          obtain ⟨hformatted, hmsg⟩ := ih (u.fail (-4) (writeError path errno).2)
          rw [hcons]
          refine ⟨?_, .inr ?_⟩
          · exact hformatted.trans (List.append_assoc _ _ _)
          · rcases hmsg with ⟨hmsg, hres⟩ | ⟨hmsg, hres⟩
            · exact ⟨List.mem_cons.mpr (.inl (congrArg (64, ·) hmsg)), hres⟩
            · exact ⟨List.mem_cons_of_mem _ hmsg, hres⟩

theorem fetch_formatted (env : UpdateEnv Loc) (path : Bytes) (u : UpdateState Loc) :
    (env.fetch path u).formatted = u.formatted ++ writeErrors path env.download ∧
      ((env.fetch path u).msg = u.msg ∧ (env.fetch path u).res = u.res ∨
        (64, (env.fetch path u).msg) ∈ writeErrors path env.download ∧ (env.fetch path u).res = -4) :=
  downloadLoop_formatted path env.download { u with files := u.files.write path [] }

omit [DecidableEq Loc] in
theorem install_formatted (system : Bytes → Files Loc → Int × Files Loc) (commands : List Bytes) :
    ∀ u : UpdateState Loc, (install system commands u).formatted = u.formatted ∧
      (install system commands u).msg = u.msg ∧ (install system commands u).res = u.res := by
  induction commands with
  | nil => exact fun u => ⟨rfl, rfl, rfl⟩
  | cons command more ih => exact fun u => ih _

/-! ### The exits -/

section
variable {env : UpdateEnv Loc} {args : UpdateArgs} {name : Bytes}

omit [DecidableEq Loc] in
theorem messagesFit_unconnected (hconnects : ¬Connects env args) :
    MessagesFit env args name ↔ ∀ port ip errno, 0 ≤ env.socket → args.argPort = some port →
      args.argIp = some ip → env.connect ip (atoi port % 65536).toNat = some errno → (decimal errno).length ≤ 50 := by
  simp only [MessagesFit, hconnects, false_imp_iff, and_self, and_true]

omit [DecidableEq Loc] in
theorem messagesFit_connected (hconnects : Connects env args) :
    MessagesFit env args name ↔ (env.openFile < 0 → name.length ≤ 43) ∧
      (0 ≤ env.openFile → ∀ entry ∈ writeErrors (namePath name) env.download, Fits entry) := by
  have hwrites : (∀ entry ∈ writeErrors (namePath name) env.download, Fits entry) ↔
      ∀ turn ∈ env.download, ∀ errno, turn.2 = .error errno → name.length + (decimal errno).length ≤ 44 := by
    simp only [← fits_writeError_iff, mem_writeErrors]
    constructor
    · intro hall turn hturn errno herror
      exact hall _ ⟨turn, hturn, errno, herror, rfl⟩
    · rintro hall entry ⟨turn, hturn, errno, herror, rfl⟩
      exact hall turn hturn errno herror
  rw [hwrites, MessagesFit]
  simp only [hconnects, true_imp_iff]
  refine and_iff_right fun port ip errno _ hport hip hfails => ?_
  rw [hconnects.connect_eq hport hip] at hfails
  contradiction

omit [DecidableEq Loc] in
theorem messagesFit_opened (hconnects : Connects env args) (hopened : 0 ≤ env.openFile) :
    MessagesFit env args name ↔ ∀ entry ∈ writeErrors (namePath name) env.download, Fits entry := by
  rw [messagesFit_connected hconnects]
  simp only [hopened, Int.not_lt.mpr hopened, true_imp_iff, false_imp_iff, true_and]

end

section
variable (env : UpdateEnv Loc) (files : Files Loc) (name : Bytes) (connfd filefd : Int)

/-- The check fails: the messages of the writes, one that fits, and the response. -/
theorem formats_of_rejected :
    ∃ more, (((env.fetch (namePath name) (.named files name)).fail (-5) (ascii "md5 check failed 2")).finish
        connfd filefd).Formats [(name.length, namePath name)] more
      (∀ entry ∈ writeErrors (namePath name) env.download, Fits entry) := by
  obtain ⟨more, hformatted, hfits⟩ := formats_of_fail (env.fetch (namePath name) (.named files name))
    (-5) (by decide) (ascii "md5 check failed 2") connfd filefd
  refine ⟨writeErrors (namePath name) env.download ++ more, ?_, ?_⟩
  · rw [hformatted, (fetch_formatted _ _ _).1, List.append_assoc]
    rfl
  · rw [List.forall_mem_append, hfits]
    exact and_iff_left (by decide)

/-- The steps are run: the messages of the writes, and the response with the last of them. -/
theorem formats_of_installed (checked : Option Bytes) :
    ∃ more, ((install env.system installCommands
        { env.fetch (namePath name) (.named files name) with checked }).finish connfd filefd).Formats
          [(name.length, namePath name)] more
      (∀ entry ∈ writeErrors (namePath name) env.download, Fits entry) := by
  obtain ⟨hformatted, hmsg, hres⟩ := install_formatted env.system installCommands
    { env.fetch (namePath name) (.named files name) with checked }
  obtain ⟨hloop, hlast⟩ := fetch_formatted env (namePath name) (.named files name)
  generalize install env.system installCommands
    { env.fetch (namePath name) (.named files name) with checked } = u at *
  refine ⟨writeErrors (namePath name) env.download ++ [(256, u.response)], ?_, ?_⟩
  · show u.formatted ++ [(256, u.response)] = _
    rw [hformatted, hloop, List.append_assoc]
    rfl
  · rw [List.forall_mem_append, List.forall_mem_singleton, and_iff_left_iff_imp]
    intro hfits
    rcases hlast with ⟨hsame, hzero⟩ | ⟨hlast, hwrite⟩
    · refine fits_response ?_ ?_
      · rw [hres.trans hzero]
        show (decimal 0).length ≤ 2
        decide
      · rw [hmsg.trans hsame]
        show Fits (64, ascii "successful")
        decide
    · refine fits_response ?_ ?_
      · rw [hres.trans hwrite]
        decide
      · rw [hmsg]
        exact hfits _ hlast

end

theorem Exits.formats {digest : Bytes → Bytes} {env : UpdateEnv Loc} {args : UpdateArgs} {name : Bytes}
    {files : Files Loc} {run : UpdateRun Loc}
    (hexits : Exits digest env args (namePath name) (.named files name) run) :
    ∃ more, run.Formats [(name.length, namePath name)] more (MessagesFit env args name) := by
  cases hexits with
  | socketFails hsocket =>
      have hconnects : ¬Connects env args := fun h => absurd h.1 (Int.not_le.mpr hsocket)
      obtain ⟨more, hformatted, hfits⟩ := formats_of_fail (UpdateState.named files name) (-1) (by decide)
        (ascii "socket error") env.socket (-1)
      refine ⟨more, hformatted, hfits.trans (iff_of_true (by decide) ?_)⟩
      rw [messagesFit_unconnected hconnects]
      intro _ _ _ hopened
      omega
  | noAddress hsocket hmissing =>
      have hconnects : ¬Connects env args := by
        rintro ⟨-, port, ip, hport, hip, -⟩
        simp [hport, hip] at hmissing
      refine ⟨[], rfl, iff_of_true (fun entry hentry => absurd hentry List.not_mem_nil) ?_⟩
      rw [messagesFit_unconnected hconnects]
      intro port ip _ _ hport hip
      simp [hport, hip] at hmissing
  | connectFails hsocket hport hip hfails =>
      next port ip errno =>
        have hconnects : ¬Connects env args := by
          intro h
          rw [h.connect_eq hport hip] at hfails
          contradiction
        obtain ⟨more, hformatted, hfits⟩ := formats_of_fail (UpdateState.named files name) (-2) (by decide)
          (ascii "connect error" ++ decimal errno) env.socket (-1)
        refine ⟨more, hformatted, hfits.trans ?_⟩
        rw [messagesFit_unconnected hconnects, fits_connectError_iff]
        constructor
        · intro hshort port' ip' errno' _ hport' hip' hfails'
          rw [hport, Option.some.injEq] at hport'
          rw [hip, Option.some.injEq] at hip'
          rw [← hport', ← hip', hfails, Option.some.injEq] at hfails'
          exact hfails' ▸ hshort
        · intro hall
          exact hall port ip errno hsocket hport hip hfails
  | openFails hconnects hopen =>
      obtain ⟨more, hformatted, hfits⟩ := formats_of_fail (UpdateState.named files name) (-3) (by decide)
        (ascii "create file " ++ namePath name ++ ascii " error") env.socket env.openFile
      refine ⟨more, hformatted, hfits.trans ?_⟩
      rw [messagesFit_connected hconnects, fits_createError_iff]
      simp only [hopen, Int.not_le.mpr hopen, true_imp_iff, false_imp_iff, and_true]
  | noDigest hconnects hopened _ =>
      rw [messagesFit_opened hconnects hopened]
      exact formats_of_rejected env files name env.socket env.openFile
  | noMd5 hconnects hopened _ _ =>
      rw [messagesFit_opened hconnects hopened]
      exact ⟨_, (fetch_formatted _ _ _).1, Iff.rfl⟩
  | mismatch hconnects hopened _ _ _ =>
      rw [messagesFit_opened hconnects hopened]
      exact formats_of_rejected env files name env.socket env.openFile
  | installed hconnects hchecks =>
      rw [messagesFit_opened hconnects hchecks.1]
      exact formats_of_installed env files name env.socket env.openFile _

/-- **Formatted strings.** Every text `DoUpdate` formats fits its destination exactly when there is no name; the
text in `NamePath` never does. Behind it, every text fits exactly when the messages do. -/
theorem formatted_fits_iff (digest : Bytes → Bytes) (env : UpdateEnv Loc) (files : Files Loc) (tokens : List Bytes)
    (rest : List (Option Bytes)) :
    ((∀ entry ∈ (doUpdate digest env files (tokens.map some ++ none :: rest)).formatted, Fits entry) ↔
        (tokens.foldl scanArg {}).argName = none) ∧
      ∀ name, (tokens.foldl scanArg {}).argName = some name →
        ∃ more, (doUpdate digest env files (tokens.map some ++ none :: rest)).formatted =
            (name.length, namePath name) :: more ∧
          ((∀ entry ∈ more, Fits entry) ↔ MessagesFit env (tokens.foldl scanArg {}) name) := by
  have hscan := scanArgs_terminated tokens rest {}
  cases hname : (tokens.foldl scanArg {}).argName with
  | none =>
      rw [doUpdate_unnamed hscan hname]
      exact ⟨iff_of_true (fun entry hentry => absurd hentry List.not_mem_nil) rfl, by simp⟩
  | some name =>
      obtain ⟨more, hformatted, hfits⟩ :=
        (doUpdate_named digest env files hscan hname).formats
      refine ⟨iff_of_false (fun hall => ?_) (by simp), fun name' hname' => ?_⟩
      · rw [hformatted] at hall
        exact not_fits_namePath name (hall _ List.mem_cons_self)
      · obtain rfl : name = name' := Option.some.inj hname'
        exact ⟨more, hformatted, hfits⟩

/-- A name of one character, and nothing else fails: `NamePath` has one byte and receives four. With 44 characters
and a file that cannot be created, `msg` receives 65 bytes. -/
theorem short_name_overflows :
    (doUpdate id (accepted (ascii "a")).env emptyDirectory (accepted (ascii "a")).cmdarglist).formatted.head? =
        some (1, ascii "./a") ∧
      (¬∀ entry ∈ (doUpdate id (accepted (ascii "a")).env emptyDirectory (accepted (ascii "a")).cmdarglist).formatted,
        Fits entry) ∧
      ¬∀ entry ∈ (doUpdate id { (accepted (List.replicate 44 97)).env with openFile := -1 } emptyDirectory
        (accepted (List.replicate 44 97)).cmdarglist).formatted.tail, Fits entry :=
  ⟨rfl, by decide, by decide⟩

end RemoteCtrl
