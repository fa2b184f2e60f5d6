import RemoteCtrl.Update.Report

/-!
# Missing arguments

Four of the seven arguments are used as strings: the name in front of `socket`, the port and the address behind
it, the digest behind the download. None of them is compared with NULL first, so an argument that is missing is
noticed only where an earlier exit is taken.
-/

namespace RemoteCtrl

open CProgram

variable {Loc : Type}

/-- The arguments `DoUpdate` hands to `strlen`, `atoi`, `inet_addr` and `strcmp`. -/
def usedKeys : List Key := [.name, .port, .ip, .md5]

/-- No missing argument is used as a string, and a list that lacks one of the four is answered with a failure. -/
def MissingRefused (args : UpdateArgs) (run : UpdateRun Loc) : Prop :=
  run.result ≠ .fault .nullPointer ∧ ((∃ k ∈ usedKeys, args.get k = none) → ∃ res, res ≠ 0 ∧ run.Reports res)

/-- Each of the four is there, unless the command leaves before it comes to its use. -/
def GivenWhereUsed (env : UpdateEnv Loc) (args : UpdateArgs) : Prop :=
  args.argName ≠ none ∧ (0 ≤ env.socket → args.argPort ≠ none ∧ args.argIp ≠ none) ∧
    (Connects env args → 0 ≤ env.openFile → env.fopen = true → args.argMd5 ≠ none)

/-! ### The exits -/

theorem missingRefused_of_fail (args : UpdateArgs) (u : UpdateState Loc) {res : Int} (hres : res ≠ 0) (msg : Bytes)
    (connfd filefd : Int) : MissingRefused args ((u.fail res msg).finish connfd filefd) := by
  refine ⟨fun hfault => ?_, fun _ => ⟨res, hres, (reports_finish_iff _ _ _ _).mpr rfl⟩⟩
  rw [UpdateState.finish] at hfault
  contradiction

theorem not_missingRefused_of_stop (args : UpdateArgs) (u : UpdateState Loc) :
    ¬MissingRefused args (u.stop .nullPointer) :=
  fun h => h.1 rfl

variable [DecidableEq Loc]

theorem Exits.missingRefused_iff {digest : Bytes → Bytes} {env : UpdateEnv Loc} {args : UpdateArgs} {path : Bytes}
    {u : UpdateState Loc} {run : UpdateRun Loc} (hexits : Exits digest env args path u run)
    (hname : args.argName ≠ none) : MissingRefused args run ↔ GivenWhereUsed env args := by
  cases hexits with
  | socketFails hsocket =>
      refine iff_of_true (missingRefused_of_fail args _ (by decide) _ _ _)
        ⟨hname, fun hopened => ?_, fun hconnects => ?_⟩
      · omega
      · exact absurd hconnects.1 (Int.not_le.mpr hsocket)
  | noAddress hsocket hmissing =>
      refine iff_of_false (not_missingRefused_of_stop args u) fun hgiven => ?_
      obtain ⟨hport, hip⟩ := hgiven.2.1 hsocket
      exact hmissing.elim hport hip
  | connectFails hsocket hport hip hconnect =>
      refine iff_of_true (missingRefused_of_fail args _ (by decide) _ _ _) ⟨hname, fun _ => ?_, fun hconnects => ?_⟩
      · simp [hport, hip]
      · rw [hconnects.connect_eq hport hip] at hconnect
        contradiction
  | openFails hconnects hopen =>
      obtain ⟨-, port, ip, hport, hip, -⟩ := hconnects
      refine iff_of_true (missingRefused_of_fail args _ (by decide) _ _ _) ⟨hname, fun _ => ?_, fun _ hopened => ?_⟩
      · simp [hport, hip]
      · omega
  | noDigest hconnects hopened hfopen =>
      obtain ⟨-, port, ip, hport, hip, -⟩ := hconnects
      refine iff_of_true (missingRefused_of_fail args _ (by decide) _ _ _) ⟨hname, fun _ => ?_, fun _ _ htrue => ?_⟩
      · simp [hport, hip]
      · rw [hfopen] at htrue
        contradiction
  | noMd5 hconnects hopened hfopen hmd5 =>
      refine iff_of_false (not_missingRefused_of_stop args _) fun hgiven => ?_
      exact hgiven.2.2 hconnects hopened hfopen hmd5
  | mismatch hconnects hopened hfopen hmd5 hdigest =>
      obtain ⟨-, port, ip, hport, hip, -⟩ := hconnects
      refine iff_of_true (missingRefused_of_fail args _ (by decide) _ _ _) ⟨hname, fun _ => ?_, fun _ _ _ => ?_⟩
      · simp [hport, hip]
      · simp [hmd5]
  | installed hconnects hchecks =>
      obtain ⟨-, port, ip, hport, hip, -⟩ := hconnects
      refine iff_of_true ⟨fun hfault => ?_, ?_⟩ ⟨hname, fun _ => ?_, fun _ _ _ => ?_⟩
      · rw [UpdateState.finish] at hfault
        contradiction
      · rintro ⟨k, hk, hnone⟩
        simp only [usedKeys, List.mem_cons, List.not_mem_nil, or_false] at hk
        rcases hk with rfl | rfl | rfl | rfl
        · exact absurd hnone hname
        · simp [UpdateArgs.get, hport] at hnone
        · simp [UpdateArgs.get, hip] at hnone
        · simp [UpdateArgs.get, hchecks.2.2] at hnone
      · simp [hport, hip]
      · simp [hchecks.2.2]

/-- **Missing arguments.** Of the lists that NULL ends, `DoUpdate` refuses what is missing exactly where each of
the four arguments is given, or the command leaves before its use. -/
theorem missing_refused_iff (digest : Bytes → Bytes) (env : UpdateEnv Loc) (files : Files Loc) (tokens : List Bytes)
    (rest : List (Option Bytes)) :
    MissingRefused (tokens.foldl scanArg {}) (doUpdate digest env files (tokens.map some ++ none :: rest)) ↔
      GivenWhereUsed env (tokens.foldl scanArg {}) := by
  have hscan := scanArgs_terminated tokens rest {}
  cases hname : (tokens.foldl scanArg {}).argName with
  | none =>
      rw [doUpdate_unnamed hscan hname]
      exact iff_of_false (fun h => h.1 rfl) fun hgiven => hgiven.1 hname
  | some name => exact (doUpdate_named digest env files hscan hname).missingRefused_iff (by simp [hname])

/-- `DoUpdate\r\n` is a command `HandleCmd` accepts, and its list has no name. -/
theorem unnamed_update_dereferences :
    argList cmdargSlots ((ascii "DoUpdate\r\n").splitOnP isDelim) =
        [ascii "DoUpdate", [], []].map some ++ none :: List.replicate 252 none ∧
      (doUpdate id rejected.env emptyDirectory
        ([ascii "DoUpdate", [], []].map some ++ none :: List.replicate 252 none)).result = .fault .nullPointer ∧
      ¬MissingRefused ([ascii "DoUpdate", [], []].foldl scanArg {})
        (doUpdate id rejected.env emptyDirectory
          ([ascii "DoUpdate", [], []].map some ++ none :: List.replicate 252 none)) := by
  have hsplit : (ascii "DoUpdate\r\n").splitOnP isDelim = [ascii "DoUpdate", [], []] := by
    decide
  rw [hsplit]
  exact ⟨rfl, rfl, fun hrefused => hrefused.1 rfl⟩

end RemoteCtrl
