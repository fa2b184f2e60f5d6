import RemoteCtrl.Session.Process
import RemoteCtrl.Foundation.Transition

/-!
# Where a session can get

The child's loop as a transition system: a state is what is unread and what is in the receive buffer, a step
is a turn behind which the loop goes on. From the front of a complete frame there is at most one next state,
whatever the turn: the frame is consumed, a non-empty payload is laid over the buffer, and the string found there
ends in CR LF. A torn tail is followed by the end of the input only.
-/

namespace RemoteCtrl

open CProgram CProgram.Framing CProgram.Transition

/-! ### Turns in which a read fails for good -/

theorem readn_cases (fails : List Errno) :
    Interrupted fails ∨ (∀ closed input len, readn closed fails input len = .fault .assertion) ∨
      ∀ closed input len, readn closed fails input len = .ret (-1, [], input) := by
  induction fails with
  | nil => exact Or.inl fun e he => absurd he List.not_mem_nil
  | cons e fails ih =>
      cases e with
      | EINTR =>
          refine ih.imp_left fun h f hf => ?_
          rcases List.mem_cons.mp hf with rfl | hf
          · rfl
          · exact h f hf
      | EAGAIN => exact Or.inr (Or.inl fun _ _ _ => rfl)
      | ECHILD | other => exact Or.inr (Or.inr fun _ _ _ => rfl)

theorem clientTurn_of_no_read (fd : Int) {closed : Bool} {t : Turn} {input buffer : Bytes}
    (h : ∀ r, readCmd closed t.read input buffer = .ret r → r.err ≤ 0) :
    (clientTurn fd closed t input buffer).dispatched = [] ∧
      (clientTurn fd closed t input buffer).status ≠ .running := by
  cases hread : readCmd closed t.read input buffer with
  | ret r => simp [clientTurn, hread, h r hread]
  | blocked => simp [clientTurn, hread]
  | fault why => simp [clientTurn, hread]

theorem readBody_of_fails {fails : List Errno} (h : ¬Interrupted fails) {closed : Bool} {cmdlen : Nat}
    {input buffer : Bytes} {r : ReadReturn} (hread : readBody closed fails cmdlen input buffer = .ret r) :
    r.err ≤ 0 := by
  rcases readn_cases fails with hquiet | hbody | hbody
  · exact absurd hquiet h
  · simp [readBody, hbody] at hread
  · rw [readBody_of_le (hbody closed input cmdlen) (by decide), Outcome.ret.injEq] at hread
    simp [← hread]

theorem readCmd_of_fails {script : ReadScript} (h : ¬Interrupted script.headerFails) {closed : Bool}
    {input buffer : Bytes} {r : ReadReturn} (hread : readCmd closed script input buffer = .ret r) :
    r.err ≤ 0 := by
  rcases readn_cases script.headerFails with hquiet | hheader | hheader
  · exact absurd hquiet h
  · simp [readCmd, hheader] at hread
  · rw [readCmd_of_le (hheader closed input 2) (by decide), Outcome.ret.injEq] at hread
    simp [← hread]

theorem readCmd_of_not_quiet {script : ReadScript} (h : ¬script.Quiet) {closed : Bool} {payload : Bytes}
    (hne : payload ≠ []) (hlen : payload.length < 65536) {rest buffer : Bytes} {r : ReadReturn}
    (hread : readCmd closed script (frame payload ++ rest) buffer = .ret r) : r.err ≤ 0 := by
  by_cases hheader : Interrupted script.headerFails
  · rw [readCmd_frame_header hheader closed hne hlen] at hread
    exact readBody_of_fails (fun hbody => h ⟨hheader, hbody⟩) hread
  · exact readCmd_of_fails hheader hread

theorem readBody_nil {fails : List Errno} {cmdlen : Nat} {buffer : Bytes} {r : ReadReturn}
    (hread : readBody true fails cmdlen [] buffer = .ret r) : r.err ≤ 0 := by
  by_cases hquiet : Interrupted fails
  · rw [readBody_of_le (readn_nil hquiet cmdlen) le_rfl, Outcome.ret.injEq] at hread
    simp [← hread]
  · exact readBody_of_fails hquiet hread

/-! ### A turn in which everything goes well -/

/-- The splitting loop does no harm either, however many delimiters a command in the buffer has. -/
def servedTurn : Turn where
  read := ⟨(0, 0), [], []⟩
  spare := recvBuffLen
  dl := some fun _ => some fun _ => .ret (some [])
  head := .full
  body := .full

theorem servedTurn_quiet : servedTurn.read.Quiet :=
  ⟨fun _ he => absurd he List.not_mem_nil, fun _ he => absurd he List.not_mem_nil⟩

theorem answer_servedTurn {fd : Int} (hfd : 0 < fd) {cmd : Bytes} (hend : EndsInCrLf cmd)
    (hlen : cmd.length ≤ recvBuffLen) : (answer fd servedTurn cmd).2 = .running := by
  obtain ⟨name, more, hargs⟩ := argList_splitOnP cmdargSlots cmd
  have hdelims : cmd.countP isDelim ≤ 254 + servedTurn.spare :=
    (List.countP_le_length.trans hlen).trans (Nat.le_add_left recvBuffLen 254)
  have hhandle : handleCmd servedTurn.spare servedTurn.dl cmd = .ret (some []) := by
    rw [handleCmd_of_le hend hdelims, hargs]
    rfl
  rw [answer_of_reply hfd rfl rfl hhandle (by decide)]

/-! ### The loop as a transition system -/

structure Reading where
  input : Bytes
  buffer : Bytes
  deriving DecidableEq, Repr

/-- A turn behind which the loop goes on. -/
def clientStep (fd : Int) (closed : Bool) (s : Reading) (t : Turn) : Option Reading :=
  if (clientTurn fd closed t s.input s.buffer).status = .running then
    some ⟨(clientTurn fd closed t s.input s.buffer).input, (clientTurn fd closed t s.input s.buffer).buffer⟩
  else none

/-- What is in the buffer behind a complete frame. -/
def afterFrame (payload buffer : Bytes) : Bytes := if payload = [] then buffer else received payload buffer

theorem length_afterFrame {payload buffer : Bytes} {len : Nat} (hfit : payload.length ≤ len)
    (hbuffer : buffer.length = len) : (afterFrame payload buffer).length = len := by
  subst hbuffer
  rw [afterFrame]
  split
  · rfl
  · next hne => exact received_length hne hfit

theorem cString_afterFrame {payload buffer : Bytes} (hne : payload ≠ []) :
    cString (afterFrame payload buffer) = some (terminated payload) := by
  rw [afterFrame, if_neg hne, cString_received]

section
variable {fd : Int} {closed : Bool}

/-- The runs of the system are the sessions still running. -/
theorem run_clientStep {turns : List Turn} {s u : Reading} :
    run (clientStep fd closed) s turns = some u ↔
      (clientProcess fd closed turns s.input s.buffer).status = .running ∧
        (clientProcess fd closed turns s.input s.buffer).input = u.input ∧
        (clientProcess fd closed turns s.input s.buffer).buffer = u.buffer := by
  induction turns generalizing s with
  | nil =>
      rw [run_nil, Option.some.injEq, Reading.mk.injEq]
      exact ⟨fun h => ⟨rfl, h⟩, And.right⟩
  | cons t turns ih =>
      by_cases hrun : (clientTurn fd closed t s.input s.buffer).status = .running
      · rw [clientProcess_continue rfl hrun, run, clientStep, if_pos hrun]
        exact ih
      · rw [clientProcess_stop rfl hrun, run, clientStep, if_neg hrun]
        exact iff_of_false (Option.some_ne_none u).symm fun h => hrun h.1

/-- What a step takes: a positive return of `ReadCmd`, and a command that is answered. -/
theorem clientStep_eq_some {s u : Reading} {t : Turn} :
    clientStep fd closed s t = some u ↔
      ∃ r cmd, readCmd closed t.read s.input s.buffer = .ret r ∧ 0 < r.err ∧ cString r.buffer = some cmd ∧
        (answer fd t cmd).2 = .running ∧ u = ⟨r.input, r.buffer⟩ := by
  constructor
  · intro hstep
    rw [clientStep, Option.ite_none_right_eq_some, Option.some.injEq] at hstep
    obtain ⟨hrun, rfl⟩ := hstep
    by_cases hread : ∃ r, readCmd closed t.read s.input s.buffer = .ret r ∧ 0 < r.err
    · obtain ⟨r, hread, herr⟩ := hread
      cases hcmd : cString r.buffer with
      | none =>
          rw [clientTurn, hread] at hrun
          simp [hcmd, Int.not_le.mpr herr] at hrun
      | some cmd =>
          rw [clientTurn_of_read fd hread herr hcmd] at hrun ⊢
          exact ⟨r, cmd, hread, herr, hcmd, hrun, rfl⟩
    · have hnone := clientTurn_of_no_read fd fun r hr => Int.not_lt.mp fun herr => hread ⟨r, hr, herr⟩
      exact absurd hrun hnone.2
  · rintro ⟨r, cmd, hread, herr, hcmd, hrun, rfl⟩
    rw [clientStep, clientTurn_of_read fd hread herr hcmd, if_pos hrun]

/-! ### One step -/

theorem readCmd_complete {script : ReadScript} {payload : Bytes} (hlen : payload.length < 65536) {buffer : Bytes}
    (hfit : payload.length ≤ buffer.length) (rest : Bytes) {r : ReadReturn}
    (hread : readCmd closed script (frame payload ++ rest) buffer = .ret r) (herr : 0 < r.err) :
    r.input = rest ∧ r.buffer = afterFrame payload buffer := by
  by_cases hheader : Interrupted script.headerFails
  · by_cases hne : payload = []
    · subst hne
      have hhead : readn closed script.headerFails (frame [] ++ rest) 2 = .ret (2, [0, 0], rest) :=
        readn_append hheader closed [0, 0] rest
      rw [readCmd_of_zero hhead (by decide) (by simp [decodeLen]), Outcome.ret.injEq] at hread
      rw [← hread, afterFrame, if_pos rfl]
      exact ⟨rfl, rfl⟩
    · by_cases hquiet : script.Quiet
      · rw [readCmd_frame hquiet closed hne hlen hfit, Outcome.ret.injEq] at hread
        rw [← hread, afterFrame, if_neg hne]
        exact ⟨rfl, rfl⟩
      · have hfails := readCmd_of_not_quiet hquiet hne hlen hread
        omega
  · have hfails := readCmd_of_fails hheader hread
    omega

theorem readCmd_served {payload : Bytes} (hlen : payload.length < 65536) {buffer : Bytes}
    (hfit : payload.length ≤ buffer.length) (rest : Bytes) :
    ∃ r, readCmd closed servedTurn.read (frame payload ++ rest) buffer = .ret r ∧ 0 < r.err := by
  by_cases hne : payload = []
  · subst hne
    exact ⟨_, readCmd_empty_frame servedTurn_quiet closed buffer rest, by simp⟩
  · refine ⟨_, readCmd_frame servedTurn_quiet closed hne hlen hfit rest, ?_⟩
    simpa using List.length_pos_iff.mpr hne

/-- Behind a complete frame the loop goes on exactly with a string that ends in CR LF: the splitting loop may run over
its array unnoticed. -/
theorem clientStep_frame (hfd : 0 < fd) {payload : Bytes} (hpayload : payload.length ≤ recvBuffLen) {buffer : Bytes}
    (hbufferLen : buffer.length = recvBuffLen) {rest : Bytes} {u : Reading} :
    (∃ t, clientStep fd closed ⟨frame payload ++ rest, buffer⟩ t = some u) ↔
      u = ⟨rest, afterFrame payload buffer⟩ ∧ ∃ cmd, cString u.buffer = some cmd ∧ EndsInCrLf cmd := by
  have hlen : payload.length < 65536 := Nat.lt_of_le_of_lt hpayload (by decide)
  have hfit : payload.length ≤ buffer.length := hbufferLen ▸ hpayload
  constructor
  · rintro ⟨t, hstep⟩
    obtain ⟨r, cmd, hread, herr, hcmd, hrun, rfl⟩ := clientStep_eq_some.mp hstep
    obtain ⟨hinput, hbuffer⟩ := readCmd_complete hlen hfit rest hread herr
    refine ⟨?_, cmd, hcmd, by_contra fun hnot => answer_of_not_crLf hnot hrun⟩
    rw [hinput, hbuffer]
  · rintro ⟨rfl, cmd, hcmd, hend⟩
    have hcmdLen : cmd.length ≤ recvBuffLen :=
      (cString_length_le hcmd).trans_eq (length_afterFrame hpayload hbufferLen)
    obtain ⟨r, hread, herr⟩ := readCmd_served hlen hfit rest
    obtain ⟨hinput, hbuffer⟩ := readCmd_complete hlen hfit rest hread herr
    refine ⟨servedTurn, clientStep_eq_some.mpr ⟨r, cmd, hread, herr, ?_, answer_servedTurn hfd hend hcmdLen, ?_⟩⟩
    · rw [hbuffer]
      exact hcmd
    · rw [hinput, hbuffer]

theorem readn_past (closed : Bool) {fails : List Errno} (h : Interrupted fails) {input : Bytes} {len : Nat}
    (hlen : input.length < len) :
    readn closed fails input len = if closed then .ret (input.length, input, []) else .blocked := by
  cases closed with
  | true => exact readn_short h hlen.le
  | false =>
      rw [readn_of_interrupted h, readn, recv, if_neg (by simpa using hlen)]
      rfl

theorem readBody_input {fails : List Errno} {cmdlen : Nat} {input body rest buffer : Bytes} {err : Int}
    {r : ReadReturn} (hbody : readn closed fails input cmdlen = .ret (err, body, rest))
    (hread : readBody closed fails cmdlen input buffer = .ret r) : r.input = rest := by
  simp only [readBody, hbody, Outcome.ret_bind] at hread
  split at hread
  · rw [Outcome.pure_eq, Outcome.ret.injEq] at hread
    rw [← hread]
  · obtain ⟨stored, -, hread⟩ := Outcome.bind_eq_ret.mp hread
    obtain ⟨ended, -, hread⟩ := Outcome.bind_eq_ret.mp hread
    rw [Outcome.pure_eq, Outcome.ret.injEq] at hread
    rw [← hread]

theorem readBody_past {fails : List Errno} {cmdlen : Nat} {input buffer : Bytes} {r : ReadReturn}
    (hlen : input.length < cmdlen) (hread : readBody closed fails cmdlen input buffer = .ret r) (herr : 0 < r.err) :
    closed = true ∧ r.input = [] := by
  by_cases hquiet : Interrupted fails
  · have hbody := readn_past closed hquiet hlen
    cases closed with
    | false =>
        rw [readBody, hbody] at hread
        contradiction
    | true => exact ⟨rfl, readBody_input hbody hread⟩
  · have hfails := readBody_of_fails hquiet hread
    omega

theorem readCmd_torn_header {script : ReadScript} (hquiet : Interrupted script.headerFails) {lo hi : UInt8}
    {part : Bytes} (htorn : Torn (lo :: hi :: part)) (buffer : Bytes) :
    readCmd closed script (lo :: hi :: part) buffer =
      readBody closed script.bodyFails (decodeLen lo hi) part buffer :=
  readCmd_eq_readBody (readn_append hquiet closed [lo, hi] part) (by simp) rfl (Nat.zero_lt_of_lt htorn) buffer

theorem readCmd_single {script : ReadScript} (hquiet : Interrupted script.headerFails) (b : UInt8) (buffer : Bytes) :
    readCmd true script [b] buffer =
      if decodeLen b script.header.2 = 0 then .ret ⟨1, buffer, []⟩
      else readBody true script.bodyFails (decodeLen b script.header.2) [] buffer := by
  have hhead := readn_short hquiet (show [b].length ≤ 2 from Nat.le_succ 1)
  split
  · next hzero => exact readCmd_of_zero hhead (by simp) hzero buffer
  · next hpos => exact readCmd_eq_readBody hhead (by simp) rfl (Nat.pos_of_ne_zero hpos) buffer

/-- What a cut-off body leaves in the buffer when nothing fails for good. -/
theorem readCmd_cut {script : ReadScript} (hquiet : script.Quiet) {lo hi b : UInt8} {part buffer : Bytes}
    (htorn : Torn (lo :: hi :: b :: part)) (hfit : decodeLen lo hi ≤ buffer.length) :
    readCmd true script (lo :: hi :: b :: part) buffer =
      .ret ⟨(b :: part).length, (b :: part ++ buffer.drop (b :: part).length).set (decodeLen lo hi - 1) 0, []⟩ := by
  have hlt : (b :: part).length < decodeLen lo hi := htorn
  rw [readCmd_torn_header hquiet.1 htorn, readBody_eq (readn_short hquiet.2 hlt.le) (by simp),
    if_pos ⟨by omega, by omega⟩]

/-- A torn tail is taken for a command only when the client has closed its side, and nothing is left then. -/
theorem readCmd_torn {script : ReadScript} {torn buffer : Bytes} (htorn : Torn torn) {r : ReadReturn}
    (hread : readCmd closed script torn buffer = .ret r) (herr : 0 < r.err) : closed = true ∧ r.input = [] := by
  by_cases hheader : Interrupted script.headerFails
  · match torn, htorn with
    | lo :: hi :: part, htorn =>
        rw [readCmd_torn_header hheader htorn] at hread
        exact readBody_past htorn hread herr
    | [], _ =>
        have hhead := readn_past closed hheader (show ([] : Bytes).length < 2 by decide)
        cases closed with
        | false =>
            rw [readCmd, hhead] at hread
            contradiction
        | true =>
            rw [readCmd_of_le hhead le_rfl, Outcome.ret.injEq] at hread
            exact ⟨rfl, hread ▸ rfl⟩
    | [b], _ =>
        have hhead := readn_past closed hheader (show [b].length < 2 from Nat.lt_succ_self 1)
        cases closed with
        | false =>
            rw [readCmd, hhead] at hread
            contradiction
        | true =>
            rcases Nat.eq_zero_or_pos (decodeLen b script.header.2) with hzero | hpos
            · rw [readCmd_of_zero hhead (by simp) hzero, Outcome.ret.injEq] at hread
              exact ⟨rfl, hread ▸ rfl⟩
            · rw [readCmd_eq_readBody hhead (by simp) rfl hpos] at hread
              exact readBody_past hpos hread herr
  · have hfails := readCmd_of_fails hheader hread
    omega

theorem readCmd_nil {script : ReadScript} {buffer : Bytes} {r : ReadReturn}
    (hread : readCmd closed script [] buffer = .ret r) : r.err ≤ 0 := by
  by_cases hheader : Interrupted script.headerFails
  · have hhead := readn_past closed hheader (show ([] : Bytes).length < 2 by decide)
    cases closed with
    | false =>
        rw [readCmd, hhead] at hread
        contradiction
    | true =>
        rw [readCmd_of_le hhead le_rfl, Outcome.ret.injEq] at hread
        exact hread ▸ le_rfl
  · exact readCmd_of_fails hheader hread

theorem clientStep_torn {torn : Bytes} (htorn : Torn torn) {buffer : Bytes} {t : Turn} {u : Reading}
    (hstep : clientStep fd closed ⟨torn, buffer⟩ t = some u) : u.input = [] := by
  obtain ⟨r, cmd, hread, herr, -, -, rfl⟩ := clientStep_eq_some.mp hstep
  exact (readCmd_torn htorn hread herr).2

theorem clientStep_nil (buffer : Bytes) (t : Turn) : clientStep fd closed ⟨[], buffer⟩ t = none := by
  refine Option.eq_none_iff_forall_ne_some.mpr fun u hstep => ?_
  obtain ⟨r, cmd, hread, herr, -, -, -⟩ := clientStep_eq_some.mp hstep
  exact absurd (readCmd_nil hread) (Int.not_le.mpr herr)

/-! ### Properties of every turn of a session -/

variable {p : Reading → Turn → Prop}

theorem always_frame (hfd : 0 < fd) {payload : Bytes} (hpayload : payload.length ≤ recvBuffLen) {buffer : Bytes}
    (hbuffer : buffer.length = recvBuffLen) {rest : Bytes} :
    Always (clientStep fd closed) p ⟨frame payload ++ rest, buffer⟩ ↔
      (∀ t, p ⟨frame payload ++ rest, buffer⟩ t) ∧
        ∀ cmd, cString (afterFrame payload buffer) = some cmd → EndsInCrLf cmd →
          Always (clientStep fd closed) p ⟨rest, afterFrame payload buffer⟩ := by
  rw [always_iff]
  refine and_congr_right fun _ => ⟨fun hlater cmd hcmd hend => ?_, fun hlater t u hstep => ?_⟩
  · obtain ⟨t, hstep⟩ := (clientStep_frame hfd hpayload hbuffer).mpr ⟨rfl, cmd, hcmd, hend⟩
    exact hlater t _ hstep
  · obtain ⟨rfl, cmd, hcmd, hend⟩ := (clientStep_frame hfd hpayload hbuffer).mp ⟨t, hstep⟩
    exact hlater cmd hcmd hend

theorem always_torn {torn : Bytes} (htorn : Torn torn) (hend : ∀ buffer t, p ⟨[], buffer⟩ t) (buffer : Bytes) :
    Always (clientStep fd closed) p ⟨torn, buffer⟩ ↔ ∀ t, p ⟨torn, buffer⟩ t := by
  rw [always_iff]
  refine and_iff_left fun t u hstep => ?_
  obtain ⟨input, later⟩ := u
  obtain rfl : input = [] := clientStep_torn htorn hstep
  rw [always_iff]
  refine ⟨hend later, fun t' u' hnext => ?_⟩
  rw [clientStep_nil] at hnext
  contradiction

end

end RemoteCtrl
