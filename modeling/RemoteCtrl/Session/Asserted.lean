import RemoteCtrl.Session.Turns

/-!
# The commands on which `HandleCmd` asserts

`HandleCmd` asserts that the string it is given ends in CR LF, `ReadCmd` checks nothing. So a client decides
whether the assertions hold: they do on exactly the streams whose payloads end so, which do not begin with a
frame that leaves the buffer as it was, and which are not cut off inside a body in such a way that what has
arrived, laid over the command before, ends otherwise.
-/

namespace RemoteCtrl

open CProgram CProgram.Framing CProgram.Transition

def HoldsCommand (buffer : Bytes) : Prop := ∃ cmd, cString buffer = some cmd ∧ EndsInCrLf cmd

def AssertionsHold (closed : Bool) (s : Reading) (t : Turn) : Prop :=
  ∀ r, readCmd closed t.read s.input s.buffer = .ret r → 0 < r.err → HoldsCommand r.buffer

/-- Whenever a session on this stream calls `HandleCmd`, the string in the buffer ends in CR LF. -/
def Asserted (fd : Int) (closed : Bool) (stream : Bytes) : Prop :=
  ∀ buffer, buffer.length = recvBuffLen → Always (clientStep fd closed) (AssertionsHold closed) ⟨stream, buffer⟩

/-! ### The condition on the stream -/

/-- The stream does not begin with something that is taken for a command and leaves the buffer as it was: an
empty frame, or a single header byte that is zero. -/
def BeginsAfresh (closed : Bool) : List Bytes → Bytes → Prop
  | [], torn => closed = true → torn ≠ [0]
  | p :: _, _ => p ≠ []

/-- A body that is cut off behind its first byte, laid over the buffer and ended where the header says. -/
def TailCrLf (closed : Bool) : Bytes → Bytes → Prop
  | lo :: hi :: b :: part, buffer =>
      closed = true →
        HoldsCommand ((b :: part ++ buffer.drop (b :: part).length).set (decodeLen lo hi - 1) 0)
  | _, _ => True

/-- Each payload that is not empty ends in CR LF, and so does what a cut-off body leaves in the buffer. -/
def CrLfFrom (closed : Bool) : List Bytes → Bytes → Bytes → Prop
  | [], torn, buffer => TailCrLf closed torn buffer
  | p :: payloads, torn, buffer =>
      (p ≠ [] → EndsInCrLf (terminated p)) ∧ CrLfFrom closed payloads torn (afterFrame p buffer)

def CrLf (closed : Bool) (stream : Bytes) : Prop :=
  BeginsAfresh closed (frames stream) (tail stream) ∧
    ∀ buffer, buffer.length = recvBuffLen → CrLfFrom closed (frames stream) (tail stream) buffer

/-! ### One turn -/

section
variable {closed : Bool}

theorem assertionsHold_frame {payload : Bytes} (hlen : payload.length < 65536) {buffer : Bytes}
    (hfit : payload.length ≤ buffer.length) (rest : Bytes) :
    (∀ t, AssertionsHold closed ⟨frame payload ++ rest, buffer⟩ t) ↔ HoldsCommand (afterFrame payload buffer) := by
  constructor
  · intro hall
    obtain ⟨r, hread, herr⟩ := readCmd_served hlen hfit rest
    obtain ⟨-, hbuffer⟩ := readCmd_complete hlen hfit rest hread herr
    exact hbuffer ▸ hall servedTurn r hread herr
  · intro hholds t r hread herr
    obtain ⟨-, hbuffer⟩ := readCmd_complete hlen hfit rest hread herr
    exact hbuffer ▸ hholds

theorem holdsCommand_afterFrame {payload buffer : Bytes} (hne : payload ≠ []) :
    HoldsCommand (afterFrame payload buffer) ↔ EndsInCrLf (terminated payload) := by
  rw [HoldsCommand, cString_afterFrame hne]
  simp only [Option.some.injEq, exists_eq_left']

theorem readCmd_of_not_quiet_cut {script : ReadScript} (h : ¬script.Quiet) {lo hi : UInt8} {part buffer : Bytes}
    (htorn : Torn (lo :: hi :: part)) {r : ReadReturn}
    (hread : readCmd closed script (lo :: hi :: part) buffer = .ret r) : r.err ≤ 0 := by
  by_cases hheader : Interrupted script.headerFails
  · rw [readCmd_torn_header hheader htorn] at hread
    exact readBody_of_fails (fun hbody => h ⟨hheader, hbody⟩) hread
  · exact readCmd_of_fails hheader hread

theorem assertionsHold_closed {torn : Bytes} (htorn : Torn torn) {buffer : Bytes}
    (hfit : ∀ lo hi part, torn = lo :: hi :: part → decodeLen lo hi ≤ buffer.length) :
    (∀ t, AssertionsHold true ⟨torn, buffer⟩ t) ↔ (torn = [0] → HoldsCommand buffer) ∧ TailCrLf true torn buffer := by
  match torn, htorn with
  | [], _ =>
      refine iff_of_true (fun t r hread herr => ?_) ⟨fun h => absurd h (by simp), trivial⟩
      exact absurd (readCmd_nil hread) (Int.not_le.mpr herr)
  | [b], _ =>
      rw [List.singleton_inj, TailCrLf, and_true]
      · constructor
        · rintro hall rfl
          refine hall servedTurn ⟨1, buffer, []⟩ ?_ Int.one_pos
          exact (readCmd_single servedTurn_quiet.1 0 buffer).trans (if_pos rfl)
        · intro hholds t r hread herr
          by_cases hquiet : Interrupted t.read.headerFails
          · rw [readCmd_single hquiet] at hread
            split at hread
            · next hzero =>
                rw [Outcome.ret.injEq] at hread
                rw [← hread]
                refine hholds (UInt8.toNat_inj.mp ?_)
                rw [decodeLen] at hzero
                simp only [UInt8.toNat_zero]
                omega
            · exact absurd (readBody_nil hread) (Int.not_le.mpr herr)
          · exact absurd (readCmd_of_fails hquiet hread) (Int.not_le.mpr herr)
      · simp
  | [lo, hi], htorn =>
      refine iff_of_true (fun t r hread herr => ?_) ⟨fun h => absurd h (by simp), trivial⟩
      by_cases hquiet : Interrupted t.read.headerFails
      · rw [readCmd_torn_header hquiet htorn] at hread
        exact absurd (readBody_nil hread) (Int.not_le.mpr herr)
      · exact absurd (readCmd_of_fails hquiet hread) (Int.not_le.mpr herr)
  | lo :: hi :: b :: part, htorn =>
      have hn := hfit lo hi (b :: part) rfl
      have hne : lo :: hi :: b :: part ≠ [0] := by simp
      simp only [hne, false_imp_iff, true_and, TailCrLf, true_imp_iff]
      constructor
      · intro hall
        exact hall servedTurn _ (readCmd_cut servedTurn_quiet htorn hn) (by simp)
      · intro hholds t r hread herr
        by_cases hquiet : t.read.Quiet
        · rw [readCmd_cut hquiet htorn hn, Outcome.ret.injEq] at hread
          exact hread ▸ hholds
        · exact absurd (readCmd_of_not_quiet_cut hquiet htorn hread) (Int.not_le.mpr herr)

theorem assertionsHold_torn {torn : Bytes} (htorn : Torn torn) {buffer : Bytes}
    (hfit : ∀ lo hi part, torn = lo :: hi :: part → decodeLen lo hi ≤ buffer.length) :
    (∀ t, AssertionsHold closed ⟨torn, buffer⟩ t) ↔
      (closed = true → torn = [0] → HoldsCommand buffer) ∧ TailCrLf closed torn buffer := by
  cases closed with
  | true =>
      rw [assertionsHold_closed htorn hfit]
      simp only [true_imp_iff]
  | false =>
      -- while the client keeps the connection open, `ReadCmd` waits for the rest
      refine iff_of_true (fun t r hread herr => ?_) ⟨fun h => absurd h Bool.false_ne_true, ?_⟩
      · exact absurd (readCmd_torn htorn hread herr).1 Bool.false_ne_true
      · match torn with
        | [] | [_] | [_, _] => trivial
        | _ :: _ :: _ :: _ => exact fun h => absurd h Bool.false_ne_true

/-! ### Whole sessions -/

variable {fd : Int}

theorem always_tail {torn : Bytes} (htorn : Torn torn) {buffer : Bytes}
    (hfit : ∀ lo hi part, torn = lo :: hi :: part → decodeLen lo hi ≤ buffer.length) :
    Always (clientStep fd closed) (AssertionsHold closed) ⟨torn, buffer⟩ ↔
      (closed = true → torn = [0] → HoldsCommand buffer) ∧ TailCrLf closed torn buffer := by
  rw [← assertionsHold_torn htorn hfit]
  refine always_torn htorn (fun later t r hread herr => ?_) buffer
  exact absurd (readCmd_nil hread) (Int.not_le.mpr herr)

/-- The front of a stream that begins with a non-empty frame. -/
theorem always_cons (hfd : 0 < fd) {payload : Bytes} (hne : payload ≠ []) {payloads : List Bytes} {torn buffer : Bytes}
    (hfit : payload.length ≤ recvBuffLen) (hbuffer : buffer.length = recvBuffLen)
    (hrest : EndsInCrLf (terminated payload) →
      (Always (clientStep fd closed) (AssertionsHold closed)
          ⟨payloads.flatMap frame ++ torn, afterFrame payload buffer⟩ ↔
        CrLfFrom closed payloads torn (afterFrame payload buffer))) :
    Always (clientStep fd closed) (AssertionsHold closed) ⟨(payload :: payloads).flatMap frame ++ torn, buffer⟩ ↔
      CrLfFrom closed (payload :: payloads) torn buffer := by
  have hlen : payload.length < 65536 := Nat.lt_of_le_of_lt hfit (by decide)
  rw [List.flatMap_cons, List.append_assoc, CrLfFrom, always_frame hfd hfit hbuffer,
    assertionsHold_frame hlen (hbuffer ▸ hfit), holdsCommand_afterFrame hne, cString_afterFrame hne]
  simp only [Option.some.injEq, forall_eq', hne, ne_eq, not_false_eq_true, true_imp_iff]
  refine and_congr_right fun hend => ?_
  rw [← hrest hend]
  exact ⟨fun halways => halways hend, fun halways _ => halways⟩

/-- Behind a command that ends in CR LF an empty frame does no harm: it is the same command again. -/
theorem always_iff_crLfFrom (hfd : 0 < fd) {payloads : List Bytes} {torn : Bytes} (htorn : Torn torn)
    (hfit : ∀ p ∈ payloads, p.length ≤ recvBuffLen)
    (htail : ∀ lo hi part, torn = lo :: hi :: part → decodeLen lo hi ≤ recvBuffLen) :
    ∀ buffer cmd, buffer.length = recvBuffLen → cString buffer = some cmd → EndsInCrLf cmd →
      (Always (clientStep fd closed) (AssertionsHold closed) ⟨payloads.flatMap frame ++ torn, buffer⟩ ↔
        CrLfFrom closed payloads torn buffer) := by
  induction payloads with
  | nil =>
      intro buffer cmd hbuffer hcmd hend
      refine (always_tail htorn (hbuffer ▸ htail)).trans (and_iff_right fun _ _ => ?_)
      exact ⟨cmd, hcmd, hend⟩
  | cons p payloads ih =>
      intro buffer cmd hbuffer hcmd hend
      have hp : p.length ≤ recvBuffLen := hfit p List.mem_cons_self
      have hrest := ih fun q hq => hfit q (List.mem_cons_of_mem p hq)
      by_cases hne : p = []
      · have hsame : afterFrame p buffer = buffer := if_pos hne
        have hlen : p.length < 65536 := Nat.lt_of_le_of_lt hp (by decide)
        rw [List.flatMap_cons, List.append_assoc, CrLfFrom, always_frame hfd hp hbuffer,
          assertionsHold_frame hlen (hbuffer ▸ hp), hsame, ← hrest buffer cmd hbuffer hcmd hend]
        simp only [hcmd, Option.some.injEq, forall_eq', hend, true_imp_iff, hne, ne_eq, not_true_eq_false,
          false_imp_iff, true_and]
        exact and_iff_right ⟨cmd, hcmd, hend⟩
      · exact always_cons hfd hne hp hbuffer (hrest _ _ (length_afterFrame hp hbuffer) (cString_afterFrame hne))

theorem always_of_beginsAfresh (hfd : 0 < fd) {payloads : List Bytes} {torn : Bytes} (htorn : Torn torn)
    (hfit : ∀ p ∈ payloads, p.length ≤ recvBuffLen)
    (htail : ∀ lo hi part, torn = lo :: hi :: part → decodeLen lo hi ≤ recvBuffLen)
    (hafresh : BeginsAfresh closed payloads torn) {buffer : Bytes} (hbuffer : buffer.length = recvBuffLen) :
    Always (clientStep fd closed) (AssertionsHold closed) ⟨payloads.flatMap frame ++ torn, buffer⟩ ↔
      CrLfFrom closed payloads torn buffer := by
  cases payloads with
  | nil =>
      refine (always_tail htorn (hbuffer ▸ htail)).trans (and_iff_right fun hclosed hzero => ?_)
      exact absurd hzero (hafresh hclosed)
  | cons p payloads =>
      have hp : p.length ≤ recvBuffLen := hfit p List.mem_cons_self
      have hne : p ≠ [] := hafresh
      refine always_cons hfd hne hp hbuffer fun hnext => ?_
      exact always_iff_crLfFrom hfd htorn (fun q hq => hfit q (List.mem_cons_of_mem p hq)) htail _ _
        (length_afterFrame hp hbuffer) (cString_afterFrame hne) hnext

theorem not_holdsCommand_zeros : ¬HoldsCommand (List.replicate recvBuffLen 0) := by
  rintro ⟨cmd, hcmd, hend⟩
  have hempty : cString ([] ++ 0 :: List.replicate 1023 0) = some [] := cString_append_nul [] _
  rw [show List.replicate recvBuffLen (0 : UInt8) = [] ++ 0 :: List.replicate 1023 0 from List.replicate_succ, hempty,
    Option.some.injEq] at hcmd
  exact absurd (hcmd ▸ hend) (by decide)

theorem beginsAfresh_of_always {payloads : List Bytes} {torn : Bytes} (htorn : Torn torn)
    (hlen : ∀ p ∈ payloads, p.length < 65536)
    (htail : ∀ lo hi part, torn = lo :: hi :: part → decodeLen lo hi ≤ recvBuffLen)
    (halways : Always (clientStep fd closed) (AssertionsHold closed)
      ⟨payloads.flatMap frame ++ torn, List.replicate recvBuffLen 0⟩) : BeginsAfresh closed payloads torn := by
  cases payloads with
  | nil =>
      intro hclosed hzero
      have hfit : ∀ lo hi part, torn = lo :: hi :: part →
          decodeLen lo hi ≤ (List.replicate recvBuffLen (0 : UInt8)).length := by
        rw [List.length_replicate]
        exact htail
      exact not_holdsCommand_zeros (((always_tail htorn hfit).mp halways).1 hclosed hzero)
  | cons p payloads =>
      rintro rfl
      have hhere := (always_iff.mp halways).1
      rw [List.flatMap_cons, List.append_assoc, assertionsHold_frame (by decide) (Nat.zero_le _)] at hhere
      exact not_holdsCommand_zeros hhere

end

/-- **The asserted precondition.** No session on a stream can fail an assertion of `HandleCmd` if and only if the
stream begins afresh and leaves only strings that end in CR LF. -/
theorem asserted_iff_crLf {fd : Int} (hfd : 0 < fd) (closed : Bool) {stream : Bytes}
    (hannounced : ∀ n ∈ announced stream, n ≤ recvBuffLen) : Asserted fd closed stream ↔ CrLf closed stream := by
  obtain ⟨hstream, htorn, hlen⟩ := stream_eq stream
  have hfit := length_le_of_announced hannounced
  have htail := tail_le_of_announced hannounced
  constructor
  · intro hasserted
    have hafresh : BeginsAfresh closed (frames stream) (tail stream) := by
      apply beginsAfresh_of_always htorn hlen htail
      rw [← hstream]
      exact hasserted _ List.length_replicate
    refine ⟨hafresh, fun buffer hbuffer => ?_⟩
    rw [← always_of_beginsAfresh hfd htorn hfit htail hafresh hbuffer, ← hstream]
    exact hasserted buffer hbuffer
  · rintro ⟨hafresh, hcrlf⟩ buffer hbuffer
    rw [hstream, always_of_beginsAfresh hfd htorn hfit htail hafresh hbuffer]
    exact hcrlf buffer hbuffer

theorem asserted_checkKey : Asserted 4 true (frame (ascii "CheckKey\r\n" ++ [0])) := by
  have hlen : ∀ p ∈ [ascii "CheckKey\r\n" ++ [0]], p.length < 65536 := by decide
  have hannounced := announced_flatMap hlen
  have hframes := frames_flatMap_append hlen torn_nil
  have htail := tail_flatMap_append hlen torn_nil
  rw [List.append_nil, List.flatMap_singleton] at hframes htail
  rw [List.flatMap_singleton] at hannounced
  refine (asserted_iff_crLf (by decide) true (by rw [hannounced]; decide)).mpr ?_
  rw [CrLf, hframes, htail]
  exact ⟨List.cons_ne_nil _ _, fun buffer _ => ⟨fun _ => by decide, trivial⟩⟩

/-- A frame whose text does not end in CR LF stops the child. -/
theorem unterminated_command_aborts :
    (∀ n ∈ announced (frame (ascii "hello" ++ [0])), n ≤ recvBuffLen) ∧
      (clientProcess 4 true [servedTurn] (frame (ascii "hello" ++ [0])) (List.replicate recvBuffLen 0)).status =
        .dead .assertion ∧
      ¬Asserted 4 true (frame (ascii "hello" ++ [0])) := by
  have hlen : ∀ p ∈ [ascii "hello" ++ [0]], p.length < 65536 := by decide
  have hannounced := announced_flatMap hlen
  rw [List.flatMap_singleton] at hannounced
  have hbuffer : (List.replicate recvBuffLen (0 : UInt8)).length = recvBuffLen := List.length_replicate
  have hfit : (ascii "hello" ++ [0]).length ≤ (List.replicate recvBuffLen (0 : UInt8)).length := by
    rw [hbuffer]
    decide
  refine ⟨by rw [hannounced]; decide, ?_, fun hasserted => ?_⟩
  · have hturn := clientTurn_frame 4 true servedTurn_quiet (by decide) (hlen _ List.mem_cons_self) hfit []
    rw [List.append_nil] at hturn
    rw [clientProcess_stop hturn (by decide)]
    decide
  · have hhere := (always_iff.mp (hasserted _ hbuffer)).1
    rw [← List.append_nil (frame _), assertionsHold_frame (hlen _ List.mem_cons_self) hfit,
      holdsCommand_afterFrame (by decide)] at hhere
    exact absurd hhere (by decide)

end RemoteCtrl
