import RemoteCtrl.Session.Turns

/-!
# Which streams a session reads without mixing commands

The receive buffer is one allocation for the whole session, a frame of length zero does not touch it, and a
short read at the end of a stream counts as a read. So what `HandleCmd` gets is not always what the client
sent. `deliver` says what a session should dispatch: the payloads of the stream in order, one a turn, until
a turn ends the session; it has no buffer. `isolated_iff_clean` says on which streams the loop does that:
exactly those without a frame of length zero and without a torn tail that a read reports as success, as far
as the session gets: to the first payload that does not end in CR LF. A payload with too many delimiters does
not count, since the process may survive the stores behind the array.
-/

namespace RemoteCtrl

open CProgram CProgram.Framing

def commandsOf (payloads : List Bytes) : List Bytes := (payloads.filter (· ≠ [])).map terminated

/-- What a session dispatches is a prefix of the commands of the stream, and the initial contents of the
receive buffer have no influence on it. -/
def Isolated (fd : Int) (stream : Bytes) : Prop :=
  (∀ turns buffer, buffer.length = recvBuffLen →
    (clientProcess fd true turns stream buffer).dispatched <+: commandsOf (frames stream)) ∧
  ∀ turns buffer buffer', buffer.length = recvBuffLen → buffer'.length = recvBuffLen →
    (clientProcess fd true turns stream buffer).dispatched =
      (clientProcess fd true turns stream buffer').dispatched

/-- The torn tails that a read does not take for a command: nothing, a single header byte other than zero,
a header without a byte of its body. -/
def Harmless : Bytes → Prop
  | [] => True
  | [b] => b ≠ 0
  | [_, _] => True
  | _ => False

/-- Up to the first payload that does not end in CR LF there is no empty one, and if there is no such payload the
tail is harmless. -/
def CleanFrom : List Bytes → Bytes → Prop
  | [], torn => Harmless torn
  | p :: payloads, torn => p ≠ [] ∧ (EndsInCrLf (terminated p) → CleanFrom payloads torn)

def Clean (stream : Bytes) : Prop := CleanFrom (frames stream) (tail stream)

/-! ### Tails that are not taken for a command -/

theorem readCmd_of_harmless {script : ReadScript} {torn : Bytes} (hharm : Harmless torn) (htorn : Torn torn)
    {buffer : Bytes} {r : ReadReturn} (hread : readCmd true script torn buffer = .ret r) : r.err ≤ 0 := by
  by_cases hquiet : Interrupted script.headerFails
  · match torn, hharm, htorn with
    | [], _, _ => exact readCmd_nil hread
    | [b], hb, _ =>
        have hpos : decodeLen b script.header.2 ≠ 0 := by
          have : b.toNat ≠ 0 := fun h0 => hb (UInt8.toNat_inj.mp h0)
          rw [decodeLen]
          omega
        rw [readCmd_single hquiet, if_neg hpos] at hread
        exact readBody_nil hread
    | [lo, hi], _, htorn =>
        rw [readCmd_torn_header hquiet htorn] at hread
        exact readBody_nil hread
  · exact readCmd_of_fails hquiet hread

/-! ### The loop refines delivery in order -/

/-- The commands a session hands on when it takes one payload a turn. -/
def deliver (fd : Int) : List Turn → List Bytes → List Bytes
  | t :: ts, p :: payloads =>
      if t.read.headerFails.all (· == .EINTR) && t.read.bodyFails.all (· == .EINTR) then
        terminated p :: (if (answer fd t (terminated p)).2 = .running then deliver fd ts payloads else [])
      else []
  | _, _ => []

theorem quiet_iff (script : ReadScript) :
    (script.headerFails.all (· == .EINTR) && script.bodyFails.all (· == .EINTR)) = true ↔ script.Quiet := by
  simp [ReadScript.Quiet, Interrupted]

theorem clientProcess_of_clean (fd : Int) {payloads : List Bytes} {torn : Bytes}
    (hclean : CleanFrom payloads torn) (htorn : Torn torn) (hfit : ∀ p ∈ payloads, p.length ≤ recvBuffLen) :
    ∀ (turns : List Turn) (buffer : Bytes), buffer.length = recvBuffLen →
      (clientProcess fd true turns (payloads.flatMap frame ++ torn) buffer).dispatched =
        deliver fd turns payloads := by
  induction payloads with
  | nil =>
      intro turns buffer _
      cases turns with
      | nil => rfl
      | cons t ts =>
          have hno (r : ReadReturn) (hread : readCmd true t.read torn buffer = .ret r) : r.err ≤ 0 :=
            readCmd_of_harmless hclean htorn hread
          obtain ⟨hnone, hstop⟩ := clientTurn_of_no_read fd hno
          rw [List.flatMap_nil, List.nil_append, clientProcess_dispatched, hnone, if_neg hstop]
          rfl
  | cons p payloads ih =>
      intro turns buffer hbuffer
      obtain ⟨hne, hrest⟩ := hclean
      have hp : p.length ≤ recvBuffLen := hfit p List.mem_cons_self
      have hlen : p.length < 65536 := Nat.lt_of_le_of_lt hp (by decide)
      cases turns with
      | nil => rfl
      | cons t ts =>
          rw [List.flatMap_cons, List.append_assoc, clientProcess_dispatched, deliver]
          by_cases hquiet : t.read.Quiet
          · have hturn := clientTurn_frame fd true hquiet hne hlen (hbuffer ▸ hp)
              (payloads.flatMap frame ++ torn)
            rw [if_pos ((quiet_iff t.read).mpr hquiet), hturn]
            simp only [List.singleton_append]
            by_cases hrun : (answer fd t (terminated p)).2 = .running
            · have hend : EndsInCrLf (terminated p) := by
                by_contra hnot
                exact answer_of_not_crLf hnot hrun
              rw [if_pos hrun, if_pos hrun, ih (hrest hend) (fun q hq => hfit q (List.mem_cons_of_mem p hq)) ts
                (received p buffer) (by rw [received_length hne (hbuffer ▸ hp), hbuffer])]
            · rw [if_neg hrun, if_neg hrun]
          · have hno (r : ReadReturn)
                (hread : readCmd true t.read (frame p ++ (payloads.flatMap frame ++ torn)) buffer = .ret r) :
                r.err ≤ 0 := readCmd_of_not_quiet hquiet hne hlen hread
            obtain ⟨hnone, hstop⟩ := clientTurn_of_no_read fd hno
            rw [if_neg (fun h => hquiet ((quiet_iff t.read).mp h)), hnone, if_neg hstop]
            rfl

/-! ### Stale dispatch

Turns in which everything goes well. On a stream that is not clean they dispatch the string
an earlier command left in the buffer, and no amount of luck with equal commands makes that a prefix of the
commands of the stream: one more string is dispatched than there are commands, or a string that ends in CR LF
stands where the stream has one that does not.
-/

theorem readCmd_of_harmful {torn buffer cmd : Bytes} (htorn : Torn torn) (hharm : ¬Harmless torn)
    (hfit : ∀ lo hi part, torn = lo :: hi :: part → decodeLen lo hi ≤ buffer.length)
    (hcmd : cString buffer = some cmd) :
    ∃ r next, readCmd true servedTurn.read torn buffer = .ret r ∧ 0 < r.err ∧ cString r.buffer = some next := by
  match torn, htorn, hharm, hfit with
  | [], _, hharm, _ => exact absurd trivial hharm
  | [b], _, hharm, _ =>
      have hb : b = 0 := by
        by_contra hne
        exact hharm hne
      subst hb
      have hread := (readCmd_single servedTurn_quiet.1 0 buffer).trans (if_pos rfl)
      exact ⟨⟨1, buffer, []⟩, cmd, hread, Int.one_pos, hcmd⟩
  | [_, _], _, hharm, _ => exact absurd trivial hharm
  | lo :: hi :: b :: part, htorn, _, hfit =>
      have hn := hfit lo hi (b :: part) rfl
      have hlt : (b :: part).length < decodeLen lo hi := htorn
      have hlast : decodeLen lo hi - 1 < (b :: part ++ buffer.drop (b :: part).length).length := by
        rw [List.length_append, List.length_drop]
        omega
      have hnul : (0 : UInt8) ∈ (b :: part ++ buffer.drop (b :: part).length).set (decodeLen lo hi - 1) 0 :=
        List.mem_set hlast 0
      exact ⟨_, _, readCmd_cut servedTurn_quiet htorn hn, by simp, if_pos hnul⟩

def served (fd : Int) (turns : Nat) (payloads : List Bytes) (torn buffer : Bytes) : List Bytes :=
  (clientProcess fd true (List.replicate turns servedTurn) (payloads.flatMap frame ++ torn) buffer).dispatched

theorem served_empty {fd : Int} (hfd : 0 < fd) {turns : Nat} {payloads : List Bytes} {torn buffer cmd : Bytes}
    (hbuffer : buffer.length = recvBuffLen) (hcmd : cString buffer = some cmd) (hend : EndsInCrLf cmd) :
    served fd (turns + 1) ([] :: payloads) torn buffer = cmd :: served fd turns payloads torn buffer := by
  have hread := readCmd_empty_frame servedTurn_quiet true buffer (payloads.flatMap frame ++ torn)
  have hturn := clientTurn_of_read fd hread (by simp) hcmd
  rw [served, List.replicate_succ, List.flatMap_cons, List.append_assoc, clientProcess_dispatched, hturn,
    if_pos (answer_servedTurn hfd hend ((cString_length_le hcmd).trans_eq hbuffer))]
  rfl

theorem served_frame {fd : Int} (hfd : 0 < fd) {turns : Nat} {payloads : List Bytes} {torn buffer p : Bytes}
    (hne : p ≠ []) (hp : p.length ≤ recvBuffLen) (hbuffer : buffer.length = recvBuffLen) :
    served fd (turns + 1) (p :: payloads) torn buffer =
      terminated p ::
        if EndsInCrLf (terminated p) then served fd turns payloads torn (received p buffer) else [] := by
  have hlen : p.length < 65536 := Nat.lt_of_le_of_lt hp (by decide)
  have hturn := clientTurn_frame fd true servedTurn_quiet hne hlen (hbuffer ▸ hp)
    (payloads.flatMap frame ++ torn)
  rw [served, List.replicate_succ, List.flatMap_cons, List.append_assoc, clientProcess_dispatched, hturn]
  by_cases hend : EndsInCrLf (terminated p)
  · have htext : (terminated p).length ≤ recvBuffLen := (terminated_length_le p).trans hp
    rw [if_pos (answer_servedTurn hfd hend htext), if_pos hend]
    rfl
  · rw [if_neg (answer_of_not_crLf hend), if_neg hend]
    rfl

theorem commandsOf_cons {p : Bytes} (hne : p ≠ []) (payloads : List Bytes) :
    commandsOf (p :: payloads) = terminated p :: commandsOf payloads := by
  simp [commandsOf, hne]

/-- Once a string has been dispatched twice, the run is never again a prefix of the commands. -/
theorem not_prefix_of_stale {fd : Int} (hfd : 0 < fd) {payloads : List Bytes} {torn : Bytes}
    (hfit : ∀ p ∈ payloads, p.length ≤ recvBuffLen) :
    ∀ (turns : Nat) (stale : List Bytes) (buffer cmd : Bytes), payloads.length ≤ turns →
      buffer.length = recvBuffLen → cString buffer = some cmd → EndsInCrLf cmd → stale ≠ [] →
      (∀ s ∈ stale, EndsInCrLf s) → ¬ stale ++ served fd turns payloads torn buffer <+: commandsOf payloads := by
  induction payloads with
  | nil =>
      intro turns stale buffer cmd _ _ _ _ hstale _ hprefix
      exact hstale (List.append_eq_nil_iff.mp (List.prefix_nil.mp hprefix)).1
  | cons p payloads ih =>
      intro turns stale buffer cmd hturns hbuffer hcmd hend hstale hall hprefix
      have hrest := ih fun q hq => hfit q (List.mem_cons_of_mem p hq)
      obtain ⟨turns, rfl⟩ : ∃ n, turns = n + 1 := ⟨turns - 1, by simp at hturns; omega⟩
      have hturns' : payloads.length ≤ turns := Nat.le_of_succ_le_succ hturns
      by_cases hp : p = []
      · subst hp
        rw [served_empty hfd hbuffer hcmd hend] at hprefix
        have hmore : ∀ s ∈ stale ++ [cmd], EndsInCrLf s :=
          List.forall_mem_append.mpr ⟨hall, List.forall_mem_singleton.mpr hend⟩
        apply hrest turns _ buffer cmd hturns' hbuffer hcmd hend (by simp) hmore
        simpa [commandsOf] using hprefix
      · have hlen : p.length ≤ recvBuffLen := hfit p List.mem_cons_self
        obtain ⟨s, more, rfl⟩ := List.exists_cons_of_ne_nil hstale
        rw [served_frame hfd hp hlen hbuffer] at hprefix
        rw [commandsOf_cons hp, List.cons_append, List.cons_prefix_cons] at hprefix
        obtain ⟨hs, hprefix⟩ := hprefix
        have hsend : EndsInCrLf (terminated p) := hs ▸ hall s List.mem_cons_self
        rw [if_pos hsend] at hprefix
        have hmore : ∀ q ∈ more ++ [terminated p], EndsInCrLf q :=
          List.forall_mem_append.mpr ⟨(List.forall_mem_cons.mp hall).2, List.forall_mem_singleton.mpr hsend⟩
        have hbuffer' : (received p buffer).length = recvBuffLen := by
          rw [received_length hp (hbuffer ▸ hlen), hbuffer]
        apply hrest turns _ _ _ hturns' hbuffer' (cString_received p buffer) hsend (by simp) hmore
        simpa using hprefix

theorem not_prefix_of_not_clean {fd : Int} (hfd : 0 < fd) {payloads : List Bytes} {torn : Bytes}
    (htorn : Torn torn) (hfit : ∀ p ∈ payloads, p.length ≤ recvBuffLen)
    (htail : ∀ lo hi part, torn = lo :: hi :: part → decodeLen lo hi ≤ recvBuffLen) :
    ∀ (buffer cmd : Bytes), ¬CleanFrom payloads torn → buffer.length = recvBuffLen →
      cString buffer = some cmd → EndsInCrLf cmd →
      ¬ served fd (payloads.length + 1) payloads torn buffer <+: commandsOf payloads := by
  induction payloads with
  | nil =>
      intro buffer cmd hclean hbuffer hcmd _ hprefix
      obtain ⟨r, next, hread, herr, hnext⟩ := readCmd_of_harmful htorn hclean (hbuffer ▸ htail) hcmd
      have hturn := clientTurn_of_read fd hread herr hnext
      rw [served, List.length_nil, Nat.zero_add, List.replicate_one, List.flatMap_nil, List.nil_append,
        clientProcess_dispatched, hturn] at hprefix
      simp [commandsOf] at hprefix
  | cons p payloads ih =>
      intro buffer cmd hclean hbuffer hcmd hend hprefix
      have hfit' : ∀ q ∈ payloads, q.length ≤ recvBuffLen := fun q hq => hfit q (List.mem_cons_of_mem p hq)
      by_cases hp : p = []
      · subst hp
        rw [List.length_cons, served_empty hfd hbuffer hcmd hend] at hprefix
        apply not_prefix_of_stale hfd hfit' _ [cmd] _ _ (Nat.le_succ payloads.length) hbuffer hcmd hend
          (List.cons_ne_nil cmd []) (fun s hs => List.mem_singleton.mp hs ▸ hend)
        simpa [commandsOf] using hprefix
      · have hlen : p.length ≤ recvBuffLen := hfit p List.mem_cons_self
        have hpend : EndsInCrLf (terminated p) ∧ ¬CleanFrom payloads torn := by
          by_contra hnot
          exact hclean ⟨hp, fun ha => by_contra fun hc => hnot ⟨ha, hc⟩⟩
        rw [List.length_cons, served_frame hfd hp hlen hbuffer, if_pos hpend.1, commandsOf_cons hp,
          List.prefix_cons_inj] at hprefix
        have hbuffer' : (received p buffer).length = recvBuffLen := by
          rw [received_length hp (hbuffer ▸ hlen), hbuffer]
        exact ih hfit' _ _ hpend.2 hbuffer' (cString_received p buffer) hpend.1 hprefix

/-! ### The streams read in isolation -/

/-- A clean session delivers the commands in order: behind a payload that does not end in CR LF, `deliver` has
stopped too. -/
theorem deliver_prefix_of_clean {fd : Int} {payloads : List Bytes} {torn : Bytes}
    (hclean : CleanFrom payloads torn) (turns : List Turn) :
    deliver fd turns payloads <+: commandsOf payloads := by
  induction payloads generalizing turns with
  | nil => cases turns <;> simp [deliver]
  | cons p payloads ih =>
      cases turns with
      | nil => simp [deliver]
      | cons t ts =>
          rw [deliver, commandsOf_cons hclean.1]
          split
          · rw [List.prefix_cons_inj]
            split
            · rename_i hrun
              have hend : EndsInCrLf (terminated p) := by
                by_contra hnot
                exact answer_of_not_crLf hnot hrun
              exact ih (hclean.2 hend) ts
            · exact List.nil_prefix
          · exact List.nil_prefix

/-- **Dispatch isolation.** The session dispatches exactly commands of the stream, in order and whatever the
buffer held, if and only if the stream is clean. -/
theorem isolated_iff_clean {fd : Int} (hfd : 0 < fd) {stream : Bytes}
    (hannounced : ∀ n ∈ announced stream, n ≤ recvBuffLen) : Isolated fd stream ↔ Clean stream := by
  obtain ⟨hstream, htorn, _⟩ := stream_eq stream
  have hfit := length_le_of_announced hannounced
  constructor
  · intro hisolated
    by_contra hclean
    have hcr : EndsInCrLf [13, 10] := by decide
    have hcmd : cString ([13, 10] ++ 0 :: List.replicate 1021 0) = some [13, 10] := cString_append_nul _ _
    have hbuffer : ([13, 10] ++ 0 :: List.replicate 1021 0 : Bytes).length = recvBuffLen := by
      simp only [List.length_append, List.length_cons, List.length_nil, List.length_replicate]
      rfl
    apply not_prefix_of_not_clean hfd htorn hfit (tail_le_of_announced hannounced) _ _ hclean hbuffer hcmd hcr
    rw [served, ← hstream]
    exact hisolated.1 _ _ hbuffer
  · intro hclean
    have hrun := clientProcess_of_clean fd hclean htorn hfit
    rw [← hstream] at hrun
    constructor
    · intro turns buffer hbuffer
      rw [hrun turns buffer hbuffer]
      exact deliver_prefix_of_clean hclean turns
    · intro turns buffer buffer' hbuffer hbuffer'
      rw [hrun turns buffer hbuffer, hrun turns buffer' hbuffer']

theorem isolated_two_commands :
    Isolated 4 ([ascii "CheckKey\r\n" ++ [0], ascii "KillProcess\r\n" ++ [0]].flatMap frame) := by
  have hlen : ∀ p ∈ [ascii "CheckKey\r\n" ++ [0], ascii "KillProcess\r\n" ++ [0]], p.length < 65536 := by decide
  have hframes := frames_flatMap_append hlen torn_nil
  have htail := tail_flatMap_append hlen torn_nil
  rw [List.append_nil] at hframes htail
  refine (isolated_iff_clean (by decide) ?_).mpr ?_
  · rw [announced_flatMap hlen]
    decide
  · rw [Clean, hframes, htail]
    exact ⟨by decide, fun _ => ⟨by decide, fun _ => trivial⟩⟩

/-- A command followed by a frame of length zero is dispatched twice. -/
theorem empty_frame_dispatches_again :
    (∀ n ∈ announced ([ascii "CheckKey\r\n" ++ [0], []].flatMap frame), n ≤ recvBuffLen) ∧
      (clientProcess 4 true [servedTurn, servedTurn] ([ascii "CheckKey\r\n" ++ [0], []].flatMap frame)
          (List.replicate recvBuffLen 0)).dispatched = [ascii "CheckKey\r\n", ascii "CheckKey\r\n"] ∧
      ¬Isolated 4 ([ascii "CheckKey\r\n" ++ [0], []].flatMap frame) := by
  have hlen : ∀ p ∈ [ascii "CheckKey\r\n" ++ [0], []], p.length < 65536 := by decide
  have hbuffer : (List.replicate recvBuffLen (0 : UInt8)).length = recvBuffLen := List.length_replicate
  have htext : terminated (ascii "CheckKey\r\n" ++ [0]) = ascii "CheckKey\r\n" := by decide
  have hend : EndsInCrLf (terminated (ascii "CheckKey\r\n" ++ [0])) := by decide
  have hrun : served 4 2 [ascii "CheckKey\r\n" ++ [0], []] [] (List.replicate recvBuffLen 0) =
      [ascii "CheckKey\r\n", ascii "CheckKey\r\n"] := by
    have hreceived : (received (ascii "CheckKey\r\n" ++ [0]) (List.replicate recvBuffLen 0)).length = recvBuffLen := by
      rw [received_length (by decide) (by rw [hbuffer]; decide), hbuffer]
    rw [served_frame (by decide) (by decide) (by decide) hbuffer, if_pos hend,
      served_empty (by decide) hreceived (cString_received _ _) hend, htext]
    rfl
  rw [served, List.append_nil] at hrun
  refine ⟨?_, hrun, fun hisolated => ?_⟩
  · rw [announced_flatMap hlen]
    decide
  · have hprefix := hisolated.1 (List.replicate 2 servedTurn) _ hbuffer
    have hframes := frames_flatMap_append hlen torn_nil
    rw [List.append_nil] at hframes
    rw [hrun, hframes] at hprefix
    exact absurd hprefix (by decide)

end RemoteCtrl
