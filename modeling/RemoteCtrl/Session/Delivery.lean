import RemoteCtrl.Session.Turns

/-!
# What a positive return of `SendCmd` is worth

`SendCmd` returns what its first `send` returned, and the length it announces has 16 bits. So it reports a
delivery whatever became of the string itself. It is right about it exactly when both calls transferred all
they were given and the length fits, and a session goes on behind whole replies only exactly when that holds
of every reply.
-/

namespace RemoteCtrl

open CProgram CProgram.Framing CProgram.Transition

/-- How many of `len` bytes a `send` transfers. -/
def SendOutcome.sent : SendOutcome → Nat → Nat
  | .full, len => len
  | .short count, len => min count len
  | .error, _ => 0
  | .sigpipe, _ => 0

/-- A connection that carries a string as one frame: its length with the NUL, and all of it. -/
def Carries (out s : Bytes) : Prop := ∃ lo hi, decodeLen lo hi = s.length + 1 ∧ out = lo :: hi :: (s ++ [0])

/-- A positive return of `SendCmd` means that the whole frame is on the connection. -/
def ReportsDelivery (first second : SendOutcome) (s : Bytes) : Prop :=
  ∀ err out, sendCmd first second s = .ret (err, out) → 0 < err → Carries out s

/-- The first call transfers nothing, the second one stops the process, or both transfer everything and the
length fits 16 bits. -/
def TransfersAll (first second : SendOutcome) (s : Bytes) : Prop :=
  first.sent 2 = 0 ∨ second = .sigpipe ∨
    first.sent 2 = 2 ∧ second.sent (s.length + 1) = s.length + 1 ∧ s.length + 1 < 65536

/-! ### One call -/

theorem sent_le (outcome : SendOutcome) (len : Nat) : outcome.sent len ≤ len := by
  cases outcome with
  | full => exact Nat.le_refl len
  | short count => exact Nat.min_le_right count len
  | error | sigpipe => exact Nat.zero_le len

theorem send_of_ne {outcome : SendOutcome} (h : outcome ≠ .sigpipe) (data : Bytes) :
    ∃ err : Int, send outcome data = .ret (err, data.take (outcome.sent data.length)) ∧
      (0 < err ↔ 0 < outcome.sent data.length) := by
  cases outcome with
  | full =>
      refine ⟨data.length, ?_, Int.natCast_pos⟩
      rw [send, SendOutcome.sent, List.take_length]
  | short count =>
      refine ⟨(data.take count).length, ?_, ?_⟩
      · rw [send, SendOutcome.sent, ← List.take_eq_take_min]
      · rw [Int.natCast_pos, List.length_take, SendOutcome.sent]
  | error =>
      refine ⟨-1, ?_, ?_⟩
      · rw [send, SendOutcome.sent, List.take_zero]
      · rw [SendOutcome.sent]
        omega
  | sigpipe => contradiction

/-- What is on the connection when `SendCmd` returns a positive value. -/
def sendCmdOutput (first second : SendOutcome) (s : Bytes) : Bytes :=
  let data := (s ++ [0]).take ((s.length + 1) % 65536)
  (encodeLen ((s.length + 1) % 65536)).take (first.sent 2) ++ data.take (second.sent data.length)

theorem sendCmd_pos_iff {first second : SendOutcome} {s out : Bytes} :
    (∃ err, sendCmd first second s = .ret (err, out) ∧ 0 < err) ↔
      0 < first.sent 2 ∧ second ≠ .sigpipe ∧ out = sendCmdOutput first second s := by
  by_cases hfirst : first = .sigpipe
  · subst hfirst
    simp [sendCmd, send, SendOutcome.sent]
  · obtain ⟨err, hhead, herr⟩ := send_of_ne hfirst (encodeLen ((s.length + 1) % 65536))
    have htwo : (encodeLen ((s.length + 1) % 65536)).length = 2 := rfl
    rw [htwo] at hhead herr
    simp only [sendCmd, hhead, Outcome.ret_bind]
    by_cases hneg : err < 0
    · rw [if_pos hneg]
      refine iff_of_false (fun hret => ?_) fun hsent => ?_
      · obtain ⟨e, hret, hpos⟩ := hret
        rw [Outcome.pure_eq, Outcome.ret.injEq, Prod.mk.injEq] at hret
        omega
      · have hpos := herr.mpr hsent.1
        omega
    · simp only [if_neg hneg]
      by_cases hsecond : second = .sigpipe
      · subst hsecond
        simp [send]
      · obtain ⟨err', hbody, -⟩ := send_of_ne hsecond ((s ++ [0]).take ((s.length + 1) % 65536))
        simp only [hbody, Outcome.ret_bind, Outcome.pure_eq, Outcome.ret.injEq, Prod.mk.injEq]
        constructor
        · intro hret
          obtain ⟨e, ⟨rfl, hout⟩, hpos⟩ := hret
          exact ⟨herr.mp hpos, hsecond, hout.symm⟩
        · intro hsent
          exact ⟨err, ⟨rfl, hsent.2.2.symm⟩, herr.mpr hsent.1⟩

/-- The output is the whole frame only if nothing is missing: its length says so. -/
theorem carries_sendCmdOutput {first second : SendOutcome} {s : Bytes} :
    Carries (sendCmdOutput first second s) s ↔
      first.sent 2 = 2 ∧ second.sent (s.length + 1) = s.length + 1 ∧ s.length + 1 < 65536 := by
  have hfirst := sent_le first 2
  have hall : (s ++ [0]).length = s.length + 1 := by simp
  constructor
  · intro hcarries
    obtain ⟨lo, hi, hlen, hout⟩ := hcarries
    have hlt : s.length + 1 < 65536 := hlen ▸ decodeLen_lt lo hi
    have hmod : (s.length + 1) % 65536 = s.length + 1 := Nat.mod_eq_of_lt hlt
    have hsecond := sent_le second (s.length + 1)
    have hcount := congrArg List.length hout
    simp only [sendCmdOutput, hmod, List.take_of_length_le hall.le, hall, List.length_append, List.length_take,
      List.length_cons, List.length_nil, encodeLen] at hcount
    omega
  · intro hsent
    obtain ⟨htwo, hbody, hlt⟩ := hsent
    have hmod : (s.length + 1) % 65536 = s.length + 1 := Nat.mod_eq_of_lt hlt
    refine ⟨_, _, decodeLen_encodeLen hlt, ?_⟩
    simp only [sendCmdOutput, hmod, htwo, List.take_of_length_le hall.le, hall, hbody]
    rfl

theorem reportsDelivery_iff (first second : SendOutcome) (s : Bytes) :
    ReportsDelivery first second s ↔ TransfersAll first second s := by
  have hreturns : ReportsDelivery first second s ↔
      (0 < first.sent 2 → second ≠ .sigpipe → Carries (sendCmdOutput first second s) s) := by
    constructor
    · intro hreports hfirst hsecond
      obtain ⟨err, hret, herr⟩ := sendCmd_pos_iff.mpr ⟨hfirst, hsecond, rfl⟩
      exact hreports err _ hret herr
    · intro hcarries err out hret herr
      obtain ⟨hfirst, hsecond, rfl⟩ := sendCmd_pos_iff.mp ⟨err, hret, herr⟩
      exact hcarries hfirst hsecond
  rw [hreturns, carries_sendCmdOutput, TransfersAll]
  by_cases hsecond : second = .sigpipe
  · simp [hsecond]
  · simp only [hsecond, ne_eq, not_false_eq_true, true_imp_iff, false_or]
    omega

/-! ### The replies of a session -/

/-- When the loop goes on behind a turn, the reply of this turn is on the connection, whole. -/
def ReplyDelivered (fd : Int) (closed : Bool) (s : Reading) (t : Turn) : Prop :=
  (clientTurn fd closed t s.input s.buffer).status = .running →
    ∃ cmd reply, (clientTurn fd closed t s.input s.buffer).dispatched = [cmd] ∧
      handleCmd t.spare t.dl cmd = .ret (some reply) ∧ Carries (clientTurn fd closed t s.input s.buffer).output reply

def ReplyTransferred (closed : Bool) (s : Reading) (t : Turn) : Prop :=
  ∀ r cmd reply, readCmd closed t.read s.input s.buffer = .ret r → 0 < r.err → cString r.buffer = some cmd →
    handleCmd t.spare t.dl cmd = .ret (some reply) → TransfersAll t.head t.body reply

theorem answer_running_iff {fd : Int} (hfd : 0 < fd) {t : Turn} {cmd out : Bytes} :
    answer fd t cmd = (out, .running) ↔
      ∃ reply err, handleCmd t.spare t.dl cmd = .ret (some reply) ∧ sendCmd t.head t.body reply = .ret (err, out) ∧
        0 < err := by
  cases hhandle : handleCmd t.spare t.dl cmd with
  | blocked => simp [answer, hhandle]
  | fault why => simp [answer, hhandle]
  | ret result =>
      cases result with
      | none => simp [answer_of_null hfd hhandle]
      | some reply =>
          simp only [answer, hhandle, Outcome.ret_bind, sendResult_some hfd, Outcome.ret.injEq, Option.some.injEq,
            exists_and_left, exists_eq_left']
          cases hsend : sendCmd t.head t.body reply with
          | blocked => simp
          | fault why => simp
          | ret sent =>
              obtain ⟨err, got⟩ := sent
              by_cases herr : err ≤ 0
              · simp [herr]
              · simp [herr, Int.not_le.mp herr]

theorem replyDelivered_iff {fd : Int} (hfd : 0 < fd) {closed : Bool} (s : Reading) (t : Turn) :
    ReplyDelivered fd closed s t ↔ ReplyTransferred closed s t := by
  constructor
  · intro hdelivered r cmd reply hread herr hcmd hhandle
    rw [← reportsDelivery_iff]
    intro err out hsend hpos
    have hturn := clientTurn_of_read fd hread herr hcmd
    rw [(answer_running_iff hfd).mpr ⟨reply, err, hhandle, hsend, hpos⟩] at hturn
    rw [ReplyDelivered, hturn] at hdelivered
    obtain ⟨cmd', reply', hsame, hreply, hcarries⟩ := hdelivered rfl
    obtain rfl : cmd = cmd' := List.singleton_inj.mp hsame
    rw [hhandle, Outcome.ret.injEq, Option.some.injEq] at hreply
    exact hreply ▸ hcarries
  · intro htransferred hrun
    have hstep : clientStep fd closed s t = some _ := if_pos hrun
    obtain ⟨r, cmd, hread, herr, hcmd, hanswer, -⟩ := clientStep_eq_some.mp hstep
    obtain ⟨reply, err, hhandle, hsend, hpos⟩ := (answer_running_iff hfd).mp (Prod.ext rfl hanswer)
    have htransfers := htransferred r cmd reply hread herr hcmd hhandle
    rw [clientTurn_of_read fd hread herr hcmd]
    exact ⟨cmd, reply, rfl, hhandle, (reportsDelivery_iff _ _ reply).mpr htransfers err _ hsend hpos⟩

/-- **Reported deliveries.** `SendCmd` is right about a delivery exactly when everything has been transferred, and
along a session every reply behind which the loop goes on is whole exactly when that holds of each. -/
theorem deliveries_iff_transferred {fd : Int} (hfd : 0 < fd) (closed : Bool) :
    (∀ first second s, ReportsDelivery first second s ↔ TransfersAll first second s) ∧
      ∀ s turns, Along (clientStep fd closed) (ReplyDelivered fd closed) s turns ↔
        Along (clientStep fd closed) (ReplyTransferred closed) s turns :=
  ⟨reportsDelivery_iff, along_congr (replyDelivered_iff hfd)⟩

theorem replyTransferred_servedTurn (closed : Bool) (s : Reading) : ReplyTransferred closed s servedTurn := by
  intro r cmd reply hread herr hcmd hhandle
  obtain ⟨name, more, hargs⟩ := argList_splitOnP cmdargSlots cmd
  rw [handleCmd_eq, splitArgs_command, hargs] at hhandle
  split at hhandle
  · split at hhandle
    · obtain rfl : [] = reply := Option.some.inj (Outcome.ret.inj hhandle)
      exact .inr (.inr (by decide))
    · contradiction
  · contradiction

theorem deliveries_served :
    ReportsDelivery .full .full (ascii "ok") ∧
      Along (clientStep 4 true) (ReplyDelivered 4 true)
        ⟨wire (ascii "CheckKey\r\n") ++ wire (ascii "KillProcess\r\n"), List.replicate recvBuffLen 0⟩
        [servedTurn, servedTurn] := by
  obtain ⟨hreports, hsession⟩ := deliveries_iff_transferred (show (0 : Int) < 4 by decide) true
  refine ⟨(hreports .full .full (ascii "ok")).mpr (.inr (.inr (by decide))), (hsession _ _).mpr ?_⟩
  refine (along_trivial _ _).of_mem fun s t ht _ => ?_
  obtain rfl : t = servedTurn := by simpa using ht
  exact replyTransferred_servedTurn true s

/-- The second call fails, and `SendCmd` returns what the first one did: the length is sent, the string is not. -/
theorem failed_body_reported :
    sendCmd .full .error (ascii "ok") = .ret (2, [3, 0]) ∧ ¬ReportsDelivery .full .error (ascii "ok") := by
  have hsend : sendCmd .full .error (ascii "ok") = .ret (2, [3, 0]) := by decide
  refine ⟨hsend, fun hreports => ?_⟩
  obtain ⟨lo, hi, -, hout⟩ := hreports 2 [3, 0] hsend (by decide)
  have hcount := congrArg List.length hout
  exact absurd hcount (by simp [ascii])

end RemoteCtrl
