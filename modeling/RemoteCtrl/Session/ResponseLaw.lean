import RemoteCtrl.Session.Process
import RemoteCtrl.Session.RoundTrip

/-!
# Requests and responses

A client sends commands and keeps the connection open. An `Exchange` is one of them together with the turn
that serves it: nothing fails, the command is well formed, and `HandleCmd` returns its reply, a string or
NULL. The session should answer every command and go on waiting. It does so exactly as long as no task
answers NULL: `SendResult` reports that nothing had to be sent by returning 0, and the loop leaves on every
result that is not positive.
-/

namespace RemoteCtrl

open CProgram CProgram.Framing

structure Exchange where
  turn : Turn
  cmd : Bytes
  reply : Option Bytes
  quiet : turn.read.Quiet
  head_full : turn.head = .full
  body_full : turn.body = .full
  sendable : Sendable cmd
  accepted : Accepted cmd
  handled : handleCmd turn.spare turn.dl cmd = .ret reply
  reply_le : ∀ r, reply = some r → r.length ≤ 1023

variable {fd : Int}

def requests (es : List Exchange) : Bytes := es.flatMap fun e => wire e.cmd

def responses (es : List Exchange) : Bytes := (es.filterMap Exchange.reply).flatMap wire

def serve (fd : Int) (es : List Exchange) (more : List Turn) (buffer : Bytes) : Session :=
  clientProcess fd false (es.map Exchange.turn ++ more) (requests es) buffer

/-- Every command is dispatched once and in order, the replies come back in the same order, and the child
waits for the next command. -/
def ResponseLaw (fd : Int) (es : List Exchange) (more : List Turn) (buffer : Bytes) : Prop :=
  (serve fd es more buffer).dispatched = es.map Exchange.cmd ∧
    (serve fd es more buffer).output = responses es ∧ (serve fd es more buffer).status = .waiting

/-! ### One exchange -/

variable (fd) in
theorem clientTurn_exchange (e : Exchange) {buffer : Bytes} (hbuffer : buffer.length = recvBuffLen)
    (rest : Bytes) :
    ∃ buffer', buffer'.length = recvBuffLen ∧
      clientTurn fd false e.turn (wire e.cmd ++ rest) buffer =
        ⟨[e.cmd], (answer fd e.turn e.cmd).1, rest, buffer', (answer fd e.turn e.cmd).2⟩ := by
  obtain ⟨r, hread, herr, hstring, hinput, hlen⟩ := readCmd_wire e.quiet false e.sendable hbuffer rest
  refine ⟨r.buffer, hlen, ?_⟩
  rw [clientTurn_of_read fd hread herr hstring, hinput]

theorem answer_exchange_some (hfd : 0 < fd) {e : Exchange} {reply : Bytes} (hreply : e.reply = some reply) :
    answer fd e.turn e.cmd = (wire reply, .running) := by
  have hhandle : handleCmd e.turn.spare e.turn.dl e.cmd = .ret (some reply) := by
    rw [e.handled, hreply]
  have hlen : reply.length + 1 < 65536 := by
    have := e.reply_le reply hreply
    omega
  exact answer_of_reply hfd e.head_full e.body_full hhandle hlen

theorem answer_exchange_none (hfd : 0 < fd) {e : Exchange} (hreply : e.reply = none) :
    answer fd e.turn e.cmd = ([], .closed) := by
  apply answer_of_null hfd
  rw [e.handled, hreply]

theorem serve_cons_some (hfd : 0 < fd) {e : Exchange} {reply : Bytes} (hreply : e.reply = some reply)
    (es : List Exchange) (more : List Turn) {buffer : Bytes} (hbuffer : buffer.length = recvBuffLen) :
    ∃ buffer', buffer'.length = recvBuffLen ∧
      (serve fd (e :: es) more buffer).dispatched = e.cmd :: (serve fd es more buffer').dispatched ∧
      (serve fd (e :: es) more buffer).output = wire reply ++ (serve fd es more buffer').output ∧
      (serve fd (e :: es) more buffer).status = (serve fd es more buffer').status := by
  obtain ⟨buffer', hlen, hturn⟩ := clientTurn_exchange fd e hbuffer (requests es)
  rw [answer_exchange_some hfd hreply] at hturn
  have hrun : serve fd (e :: es) more buffer =
      Session.andThen ⟨[e.cmd], wire reply, requests es, buffer', .running⟩ (serve fd es more buffer') :=
    clientProcess_continue hturn rfl
  refine ⟨buffer', hlen, ?_, ?_, ?_⟩
  · rw [hrun]
    rfl
  · rw [hrun]
    rfl
  · rw [hrun]
    rfl

theorem serve_cons_none (hfd : 0 < fd) {e : Exchange} (hreply : e.reply = none) (es : List Exchange)
    (more : List Turn) {buffer : Bytes} (hbuffer : buffer.length = recvBuffLen) :
    (serve fd (e :: es) more buffer).dispatched = [e.cmd] ∧ (serve fd (e :: es) more buffer).output = [] ∧
      (serve fd (e :: es) more buffer).status = .closed := by
  obtain ⟨buffer', _, hturn⟩ := clientTurn_exchange fd e hbuffer (requests es)
  rw [answer_exchange_none hfd hreply] at hturn
  have hrun : serve fd (e :: es) more buffer = ⟨[e.cmd], [], requests es, buffer', .closed⟩ :=
    clientProcess_stop hturn (by simp)
  rw [hrun]
  exact ⟨rfl, rfl, rfl⟩

/-! ### Whole sessions -/

theorem serve_of_replies (hfd : 0 < fd) {idle : Turn} (hidle : idle.read.Quiet) (more : List Turn)
    {es : List Exchange} (h : ∀ e ∈ es, e.reply ≠ none) :
    ∀ buffer, buffer.length = recvBuffLen → ResponseLaw fd es (idle :: more) buffer := by
  induction es with
  | nil =>
      intro buffer _
      have hturn : clientTurn fd false idle [] buffer = ⟨[], [], [], buffer, .waiting⟩ := by
        simp only [clientTurn, readCmd_wait hidle]
      have hrun : serve fd [] (idle :: more) buffer = ⟨[], [], [], buffer, .waiting⟩ :=
        clientProcess_stop hturn (by simp)
      rw [ResponseLaw, hrun]
      exact ⟨rfl, rfl, rfl⟩
  | cons e es ih =>
      intro buffer hbuffer
      obtain ⟨reply, hreply⟩ := Option.ne_none_iff_exists'.mp (h e List.mem_cons_self)
      obtain ⟨buffer', hlen, hdispatched, houtput, hstatus⟩ :=
        serve_cons_some hfd hreply es (idle :: more) hbuffer
      obtain ⟨ihdispatched, ihoutput, ihstatus⟩ := ih (fun q hq => h q (List.mem_cons_of_mem e hq)) buffer' hlen
      refine ⟨?_, ?_, ?_⟩
      · rw [hdispatched, ihdispatched, List.map_cons]
      · rw [houtput, ihoutput, responses, responses, List.filterMap_cons_some hreply, List.flatMap_cons]
      · rw [hstatus, ihstatus]

theorem serve_of_null (hfd : 0 < fd) (more : List Turn) {es : List Exchange} (h : ∃ e ∈ es, e.reply = none) :
    ∀ buffer, buffer.length = recvBuffLen → (serve fd es more buffer).status = .closed := by
  induction es with
  | nil =>
      obtain ⟨e, he, _⟩ := h
      exact absurd he List.not_mem_nil
  | cons e es ih =>
      intro buffer hbuffer
      cases hreply : e.reply with
      | none => exact (serve_cons_none hfd hreply es more hbuffer).2.2
      | some reply =>
          obtain ⟨buffer', hlen, _, _, hstatus⟩ := serve_cons_some hfd hreply es more hbuffer
          obtain ⟨q, hq, hnull⟩ := h
          have hqes : q ∈ es := by
            rcases List.mem_cons.mp hq with rfl | hq
            · rw [hreply] at hnull
              exact absurd hnull (Option.some_ne_none reply)
            · exact hq
          rw [hstatus, ih ⟨q, hqes, hnull⟩ buffer' hlen]

/-- **Requests and responses.** The law holds of a session if and only if no task of it answers NULL. -/
theorem responseLaw_iff_replies (hfd : 0 < fd) {idle : Turn} (hidle : idle.read.Quiet) (more : List Turn)
    (es : List Exchange) {buffer : Bytes} (hbuffer : buffer.length = recvBuffLen) :
    ResponseLaw fd es (idle :: more) buffer ↔ ∀ e ∈ es, e.reply ≠ none := by
  constructor
  · intro hlaw e he hnull
    have hclosed := serve_of_null hfd (idle :: more) ⟨e, he, hnull⟩ buffer hbuffer
    rw [hlaw.2.2] at hclosed
    exact absurd hclosed (by decide)
  · intro h
    exact serve_of_replies hfd hidle more h buffer hbuffer

/-! ### A session with `CheckKey` and `KillProcess` -/

def remoteTask : TaskLib := fun name =>
  if name = ascii "CheckKey" then some (checkKey true)
  else if name = ascii "KillProcess" then some killProcess else none

def remoteTurn : Turn :=
  { read := ⟨(0, 0), [], []⟩, spare := 0, dl := some remoteTask, head := .full, body := .full }

def checkKeyExchange : Exchange where
  turn := remoteTurn
  cmd := ascii "CheckKey\r\n"
  reply := some (ascii "checkkey:result=0:message=seuccessful\r\n")
  quiet := ⟨fun _ he => absurd he List.not_mem_nil, fun _ he => absurd he List.not_mem_nil⟩
  head_full := rfl
  body_full := rfl
  sendable := by decide
  accepted := by decide
  handled := by decide
  reply_le := fun r hr => by
    rw [← Option.some.inj hr]
    decide

def killProcessExchange : Exchange where
  turn := remoteTurn
  cmd := ascii "KillProcess\r\n"
  reply := none
  quiet := ⟨fun _ he => absurd he List.not_mem_nil, fun _ he => absurd he List.not_mem_nil⟩
  head_full := rfl
  body_full := rfl
  sendable := by decide
  accepted := by decide
  handled := by decide
  reply_le := fun _ hr => absurd hr.symm (Option.some_ne_none _)

theorem responseLaw_checkKey :
    ResponseLaw 4 [checkKeyExchange, checkKeyExchange] [remoteTurn] (List.replicate recvBuffLen 0) := by
  refine (responseLaw_iff_replies (by decide) checkKeyExchange.quiet [] _ List.length_replicate).mpr ?_
  intro e he
  have he : e = checkKeyExchange := by simpa using he
  subst he
  exact Option.some_ne_none _

/-- `KillProcess` ends the session, and the command behind it is never dispatched. -/
theorem killProcess_ends_session :
    (serve 4 [killProcessExchange, checkKeyExchange] [remoteTurn] (List.replicate recvBuffLen 0)).dispatched =
        [ascii "KillProcess\r\n"] ∧
      (serve 4 [killProcessExchange, checkKeyExchange] [remoteTurn]
        (List.replicate recvBuffLen 0)).status = .closed ∧
      ¬ResponseLaw 4 [killProcessExchange, checkKeyExchange] [remoteTurn] (List.replicate recvBuffLen 0) := by
  have hfd : (0 : Int) < 4 := by decide
  have hbuffer : (List.replicate recvBuffLen (0 : UInt8)).length = recvBuffLen := List.length_replicate
  have hnull : killProcessExchange.reply = none := rfl
  obtain ⟨hdispatched, _, hstatus⟩ := serve_cons_none hfd hnull [checkKeyExchange] [remoteTurn] hbuffer
  refine ⟨hdispatched, hstatus, fun hlaw => ?_⟩
  rw [hlaw.2.2] at hstatus
  exact absurd hstatus (by decide)

end RemoteCtrl
