import RemoteCtrl.Session.Dispatch

/-!
# The session of a child process

The loop of the child in `CreateClientProcess`, one turn at a time: `ReadCmd` into the one receive buffer,
`HandleCmd` on the string found there, `SendResult` of the answer. A turn carries what the system does
during it, so a list of turns is a run of the loop and the loop is structural in it. The session records
the strings handed to `HandleCmd` and the bytes put on the connection.
-/

namespace RemoteCtrl

open CProgram CProgram.Framing

/-- `spare` is how far the splitting loop can run over its array in this turn without ending the process. -/
structure Turn where
  read : ReadScript
  spare : Nat
  dl : Option TaskLib
  head : SendOutcome
  body : SendOutcome

/-- Where the child stands: at the top of its loop, behind it on the way to `exit(0)`, in a system call that
does not return, or stopped. -/
inductive Status
  | running
  | closed
  | waiting
  | dead (why : Fault)
  deriving DecidableEq, Repr

structure Session where
  dispatched : List Bytes
  output : Bytes
  input : Bytes
  buffer : Bytes
  status : Status
  deriving DecidableEq, Repr

/-- `HandleCmd` and `SendResult` on a command: the bytes sent and where the loop is then. -/
def answer (fd : Int) (t : Turn) (cmd : Bytes) : Bytes × Status :=
  match handleCmd t.spare t.dl cmd >>= sendResult fd t.head t.body with
  | .ret (err, output) => (output, if err ≤ 0 then .closed else .running)
  | .blocked => ([], .waiting)
  | .fault why => ([], .dead why)

/-- One turn of the loop. A call that does not return leaves the input and the buffer as they were. -/
def clientTurn (fd : Int) (closed : Bool) (t : Turn) (input buffer : Bytes) : Session :=
  match readCmd closed t.read input buffer with
  | .blocked => ⟨[], [], input, buffer, .waiting⟩
  | .fault why => ⟨[], [], input, buffer, .dead why⟩
  | .ret r =>
      if r.err ≤ 0 then ⟨[], [], r.input, r.buffer, .closed⟩
      else
        match cString r.buffer with
        -- `strlen` runs over the end of the buffer
        | none => ⟨[], [], r.input, r.buffer, .dead .outOfBounds⟩
        | some cmd => ⟨[cmd], (answer fd t cmd).1, r.input, r.buffer, (answer fd t cmd).2⟩

def Session.andThen (first second : Session) : Session :=
  { second with
    dispatched := first.dispatched ++ second.dispatched
    output := first.output ++ second.output }

def clientProcess (fd : Int) (closed : Bool) : List Turn → Bytes → Bytes → Session
  | [], input, buffer => ⟨[], [], input, buffer, .running⟩
  | t :: ts, input, buffer =>
      let s := clientTurn fd closed t input buffer
      match s.status with
      | .running => s.andThen (clientProcess fd closed ts s.input s.buffer)
      | _ => s

/-! ### Running the loop -/

variable {fd : Int} {closed : Bool} {t : Turn} {ts : List Turn} {input buffer : Bytes}

theorem clientProcess_continue {s : Session} (hturn : clientTurn fd closed t input buffer = s)
    (hrun : s.status = .running) :
    clientProcess fd closed (t :: ts) input buffer = s.andThen (clientProcess fd closed ts s.input s.buffer) := by
  simp only [clientProcess, hturn, hrun]

theorem clientProcess_stop {s : Session} (hturn : clientTurn fd closed t input buffer = s)
    (hstop : s.status ≠ .running) : clientProcess fd closed (t :: ts) input buffer = s := by
  simp only [clientProcess, hturn]

theorem clientProcess_dispatched :
    (clientProcess fd closed (t :: ts) input buffer).dispatched =
      (clientTurn fd closed t input buffer).dispatched ++
        (if (clientTurn fd closed t input buffer).status = .running then
          (clientProcess fd closed ts (clientTurn fd closed t input buffer).input
            (clientTurn fd closed t input buffer).buffer).dispatched
        else []) := by
  by_cases hrun : (clientTurn fd closed t input buffer).status = .running
  · rw [clientProcess_continue rfl hrun, if_pos hrun]
    rfl
  · rw [clientProcess_stop rfl hrun, if_neg hrun, List.append_nil]

variable (fd) in
theorem clientTurn_of_read {r : ReadReturn} {cmd : Bytes} (hread : readCmd closed t.read input buffer = .ret r)
    (herr : 0 < r.err) (hcmd : cString r.buffer = some cmd) :
    clientTurn fd closed t input buffer =
      ⟨[cmd], (answer fd t cmd).1, r.input, r.buffer, (answer fd t cmd).2⟩ := by
  simp only [clientTurn, hread]
  rw [if_neg (by omega), hcmd]

theorem answer_of_not_crLf {cmd : Bytes} (h : ¬EndsInCrLf cmd) : (answer fd t cmd).2 ≠ .running := by
  simp [answer, handleCmd_of_not_crLf h]

theorem answer_of_reply {cmd reply : Bytes} (hfd : 0 < fd) (hhead : t.head = .full) (hbody : t.body = .full)
    (hhandle : handleCmd t.spare t.dl cmd = .ret (some reply)) (hlen : reply.length + 1 < 65536) :
    answer fd t cmd = (wire reply, .running) := by
  have hsend : sendResult fd .full .full (some reply) = .ret (2, wire reply) := by
    rw [sendResult_some hfd, sendCmd_full hlen]
  simp [answer, hhandle, hhead, hbody, hsend]

/-- `SendResult` returns 0 when there is nothing to send, and the loop takes that for an error. -/
theorem answer_of_null {cmd : Bytes} (hfd : 0 < fd) (hhandle : handleCmd t.spare t.dl cmd = .ret none) :
    answer fd t cmd = ([], .closed) := by
  have hsend : sendResult fd t.head t.body none = .ret (0, []) := by
    rw [sendResult, Outcome.require_of hfd, Outcome.ret_bind, Outcome.pure_eq]
  simp [answer, hhandle, hsend]

variable (fd closed) in
theorem clientTurn_frame (hquiet : t.read.Quiet) {payload : Bytes} (hne : payload ≠ [])
    (hlen : payload.length < 65536) (hfit : payload.length ≤ buffer.length) (rest : Bytes) :
    clientTurn fd closed t (frame payload ++ rest) buffer =
      ⟨[terminated payload], (answer fd t (terminated payload)).1, rest, received payload buffer,
        (answer fd t (terminated payload)).2⟩ := by
  have hpos : 0 < payload.length := List.length_pos_iff.mpr hne
  have hread := readCmd_frame hquiet closed hne hlen hfit rest
  exact clientTurn_of_read fd hread (by simpa using hpos) (cString_received payload buffer)

end RemoteCtrl
