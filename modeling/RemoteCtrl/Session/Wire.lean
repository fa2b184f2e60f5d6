import RemoteCtrl.Foundation.Frames

/-!
# Reading and writing frames on a connection

`readn`, `sendCmd` and `readCmd` of `RemoteCtrlService.c`, over a connection seen as the bytes the client
has sent that are not yet received, and whether it has closed its side behind them. What the system does
is an argument: the failing returns of `recv` before it transfers data, and the outcome of each `send`.
A host with 32-bit `int` and little-endian byte order is assumed, as on the platforms the makefile builds
for.
-/

namespace RemoteCtrl

open CProgram CProgram.Framing

def recvBuffLen : Nat := 1024

inductive Errno
  | EINTR
  | EAGAIN
  | ECHILD
  | other
  deriving DecidableEq, Repr

/-! ### System calls -/

/-- `recv` with `MSG_WAITALL`: everything asked for, or what there is once the client has closed its side;
it waits for ever for bytes that an open client does not send. -/
def recv (closed : Bool) (input : Bytes) (len : Nat) : Outcome (Bytes × Bytes) :=
  if len ≤ input.length ∨ closed then .ret (input.take len, input.drop len) else .blocked

inductive SendOutcome
  | full
  | short (count : Nat)
  | error
  | sigpipe
  deriving DecidableEq, Repr

def send : SendOutcome → Bytes → Outcome (Int × Bytes)
  | .full, data => .ret (data.length, data)
  | .short count, data => .ret ((data.take count).length, data.take count)
  | .error, _ => .ret (-1, [])
  | .sigpipe, _ => .fault .signal

/-! ### The functions -/

/-- `Readn`: the return value, the bytes received and the bytes still unread. `fails` are the values of
`errno` of the calls of `recv` that fail before one does not. -/
def readn (closed : Bool) : List Errno → Bytes → Nat → Outcome (Int × Bytes × Bytes)
  | [], input, len => do
      let (data, rest) ← recv closed input len
      return (data.length, data, rest)
  | .EINTR :: fails, input, len => readn closed fails input len
  | .EAGAIN :: _, _, _ => .fault .assertion
  | _ :: _, input, _ => .ret (-1, [], input)

def sendCmd (first second : SendOutcome) (buffer : Bytes) : Outcome (Int × Bytes) := do
  let head := (buffer.length + 1) % 65536
  let (err, header) ← send first (encodeLen head)
  if err < 0 then
    return (err, header)
  -- the result of the second call is dropped: `err` is still the first one's
  let (_, body) ← send second ((buffer ++ [0]).take head)
  if err < 0 then
    return (err, header ++ body)
  return (err, header ++ body)

/-- What happens around one call of `ReadCmd`: the indeterminate contents of `header`, and the failing
returns of `recv` while the header and while the body is awaited. -/
structure ReadScript where
  header : UInt8 × UInt8
  headerFails : List Errno
  bodyFails : List Errno

structure ReadReturn where
  err : Int
  buffer : Bytes
  input : Bytes
  deriving DecidableEq, Repr

def readBody (closed : Bool) (fails : List Errno) (cmdlen : Nat) (input buffer : Bytes) : Outcome ReadReturn := do
  let (err, body, rest) ← readn closed fails input cmdlen
  if err ≤ 0 then
    return ⟨err, buffer, rest⟩
  let buffer ← store buffer body
  let buffer ← storeAt buffer (cmdlen - 1) 0
  return ⟨err, buffer, rest⟩

def readCmd (closed : Bool) (script : ReadScript) (input buffer : Bytes) : Outcome ReadReturn := do
  let (err, data, rest) ← readn closed script.headerFails input 2
  if err ≤ 0 then
    return ⟨err, buffer, rest⟩
  -- a short read fills the first byte only
  let lo := data.getD 0 script.header.1
  let hi := data.getD 1 script.header.2
  let cmdlen := hi.toNat <<< 8 ||| lo.toNat
  if cmdlen > 0 then
    readBody closed script.bodyFails cmdlen rest buffer
  else
    return ⟨err, buffer, rest⟩

def sendResult (fd : Int) (first second : SendOutcome) : Option Bytes → Outcome (Int × Bytes)
  | none => do
      Outcome.require (fd > 0)
      return (0, [])
  | some result => do
      Outcome.require (fd > 0)
      sendCmd first second result

theorem sendResult_some {fd : Int} (hfd : 0 < fd) (first second : SendOutcome) (result : Bytes) :
    sendResult fd first second (some result) = sendCmd first second result := by
  rw [sendResult, Outcome.require_of hfd]
  rfl

/-! ### Interrupted calls are invisible -/

def Interrupted (fails : List Errno) : Prop := ∀ e ∈ fails, e = .EINTR

def ReadScript.Quiet (script : ReadScript) : Prop :=
  Interrupted script.headerFails ∧ Interrupted script.bodyFails

theorem readn_of_interrupted {fails : List Errno} (h : Interrupted fails) (closed : Bool) (input : Bytes)
    (len : Nat) : readn closed fails input len = readn closed [] input len := by
  induction fails with
  | nil => rfl
  | cons e fails ih =>
      have he : e = .EINTR := h e List.mem_cons_self
      subst he
      exact ih fun f hf => h f (List.mem_cons_of_mem _ hf)

theorem readn_append {fails : List Errno} (h : Interrupted fails) (closed : Bool) (data rest : Bytes) :
    readn closed fails (data ++ rest) data.length = .ret (data.length, data, rest) := by
  rw [readn_of_interrupted h, readn, recv, if_pos (by simp)]
  simp

/-- The client has closed its side in front of the last byte asked for: `readn` delivers what there is. -/
theorem readn_short {fails : List Errno} (h : Interrupted fails) {input : Bytes} {len : Nat}
    (hlen : input.length ≤ len) : readn true fails input len = .ret (input.length, input, []) := by
  rw [readn_of_interrupted h, readn, recv, if_pos (Or.inr rfl)]
  simp [List.take_of_length_le hlen, List.drop_of_length_le hlen]

theorem readn_nil {fails : List Errno} (h : Interrupted fails) (len : Nat) :
    readn true fails [] len = .ret (0, [], []) :=
  readn_short h (Nat.zero_le len)

/-! ### What a frame does to the buffer -/

def received (payload buffer : Bytes) : Bytes := payload.dropLast ++ 0 :: buffer.drop payload.length

theorem received_length {payload buffer : Bytes} (hne : payload ≠ []) (hfit : payload.length ≤ buffer.length) :
    (received payload buffer).length = buffer.length := by
  have hpos : 0 < payload.length := List.length_pos_iff.mpr hne
  simp only [received, List.length_append, List.length_dropLast, List.length_cons, List.length_drop]
  omega

theorem terminated_length_le (payload : Bytes) : (terminated payload).length ≤ payload.length :=
  (List.takeWhile_prefix _).length_le.trans (List.dropLast_prefix payload).length_le

theorem cString_received (payload buffer : Bytes) :
    cString (received payload buffer) = some (terminated payload) :=
  cString_append_nul _ _

theorem readBody_of_le {closed : Bool} {fails : List Errno} {cmdlen : Nat} {input data rest : Bytes} {err : Int}
    (hread : readn closed fails input cmdlen = .ret (err, data, rest)) (herr : err ≤ 0) (buffer : Bytes) :
    readBody closed fails cmdlen input buffer = .ret ⟨err, buffer, rest⟩ := by
  simp only [readBody, hread, Outcome.ret_bind]
  rw [if_pos herr, Outcome.pure_eq]

theorem readBody_eq {closed : Bool} {fails : List Errno} {cmdlen : Nat} {input body rest buffer : Bytes}
    {err : Int} (hread : readn closed fails input cmdlen = .ret (err, body, rest)) (herr : 0 < err) :
    readBody closed fails cmdlen input buffer =
      if body.length ≤ buffer.length ∧ cmdlen - 1 < buffer.length then
        .ret ⟨err, (body ++ buffer.drop body.length).set (cmdlen - 1) 0, rest⟩
      else .fault .outOfBounds := by
  have hnot : ¬ err ≤ 0 := Int.not_le.mpr herr
  simp only [readBody, hread, Outcome.ret_bind, if_neg hnot]
  by_cases hbody : body.length ≤ buffer.length
  · have hlen : (body ++ buffer.drop body.length).length = buffer.length := by
      rw [List.length_append, List.length_drop]
      omega
    rw [store_of_le hbody, Outcome.ret_bind, storeAt, hlen]
    by_cases hlast : cmdlen - 1 < buffer.length
    · rw [if_pos hlast, if_pos ⟨hbody, hlast⟩]
      rfl
    · rw [if_neg hlast, if_neg fun h => hlast h.2]
      rfl
  · rw [store, if_neg hbody, if_neg fun h => hbody h.1]
    rfl

theorem readCmd_of_le {closed : Bool} {script : ReadScript} {input data rest : Bytes} {err : Int}
    (hread : readn closed script.headerFails input 2 = .ret (err, data, rest)) (herr : err ≤ 0) (buffer : Bytes) :
    readCmd closed script input buffer = .ret ⟨err, buffer, rest⟩ := by
  simp only [readCmd, hread, Outcome.ret_bind]
  rw [if_pos herr, Outcome.pure_eq]

theorem readCmd_eq_readBody {closed : Bool} {script : ReadScript} {input data rest : Bytes} {err : Int} {n : Nat}
    (hread : readn closed script.headerFails input 2 = .ret (err, data, rest)) (herr : 0 < err)
    (hn : decodeLen (data.getD 0 script.header.1) (data.getD 1 script.header.2) = n) (hpos : 0 < n)
    (buffer : Bytes) : readCmd closed script input buffer = readBody closed script.bodyFails n rest buffer := by
  simp only [readCmd, hread, Outcome.ret_bind, shift_or_eq_decodeLen, hn]
  rw [if_neg (by omega), if_pos hpos]

/-- `readCmd` behind a header that makes `cmdlen` zero: the buffer stays as it is. -/
theorem readCmd_of_zero {closed : Bool} {script : ReadScript} {input data rest : Bytes} {err : Int}
    (hread : readn closed script.headerFails input 2 = .ret (err, data, rest)) (herr : 0 < err)
    (hzero : decodeLen (data.getD 0 script.header.1) (data.getD 1 script.header.2) = 0) (buffer : Bytes) :
    readCmd closed script input buffer = .ret ⟨err, buffer, rest⟩ := by
  simp only [readCmd, hread, Outcome.ret_bind, shift_or_eq_decodeLen, hzero]
  rw [if_neg (by omega), if_neg (by decide), Outcome.pure_eq]

theorem readCmd_frame_header {script : ReadScript} (hquiet : Interrupted script.headerFails) (closed : Bool)
    {payload : Bytes} (hne : payload ≠ []) (hlen : payload.length < 65536) (buffer rest : Bytes) :
    readCmd closed script (frame payload ++ rest) buffer =
      readBody closed script.bodyFails payload.length (payload ++ rest) buffer := by
  have hheader : readn closed script.headerFails (frame payload ++ rest) 2 =
      .ret (2, encodeLen payload.length, payload ++ rest) := by
    have := readn_append hquiet closed (encodeLen payload.length) (payload ++ rest)
    rwa [← List.append_assoc] at this
  exact readCmd_eq_readBody hheader (by decide) (decodeLen_encodeLen hlen) (List.length_pos_iff.mpr hne) buffer

/-- `readCmd` at a complete non-empty frame: exactly this frame is consumed, and the string in the buffer is
its payload, whatever the buffer held before. -/
theorem readCmd_frame {script : ReadScript} (hquiet : script.Quiet) (closed : Bool) {payload : Bytes}
    (hne : payload ≠ []) (hlen : payload.length < 65536) {buffer : Bytes}
    (hfit : payload.length ≤ buffer.length) (rest : Bytes) :
    readCmd closed script (frame payload ++ rest) buffer =
      .ret ⟨payload.length, received payload buffer, rest⟩ := by
  have hpos : 0 < payload.length := List.length_pos_iff.mpr hne
  have hbody := readn_append hquiet.2 closed payload rest
  have hlast : payload.length - 1 < (payload ++ buffer.drop payload.length).length := by
    rw [List.length_append]
    omega
  have hnot : ¬ ((payload.length : Int) ≤ 0) := by omega
  rw [readCmd_frame_header hquiet.1 closed hne hlen, readBody, hbody]
  simp only [Outcome.ret_bind]
  rw [if_neg hnot, store_of_le hfit, Outcome.ret_bind, storeAt_of_lt hlast, Outcome.ret_bind,
    set_last_append hne, Outcome.pure_eq, received]

/-- A frame announcing length zero leaves the buffer as it is, and still counts as read. -/
theorem readCmd_empty_frame {script : ReadScript} (hquiet : script.Quiet) (closed : Bool)
    (buffer rest : Bytes) : readCmd closed script (frame [] ++ rest) buffer = .ret ⟨2, buffer, rest⟩ := by
  have hheader : readn closed script.headerFails (frame [] ++ rest) 2 = .ret (2, [0, 0], rest) :=
    readn_append hquiet.1 closed [0, 0] rest
  exact readCmd_of_zero hheader (by decide) (by simp [decodeLen]) buffer

theorem readCmd_end {script : ReadScript} (hquiet : script.Quiet) (buffer : Bytes) :
    readCmd true script [] buffer = .ret ⟨0, buffer, []⟩ :=
  readCmd_of_le (readn_nil hquiet.1 2) le_rfl buffer

theorem readCmd_wait {script : ReadScript} (hquiet : script.Quiet) (buffer : Bytes) :
    readCmd false script [] buffer = .blocked := by
  have hheader : readn false script.headerFails [] 2 = .blocked := by
    rw [readn_of_interrupted hquiet.1]
    rfl
  simp only [readCmd, hheader, Outcome.blocked_bind]

/-! ### What `sendCmd` puts on the connection -/

def wire (s : Bytes) : Bytes := frame (s ++ [0])

theorem sendCmd_full {s : Bytes} (hlen : s.length + 1 < 65536) :
    sendCmd .full .full s = .ret (2, wire s) := by
  have hhead : (s.length + 1) % 65536 = s.length + 1 := Nat.mod_eq_of_lt hlen
  have hall : (s ++ [0]).take (s.length + 1) = s ++ [0] := List.take_of_length_le (by simp)
  simp only [sendCmd, hhead, send, Outcome.ret_bind, hall]
  simp [encodeLen, wire, frame]

end RemoteCtrl
