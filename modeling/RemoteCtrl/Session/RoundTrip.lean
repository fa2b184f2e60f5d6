import RemoteCtrl.Session.Wire

/-!
# Frames written by `SendCmd` are read back by `ReadCmd`

Encoder and decoder are written independently: one sends a native 16-bit number that counts the NUL, the
other shifts two bytes together and overwrites the last byte it received. The invariant that makes them
agree over a whole stream is the unread input: before the `i`-th call of `ReadCmd` it is exactly the frames
of the strings from the `i`-th on.
-/

namespace RemoteCtrl

open CProgram CProgram.Framing

/-- The strings written in order on one connection, every `send` transferring all it is given. -/
def sendAll : List Bytes → Outcome Bytes
  | [] => .ret []
  | s :: strs => do
      let (_, out) ← sendCmd .full .full s
      let more ← sendAll strs
      return out ++ more

def readAll : List ReadScript → Bytes → Bytes → Outcome (List ReadReturn)
  | [], _, _ => .ret []
  | script :: scripts, input, buffer => do
      let r ← readCmd true script input buffer
      let more ← readAll scripts r.input r.buffer
      return r :: more

def Sendable (s : Bytes) : Prop := NulFree s ∧ s.length ≤ recvBuffLen - 1

instance (s : Bytes) : Decidable (Sendable s) :=
  inferInstanceAs (Decidable (NulFree s ∧ s.length ≤ recvBuffLen - 1))

theorem Sendable.length_lt {s : Bytes} (h : Sendable s) : s.length + 1 < 65536 := by
  have := h.2
  rw [recvBuffLen] at this
  omega

theorem sendAll_eq {strs : List Bytes} (h : ∀ s ∈ strs, Sendable s) : sendAll strs = .ret (strs.flatMap wire) := by
  induction strs with
  | nil => rfl
  | cons s strs ih =>
      have hrest := ih fun q hq => h q (List.mem_cons_of_mem s hq)
      rw [sendAll, sendCmd_full (h s List.mem_cons_self).length_lt, hrest]
      rfl

theorem readCmd_wire {script : ReadScript} (hquiet : script.Quiet) (closed : Bool) {s : Bytes} (h : Sendable s)
    {buffer : Bytes} (hbuffer : buffer.length = recvBuffLen) (rest : Bytes) :
    ∃ r, readCmd closed script (wire s ++ rest) buffer = .ret r ∧ 0 < r.err ∧ cString r.buffer = some s ∧
      r.input = rest ∧ r.buffer.length = recvBuffLen := by
  have hne : s ++ [0] ≠ [] := by simp
  have hlen : (s ++ [0]).length = s.length + 1 := List.length_append
  have hfit : (s ++ [0]).length ≤ buffer.length := by
    have := h.2
    rw [hlen, hbuffer, recvBuffLen] at *
    omega
  refine ⟨_, readCmd_frame hquiet closed hne (hlen ▸ h.length_lt) hfit rest, by simp, ?_, rfl, ?_⟩
  · rw [cString_received, terminated_append_nul h.1]
  · rw [received_length hne hfit, hbuffer]

/-- The whole run, by induction on the strings still unread. -/
theorem readAll_wire {strs : List Bytes} (hstrs : ∀ s ∈ strs, Sendable s) :
    ∀ (scripts : List ReadScript) (buffer : Bytes), scripts.length = strs.length + 1 →
      (∀ script ∈ scripts, script.Quiet) → buffer.length = recvBuffLen →
      ∃ (reads : List ReadReturn) (last : ReadReturn),
        readAll scripts (strs.flatMap wire) buffer = .ret (reads ++ [last]) ∧ last.err = 0 ∧
        reads.length = strs.length ∧
        ∀ i (hi : i < reads.length) (hi' : i < strs.length),
          0 < reads[i].err ∧ cString reads[i].buffer = some strs[i] ∧
            reads[i].input = (strs.drop (i + 1)).flatMap wire := by
  induction strs with
  | nil =>
      intro scripts buffer hscripts hquiet _
      obtain ⟨script, rfl⟩ := List.length_eq_one_iff.mp hscripts
      refine ⟨[], ⟨0, buffer, []⟩, ?_, rfl, rfl, fun i hi => absurd hi (Nat.not_lt_zero i)⟩
      rw [readAll, List.flatMap_nil, readCmd_end (hquiet script List.mem_cons_self)]
      rfl
  | cons s strs ih =>
      intro scripts buffer hscripts hquiet hbuffer
      obtain ⟨script, scripts, rfl⟩ : ∃ script more, scripts = script :: more :=
        List.exists_cons_of_length_pos (by omega)
      obtain ⟨r, hread, herr, hstring, hinput, hlen⟩ :=
        readCmd_wire (hquiet script List.mem_cons_self) true (hstrs s List.mem_cons_self) hbuffer
          (strs.flatMap wire)
      obtain ⟨reads, last, hall, hlast, hcount, hreads⟩ :=
        ih (fun q hq => hstrs q (List.mem_cons_of_mem s hq)) scripts r.buffer (Nat.succ.inj hscripts)
          (fun q hq => hquiet q (List.mem_cons_of_mem script hq)) hlen
      refine ⟨r :: reads, last, ?_, hlast, by simp [hcount], ?_⟩
      · rw [List.flatMap_cons, readAll, hread, Outcome.ret_bind, hinput, hall]
        rfl
      · intro i hi hi'
        cases i with
        | zero => exact ⟨herr, hstring, hinput⟩
        | succ i => exact hreads i (Nat.lt_of_succ_lt_succ hi) (Nat.lt_of_succ_lt_succ hi')

/-- **Frame stream round trip.** Every string comes back once, in order and terminated in the buffer; after
the `i`-th call the consumed bytes are those `SendCmd` wrote for the first `i` strings; the call behind the
last one returns 0. -/
theorem frame_stream_round_trip {strs : List Bytes} (hstrs : ∀ s ∈ strs, Sendable s) {scripts : List ReadScript}
    (hscripts : scripts.length = strs.length + 1) (hquiet : ∀ script ∈ scripts, script.Quiet) {buffer : Bytes}
    (hbuffer : buffer.length = recvBuffLen) :
    ∃ (stream : Bytes) (reads : List ReadReturn) (last : ReadReturn),
      sendAll strs = .ret stream ∧ readAll scripts stream buffer = .ret (reads ++ [last]) ∧ last.err = 0 ∧
      reads.length = strs.length ∧
      ∀ i (hi : i < reads.length) (hi' : i < strs.length),
        0 < reads[i].err ∧ cString reads[i].buffer = some strs[i] ∧
          ∃ consumed, sendAll (strs.take (i + 1)) = .ret consumed ∧ stream = consumed ++ reads[i].input := by
  obtain ⟨reads, last, hall, hlast, hcount, hreads⟩ := readAll_wire hstrs scripts buffer hscripts hquiet hbuffer
  refine ⟨strs.flatMap wire, reads, last, sendAll_eq hstrs, hall, hlast, hcount, fun i hi hi' => ?_⟩
  obtain ⟨herr, hstring, hinput⟩ := hreads i hi hi'
  refine ⟨herr, hstring, (strs.take (i + 1)).flatMap wire, ?_, ?_⟩
  · exact sendAll_eq fun s hs => hstrs s (List.mem_of_mem_take hs)
  · rw [hinput, ← List.flatMap_append, List.take_append_drop]

theorem frame_stream_round_trip_two :
    ∃ (stream : Bytes) (reads : List ReadReturn) (last : ReadReturn),
      sendAll [ascii "CheckKey\r\n", []] = .ret stream ∧
      readAll [⟨(7, 7), [.EINTR], []⟩, ⟨(7, 7), [], [.EINTR, .EINTR]⟩, ⟨(7, 7), [], []⟩] stream
        (List.replicate recvBuffLen 1) = .ret (reads ++ [last]) ∧ last.err = 0 ∧ reads.length = 2 := by
  have hquiet : ∀ script ∈ [(⟨(7, 7), [.EINTR], []⟩ : ReadScript), ⟨(7, 7), [], [.EINTR, .EINTR]⟩,
      ⟨(7, 7), [], []⟩], script.Quiet := by
    simp [ReadScript.Quiet, Interrupted]
  have hstrs : ∀ s ∈ [ascii "CheckKey\r\n", []], Sendable s := by decide
  obtain ⟨stream, reads, last, hsend, hread, hlast, hcount, _⟩ :=
    frame_stream_round_trip hstrs rfl hquiet List.length_replicate
  exact ⟨stream, reads, last, hsend, hread, hlast, hcount⟩

end RemoteCtrl
