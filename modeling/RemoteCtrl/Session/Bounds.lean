import RemoteCtrl.Session.Turns

/-!
# Where `ReadCmd` stores

The length of a body comes from the network, and the comparison with the length of the buffer is commented
out. `readCmdStores` lists the indices of the buffer one call stores to: those of the bytes `recv` has copied,
also when it goes on waiting for the rest, and that of the NUL. A session stores inside the buffer on exactly
the streams that announce no more than it holds, as far as the session gets; a length at the very end of the
stream does no harm as long as too few bytes follow it.
-/

namespace RemoteCtrl

open CProgram CProgram.Framing CProgram.Transition

def readnStores : List Errno → Bytes → Nat → List Nat
  | [], input, len => List.range (input.take len).length
  | .EINTR :: fails, input, len => readnStores fails input len
  | _ :: _, _, _ => []

def bodyStores (closed : Bool) (fails : List Errno) (cmdlen : Nat) (input : Bytes) : List Nat :=
  readnStores fails input cmdlen ++
    match readn closed fails input cmdlen with
    | .ret (err, _, _) => if err ≤ 0 then [] else [cmdlen - 1]
    | _ => []

def readCmdStores (closed : Bool) (script : ReadScript) (input : Bytes) : List Nat :=
  match readn closed script.headerFails input 2 with
  | .ret (err, data, rest) =>
      if err ≤ 0 then []
      else
        let lo := data.getD 0 script.header.1
        let hi := data.getD 1 script.header.2
        let cmdlen := hi.toNat <<< 8 ||| lo.toNat
        if cmdlen > 0 then bodyStores closed script.bodyFails cmdlen rest else []
  | _ => []

def StoresInBounds (closed : Bool) (s : Reading) (t : Turn) : Prop :=
  ∀ i ∈ readCmdStores closed t.read s.input, i < recvBuffLen

/-- Every call of `ReadCmd` in a session on this stream stores inside the receive buffer. -/
def InBounds (fd : Int) (closed : Bool) (stream : Bytes) : Prop :=
  ∀ buffer, buffer.length = recvBuffLen → Always (clientStep fd closed) (StoresInBounds closed) ⟨stream, buffer⟩

/-- The tails whose bytes stay inside the buffer: the NUL is stored only when the client has closed its side
behind some of the body. -/
def TailWithin (closed : Bool) : Bytes → Prop
  | lo :: hi :: part =>
      decodeLen lo hi ≤ recvBuffLen ∨ if closed then part = [] else part.length ≤ recvBuffLen
  | _ => True

/-- Up to the first payload that does not end in CR LF none is longer than the buffer, and if there is no such payload
the tail is within it too. -/
def WithinFrom (closed : Bool) : List Bytes → Bytes → Prop
  | [], torn => TailWithin closed torn
  | p :: payloads, torn =>
      p.length ≤ recvBuffLen ∧ (p = [] ∨ EndsInCrLf (terminated p) → WithinFrom closed payloads torn)

def Within (closed : Bool) (stream : Bytes) : Prop := WithinFrom closed (frames stream) (tail stream)

/-! ### The stores are those of `readCmd` -/

section
variable {closed : Bool}

theorem readn_stores {fails : List Errno} {input : Bytes} {len : Nat} {err : Int} {data rest : Bytes}
    (hread : readn closed fails input len = .ret (err, data, rest)) :
    readnStores fails input len = List.range data.length ∧ (err ≤ 0 → data = []) := by
  induction fails with
  | nil =>
      obtain ⟨⟨got, left⟩, hrecv, hret⟩ := Outcome.bind_eq_ret.mp hread
      rw [recv, ite_eq_iff] at hrecv
      obtain ⟨-, hgot⟩ | ⟨-, hgot⟩ := hrecv
      · rw [Outcome.ret.injEq, Prod.mk.injEq] at hgot
        obtain ⟨rfl, rfl⟩ := hgot
        simp only [Outcome.pure_eq, Outcome.ret.injEq, Prod.mk.injEq] at hret
        rw [readnStores, ← hret.2.1]
        refine ⟨rfl, fun herr => List.eq_nil_of_length_eq_zero ?_⟩
        omega
      · contradiction
  | cons e fails ih =>
      cases e with
      | EINTR => exact ih hread
      | EAGAIN => contradiction
      | ECHILD | other =>
          simp only [readn, Outcome.ret.injEq, Prod.mk.injEq] at hread
          rw [← hread.2.1]
          exact ⟨rfl, fun _ => rfl⟩

theorem readnStores_lt {fails : List Errno} {input : Bytes} {len : Nat} :
    ∀ i ∈ readnStores fails input len, i < len ∧ i < input.length := by
  induction fails with
  | nil =>
      intro i hi
      rw [readnStores, List.mem_range, List.length_take] at hi
      omega
  | cons e fails ih =>
      cases e with
      | EINTR => exact ih
      | EAGAIN | ECHILD | other => exact fun i hi => absurd hi List.not_mem_nil

theorem readnStores_of_interrupted {fails : List Errno} (h : Interrupted fails) (input : Bytes) (len : Nat) :
    readnStores fails input len = List.range (input.take len).length := by
  induction fails with
  | nil => rfl
  | cons e fails ih =>
      obtain rfl : e = .EINTR := h e List.mem_cons_self
      exact ih fun f hf => h f (List.mem_cons_of_mem _ hf)

theorem bodyStores_lt {fails : List Errno} {cmdlen : Nat} (hpos : 0 < cmdlen) {input : Bytes} :
    ∀ i ∈ bodyStores closed fails cmdlen input, i < cmdlen := by
  intro i hi
  rcases List.mem_append.mp hi with hi | hi
  · exact (readnStores_lt i hi).1
  · split at hi
    · split at hi
      · exact absurd hi List.not_mem_nil
      · rw [List.mem_singleton.mp hi]
        omega
    · exact absurd hi List.not_mem_nil

theorem bodyStores_of_read {fails : List Errno} {cmdlen : Nat} {input body rest : Bytes} {err : Int}
    (hread : readn closed fails input cmdlen = .ret (err, body, rest)) :
    bodyStores closed fails cmdlen input = if err ≤ 0 then [] else List.range body.length ++ [cmdlen - 1] := by
  obtain ⟨hstores, hnone⟩ := readn_stores hread
  rw [bodyStores, hread, hstores]
  by_cases herr : err ≤ 0
  · simp only [if_pos herr, hnone herr, List.length_nil, List.range_zero, List.append_nil]
  · simp only [if_neg herr]

theorem range_within {count bound : Nat} : (∀ i ∈ List.range count, i < bound) ↔ count ≤ bound := by
  constructor
  · intro hall
    by_contra hlt
    exact absurd (hall bound (List.mem_range.mpr (Nat.not_le.mp hlt))) (Nat.lt_irrefl bound)
  · exact fun hle i hi => Nat.lt_of_lt_of_le (List.mem_range.mp hi) hle

theorem stores_within {count last bound : Nat} :
    (∀ i ∈ List.range count ++ [last], i < bound) ↔ count ≤ bound ∧ last < bound := by
  rw [List.forall_mem_append, range_within, List.forall_mem_singleton]

theorem readn_fault {fails : List Errno} {input : Bytes} {len : Nat} {why : Fault}
    (hread : readn closed fails input len = .fault why) : why = .assertion := by
  rcases readn_cases fails with hquiet | hfault | hret
  · rw [readn_of_interrupted hquiet, readn, recv] at hread
    split at hread
    · contradiction
    · contradiction
  · rw [hfault, Outcome.fault.injEq] at hread
    exact hread.symm
  · rw [hret] at hread
    contradiction

/-- A body that has been read stores inside the buffer, or some index it stores to is behind its end. -/
theorem readBody_stores {fails : List Errno} {cmdlen : Nat} {input buffer : Bytes} :
    (∀ r, readBody closed fails cmdlen input buffer = .ret r →
        ∀ i ∈ bodyStores closed fails cmdlen input, i < buffer.length) ∧
      (readBody closed fails cmdlen input buffer = .fault .outOfBounds →
        ∃ i ∈ bodyStores closed fails cmdlen input, buffer.length ≤ i) := by
  cases hread : readn closed fails input cmdlen with
  | blocked => simp [readBody, hread]
  | fault why => simp [readBody, hread, readn_fault hread]
  | ret got =>
      obtain ⟨err, body, rest⟩ := got
      rw [bodyStores_of_read hread]
      by_cases herr : err ≤ 0
      · rw [readBody_of_le hread herr, if_pos herr]
        simp
      · rw [readBody_eq hread (Int.not_le.mp herr), if_neg herr]
        split
        · next hwithin => exact ⟨fun _ _ => stores_within.mpr hwithin, fun h => absurd h (by simp)⟩
        · next hpast =>
            refine ⟨fun _ h => absurd h (by simp), fun _ => ?_⟩
            have hsome := mt stores_within.mp hpast
            push Not at hsome
            exact hsome

theorem readCmdStores_of_read {script : ReadScript} {input data rest : Bytes} {err : Int}
    (hread : readn closed script.headerFails input 2 = .ret (err, data, rest)) (herr : 0 < err) :
    readCmdStores closed script input =
      if 0 < decodeLen (data.getD 0 script.header.1) (data.getD 1 script.header.2) then
        bodyStores closed script.bodyFails (decodeLen (data.getD 0 script.header.1) (data.getD 1 script.header.2)) rest
      else [] := by
  simp only [readCmdStores, hread, shift_or_eq_decodeLen]
  rw [if_neg (Int.not_le.mpr herr)]

/-- `readCmdStores` is what `readCmd` does to the buffer. -/
theorem readCmd_stores {script : ReadScript} {input buffer : Bytes} :
    (∀ r, readCmd closed script input buffer = .ret r →
        ∀ i ∈ readCmdStores closed script input, i < buffer.length) ∧
      (readCmd closed script input buffer = .fault .outOfBounds →
        ∃ i ∈ readCmdStores closed script input, buffer.length ≤ i) := by
  cases hread : readn closed script.headerFails input 2 with
  | blocked => simp [readCmd, hread]
  | fault why => simp [readCmd, hread, readn_fault hread]
  | ret got =>
      obtain ⟨err, data, rest⟩ := got
      by_cases herr : err ≤ 0
      · rw [readCmd_of_le hread herr, readCmdStores, hread]
        simp [herr]
      · rw [readCmdStores_of_read hread (Int.not_le.mp herr)]
        rcases Nat.eq_zero_or_pos (decodeLen (data.getD 0 script.header.1) (data.getD 1 script.header.2)) with
          hzero | hpos
        · rw [readCmd_of_zero hread (Int.not_le.mp herr) hzero, hzero]
          simp
        · rw [readCmd_eq_readBody hread (Int.not_le.mp herr) rfl hpos, if_pos hpos]
          exact readBody_stores

theorem readCmdStores_of_fails {script : ReadScript} (h : ¬Interrupted script.headerFails) {input : Bytes} :
    readCmdStores closed script input = [] := by
  rcases readn_cases script.headerFails with hquiet | hfault | hret
  · exact absurd hquiet h
  · rw [readCmdStores, hfault]
  · rw [readCmdStores, hret]
    rfl

/-! ### The stores of one turn -/

/-- The stores at the front of a complete frame are bounded by its length, and reach it when nothing fails. -/
theorem storesInBounds_frame {payload : Bytes} (hlen : payload.length < 65536) (rest buffer : Bytes) :
    (∀ t, StoresInBounds closed ⟨frame payload ++ rest, buffer⟩ t) ↔ payload.length ≤ recvBuffLen := by
  have hheader (script : ReadScript) (hquiet : Interrupted script.headerFails) :
      readCmdStores closed script (frame payload ++ rest) =
        if 0 < payload.length then bodyStores closed script.bodyFails payload.length (payload ++ rest) else [] := by
    have hhead := readn_append hquiet closed (encodeLen payload.length) (payload ++ rest)
    rw [← List.append_assoc] at hhead
    have hdecode := decodeLen_encodeLen hlen
    rw [← show frame payload = encodeLen payload.length ++ payload from rfl] at hhead
    rw [readCmdStores_of_read hhead (by simp [encodeLen])]
    simp only [encodeLen, List.getD_cons_zero, List.getD_cons_succ, hdecode]
  constructor
  · intro hall
    have hstores := hall servedTurn
    rw [StoresInBounds, hheader servedTurn.read servedTurn_quiet.1] at hstores
    rcases Nat.eq_zero_or_pos payload.length with hzero | hpos
    · omega
    · have hbody := readn_append servedTurn_quiet.2 closed payload rest
      rw [if_pos hpos, bodyStores_of_read hbody, if_neg (by omega), stores_within] at hstores
      exact hstores.1
  · intro hle t i hi
    by_cases hquiet : Interrupted t.read.headerFails
    · rw [hheader t.read hquiet] at hi
      split at hi
      · next hpos => exact Nat.lt_of_lt_of_le (bodyStores_lt hpos i hi) hle
      · exact absurd hi List.not_mem_nil
    · rw [readCmdStores_of_fails hquiet] at hi
      exact absurd hi List.not_mem_nil

theorem readnStores_of_fails {fails : List Errno} (h : ¬Interrupted fails) (input : Bytes) (len : Nat) :
    readnStores fails input len = [] := by
  induction fails with
  | nil => exact absurd (fun e he => absurd he List.not_mem_nil) h
  | cons e fails ih =>
      cases e with
      | EINTR => exact ih fun hquiet => h (List.forall_mem_cons.mpr ⟨rfl, hquiet⟩)
      | EAGAIN | ECHILD | other => rfl

theorem bodyStores_of_fails {fails : List Errno} (h : ¬Interrupted fails) (cmdlen : Nat) (input : Bytes) :
    bodyStores closed fails cmdlen input = [] := by
  rw [bodyStores, readnStores_of_fails h]
  rcases readn_cases fails with hquiet | hfault | hret
  · exact absurd hquiet h
  · rw [hfault]
    rfl
  · rw [hret]
    rfl

/-- A body that is cut off: its bytes are stored, and the NUL if the client has closed its side behind some. -/
theorem bodyStores_past {fails : List Errno} (hquiet : Interrupted fails) {cmdlen : Nat} {part : Bytes}
    (hlt : part.length < cmdlen) :
    bodyStores closed fails cmdlen part =
      if closed = true ∧ part ≠ [] then List.range part.length ++ [cmdlen - 1] else List.range part.length := by
  have hread := readn_past closed hquiet hlt
  cases closed with
  | false =>
      rw [bodyStores, hread, readnStores_of_interrupted hquiet, List.take_of_length_le hlt.le]
      simp
  | true =>
      rw [bodyStores_of_read hread]
      cases part with
      | nil => rfl
      | cons b part => simp

/-- Without a whole header there is no body to store. -/
theorem readCmdStores_short {script : ReadScript} {input : Bytes} (hlen : input.length < 2) :
    readCmdStores closed script input = [] := by
  have hnil (fails : List Errno) (cmdlen : Nat) (hpos : 0 < cmdlen) : bodyStores closed fails cmdlen [] = [] := by
    by_cases hquiet : Interrupted fails
    · rw [bodyStores_past hquiet hpos]
      simp
    · exact bodyStores_of_fails hquiet cmdlen []
  by_cases hquiet : Interrupted script.headerFails
  · have hhead := readn_past closed hquiet hlen
    cases closed with
    | false =>
        rw [readCmdStores, hhead]
        rfl
    | true =>
        by_cases herr : (input.length : Int) ≤ 0
        · rw [readCmdStores, hhead]
          exact if_pos herr
        · rw [readCmdStores_of_read hhead (Int.not_le.mp herr)]
          split
          · next hpos => exact hnil _ _ hpos
          · rfl
  · exact readCmdStores_of_fails hquiet

theorem storesInBounds_torn {torn : Bytes} (htorn : Torn torn) (buffer : Bytes) :
    (∀ t, StoresInBounds closed ⟨torn, buffer⟩ t) ↔ TailWithin closed torn := by
  match torn, htorn with
  | lo :: hi :: part, htorn =>
      have hlt : part.length < decodeLen lo hi := htorn
      have hheader (script : ReadScript) (hquiet : Interrupted script.headerFails) :
          readCmdStores closed script (lo :: hi :: part) =
            bodyStores closed script.bodyFails (decodeLen lo hi) part := by
        have hhead := readn_append hquiet closed [lo, hi] part
        rw [show lo :: hi :: part = [lo, hi] ++ part from rfl, readCmdStores_of_read hhead (by simp)]
        exact if_pos (Nat.zero_lt_of_lt hlt)
      -- what the turn without failures stores, any turn stores at most
      have hserved : StoresInBounds closed ⟨lo :: hi :: part, buffer⟩ servedTurn ↔
          TailWithin closed (lo :: hi :: part) := by
        rw [StoresInBounds, hheader servedTurn.read servedTurn_quiet.1, bodyStores_past servedTurn_quiet.2 hlt,
          TailWithin]
        cases closed with
        | false =>
            rw [if_neg (by simp), range_within]
            simp only [Bool.false_eq_true, if_false]
            omega
        | true =>
            by_cases hpart : part = []
            · simp [hpart]
            · rw [if_pos ⟨rfl, hpart⟩, stores_within]
              simp only [hpart, if_true, or_false]
              omega
      refine ⟨fun hall => hserved.mp (hall servedTurn), fun hwithin t i hi => ?_⟩
      by_cases hhead : Interrupted t.read.headerFails
      · rw [hheader t.read hhead] at hi
        by_cases hbody : Interrupted t.read.bodyFails
        · refine hserved.mpr hwithin i ?_
          rw [hheader servedTurn.read servedTurn_quiet.1, bodyStores_past servedTurn_quiet.2 hlt]
          rwa [bodyStores_past hbody hlt] at hi
        · rw [bodyStores_of_fails hbody] at hi
          exact absurd hi List.not_mem_nil
      · rw [readCmdStores_of_fails hhead] at hi
        exact absurd hi List.not_mem_nil
  | [], _ =>
      refine iff_of_true (fun t i hi => ?_) trivial
      rw [readCmdStores_short (show ([] : Bytes).length < 2 by decide)] at hi
      exact absurd hi List.not_mem_nil
  | [b], _ =>
      refine iff_of_true (fun t i hi => ?_) trivial
      rw [readCmdStores_short (show [b].length < 2 from Nat.lt_succ_self 1)] at hi
      exact absurd hi List.not_mem_nil

/-! ### Whole sessions -/

variable {fd : Int}

theorem always_of_within (hfd : 0 < fd) {payloads : List Bytes} {torn : Bytes} (htorn : Torn torn)
    (hlen : ∀ p ∈ payloads, p.length < 65536) (hwithin : WithinFrom closed payloads torn) :
    ∀ buffer, buffer.length = recvBuffLen →
      Always (clientStep fd closed) (StoresInBounds closed) ⟨payloads.flatMap frame ++ torn, buffer⟩ := by
  induction payloads with
  | nil =>
      intro buffer _
      exact (always_torn htorn (fun later => (storesInBounds_torn torn_nil later).mpr trivial) buffer).mpr
        ((storesInBounds_torn htorn buffer).mpr hwithin)
  | cons p payloads ih =>
      intro buffer hbuffer
      obtain ⟨hp, hrest⟩ := hwithin
      have hp65536 : p.length < 65536 := hlen p List.mem_cons_self
      rw [List.flatMap_cons, List.append_assoc, always_frame hfd hp hbuffer]
      refine ⟨(storesInBounds_frame hp65536 _ buffer).mpr hp, fun cmd hcmd hend => ?_⟩
      refine ih (fun q hq => hlen q (List.mem_cons_of_mem p hq)) (hrest ?_) _ (length_afterFrame hp hbuffer)
      by_cases hne : p = []
      · exact .inl hne
      · rw [cString_afterFrame hne, Option.some.injEq] at hcmd
        exact .inr (hcmd ▸ hend)

/-- The converse needs a buffer whose string ends in CR LF, so that empty frames do not end the session. -/
theorem within_of_always (hfd : 0 < fd) {payloads : List Bytes} {torn : Bytes} (htorn : Torn torn)
    (hlen : ∀ p ∈ payloads, p.length < 65536) :
    ∀ buffer cmd, buffer.length = recvBuffLen → cString buffer = some cmd → EndsInCrLf cmd →
      Always (clientStep fd closed) (StoresInBounds closed) ⟨payloads.flatMap frame ++ torn, buffer⟩ →
      WithinFrom closed payloads torn := by
  induction payloads with
  | nil =>
      intro buffer cmd _ _ _ halways
      exact (storesInBounds_torn htorn buffer).mp (always_iff.mp halways).1
  | cons p payloads ih =>
      intro buffer cmd hbuffer hcmd hend halways
      have hp65536 : p.length < 65536 := hlen p List.mem_cons_self
      have hrest := ih fun q hq => hlen q (List.mem_cons_of_mem p hq)
      rw [List.flatMap_cons, List.append_assoc] at halways
      have hp : p.length ≤ recvBuffLen := (storesInBounds_frame hp65536 _ buffer).mp (always_iff.mp halways).1
      refine ⟨hp, fun hcontinues => ?_⟩
      obtain ⟨next, hnext, hnextEnd⟩ : ∃ next, cString (afterFrame p buffer) = some next ∧ EndsInCrLf next := by
        by_cases hne : p = []
        · rw [afterFrame, if_pos hne]
          exact ⟨cmd, hcmd, hend⟩
        · exact ⟨_, cString_afterFrame hne, hcontinues.resolve_left hne⟩
      exact hrest _ next (length_afterFrame hp hbuffer) hnext hnextEnd
        (((always_frame hfd hp hbuffer).mp halways).2 next hnext hnextEnd)

end

/-- **Receive-buffer bounds.** Whatever the tasks answer and whatever fails, no call of `ReadCmd` in a session
stores outside the buffer exactly on the streams within it. -/
theorem in_bounds_iff_within {fd : Int} (hfd : 0 < fd) (closed : Bool) (stream : Bytes) :
    InBounds fd closed stream ↔ Within closed stream := by
  obtain ⟨hstream, htorn, hlen⟩ := stream_eq stream
  constructor
  · intro hbounds
    have hbuffer : ([13, 10] ++ 0 :: List.replicate 1021 0 : Bytes).length = recvBuffLen := by
      simp only [List.length_append, List.length_cons, List.length_nil, List.length_replicate]
      rfl
    have hcr : EndsInCrLf [13, 10] := by decide
    refine within_of_always hfd htorn hlen _ _ hbuffer (cString_append_nul _ _) hcr ?_
    rw [← hstream]
    exact hbounds _ hbuffer
  · intro hwithin buffer hbuffer
    rw [hstream]
    exact always_of_within hfd htorn hlen hwithin buffer hbuffer

theorem in_bounds_checkKey : InBounds 4 true (frame (ascii "CheckKey\r\n" ++ [0])) := by
  have hlen : ∀ p ∈ [ascii "CheckKey\r\n" ++ [0]], p.length < 65536 := by decide
  have hframes := frames_flatMap_append hlen torn_nil
  have htail := tail_flatMap_append hlen torn_nil
  rw [List.append_nil, List.flatMap_singleton] at hframes htail
  refine (in_bounds_iff_within (by decide) true _).mpr ?_
  rw [Within, hframes, htail]
  exact ⟨by decide, fun _ => trivial⟩

/-- A single frame one byte longer than the buffer. -/
theorem long_frame_out_of_bounds : ¬InBounds 4 true (frame (List.replicate 1025 65)) := by
  intro hbounds
  have hlen : (List.replicate 1025 (65 : UInt8)).length = 1025 := List.length_replicate
  have halways := hbounds (List.replicate recvBuffLen 0) List.length_replicate
  rw [← List.append_nil (frame _)] at halways
  have hfits := (storesInBounds_frame (by rw [hlen]; decide) [] _).mp (always_iff.mp halways).1
  rw [hlen] at hfits
  exact absurd hfits (by decide)

end RemoteCtrl
