import RemoteCtrl.Foundation.Outcome

/-!
# Strings and buffers of C

A string is the list of its characters before the terminating NUL; a buffer is the list of all its bytes.
`cString` reads the string a buffer holds, and is undefined when there is no NUL inside the buffer. The
comparisons and `strsep` follow their documentation; `strsep` called until it answers NULL yields exactly
`List.splitOnP`.
-/

namespace CProgram

abbrev Bytes := List UInt8

def code (c : Char) : UInt8 := c.val.toUInt8

def ascii (text : String) : Bytes := text.toList.map fun c => c.val.toUInt8

/-- `%d`. -/
def decimal (n : Int) : Bytes := ascii (toString n)

def NulFree (s : Bytes) : Prop := 0 ∉ s

instance (s : Bytes) : Decidable (NulFree s) := inferInstanceAs (Decidable (0 ∉ s))

/-! ### Reading and writing a buffer -/

/-- The string at the start of a buffer, if a NUL ends it there. -/
def cString (buffer : Bytes) : Option Bytes :=
  if 0 ∈ buffer then some (buffer.takeWhile (· ≠ 0)) else none

/-- The text of a block whose last byte has been overwritten by NUL. -/
def terminated (block : Bytes) : Bytes := block.dropLast.takeWhile (· ≠ 0)

private theorem takeWhile_append_nul (s rest : Bytes) :
    (s ++ 0 :: rest).takeWhile (· ≠ 0) = s.takeWhile (· ≠ 0) := by
  induction s with
  | nil => simp
  | cons c s ih =>
      by_cases hc : c = 0
      · simp [hc]
      · simpa [hc] using ih

theorem cString_length_le {buffer s : Bytes} (hs : cString buffer = some s) : s.length ≤ buffer.length := by
  obtain ⟨-, heq⟩ := Option.ite_none_right_eq_some.mp hs
  obtain rfl := Option.some.inj heq
  exact (List.takeWhile_prefix _).length_le

theorem cString_append_nul (s rest : Bytes) : cString (s ++ 0 :: rest) = some (s.takeWhile (· ≠ 0)) := by
  have hmem : (0 : UInt8) ∈ s ++ 0 :: rest := by simp
  rw [cString, if_pos hmem, takeWhile_append_nul]

theorem NulFree.takeWhile {s : Bytes} (h : NulFree s) : s.takeWhile (· ≠ 0) = s := by
  rw [List.takeWhile_eq_self_iff]
  intro c hc
  have hne : c ≠ 0 := fun he => h (he ▸ hc)
  simpa using hne

/-- What lies behind the string is a NUL, and anything. -/
theorem eq_append_of_cString {buffer s : Bytes} (h : cString buffer = some s) :
    ∃ rest, buffer = s ++ 0 :: rest := by
  have hmem : 0 ∈ buffer := by
    by_contra hnone
    rw [cString, if_neg hnone] at h
    contradiction
  obtain ⟨front, rest, rfl, hfree⟩ := List.eq_append_cons_of_mem hmem
  rw [cString_append_nul, NulFree.takeWhile hfree, Option.some.injEq] at h
  exact ⟨rest, by rw [h]⟩

theorem terminated_append_nul {s : Bytes} (h : NulFree s) : terminated (s ++ [0]) = s := by
  rw [terminated, List.dropLast_concat, h.takeWhile]

def store (buffer data : Bytes) : Outcome Bytes :=
  if data.length ≤ buffer.length then .ret (data ++ buffer.drop data.length) else .fault .outOfBounds

theorem store_of_le {buffer data : Bytes} (h : data.length ≤ buffer.length) :
    store buffer data = .ret (data ++ buffer.drop data.length) := if_pos h

def storeAt (buffer : Bytes) (index : Nat) (c : UInt8) : Outcome Bytes :=
  if index < buffer.length then .ret (buffer.set index c) else .fault .outOfBounds

theorem storeAt_of_lt {buffer : Bytes} {index : Nat} (h : index < buffer.length) (c : UInt8) :
    storeAt buffer index c = .ret (buffer.set index c) := if_pos h

theorem set_last_append {block : Bytes} (hne : block ≠ []) (rest : Bytes) (c : UInt8) :
    (block ++ rest).set (block.length - 1) c = block.dropLast ++ c :: rest := by
  obtain ⟨front, last, rfl⟩ : ∃ front last, block = front ++ [last] :=
    ⟨block.dropLast, block.getLast hne, (List.dropLast_concat_getLast hne).symm⟩
  simp [List.append_assoc]

/-! ### Comparing strings -/

def strcmp (a b : Bytes) : Int := if a = b then 0 else if a < b then -1 else 1

def strncmp (a b : Bytes) (n : Nat) : Int := strcmp (a.take n) (b.take n)

@[simp] theorem strcmp_eq_zero {a b : Bytes} : strcmp a b = 0 ↔ a = b := by
  unfold strcmp
  split
  · simp [*]
  · split <;> simp [*]

/-- Comparing no further than the literal is long tests a prefix. -/
theorem strncmp_eq_zero {lit s : Bytes} {n : Nat} (hn : n ≤ lit.length) :
    strncmp lit s n = 0 ↔ lit.take n <+: s := by
  have hlen : (lit.take n).length = n := List.length_take_of_le hn
  rw [strncmp, strcmp_eq_zero, List.prefix_iff_eq_take, hlen]

/-! ### Reading a number -/

def isSpace (c : UInt8) : Bool := c == 32 || (9 ≤ c && c ≤ 13)

def isDigit (c : UInt8) : Bool := 48 ≤ c && c ≤ 57

/-- The number at the start of a string, for numbers that fit an `int`. -/
def atoi (s : Bytes) : Int :=
  let value (digits : Bytes) : Int :=
    (digits.takeWhile isDigit).foldl (fun n c => 10 * n + (c.toNat - 48)) 0
  match s.dropWhile isSpace with
  | 45 :: digits => -value digits
  | 43 :: digits => value digits
  | digits => value digits

def digitsValue (digits : Bytes) : Nat := digits.foldl (fun n c => 10 * n + (c.toNat - 48)) 0

/-- `strtol` in base 10: the number, no further than a `long` reaches, and the text behind its digits. With no
digits that is the whole text. -/
def strtol (s : Bytes) : Int × Bytes :=
  let number (sign : Int) (text : Bytes) : Int × Bytes :=
    match text.takeWhile isDigit with
    | [] => (0, s)
    | digits =>
        (max (-9223372036854775808) (min 9223372036854775807 (sign * digitsValue digits)), text.dropWhile isDigit)
  match s.dropWhile isSpace with
  | 45 :: text => number (-1) text
  | 43 :: text => number 1 text
  | text => number 1 text

/-- A `long` assigned to an `int`. -/
def toInt (n : Int) : Int := n.bmod 4294967296

/-! ### Splitting at delimiters -/

variable (isDelim : UInt8 → Bool)

/-- One call of `strsep`: the token in front of the next delimiter, and the pointer moved behind it. -/
def strsep : Option Bytes → Option Bytes × Option Bytes
  | none => (none, none)
  | some s =>
      match s.dropWhile (fun c => !isDelim c) with
      | [] => (some s, none)
      | _ :: rest => (some (s.takeWhile fun c => !isDelim c), some rest)

/-- The tokens still to come from a `strsep` pointer. -/
def tokens : Option Bytes → List Bytes
  | none => []
  | some s => s.splitOnP isDelim

theorem splitOnP_eq_of_dropWhile_nil {s : Bytes} (h : s.dropWhile (fun c => !isDelim c) = []) :
    s.splitOnP isDelim = [s] := by
  refine List.splitOnP_eq_singleton fun c hc => ?_
  simpa using List.dropWhile_eq_nil_iff.mp h c hc

theorem splitOnP_eq_of_dropWhile_cons {s rest : Bytes} {d : UInt8}
    (h : s.dropWhile (fun c => !isDelim c) = d :: rest) :
    s.splitOnP isDelim = s.takeWhile (fun c => !isDelim c) :: rest.splitOnP isDelim := by
  have hsplit : s = s.takeWhile (fun c => !isDelim c) ++ d :: rest := by
    rw [← h, List.takeWhile_append_dropWhile]
  have hd : isDelim d = true := by
    have hne : s.dropWhile (fun c => !isDelim c) ≠ [] := by
      rw [h]
      exact List.cons_ne_nil d rest
    simpa [h] using List.head_dropWhile_not (fun c => !isDelim c) hne
  have hfront : ∀ c ∈ s.takeWhile (fun c => !isDelim c), isDelim c = false := fun c hc => by
    simpa using List.mem_takeWhile_imp hc
  conv_lhs => rw [hsplit]
  exact List.splitOnP_append_cons_of_forall_mem hfront d hd rest

theorem length_splitOnP (s : Bytes) : (s.splitOnP isDelim).length = s.countP isDelim + 1 := by
  induction s with
  | nil => simp
  | cons c s ih =>
      rw [List.splitOnP_cons_eq_if_modifyHead]
      by_cases hc : isDelim c = true
      · rw [if_pos hc, List.countP_cons_of_pos hc, List.length_cons, ih]
      · rw [if_neg hc, List.countP_cons_of_neg hc, List.length_modifyHead, ih]

theorem tokens_some (s : Bytes) :
    ∃ token, (strsep isDelim (some s)).1 = some token ∧
      tokens isDelim (some s) = token :: tokens isDelim (strsep isDelim (some s)).2 := by
  cases hdrop : s.dropWhile (fun c => !isDelim c) with
  | nil =>
      refine ⟨s, by simp only [strsep, hdrop], ?_⟩
      simp only [strsep, hdrop, tokens, splitOnP_eq_of_dropWhile_nil isDelim hdrop]
  | cons d rest =>
      refine ⟨s.takeWhile fun c => !isDelim c, by simp only [strsep, hdrop], ?_⟩
      simp only [strsep, hdrop, tokens, splitOnP_eq_of_dropWhile_cons isDelim hdrop]

/-- The substrings between consecutive delimiters, empty ones included. -/
inductive Split : Bytes → List Bytes → Prop
  | last {s : Bytes} : (∀ c ∈ s, isDelim c = false) → Split s [s]
  | cons {front rest : Bytes} {d : UInt8} {parts : List Bytes} : (∀ c ∈ front, isDelim c = false) →
      isDelim d = true → Split rest parts → Split (front ++ d :: rest) (front :: parts)

variable {isDelim} in
theorem Split.cons_plain {s front : Bytes} {parts : List Bytes} {c : UInt8} (hc : isDelim c = false)
    (hsplit : Split isDelim s (front :: parts)) : Split isDelim (c :: s) ((c :: front) :: parts) := by
  cases hsplit with
  | last hs => exact .last (List.forall_mem_cons.mpr ⟨hc, hs⟩)
  | cons hfront hd hrest => exact .cons (List.forall_mem_cons.mpr ⟨hc, hfront⟩) hd hrest

theorem split_splitOnP (s : Bytes) : Split isDelim s (s.splitOnP isDelim) := by
  induction s with
  | nil => exact .last fun c hc => absurd hc List.not_mem_nil
  | cons c s ih =>
      rw [List.splitOnP_cons_eq_if_modifyHead]
      by_cases hc : isDelim c = true
      · have hnone : ∀ d ∈ ([] : Bytes), isDelim d = false := fun d hd => absurd hd List.not_mem_nil
        rw [if_pos hc]
        exact .cons hnone hc ih
      · obtain ⟨front, parts, hparts⟩ := List.exists_cons_of_ne_nil (List.splitOnP_ne_nil isDelim s)
        rw [if_neg hc, hparts, List.modifyHead_cons]
        exact (hparts ▸ ih).cons_plain (Bool.not_eq_true _ ▸ hc)

end CProgram
