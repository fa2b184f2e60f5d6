import RemoteCtrl.Foundation.CString
import Mathlib.Algebra.Group.Nat.Defs

/-!
# Addresses and their text

An address lies in memory as four bytes in network order; `ntohl` is the number they are, so nothing here
depends on the byte order of the host. `inetAddr` reads the text of an address as `inet_addr` is documented:
one to four components, each decimal, octal behind 0 or hexadecimal behind 0x, the last of which fills what is
left of the address. It reads back every address written in dotted decimal notation.
-/

namespace CProgram

structure InAddr where
  byte1 : UInt8
  byte2 : UInt8
  byte3 : UInt8
  byte4 : UInt8
  deriving DecidableEq, Repr

def ntohl (a : InAddr) : Nat :=
  16777216 * a.byte1.toNat + 65536 * a.byte2.toNat + 256 * a.byte3.toNat + a.byte4.toNat

def htonl (n : Nat) : InAddr where
  byte1 := .ofNat (n / 16777216)
  byte2 := .ofNat (n / 65536)
  byte3 := .ofNat (n / 256)
  byte4 := .ofNat n

def inaddrAny : InAddr := htonl 0

def inaddrNone : InAddr := htonl 0xFFFFFFFF

/-! ### Reading an address -/

def digitIn (base : Nat) (c : UInt8) : Option Nat :=
  let value :=
    if isDigit c then some (c.toNat - 48)
    else if 97 ≤ c ∧ c ≤ 102 then some (c.toNat - 87)
    else if 65 ≤ c ∧ c ≤ 70 then some (c.toNat - 55)
    else none
  value.filter (· < base)

def numberIn (base : Nat) (digits : Bytes) : Option Nat :=
  digits.foldlM (fun n c => (digitIn base c).map (base * n + ·)) 0

def component : Bytes → Option Nat
  | [] => none
  | c :: rest =>
      if c = code '0' then
        match rest with
        | x :: digit :: more =>
            if x = code 'x' ∨ x = code 'X' then numberIn 16 (digit :: more) else numberIn 8 rest
        | _ => numberIn 8 rest
      else numberIn 10 (c :: rest)

def combine : List Nat → Option Nat
  | [a] => if a < 4294967296 then some a else none
  | [a, b] => if a < 256 ∧ b < 16777216 then some (16777216 * a + b) else none
  | [a, b, c] => if a < 256 ∧ b < 256 ∧ c < 65536 then some (16777216 * a + 65536 * b + c) else none
  | [a, b, c, d] =>
      if a < 256 ∧ b < 256 ∧ c < 256 ∧ d < 256 then some (16777216 * a + 65536 * b + 256 * c + d) else none
  | _ => none

/-- The address as a number, from the text in front of the first blank. -/
def readAddr (text : Bytes) : Option Nat := do
  let components ← ((text.takeWhile fun c => !isSpace c).splitOnP (· == code '.')).mapM component
  combine components

def inetAddr (text : Bytes) : InAddr :=
  match readAddr text with
  | some n => htonl n
  | none => inaddrNone

def dotted (a : InAddr) : Bytes :=
  decimal a.byte1.toNat ++ code '.' :: (decimal a.byte2.toNat ++ code '.' ::
    (decimal a.byte3.toNat ++ code '.' :: decimal a.byte4.toNat))

/-! ### Network and host order -/

theorem htonl_ntohl (a : InAddr) : htonl (ntohl a) = a := by
  have h1 := a.byte1.toNat_lt
  have h2 := a.byte2.toNat_lt
  have h3 := a.byte3.toNat_lt
  have h4 := a.byte4.toNat_lt
  obtain ⟨b1, b2, b3, b4⟩ := a
  rw [htonl, InAddr.mk.injEq]
  simp only [ntohl, ← UInt8.toNat_inj, UInt8.toNat_ofNat'] at *
  omega

/-! ### Numbers in decimal -/

theorem numberIn_concat (base : Nat) (digits : Bytes) (c : UInt8) :
    numberIn base (digits ++ [c]) = (numberIn base digits).bind fun n => (digitIn base c).map (base * n + ·) := by
  rw [numberIn, List.foldlM_append]
  simp [numberIn]

theorem digitIn_digitChar : ∀ d < 10, digitIn 10 (code d.digitChar) = some d := by decide

theorem code_digitChar_ne_zero : ∀ d < 10, 0 < d → code d.digitChar ≠ code '0' := by decide

theorem decimal_eq (n : Nat) : decimal n = (Nat.toDigits 10 n).map code := by
  have hrepr : toString (n : Int) = n.repr := rfl
  rw [decimal, ascii, hrepr, Nat.toList_repr]
  rfl

/-- All digits but the last are those of the tenth part. -/
theorem decimal_of_ten_le {n : Nat} (hn : 10 ≤ n) :
    decimal n = decimal (n / 10 : Nat) ++ [code (n % 10).digitChar] := by
  rw [decimal_eq, decimal_eq, Nat.toDigits_of_base_le (by decide) hn, List.map_append, List.map_singleton]

theorem decimal_of_lt_ten {n : Nat} (hn : n < 10) : decimal n = [code n.digitChar] := by
  rw [decimal_eq, Nat.toDigits_of_lt_base hn, List.map_singleton]

theorem numberIn_decimal (n : Nat) : numberIn 10 (decimal n) = some n := by
  induction n using Nat.strong_induction_on with
  | h n ih =>
      rcases Nat.lt_or_ge n 10 with hsmall | hlarge
      · have hdigit := digitIn_digitChar n hsmall
        rw [decimal_of_lt_ten hsmall]
        simp [numberIn, hdigit]
      · have hdigit := digitIn_digitChar (n % 10) (Nat.mod_lt n (by decide))
        rw [decimal_of_ten_le hlarge, numberIn_concat, ih (n / 10) (by omega), hdigit]
        simp [Nat.div_add_mod]

theorem decimal_injective {m n : Nat} (heq : decimal m = decimal n) : m = n := by
  have hread := congrArg (numberIn 10) heq
  rw [numberIn_decimal, numberIn_decimal] at hread
  exact Option.some.inj hread

theorem length_decimal_le {digits : Nat} : ∀ {n : Nat}, n < 10 ^ (digits + 1) → (decimal n).length ≤ digits + 1 := by
  induction digits with
  | zero =>
      intro n hn
      rw [decimal_of_lt_ten (by omega)]
      rfl
  | succ digits ih =>
      intro n hn
      rcases Nat.lt_or_ge n 10 with hsmall | hlarge
      · rw [decimal_of_lt_ten hsmall]
        exact Nat.succ_le_succ (Nat.zero_le _)
      · have hrest := ih (n := n / 10) (by rw [Nat.pow_succ] at hn; omega)
        rw [decimal_of_ten_le hlarge, List.length_append, List.length_singleton]
        omega

/-- The first digit of a number that is not zero is not zero. -/
theorem decimal_head {n : Nat} (hn : 0 < n) : ∃ c rest, decimal n = c :: rest ∧ c ≠ code '0' := by
  induction n using Nat.strong_induction_on with
  | h n ih =>
      rcases Nat.lt_or_ge n 10 with hsmall | hlarge
      · exact ⟨_, [], decimal_of_lt_ten hsmall, code_digitChar_ne_zero n hsmall hn⟩
      · obtain ⟨c, rest, hdigits, hc⟩ := ih (n / 10) (by omega) (by omega)
        refine ⟨c, rest ++ [code (n % 10).digitChar], ?_, hc⟩
        rw [decimal_of_ten_le hlarge, hdigits, List.cons_append]

theorem component_decimal (n : Nat) : component (decimal n) = some n := by
  rcases Nat.eq_zero_or_pos n with rfl | hn
  · decide
  · obtain ⟨c, rest, hdigits, hc⟩ := decimal_head hn
    have hvalue := numberIn_decimal n
    rw [hdigits] at hvalue ⊢
    exact (if_neg hc).trans hvalue

theorem isDigit_decimal (n : Nat) : ∀ c ∈ decimal n, isDigit c = true := by
  have hdigit : ∀ d < 10, isDigit (code d.digitChar) = true := by decide
  induction n using Nat.strong_induction_on with
  | h n ih =>
      rcases Nat.lt_or_ge n 10 with hsmall | hlarge
      · rw [decimal_of_lt_ten hsmall, List.forall_mem_singleton]
        exact hdigit n hsmall
      · rw [decimal_of_ten_le hlarge, List.forall_mem_append, List.forall_mem_singleton]
        exact ⟨ih (n / 10) (by omega), hdigit _ (Nat.mod_lt n (by decide))⟩

/-! ### Addresses in dotted notation -/

theorem plain_of_isDigit {c : UInt8} (hc : isDigit c = true) : isSpace c = false ∧ (c == code '.') = false := by
  have hrange : 48 ≤ c.toNat ∧ c.toNat ≤ 57 := by simpa [isDigit, UInt8.le_iff_toNat_le] using hc
  have hdot : (code '.').toNat = 46 := by decide
  constructor
  · simp only [isSpace, Bool.or_eq_false_iff, Bool.and_eq_false_iff, beq_eq_false_iff_ne, ne_eq,
      decide_eq_false_iff_not, UInt8.le_iff_toNat_le, ← UInt8.toNat_inj]
    simp only [UInt8.reduceToNat]
    omega
  · rw [beq_eq_false_iff_ne, ne_eq, ← UInt8.toNat_inj, hdot]
    omega

theorem split_dotted (a : InAddr) :
    ((dotted a).takeWhile fun c => !isSpace c).splitOnP (· == code '.') =
      [decimal a.byte1.toNat, decimal a.byte2.toNat, decimal a.byte3.toNat, decimal a.byte4.toNat] := by
  have hplain (n : Nat) : ∀ c ∈ decimal n, isSpace c = false ∧ (c == code '.') = false :=
    fun c hc => plain_of_isDigit (isDigit_decimal n c hc)
  have hdot (n : Nat) : ∀ c ∈ decimal n, (c == code '.') = false := fun c hc => (hplain n c hc).2
  have hnoSpace : ∀ c ∈ dotted a, isSpace c = false := by
    simp only [dotted, List.forall_mem_append, List.forall_mem_cons]
    have hspace (n : Nat) : ∀ c ∈ decimal n, isSpace c = false := fun c hc => (hplain n c hc).1
    exact ⟨hspace _, by decide, hspace _, by decide, hspace _, by decide, hspace _⟩
  have hblank : (dotted a).takeWhile (fun c => !isSpace c) = dotted a := by
    rw [List.takeWhile_eq_self_iff]
    intro c hc
    rw [hnoSpace c hc]
    rfl
  rw [hblank, dotted, List.splitOnP_append_cons_of_forall_mem (hdot _) _ (by decide),
    List.splitOnP_append_cons_of_forall_mem (hdot _) _ (by decide),
    List.splitOnP_append_cons_of_forall_mem (hdot _) _ (by decide), List.splitOnP_eq_singleton (hdot _)]

theorem inetAddr_dotted (a : InAddr) : inetAddr (dotted a) = a := by
  have hread : readAddr (dotted a) = some (ntohl a) := by
    rw [readAddr, split_dotted]
    simp [component_decimal, combine, a.byte1.toNat_lt, a.byte2.toNat_lt, a.byte3.toNat_lt, a.byte4.toNat_lt, ntohl]
  rw [inetAddr, hread]
  exact htonl_ntohl a

end CProgram
