import RemoteCtrl.Foundation.Inet

/-!
# Sockets of the local domain

What `cli_conn` and `serv_accept` compute: the name a client binds its socket to, made from the number of its process,
the string the server makes of the address `accept` gives it, and the tests on the file of that name.
-/

namespace RemoteCtrl.UnixDomain

open CProgram

/-! ### Files -/

/-- What can name a file. -/
abbrev Path := { name : Bytes // name ≠ [] ∧ NulFree name }

structure Stat where
  mode : Nat
  uid : Nat
  atime : Int
  ctime : Int
  mtime : Int
  deriving DecidableEq, Repr

abbrev Files := Path → Option Stat

def sIfmt : Nat := 0o170000

def sIfsock : Nat := 0o140000

def sIrwxu : Nat := 0o700

def sIrwxg : Nat := 0o70

def sIrwxo : Nat := 0o7

def sIssock (mode : Nat) : Bool := mode &&& sIfmt == sIfsock

/-- `stat`: no file has the empty name. -/
def lookup (files : Files) (text : Bytes) : Option Stat :=
  if h : text ≠ [] ∧ NulFree text then files ⟨text, h⟩ else none

/-- The file `bind` makes. -/
def socketFile (umask uid : Nat) (now : Int) : Stat where
  mode := sIfsock ||| ((0o777 ^^^ umask) &&& 0o777)
  uid := uid
  atime := now
  ctime := now
  mtime := now

def chmod (statbuf : Stat) (perm : Nat) (now : Int) : Stat :=
  { statbuf with mode := (statbuf.mode &&& sIfmt) ||| perm, ctime := now }

/-! ### Addresses -/

def sunPathSize : Nat := 108

/-- The address of a socket. An abstract name is no file's. -/
inductive Address
  | unnamed
  | abstractName (name : Bytes)
  | path (name : Path)
  deriving DecidableEq

/-- The bytes of `sun_path` that count for the length of the address. -/
def Address.bytes : Address → Bytes
  | .unnamed => []
  | .abstractName name => 0 :: name
  | .path name => name.val ++ [0]

def Address.text : Address → Bytes
  | .path name => name.val
  | _ => []

/-- `len -= offsetof(..); un.sun_path[len] = 0;`, after `accept` has filled in what there is room for and has
reported the whole length. -/
def calledFrom (sunPath : Bytes) (addr : Address) : Outcome (Option Bytes) := do
  let filled := addr.bytes.take sunPathSize ++ sunPath.drop addr.bytes.length
  let un ← storeAt filled addr.bytes.length 0
  return cString un

/-! ### `serv_accept` -/

def stale : Int := 30

/-- The tests of the mode. -/
def Stat.refusal (statbuf : Stat) : Option Int :=
  if sIssock statbuf.mode = false then some (-3)
  else if statbuf.mode &&& (sIrwxg ||| sIrwxo) ≠ 0 ∨ statbuf.mode &&& sIrwxu ≠ sIrwxu then some (-4)
  else none

/-- The test of the times, when `time` has told `now`. -/
def Stat.isStale (statbuf : Stat) (now : Int) : Bool :=
  let staletime := now - stale
  statbuf.atime < staletime || statbuf.ctime < staletime || statbuf.mtime < staletime

/-! ### `cli_conn` -/

/-- `%05d`. -/
def decimal05 (n : Nat) : Bytes := List.replicate (5 - (decimal n).length) (code '0') ++ decimal n

abbrev Pid := Fin 2147483648

def cliPathText (pid : Pid) : Bytes := ascii "/var/tmp" ++ decimal05 pid

def cliPerm : Nat := sIrwxu

/-! ### Names -/

theorem numberIn_decimal05 (n : Nat) : numberIn 10 (decimal05 n) = some n := by
  have hzeros (k : Nat) (digits : Bytes) :
      numberIn 10 (List.replicate k (code '0') ++ digits) = numberIn 10 digits := by
    induction k with
    | zero => rfl
    | succ k ih =>
        rw [← ih]
        rfl
  rw [decimal05, hzeros, numberIn_decimal]

theorem cliPathText_injective {pid pid' : Pid} (heq : cliPathText pid = cliPathText pid') : pid = pid' := by
  have hnumber := congrArg (numberIn 10) (List.append_cancel_left heq)
  rw [numberIn_decimal05, numberIn_decimal05, Option.some.injEq] at hnumber
  exact Fin.ext hnumber

theorem length_cliPathText_le (pid : Pid) : (cliPathText pid).length ≤ 18 := by
  have hdigits : (decimal pid.val).length ≤ 10 := length_decimal_le (Nat.lt_of_lt_of_le pid.isLt (by decide))
  have hfront : (ascii "/var/tmp").length = 8 := by decide
  simp only [cliPathText, decimal05, List.length_append, List.length_replicate]
  omega

theorem cliPathText_names (pid : Pid) : cliPathText pid ≠ [] ∧ NulFree (cliPathText pid) := by
  have hfront : ascii "/var/tmp" ≠ [] ∧ (0 : UInt8) ∉ ascii "/var/tmp" := by decide
  refine ⟨List.append_ne_nil_of_left_ne_nil hfront.1 _, fun hmem => ?_⟩
  rcases List.mem_append.mp hmem with h | h
  · exact hfront.2 h
  · rcases List.mem_append.mp h with h | h
    · exact absurd (List.eq_of_mem_replicate h) (by decide)
    · exact absurd (isDigit_decimal pid.val 0 h) (by decide)

@[irreducible] def cliPath (pid : Pid) : Path := ⟨cliPathText pid, cliPathText_names pid⟩

theorem cliPath_val (pid : Pid) : (cliPath pid).val = cliPathText pid := by rw [cliPath]

theorem cliPath_injective {pid pid' : Pid} (heq : cliPath pid = cliPath pid') : pid = pid' := by
  apply cliPathText_injective
  rw [← cliPath_val, heq, cliPath_val]

theorem lookup_path (files : Files) (name : Path) : lookup files name.val = files name := dif_pos name.property

theorem lookup_eq_some {files : Files} {text : Bytes} {statbuf : Stat} (hfound : lookup files text = some statbuf) :
    ∃ name : Path, text = name.val ∧ files name = some statbuf := by
  by_cases htext : text ≠ [] ∧ NulFree text
  · exact ⟨⟨text, htext⟩, rfl, (lookup_path files ⟨text, htext⟩).symm.trans hfound⟩
  · rw [lookup, dif_neg htext] at hfound
    contradiction

/-- The text of an address names no other file than the address. -/
theorem eq_path_of_text {addr : Address} {name : Path} (htext : addr.text = name.val) : addr = .path name := by
  cases addr with
  | path name' => exact congrArg Address.path (Subtype.ext htext)
  | unnamed => exact absurd htext.symm name.property.1
  | abstractName _ => exact absurd htext.symm name.property.1

/-- The terminating NUL is stored behind `sun_path` for a path of 107 bytes already. -/
theorem calledFrom_eq {sunPath : Bytes} (hsize : sunPath.length = sunPathSize) (addr : Address) :
    calledFrom sunPath addr =
      if addr.bytes.length < sunPathSize then .ret (some addr.text) else .fault .outOfBounds := by
  have hlength : (addr.bytes.take sunPathSize ++ sunPath.drop addr.bytes.length).length = sunPathSize := by
    simp only [List.length_append, List.length_take, List.length_drop]
    omega
  rw [calledFrom, storeAt, hlength]
  split
  · next hroom =>
      rw [Outcome.ret_bind, Outcome.pure_eq, List.take_of_length_le hroom.le,
        List.set_append_right _ _ le_rfl, Nat.sub_self]
      obtain ⟨c, rest, hrest⟩ : ∃ c rest, sunPath.drop addr.bytes.length = c :: rest :=
        List.exists_cons_of_length_pos (by rw [List.length_drop]; omega)
      rw [hrest, List.set_cons_zero]
      cases addr with
      | unnamed => rfl
      | abstractName name => rfl
      | path name =>
          rw [Address.bytes, List.append_assoc, List.singleton_append, cString_append_nul,
            name.property.2.takeWhile]
          rfl
  · rfl

/-! ### The file of a client -/

theorem sIssock_socketFile (umask uid : Nat) (now : Int) :
    (socketFile umask uid now).mode &&& sIfmt = sIfsock := by
  have hperm : ((0o777 ^^^ umask) &&& 0o777) &&& sIfmt = 0 := by
    rw [Nat.and_assoc]
    exact Nat.and_zero _
  rw [socketFile, Nat.and_or_distrib_right, hperm, Nat.or_zero]
  rfl

/-- A socket whose mode has been set by `cli_conn` passes the tests of the mode. -/
theorem refusal_chmod {statbuf : Stat} (hsock : statbuf.mode &&& sIfmt = sIfsock) (now : Int) :
    (chmod statbuf cliPerm now).refusal = none := by
  have hmode : (chmod statbuf cliPerm now).mode = sIfsock ||| cliPerm := by rw [chmod, hsock]
  rw [Stat.refusal, hmode]
  decide

theorem isStale_iff {statbuf : Stat} {bound : Int} (hatime : statbuf.atime = bound) (hmtime : statbuf.mtime = bound)
    (hctime : bound ≤ statbuf.ctime) (now : Int) : statbuf.isStale now = true ↔ bound + stale < now := by
  simp only [Stat.isStale, Bool.or_eq_true, decide_eq_true_eq]
  omega

end RemoteCtrl.UnixDomain
