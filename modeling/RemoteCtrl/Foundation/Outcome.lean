import Mathlib.Data.List.TakeWhile
import Mathlib.Tactic.Common

/-!
# What a call can do

A C function returns, waits for ever inside a system call, or stops the process: a failed assertion, an
access outside an object, a null pointer used as a string, a fatal signal. `Outcome` is that choice as a
monad, so that the translated functions read in the order of their statements and every later fact is
about `ret`, the one outcome after which the program goes on.
-/

namespace CProgram

inductive Fault
  | assertion
  | outOfBounds
  | nullPointer
  | signal
  deriving DecidableEq, Repr

/-- The outcome of a call: a value, a system call that does not return, or the end of the process. -/
inductive Outcome (α : Type) where
  | ret (value : α)
  | blocked
  | fault (why : Fault)
  deriving DecidableEq, Repr

namespace Outcome

variable {α β : Type}

def bind (x : Outcome α) (next : α → Outcome β) : Outcome β :=
  match x with
  | ret value => next value
  | blocked => blocked
  | fault why => fault why

instance : Monad Outcome where
  pure := ret
  bind := bind

@[simp] theorem pure_eq (value : α) : (pure value : Outcome α) = ret value := rfl

@[simp] theorem ret_bind (value : α) (next : α → Outcome β) : (ret value >>= next) = next value := rfl

@[simp] theorem blocked_bind (next : α → Outcome β) : ((blocked : Outcome α) >>= next) = blocked := rfl

@[simp] theorem fault_bind (why : Fault) (next : α → Outcome β) :
    ((fault why : Outcome α) >>= next) = fault why := rfl

instance : LawfulMonad Outcome :=
  LawfulMonad.mk' Outcome (fun x => by cases x <;> rfl) (fun _ _ => rfl) (fun x _ _ => by cases x <;> rfl)

theorem bind_eq_ret {x : Outcome α} {next : α → Outcome β} {value : β} :
    (x >>= next) = ret value ↔ ∃ a, x = ret a ∧ next a = ret value := by
  cases x <;> simp

/-- `assert(p)`. -/
def require (p : Prop) [Decidable p] : Outcome Unit :=
  if p then ret () else fault .assertion

@[simp] theorem require_of {p : Prop} [Decidable p] (h : p) : require p = ret () := if_pos h

@[simp] theorem require_of_not {p : Prop} [Decidable p] (h : ¬p) : require p = fault .assertion := if_neg h

end Outcome

end CProgram
