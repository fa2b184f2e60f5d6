import RemoteCtrl.Session.Wire

/-!
# Children and the loop that reaps them

The children of the service process, as the kernel keeps them: those that run and those that have ended and
are not yet waited for. `process_get_status` asks for one after the other without blocking; one turn of its
loop is a function of what `waitpid` returns, of its flag `one` and of `_pid`.
-/

namespace RemoteCtrl.Service

open CProgram

/-! ### Children -/

structure Children where
  alive : List Int
  zombies : List Int
  nodup : (alive ++ zombies).Nodup
  pos : ∀ p ∈ alive ++ zombies, 0 < p
  deriving DecidableEq

namespace Children

def empty : Children := ⟨[], [], by decide, by decide⟩

/-- A number the kernel may give to a new process. -/
def Fresh (kids : Children) (p : Int) : Prop := 0 < p ∧ p ∉ kids.alive ++ kids.zombies

instance (kids : Children) (p : Int) : Decidable (kids.Fresh p) :=
  inferInstanceAs (Decidable (0 < p ∧ p ∉ kids.alive ++ kids.zombies))

def fork (kids : Children) (p : Int) : Children :=
  if hfresh : kids.Fresh p then
    { alive := p :: kids.alive
      zombies := kids.zombies
      nodup := List.nodup_cons.mpr ⟨hfresh.2, kids.nodup⟩
      pos := List.forall_mem_cons.mpr ⟨hfresh.1, kids.pos⟩ }
  else kids

theorem exit_perm {kids : Children} {p : Int} (hp : p ∈ kids.alive) :
    (kids.alive ++ kids.zombies).Perm (kids.alive.erase p ++ p :: kids.zombies) :=
  ((List.perm_cons_erase hp).append_right _).trans List.perm_middle.symm

def exit (kids : Children) (p : Int) : Children :=
  if hp : p ∈ kids.alive then
    { alive := kids.alive.erase p
      zombies := p :: kids.zombies
      nodup := (exit_perm hp).nodup_iff.mp kids.nodup
      pos := fun q hq => kids.pos q ((exit_perm hp).mem_iff.mpr hq) }
  else kids

theorem reap_sublist (kids : Children) (p : Int) :
    (kids.alive ++ kids.zombies.erase p).Sublist (kids.alive ++ kids.zombies) :=
  List.erase_sublist.append_left _

def reap (kids : Children) (p : Int) : Children where
  alive := kids.alive
  zombies := kids.zombies.erase p
  nodup := kids.nodup.sublist (kids.reap_sublist p)
  pos := fun q hq => kids.pos q ((kids.reap_sublist p).mem hq)

def Has (kids : Children) (p : Int) : Prop := p ∈ kids.alive ∨ p ∈ kids.zombies

end Children

/-! ### The handler -/

/-- What `waitpid(-1, &status, WNOHANG)` returns: zero, a child, or an error. -/
inductive WaitResult
  | running
  | child (pid : Int)
  | error (errno : Errno)
  deriving DecidableEq, Repr

/-- What `waitpid` may return with these children. -/
def Children.MayReturn (kids : Children) : WaitResult → Prop
  | .running => kids.zombies = [] ∧ kids.alive ≠ []
  | .child p => p ∈ kids.zombies
  | .error .EINTR => True
  | .error .ECHILD => kids.zombies = [] ∧ kids.alive = []
  | .error _ => False

instance (kids : Children) : (r : WaitResult) → Decidable (kids.MayReturn r)
  | .running => inferInstanceAs (Decidable (_ ∧ _))
  | .child _ => inferInstanceAs (Decidable (_ ∈ _))
  | .error .EINTR => isTrue trivial
  | .error .ECHILD => inferInstanceAs (Decidable (_ ∧ _))
  | .error .EAGAIN => isFalse id
  | .error .other => isFalse id

def Children.wait (kids : Children) : WaitResult → Children
  | .child p => kids.reap p
  | _ => kids

/-- The end of a turn, from `one = 1` on: the flag of the next turn, if there is one, and `_pid`. -/
def compareTurn (pid slot : Int) : Option Bool × Int :=
  if pid = slot then (none, -1) else (some true, slot)

/-- One turn of the loop of `process_get_status`, with the global `_pid` as `slot`. -/
def waitTurn (one : Bool) (slot : Int) : WaitResult → Option Bool × Int
  | .running => (none, slot)
  | .error .EINTR => (some one, slot)
  -- the first ECHILD of a run falls through to the comparison, with `pid` at -1
  | .error .ECHILD => if one then (none, slot) else compareTurn (-1) slot
  | .error _ => compareTurn (-1) slot
  | .child pid => compareTurn pid slot

/-! ### Facts about children -/

namespace Children

theorem not_alive_of_zombie {kids : Children} {p : Int} (hp : p ∈ kids.zombies) : p ∉ kids.alive :=
  fun halive => (List.nodup_append.mp kids.nodup).2.2 p halive p hp rfl

theorem alive_fork {kids : Children} {p : Int} (hfresh : kids.Fresh p) : (kids.fork p).alive = p :: kids.alive := by
  rw [fork, dif_pos hfresh]

theorem mem_alive_of_exit {kids : Children} {p q : Int} (hq : q ∈ (kids.exit p).alive) : q ∈ kids.alive := by
  rw [exit] at hq
  split at hq
  · exact List.mem_of_mem_erase hq
  · exact hq

@[simp] theorem alive_wait (kids : Children) (r : WaitResult) : (kids.wait r).alive = kids.alive := by
  cases r <;> rfl

theorem has_fork_self {kids : Children} {p : Int} (hfresh : kids.Fresh p) : (kids.fork p).Has p := by
  rw [Has, alive_fork hfresh]
  exact .inl List.mem_cons_self

theorem has_exit {kids : Children} {p q : Int} (hq : kids.Has q) : (kids.exit p).Has q := by
  rw [exit]
  split
  · next hp =>
      exact List.mem_append.mp ((exit_perm hp).mem_iff.mp (List.mem_append.mpr hq))
  · exact hq

theorem has_wait {kids : Children} {q : Int} {r : WaitResult} (hq : kids.Has q) (hr : r ≠ .child q) :
    (kids.wait r).Has q := by
  cases r with
  | running => exact hq
  | error errno => exact hq
  | child p =>
      have hne : q ≠ p := fun hsame => hr (hsame ▸ rfl)
      exact hq.imp id (List.mem_erase_of_ne hne).mpr

end Children

/-! ### What a turn does to the slot -/

/-- A turn clears the slot when it returns the child the slot names, and leaves it otherwise. The failed
`waitpid` that compares equal finds the slot clear already. -/
theorem waitTurn_slot (one : Bool) (slot : Int) (r : WaitResult) :
    (waitTurn one slot r).2 = if r = .child slot then -1 else slot := by
  have hcompare (pid : Int) : (compareTurn pid slot).2 = if pid = slot then -1 else slot := by
    rw [compareTurn]
    split <;> rfl
  have hfailed : (compareTurn (-1) slot).2 = slot := by
    rw [hcompare]
    split
    · next hslot => exact hslot
    · rfl
  cases r with
  | running => rfl
  | child pid => simp only [waitTurn, hcompare, WaitResult.child.injEq]
  | error errno =>
      rw [if_neg (by simp)]
      cases errno with
      | EINTR => rfl
      | EAGAIN => exact hfailed
      | other => exact hfailed
      | ECHILD =>
          cases one with
          | true => rfl
          | false => exact hfailed

end RemoteCtrl.Service
