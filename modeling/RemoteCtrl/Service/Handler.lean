import RemoteCtrl.Service.Loop

/-!
# The SIGCHLD handler on its own

`acthandler` is installed for SIGCHLD alone and then calls `process_get_status`. Its loop is followed here turn
by turn, over the answers of `waitpid` in the order they come, with no child ending in the meantime. Every
answer but an interrupted one brings the return closer, so the loop returns; and it returns with the slot
cleared exactly when the child the slot names had ended.
-/

namespace RemoteCtrl.Service

open CProgram CProgram.Transition

/-- What the loop changes: the children, the flag `one` or `none` after the return, and `_pid`. -/
structure Reaping where
  kids : Children
  one : Option Bool
  slot : Int
  deriving DecidableEq

namespace Reaping

def turn (s : Reaping) (r : WaitResult) : Reaping :=
  match s.one with
  | none => s
  | some one => { kids := s.kids.wait r, one := (waitTurn one s.slot r).1, slot := (waitTurn one s.slot r).2 }

theorem turn_of_running {s : Reaping} {one : Bool} (hone : s.one = some one) (r : WaitResult) :
    s.turn r = ⟨s.kids.wait r, (waitTurn one s.slot r).1, (waitTurn one s.slot r).2⟩ := by
  rw [turn, hone]

theorem turn_of_returned {s : Reaping} (hone : s.one = none) (r : WaitResult) : s.turn r = s := by
  rw [turn, hone]

end Reaping

/-- `process_get_status` after so many turns, when `waitpid` answers in the order of `waits`. -/
def processGetStatus (kids : Children) (slot : Int) (waits : ℕ → WaitResult) : ℕ → Reaping
  | 0 => { kids, one := some false, slot }
  | n + 1 => (processGetStatus kids slot waits n).turn (waits n)

/-- While the loop runs, `waitpid` answers as its documentation says. -/
def Answers (kids : Children) (slot : Int) (waits : ℕ → WaitResult) : Prop :=
  ∀ n, (processGetStatus kids slot waits n).one ≠ none →
    (processGetStatus kids slot waits n).kids.MayReturn (waits n)

/-! ### The loop inside the service -/

def State.reaping (s : State) : Reaping := { kids := s.kids, one := s.handler, slot := s.pid }

/-- A turn of the handler in the service loop is a turn of `process_get_status`. -/
theorem reaping_step {s t : State} {r : WaitResult} (hstep : step s (.waitpid r) = some t) :
    t.reaping = s.reaping.turn r := by
  obtain ⟨⟨hruns, _⟩, rfl⟩ := step_eq_some.mp hstep
  obtain ⟨one, hone⟩ := Option.isSome_iff_exists.mp hruns
  have hrunning : s.reaping.one = some one := hone
  rw [Reaping.turn_of_running hrunning, next, hone]
  rfl

/-! ### Termination -/

namespace Reaping

/-- Every child still to be returned takes a turn, and so does the answer that none is left, which the flag
makes the loop hear twice. -/
def rank (s : Reaping) : ℕ :=
  match s.one with
  | none => 0
  | some true => s.kids.zombies.length + 1
  | some false => s.kids.zombies.length + 2

theorem rank_of_running {s : Reaping} {one : Bool} (hone : s.one = some one) :
    s.rank = s.kids.zombies.length + if one then 1 else 2 := by
  rw [rank, hone]
  cases one <;> rfl

theorem rank_compareTurn_le (kids : Children) (pid slot : Int) :
    rank ⟨kids, (compareTurn pid slot).1, (compareTurn pid slot).2⟩ ≤ kids.zombies.length + 1 := by
  rw [compareTurn]
  split
  · exact Nat.zero_le _
  · exact Nat.le_refl _

theorem rank_turn_lt {s : Reaping} {r : WaitResult} (hruns : s.one ≠ none) (hmay : s.kids.MayReturn r)
    (hbusy : r ≠ .error .EINTR) : (s.turn r).rank < s.rank := by
  obtain ⟨one, hone⟩ := Option.ne_none_iff_exists'.mp hruns
  have hbefore : s.kids.zombies.length + 1 ≤ s.rank := by
    rw [rank_of_running hone]
    cases one <;> simp
  rw [turn_of_running hone]
  cases r with
  | running => exact (Nat.succ_pos _).trans_le hbefore
  | child pid =>
      have hleft : (s.kids.reap pid).zombies.length + 1 = s.kids.zombies.length :=
        List.length_erase_add_one hmay
      have hafter := rank_compareTurn_le (s.kids.reap pid) pid s.slot
      exact (hafter.trans_eq hleft).trans_lt hbefore
  | error errno =>
      cases errno with
      | EINTR => exact absurd rfl hbusy
      | EAGAIN => exact hmay.elim
      | other => exact hmay.elim
      | ECHILD =>
          cases one with
          | true => exact (Nat.succ_pos _).trans_le hbefore
          | false =>
              have hafter := rank_compareTurn_le s.kids (-1) s.slot
              rw [rank_of_running hone]
              exact Nat.lt_of_le_of_lt hafter (by simp)

end Reaping

theorem processGetStatus_terminates {kids : Children} {slot : Int} {waits : ℕ → WaitResult}
    (hanswers : Answers kids slot waits) (hfinite : {n | waits n = .error .EINTR}.Finite) :
    ∃ n, (processGetStatus kids slot waits n).one = none :=
  exists_of_rank_lt (fun s => s.one = none) Reaping.rank hfinite fun n hbusy hruns =>
    Reaping.rank_turn_lt hruns (hanswers n hruns) hbusy

/-! ### The answers never run out -/

theorem Children.exists_mayReturn (kids : Children) : ∃ r, kids.MayReturn r ∧ r ≠ .error .EINTR := by
  cases hzombies : kids.zombies with
  | cons pid rest =>
      have hpid : pid ∈ kids.zombies := hzombies ▸ List.mem_cons_self
      exact ⟨.child pid, hpid, by simp⟩
  | nil =>
      cases halive : kids.alive with
      | cons pid rest => exact ⟨.running, ⟨hzombies, halive ▸ List.cons_ne_nil pid rest⟩, by simp⟩
      | nil => exact ⟨.error .ECHILD, ⟨hzombies, halive⟩, by simp⟩

/-- Whatever the children, the loop can be run to its end. -/
theorem exists_answers (kids : Children) (slot : Int) :
    ∃ waits, Answers kids slot waits ∧ ∀ n, waits n ≠ .error .EINTR := by
  choose answer hmay hbusy using Children.exists_mayReturn
  let turn (s : Reaping) : Reaping := s.turn (answer s.kids)
  let states (n : ℕ) : Reaping := turn^[n] { kids, one := some false, slot }
  have hstates : ∀ n, processGetStatus kids slot (fun n => answer (states n).kids) n = states n := by
    intro n
    induction n with
    | zero => rfl
    | succ n ih =>
        rw [processGetStatus, ih]
        exact (Function.iterate_succ_apply' turn n _).symm
  refine ⟨fun n => answer (states n).kids, fun n _ => ?_, fun n => hbusy _⟩
  rw [hstates]
  exact hmay _

/-! ### The slot on return -/

/-- The loop keeps the slot while it runs, and the slot's child if it had ended; on return that child is
reaped and the slot is clear if it was or if that child had ended. -/
def Reaping.Settles (kids : Children) (slot : Int) (s : Reaping) : Prop :=
  match s.one with
  | some _ => s.slot = slot ∧ (slot ∈ s.kids.zombies ↔ slot ∈ kids.zombies)
  | none => s.slot = (if slot = -1 ∨ slot ∈ kids.zombies then -1 else slot) ∧ slot ∉ s.kids.zombies

namespace Reaping

section
variable {kids : Children} {slot : Int} {s : Reaping}

theorem settles_of_running {one : Bool} (hone : s.one = some one) :
    Settles kids slot s ↔ s.slot = slot ∧ (slot ∈ s.kids.zombies ↔ slot ∈ kids.zombies) := by
  rw [Settles, hone]

theorem settles_of_returned (hone : s.one = none) :
    Settles kids slot s ↔
      s.slot = (if slot = -1 ∨ slot ∈ kids.zombies then -1 else slot) ∧ slot ∉ s.kids.zombies := by
  rw [Settles, hone]

end

/-- Once no child is left to return, the slot stands as it should. -/
theorem settles_of_none_left {kids left : Children} {slot : Int} (hsame : slot ∈ left.zombies ↔ slot ∈ kids.zombies)
    (hleft : left.zombies = []) : Settles kids slot ⟨left, none, slot⟩ := by
  have hgone : slot ∉ left.zombies := by
    rw [hleft]
    exact List.not_mem_nil
  refine ⟨?_, hgone⟩
  split
  · next hclear => exact hclear.resolve_right (mt hsame.mpr hgone)
  · rfl

theorem Settles.turn {kids : Children} {slot : Int} {s : Reaping} {r : WaitResult} (hinv : Settles kids slot s)
    (hmay : s.one ≠ none → s.kids.MayReturn r) : Settles kids slot (s.turn r) := by
  cases hone : s.one with
  | none => rwa [turn_of_returned hone]
  | some one =>
      obtain ⟨rfl, hsame⟩ := (settles_of_running hone).mp hinv
      replace hmay : s.kids.MayReturn r := hmay (by simp [hone])
      rw [turn_of_running hone]
      cases r with
      | running => exact settles_of_none_left hsame hmay.1
      | child pid =>
          by_cases hpid : pid = s.slot
          · subst hpid
            have hended : s.slot ∈ kids.zombies := hsame.mp hmay
            have hreaped : s.slot ∉ (s.kids.reap s.slot).zombies :=
              (List.nodup_append.mp s.kids.nodup).2.1.not_mem_erase
            rw [waitTurn, compareTurn, if_pos rfl]
            exact ⟨(if_pos (.inr hended)).symm, hreaped⟩
          · have hkept : s.slot ∈ (s.kids.reap pid).zombies ↔ s.slot ∈ s.kids.zombies :=
              List.mem_erase_of_ne (Ne.symm hpid)
            rw [waitTurn, compareTurn, if_neg hpid]
            exact ⟨rfl, hkept.trans hsame⟩
      | error errno =>
          cases errno with
          | EINTR => exact ⟨rfl, hsame⟩
          | EAGAIN => exact hmay.elim
          | other => exact hmay.elim
          | ECHILD =>
              cases one with
              | true => exact settles_of_none_left hsame hmay.1
              | false =>
                  rw [waitTurn, if_neg Bool.false_ne_true, compareTurn]
                  split
                  · -- the failed call compares equal to a slot that is clear already
                    next hclear =>
                      rw [hclear]
                      exact settles_of_none_left hsame hmay.1
                  · exact ⟨rfl, hsame⟩

end Reaping

theorem processGetStatus_settles {kids : Children} {slot : Int} {waits : ℕ → WaitResult}
    (hanswers : Answers kids slot waits) (n : ℕ) : Reaping.Settles kids slot (processGetStatus kids slot waits n) := by
  induction n with
  | zero => exact ⟨rfl, Iff.rfl⟩
  | succ n ih => exact ih.turn (hanswers n)

/-- The handler returns whatever `_pid` is and in whatever order the children come, after any finite number of
interrupted calls; `_pid` is then clear if it was clear or named a child that had ended, unchanged otherwise,
and such a child has been waited for. -/
theorem processGetStatus_clears_slot (kids : Children) (slot : Int) (waits : ℕ → WaitResult)
    (hanswers : Answers kids slot waits) (hfinite : {n | waits n = .error .EINTR}.Finite) :
    (∃ n, (processGetStatus kids slot waits n).one = none) ∧
      ∀ n, (processGetStatus kids slot waits n).one = none →
        (processGetStatus kids slot waits n).slot = (if slot = -1 ∨ slot ∈ kids.zombies then -1 else slot) ∧
          slot ∉ (processGetStatus kids slot waits n).kids.zombies := by
  refine ⟨processGetStatus_terminates hanswers hfinite, fun n hreturned => ?_⟩
  exact (Reaping.settles_of_returned hreturned).mp (processGetStatus_settles hanswers n)

private def someKids : Children := ⟨[9], [7, 5], by decide, by decide⟩

private def someWaits : ℕ → WaitResult
  | 0 => .child 5
  | 1 => .error .EINTR
  | 2 => .child 7
  | _ => .running

private theorem someWaits_returned (n : ℕ) : (processGetStatus someKids 7 someWaits (n + 3)).one = none := by
  induction n with
  | zero => decide
  | succ n ih =>
      rw [processGetStatus, Reaping.turn_of_returned ih]
      exact ih

theorem processGetStatus_clears_seven :
    (∃ n, (processGetStatus someKids 7 someWaits n).one = none) ∧
      ∀ n, (processGetStatus someKids 7 someWaits n).one = none →
        (processGetStatus someKids 7 someWaits n).slot = -1 ∧
          7 ∉ (processGetStatus someKids 7 someWaits n).kids.zombies := by
  have hanswers : Answers someKids 7 someWaits
    | 0, _ => by decide
    | 1, _ => by decide
    | 2, _ => by decide
    | n + 3, hruns => absurd (someWaits_returned n) hruns
  have hinterrupted : ∀ n, someWaits n = .error .EINTR → n ∈ ({1} : Set ℕ)
    | 0, hwait => absurd hwait (by decide)
    | 1, _ => rfl
    | 2, hwait => absurd hwait (by decide)
    | n + 3, hwait => absurd hwait (by simp [someWaits])
  exact processGetStatus_clears_slot someKids 7 someWaits hanswers ((Set.finite_singleton 1).subset hinterrupted)

end RemoteCtrl.Service
