import Mathlib.Data.Nat.Find
import Mathlib.Order.Basic

/-!
# Finite executions of step systems

A step system is a partial function `step : S → A → Option S`. An `Execution` numbers the states and
actions of one finite run.
-/

namespace StepSystem

/-- A finite run: `state k` is reached after the actions `act 0, …, act (k - 1)`. -/
structure Execution {S A : Type*} (start : S → Prop) (step : S → A → Option S) where
  length : ℕ
  state : ℕ → S
  act : ℕ → A
  starts : start (state 0)
  steps : ∀ k, k < length → step (state k) (act k) = some (state (k + 1))

/-- A guarded step is taken only where its guard holds. -/
theorem guarded {S : Type*} {c : Prop} [Decidable c] {s s' : S}
    (h : (if c then some s else none) = some s') : c ∧ s = s' := by
  simpa using h

/-- Induction along a stretch of positions. -/
@[elab_as_elim] theorem stretch {P : ℕ → Prop} {i j : ℕ} (hij : i ≤ j) (hi : P i)
    (hs : ∀ k, i ≤ k → k < j → P k → P (k + 1)) : P j := by
  induction j, hij using Nat.le_induction with
  | base => exact hi
  | succ j hij ih =>
    exact hs j hij (Nat.lt_succ_self j) (ih fun k hik hkj => hs k hik (Nat.lt_succ_of_lt hkj))

namespace Execution

variable {S A : Type*} {start : S → Prop} {step : S → A → Option S}

/-- Induction along a run. The property may mention the whole run and the position. -/
theorem along (E : Execution start step) {P : ℕ → Prop} (h0 : P 0)
    (hs : ∀ k, k < E.length → P k → P (k + 1)) : ∀ k, k ≤ E.length → P k := by
  intro k
  induction k with
  | zero => exact fun _ => h0
  | succ k ih => exact fun hk => hs k (by omega) (ih (by omega))

/-- An inductive invariant of the step function holds in every state of a run. -/
theorem invariant (E : Execution start step) {P : S → Prop} (h0 : ∀ s, start s → P s)
    (hs : ∀ s a s', P s → step s a = some s' → P s') : ∀ k, k ≤ E.length → P (E.state k) :=
  E.along (P := fun k => P (E.state k)) (h0 _ E.starts)
    (fun k hk hp => hs _ _ _ hp (E.steps k hk))

/-- What no step of a stretch of the run lowers is not lower at its end. -/
theorem mono {α : Type*} [Preorder α] (E : Execution start step) (f : S → α) {i j : ℕ}
    (hij : i ≤ j) (hs : ∀ k, i ≤ k → k < j → f (E.state k) ≤ f (E.state (k + 1))) :
    f (E.state i) ≤ f (E.state j) :=
  stretch hij le_rfl fun k hik hkj hle => hle.trans (hs k hik hkj)

end Execution

/-- Before position `k`, `A` held at `i`, and `B` at no position after it. -/
def Since (A B : ℕ → Prop) (k i : ℕ) : Prop := i < k ∧ A i ∧ ∀ j, i < j → j < k → ¬ B j

section Since
variable {A B : ℕ → Prop} {k i : ℕ}

lemma Since.succ (h : Since A B k i) (hb : ¬ B k) : Since A B (k + 1) i := by
  obtain ⟨hi, ha, hno⟩ := h
  refine ⟨Nat.lt_succ_of_lt hi, ha, ?_⟩
  intro j hij hjk
  rcases Nat.lt_or_eq_of_le (Nat.le_of_lt_succ hjk) with hlt | rfl
  · exact hno j hij hlt
  · exact hb

lemma since_self (h : A k) : Since A B (k + 1) k :=
  ⟨Nat.lt_succ_self k, h, fun _ hkj hj => absurd hkj (Nat.not_lt_of_le (Nat.le_of_lt_succ hj))⟩

/-- At the next position, it is this one or one before which `B` does not end. -/
lemma Since.of_succ (h : Since A B (k + 1) i) : (i = k ∧ A k) ∨ (Since A B k i ∧ ¬ B k) := by
  obtain ⟨hi, ha, hno⟩ := h
  rcases Nat.lt_or_eq_of_le (Nat.le_of_lt_succ hi) with hlt | rfl
  · right
    exact ⟨⟨hlt, ha, fun j hij hjk => hno j hij (Nat.lt_succ_of_lt hjk)⟩,
      hno k hlt (Nat.lt_succ_self k)⟩
  · exact .inl ⟨rfl, ha⟩

lemma exists_since_succ : (∃ i, Since A B (k + 1) i) ↔ A k ∨ ((∃ i, Since A B k i) ∧ ¬ B k) := by
  constructor
  · rintro ⟨i, h⟩
    rcases h.of_succ with ⟨-, ha⟩ | ⟨h, hb⟩
    · exact .inl ha
    · exact .inr ⟨⟨i, h⟩, hb⟩
  · rintro (ha | ⟨⟨i, h⟩, hb⟩)
    · exact ⟨k, since_self ha⟩
    · exact ⟨i, h.succ hb⟩

lemma not_since_zero : ¬ Since A B 0 i := fun h => absurd h.1 (Nat.not_lt_zero i)

end Since

/-- The states visited from `s` by a list of actions; actions that are not enabled stutter. -/
def visited {S A : Type*} (step : S → A → Option S) (s : S) : List A → ℕ → S
  | _, 0 => s
  | [], _ + 1 => s
  | a :: as, k + 1 => visited step ((step s a).getD s) as k

def allEnabled {S A : Type*} (step : S → A → Option S) (s : S) : List A → Bool
  | [] => true
  | a :: as =>
    match step s a with
    | none => false
    | some s' => allEnabled step s' as

lemma step_visited {S A : Type*} {step : S → A → Option S} (idle : A) :
    ∀ (as : List A) (s : S), allEnabled step s as = true → ∀ k, k < as.length →
      step (visited step s as k) (as.getD k idle) = some (visited step s as (k + 1)) := by
  intro as
  induction as with
  | nil => intro s _ k hk; cases hk
  | cons a as ih =>
    intro s hen k hk
    cases hstep : step s a with
    | none => simp [allEnabled, hstep] at hen
    | some s' =>
      simp only [allEnabled, hstep] at hen
      cases k with
      | zero => cases as <;> simp [visited, hstep]
      | succ k => simpa [visited, hstep] using ih s' hen k (by simpa using hk)

lemma visited_append_left {S A : Type*} {step : S → A → Option S} (as bs : List A) (s : S)
    {k : ℕ} (hk : k ≤ as.length) : visited step s (as ++ bs) k = visited step s as k := by
  induction as generalizing s k with
  | nil =>
    obtain rfl : k = 0 := by simpa using hk
    cases bs <;> rfl
  | cons _ _ ih =>
    cases k with
    | zero => rfl
    | succ => exact ih _ (by simpa using hk)

lemma visited_append_right {S A : Type*} {step : S → A → Option S} (as bs : List A) (s : S)
    (k : ℕ) : visited step s (as ++ bs) (as.length + k) =
      visited step (visited step s as as.length) bs k := by
  induction as generalizing s with
  | nil => simp [visited]
  | cons _ _ ih =>
    rw [List.length_cons, Nat.add_right_comm]
    exact ih _

lemma allEnabled_append {S A : Type*} {step : S → A → Option S} (as bs : List A) (s : S)
    (ha : allEnabled step s as = true)
    (hb : allEnabled step (visited step s as as.length) bs = true) :
    allEnabled step s (as ++ bs) = true := by
  induction as generalizing s with
  | nil => exact hb
  | cons a _ ih =>
    cases hstep : step s a with
    | none => simp [allEnabled, hstep] at ha
    | some s' =>
      simp only [allEnabled, hstep] at ha
      simp only [List.cons_append, allEnabled, hstep]
      apply ih s' ha
      simpa [visited, hstep] using hb

/-- A list of actions, each enabled where it is taken, is a run. -/
def runOf {S A : Type*} {start : S → Prop} {step : S → A → Option S} (s : S) (hs : start s)
    (idle : A) (as : List A) (hen : allEnabled step s as = true) : Execution start step where
  length := as.length
  state := visited step s as
  act k := as.getD k idle
  starts := by cases as <;> exact hs
  steps := step_visited idle as s hen

end StepSystem
