import Mathlib.Logic.Function.Basic

/-!
# Mutual exclusion read off program points

Tasks move between program points; some of these hold the lock. `Owned holder holds` says that the
lock's holder is exactly the task whose program point holds it. A task moves by `Function.update`.
-/

namespace Mutex
variable {T : Type*} {holder : Option T} {holds : T → Bool} {t u : T}

def Owned (holder : Option T) (holds : T → Bool) : Prop := ∀ t, holds t = true ↔ holder = some t

lemma Owned.unheld (h : Owned none holds) (t : T) : holds t = false := by
  cases ht : holds t with
  | false => rfl
  | true => cases (h t).mp ht

lemma Owned.other (h : Owned holder holds) (ht : holds t = true) (hu : u ≠ t) :
    holds u = false := by
  cases hb : holds u with
  | false => rfl
  | true =>
    have heq : some u = some t := ((h u).mp hb).symm.trans ((h t).mp ht)
    exact absurd (Option.some.inj heq) hu

variable [DecidableEq T]

/-- A move between two points that both hold the lock, or both do not. -/
lemma Owned.keep (h : Owned holder holds) {b : Bool} (hb : b = holds t) :
    Owned holder (Function.update holds t b) := by
  rw [hb, Function.update_eq_self]
  exact h

lemma Owned.take (h : Owned none holds) : Owned (some t) (Function.update holds t true) := by
  intro u
  by_cases hu : u = t
  · subst hu
    simp
  · simp [Function.update_of_ne hu, h.unheld u, Ne.symm hu]

lemma Owned.give (h : Owned holder holds) (ht : holds t = true) :
    Owned none (Function.update holds t false) := by
  intro u
  by_cases hu : u = t
  · subst hu
    simp
  · simp [Function.update_of_ne hu, h.other ht hu]

end Mutex
