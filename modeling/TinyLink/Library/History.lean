import Mathlib.Data.List.Induction

/-!
# Properties of a growing history

A history is a list that grows at its end. `Each P l` says that every entry of `l` satisfies `P`
together with what came before it; it is kept by appending entries that do.
-/

namespace History

variable {α : Type*}

/-- Every entry satisfies `P` with its past. -/
def Each (P : List α → α → Prop) (l : List α) : Prop :=
  ∀ past x rest, l = past ++ x :: rest → P past x

variable {P Q : List α → α → Prop} {l : List α} {x : α}

lemma each_nil : Each P [] := by
  intro past x rest h
  simp at h

lemma each_concat : Each P (l ++ [x]) ↔ Each P l ∧ P l x := by
  constructor
  · intro h
    refine ⟨fun past y rest hl => ?_, h l x [] rfl⟩
    exact h past y (rest ++ [x]) (by simp [hl])
  · rintro ⟨hl, hx⟩ past y rest h
    rcases List.eq_nil_or_concat rest with rfl | ⟨rest, z, rfl⟩
    · obtain ⟨rfl, he⟩ := List.append_inj' h rfl
      simp only [List.cons.injEq, and_true] at he
      exact he ▸ hx
    · rw [List.concat_eq_append, ← List.cons_append, ← List.append_assoc] at h
      obtain ⟨rfl, -⟩ := List.append_inj' h rfl
      exact hl past y rest rfl

lemma Each.mono (h : Each P l) (hPQ : ∀ past x, P past x → Q past x) : Each Q l :=
  fun past x rest hl => hPQ past x (h past x rest hl)

end History
