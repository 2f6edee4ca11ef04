import Mathlib.Data.Set.Insert
import Mathlib.Data.Nat.ModEq
import Mathlib.Tactic.Tauto

/-!
# Sliding windows over a ring of slots

A receiver remembers the numbers it accepted with the greatest one and one mark for each of `N`
slots; number `c` uses slot `c % N`. `Tracks` relates a window to the set of numbers recorded so
far, and is kept by every `Recorded` step.
-/

namespace SlidingWindow

structure Window where
  highest : ℕ
  mark : ℕ → Bool

/-- `c` would be accepted: beyond the window, or inside it in an empty slot. -/
def Fresh (N : ℕ) (w : Window) (c : ℕ) : Prop :=
  w.highest < c ∨ (w.highest < c + N ∧ w.mark (c % N) = false)

/-- `w'` is `w` after `c` was recorded, as far as the `N` slots are concerned. -/
structure Recorded (N : ℕ) (w : Window) (c : ℕ) (w' : Window) : Prop where
  highest_eq : w'.highest = max w.highest c
  mark_iff : ∀ r, r < N → (w'.mark r = true ↔
    r = c % N ∨ (w.mark r = true ∧ ∀ d, w.highest < d → d ≤ c → d % N ≠ r))

/-- The window remembers exactly the numbers of `s` that are not yet too old. -/
structure Tracks (N : ℕ) (w : Window) (s : Set ℕ) : Prop where
  le_highest : ∀ c ∈ s, c ≤ w.highest
  highest_mem : w.highest = 0 ∨ w.highest ∈ s
  mark_iff : ∀ c, c ≤ w.highest → w.highest < c + N → (w.mark (c % N) = true ↔ c ∈ s)

lemma eq_of_mod_eq {N a b : ℕ} (hab : a ≤ b) (hb : b < a + N) (h : a % N = b % N) : a = b := by
  have hd : N ∣ b - a := (Nat.modEq_iff_dvd' hab).mp h
  have hz : b - a = 0 := Nat.eq_zero_of_dvd_of_lt hd (by omega)
  omega

lemma mod_ne_mod {N h a b : ℕ} (ha : a ≤ h) (ha' : h < a + N) (hb : b ≤ h) (hb' : h < b + N)
    (hne : a ≠ b) : a % N ≠ b % N := by
  intro hmod
  rcases Nat.le_total a b with hab | hba
  · exact hne (eq_of_mod_eq hab (by omega) hmod)
  · exact hne (eq_of_mod_eq hba (by omega) hmod.symm).symm

lemma tracks_empty {N : ℕ} {w : Window} (h0 : w.highest = 0)
    (hm : ∀ r, r < N → w.mark r = false) : Tracks N w ∅ where
  le_highest := by simp
  highest_mem := .inl h0
  mark_iff := by
    intro c hc hw
    have hN : 0 < N := by omega
    simp [hm _ (Nat.mod_lt c hN)]

/-- A number is fresh exactly if it was not recorded and is not too old. -/
theorem Tracks.fresh_iff {N : ℕ} {w : Window} {s : Set ℕ} (h : Tracks N w s) (hN : 0 < N)
    (c : ℕ) : Fresh N w c ↔ c ∉ s ∧ w.highest < c + N := by
  constructor
  · rintro (hc | ⟨hw, hm⟩)
    · exact ⟨fun hs => absurd (h.le_highest c hs) (by omega), by omega⟩
    · refine ⟨fun hs => ?_, hw⟩
      have := (h.mark_iff c (h.le_highest c hs) hw).mpr hs
      simp [hm] at this
  · rintro ⟨hs, hw⟩
    by_cases hc : w.highest < c
    · exact .inl hc
    · right
      refine ⟨hw, ?_⟩
      rw [← Bool.not_eq_true, h.mark_iff c (by omega) hw]
      exact hs

/-- A number is not too old if it is not too old for each number recorded. -/
lemma Tracks.highest_lt {N : ℕ} {w : Window} {s : Set ℕ} (h : Tracks N w s) (hN : 0 < N) {c : ℕ}
    (hc : ∀ d ∈ s, d < c + N) : w.highest < c + N := by
  rcases h.highest_mem with h0 | hs
  · omega
  · exact hc _ hs

/-- Recording a number that is not too old adds it to the tracked set. -/
theorem Tracks.record {N : ℕ} {w w' : Window} {s : Set ℕ} {c : ℕ} (h : Tracks N w s)
    (hN : 0 < N) (hc : w.highest < c + N) (hr : Recorded N w c w') :
    Tracks N w' (insert c s) where
  le_highest := by
    intro d hd
    rw [hr.highest_eq]
    rcases Set.mem_insert_iff.mp hd with rfl | hs
    · exact le_max_right _ _
    · exact (h.le_highest d hs).trans (le_max_left _ _)
  highest_mem := by
    rw [hr.highest_eq]
    rcases le_total w.highest c with hle | hle
    · exact .inr (by simp [max_eq_right hle])
    · rw [max_eq_left hle]
      exact h.highest_mem.imp_right (Set.mem_insert_of_mem c)
  mark_iff := by
    intro d hd hw
    rw [hr.highest_eq] at hd hw
    rw [hr.mark_iff _ (Nat.mod_lt d hN), Set.mem_insert_iff]
    by_cases hdc : d = c
    · simp [hdc]
    have hne : d % N ≠ c % N :=
      mod_ne_mod hd hw (le_max_right _ _) (by omega) hdc
    rcases Nat.lt_or_ge w.highest d with hnew | hold
    · -- the slot of `d` was emptied by the slide
      have hs : d ∉ s := fun hs => absurd (h.le_highest d hs) (by omega)
      have hslid : ¬∀ e, w.highest < e → e ≤ c → e % N ≠ d % N :=
        fun hall => hall d hnew (by omega) rfl
      tauto
    · have hkept : ∀ e, w.highest < e → e ≤ c → e % N ≠ d % N := by
        intro e he hec hmod
        exact absurd (eq_of_mod_eq (by omega) (by omega) hmod.symm) (by omega)
      have hmark := h.mark_iff d hold (by omega)
      tauto

end SlidingWindow
