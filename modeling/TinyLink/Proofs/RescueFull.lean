import Mathlib.Tactic.IntervalCases
import TinyLink.Proofs.RescueFlush

/-!
# When a kept frame displaces another

While the frames stand together up to the newest, the next slot is taken only in a full ring. A
flush breaks that by dropping a frame as delivered behind one that the relay refuses.
-/

namespace TinyLink.Proofs
open StepSystem

def Packed (r : WgRescueRing) : Prop :=
  ∀ p q, p ≤ q → q < 10 → (r.nth p).atUs ≠ 0 → (r.nth q).atUs ≠ 0

section Runs
variable {E : RescueRun} {k : ℕ}

lemma timeAt_nonneg (E : RescueRun) (k : ℕ) : 0 ≤ E.timeAt k := Int.natCast_nonneg _

lemma nth_time (hk : k < E.length) {q : ℕ} (hq : q < 10) (hne : ((E.ringAt k).nth q).atUs ≠ 0) :
    0 < E.timeAt k := by
  have h := ringHistory E k hk.le
  obtain ⟨i, hu, rfl⟩ := h.cover q hq hne
  rw [← frameAt_eq] at hne
  rw [h.time i hu hne] at hne
  have hmono := rescueTime_mono hu.1 hk
  have hpos := timeAt_nonneg E i
  omega

lemma packed_write (hk : k < E.length) (h : Packed (E.ringAt k)) {v : WgRescue}
    (hv : v.atUs = E.timeAt k) (hring : E.ringAt (k + 1) = pushed (E.ringAt k) v) :
    Packed (E.ringAt (k + 1)) := by
  intro p q hpq hq hne
  rw [hring] at hne ⊢
  rcases Nat.lt_or_ge p 9 with hp9 | hp9
  · rw [nth_pushed _ _ hp9] at hne
    rcases Nat.lt_or_ge q 9 with hq9 | hq9
    · rw [nth_pushed _ _ hq9]
      exact h (p + 1) (q + 1) (by omega) (by omega) hne
    · obtain rfl : q = 9 := by omega
      rw [nth_pushed_last, hv]
      exact (nth_time hk (by omega) hne).ne'
  · obtain rfl : p = q := by omega
    exact hne

lemma after_left {c : FlushCall} {q : ℕ} : (c.after q).atUs ≠ 0 ↔
    c.pends q = true ∧ ∃ p, p ≤ q ∧ c.pends p = true ∧ c.accepts p = false := by
  have hrefused : c.takes (q + 1) = false ↔ ∃ p, p ≤ q ∧ c.pends p = true ∧ c.accepts p = false := by
    rw [Bool.eq_false_iff, ne_eq, takes_iff]
    simp only [Nat.lt_succ_iff, not_forall, exists_prop, Bool.not_eq_true]
  rw [← hrefused]
  constructor
  · intro hne
    by_contra hno
    rw [FlushCall.after, if_neg hno] at hne
    exact hne rfl
  · intro h
    rw [FlushCall.after, if_pos h]
    exact pends_full h.1

lemma packed_flush {fromUs maxAgeUs : ℤ} {accepts : ℕ → Bool}
    (hf : E.FlushesAt k fromUs maxAgeUs accepts) (hdrops : E.DropsInOrder k)
    (h : Packed (E.ringAt k)) : Packed (E.ringAt (k + 1)) := by
  have hk := hf.1.le
  intro p q hpq hq hne
  rw [(flushesAt_ring hf).2, flush_nth _ (by omega), after_left] at hne
  rw [(flushesAt_ring hf).2, flush_nth _ hq, after_left]
  obtain ⟨hp, m, hmp, hm, ha⟩ := hne
  refine ⟨?_, m, by omega, hm, ha⟩
  obtain ⟨i, hi, rfl⟩ := exists_pendingAt hk (by omega) hm
  have hneq := h p q hpq hq (pends_full hp)
  obtain ⟨j, huj, rfl⟩ := (ringHistory E k hk).cover q hq hneq
  have hui := ((pendingAt_iff hk).mp hi).1
  rcases Nat.lt_or_ge i j with hij | hij
  · have hin : E.InRing k j := by
      rw [inRing_iff, frameAt_eq]
      exact ⟨huj, hneq⟩
    exact ((pendingAt_iff hk).mp (hdrops _ _ _ hf i j hij hi ha hin)).2
  · -- the refused slot is this one
    have hno := mt (order_iff hk hui huj).mp (by omega)
    rw [show E.posAt k j = E.posAt k i by omega]
    exact hm

lemma packed_run (hdrops : ∀ m, m < k → E.DropsInOrder m) (hk : k ≤ E.length) :
    Packed (E.ringAt k) := by
  induction k with
  | zero =>
    intro p q _ _ hne
    rw [RescueRun.ringAt, E.starts] at hne
    exact absurd (by simp [WgRescueRing.nth, WgRescueRing.empty, Vector.get]) hne
  | succ k ih =>
    have hprev := ih (fun m hm => hdrops m (by omega)) (by omega)
    rcases rescueStep_cases hk with ⟨buf, gen, _, hring⟩ | ⟨_, _, hring⟩ |
      ⟨_, fromUs, maxAgeUs, accepts, hf, _⟩
    · exact packed_write hk hprev rfl hring
    · rw [hring]
      exact hprev
    · exact packed_flush hf (hdrops k (by omega)) hprev

end Runs

/-- While no flush drops a frame kept after one it leaves, a frame is overwritten only in a full
ring, and it is the oldest. -/
theorem keep_overwrites_oldest_of_full (E : RescueRun) {k i : ℕ}
    (hdrops : ∀ m, m < k → E.DropsInOrder m) (hin : E.InRing k i) (ho : E.Overwrites k i) :
    (∀ s : Fin 10, ((E.ringAt k).slot.get s).atUs ≠ 0) ∧ ∀ j, E.InRing k j → i ≤ j := by
  have hk : k < E.length := by
    obtain ⟨⟨_, _, hkeep⟩, _⟩ := ho
    exact hkeep.1
  have hpos : E.posAt k i = 0 := by
    rw [RescueRun.posAt, ← ho.2, RescueRun.slotOf, Fin.sub_self]
    rfl
  obtain ⟨hu, hne⟩ := inRing_iff.mp hin
  rw [frameAt_eq, hpos] at hne
  refine ⟨?_, ?_⟩
  · intro s
    rw [slot_get_eq_nth]
    exact packed_run hdrops hk.le 0 _ (Nat.zero_le _) (Fin.isLt _) hne
  · intro j hj
    have hord := mt (order_iff hk.le (inRing_iff.mp hj).1 hu).mpr (by omega)
    omega

section Samples

def takeTwo (p : ℕ) : Bool := p < 2

/-- The relay takes two of ten frames, and three more are kept. -/
def fullSteps : List RescueStep :=
  List.replicate 10 ⟨1, .keep [7] 1⟩ ++ ⟨2, .flush 0 100 takeTwo⟩ ::
    List.replicate 3 ⟨3, .keep [8] 1⟩

def fullRun : RescueRun :=
  runOf emptyStart emptyStart_started ⟨0, .keep [] 0⟩ fullSteps (by decide +kernel)

lemma fullRun_inRing : fullRun.InRing 13 2 := by
  refine ⟨by decide, ⟨[7], 1, by decide, rfl, by decide⟩, ?_, by decide +kernel⟩
  intro j hj hj' ho
  have hslot := ho.2
  interval_cases j <;> exact absurd hslot (by decide +kernel)

theorem full_ring_loses_oldest :
    (∀ s : Fin 10, ((fullRun.ringAt 13).slot.get s).atUs ≠ 0) ∧ ∀ j, fullRun.InRing 13 j → 2 ≤ j := by
  refine keep_overwrites_oldest_of_full fullRun ?_ fullRun_inRing
    ⟨⟨[8], 1, by decide, rfl, by decide⟩, by decide +kernel⟩
  rintro m hm fromUs maxAgeUs accepts ⟨_, hop⟩ i j _ _ _ hj
  interval_cases m <;> cases hop
  -- the flush: its frames are of one age
  have hage : fullRun.timeAt j = 1 := by
    have hlt := hj.1
    interval_cases j <;> rfl
  exact ⟨hj, .inr (by rw [hage]; decide), by rw [RescueRun.YoungAt, hage]; decide⟩

def refuseAll (_ : ℕ) : Bool := false

def holeSteps : List RescueStep :=
  [⟨1, .keep [1] 1⟩, ⟨2, .flush 0 100 refuseAll⟩, ⟨3, .keep [2] 1⟩, ⟨3, .keep [3] 1⟩,
    ⟨4, .flush 4 100 refuseAll⟩] ++ List.replicate 8 ⟨5, .keep [4] 1⟩

def holeRun : RescueRun :=
  runOf emptyStart emptyStart_started ⟨0, .keep [] 0⟩ holeSteps (by decide +kernel)

/-- The eighth of them overwrites the owed frame while two slots are empty. -/
theorem owed_frame_overwritten_beside_holes :
    holeRun.InRing 12 0 ∧ holeRun.OwedAt 12 0 ∧ holeRun.YoungAt 12 0 100 ∧ holeRun.Overwrites 12 0 ∧
      ((holeRun.ringAt 12).slot.get 1).atUs = 0 ∧ ((holeRun.ringAt 12).slot.get 2).atUs = 0 := by
  refine ⟨⟨by decide, ⟨[1], 1, by decide, rfl, by decide⟩, ?_, by decide +kernel⟩,
    (by decide +kernel : (holeRun.frameAt 12 0).owed = true), (by decide : (5 : ℤ) ≤ 1 + 100),
    ⟨⟨[4], 1, by decide, rfl, by decide⟩, by decide +kernel⟩, by decide +kernel, by decide +kernel⟩
  intro j hj hj' ho
  obtain ⟨⟨buf, gen, _, hop, _⟩, hslot⟩ := ho
  interval_cases j
  all_goals first
    | cases hop; done
    | exact absurd hslot (by decide +kernel)

end Samples

end TinyLink.Proofs
