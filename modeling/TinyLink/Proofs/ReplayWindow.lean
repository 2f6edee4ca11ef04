import TinyLink.WgTransport
import TinyLink.Library.SlidingWindow
import Mathlib.Tactic.IntervalCases

/-!
# The replay bitmap is a sliding window

`wg_replay_update` is a `SlidingWindow.Recorded` step and `wg_replay_check` decides freshness, up to
the counters within a window of `2^64` where its sum wraps.
-/

namespace TinyLink.Proofs
open SlidingWindow

def windowOf (w : WgReplayWindow) : Window where
  highest := w.highest.toNat
  mark r := slotBit w.bitmap (Fin.ofNat wgReplayWindowBits r)

variable (w : WgReplayWindow) (c : UInt64) (bm : ReplayBitmap) (p r pos : Fin wgReplayWindowBits)
  (n : ℕ)

lemma posMask_toBitVec : (posMask pos).toBitVec = BitVec.twoPow 8 (pos.val % 8) := by
  have h : ∀ i : Fin 8, ((1 : UInt8) <<< UInt8.ofNat i.val).toBitVec = BitVec.twoPow 8 i.val := by
    decide
  exact h ⟨pos.val % 8, Nat.mod_lt _ (by norm_num)⟩

lemma test_slot_iff : bm.get (posByte pos) &&& posMask pos ≠ 0 ↔ slotBit bm pos = true := by
  have hlt : pos.val % 8 < 8 := Nat.mod_lt _ (by norm_num)
  have hpow : BitVec.twoPow 8 (pos.val % 8) ≠ 0#8 := by
    intro h0
    have := congrArg (fun b => b.getLsbD (pos.val % 8)) h0
    simp [hlt] at this
  rw [ne_eq, ← UInt8.toBitVec_inj, UInt8.toBitVec_and, posMask_toBitVec, BitVec.and_twoPow, slotBit]
  cases h : bm[posByte pos].toBitVec.getLsbD (pos.val % 8) with
  | false => simp
  | true => simpa using hpow

lemma pos_eq_iff : p = r ↔ p.val / 8 = r.val / 8 ∧ p.val % 8 = r.val % 8 := by
  rw [Fin.ext_iff]
  omega

lemma slotBit_setSlot : slotBit (setSlot bm p) r = (decide (p = r) || slotBit bm r) := by
  have hlt : p.val % 8 < 8 := Nat.mod_lt _ (by norm_num)
  unfold slotBit setSlot
  by_cases hb : p.val / 8 = r.val / 8
  · have hbyte : posByte p = posByte r := Fin.ext hb
    by_cases hm : p.val % 8 = r.val % 8
    · simp [← (pos_eq_iff p r).mpr ⟨hb, hm⟩, posMask_toBitVec, hlt]
    · simp [hbyte, pos_eq_iff, hb, hm, posMask_toBitVec, BitVec.getLsbD_twoPow]
  · have hne : (posByte p).val ≠ (posByte r).val := hb
    simp [hne, pos_eq_iff, hb]

lemma slotBit_clearSlot : slotBit (clearSlot bm p) r = (slotBit bm r && !decide (p = r)) := by
  have hlt' : r.val % 8 < 8 := Nat.mod_lt _ (by norm_num)
  unfold slotBit clearSlot
  by_cases hb : p.val / 8 = r.val / 8
  · have hbyte : posByte p = posByte r := Fin.ext hb
    by_cases hm : p.val % 8 = r.val % 8
    · simp [(pos_eq_iff p r).mpr ⟨hb, hm⟩, posMask_toBitVec, hlt']
    · have hm' : ¬r.val % 8 = p.val % 8 := fun h => hm h.symm
      simp [hbyte, pos_eq_iff, hb, hm, hm', posMask_toBitVec, hlt']
  · have hne : (posByte p).val ≠ (posByte r).val := hb
    simp [hne, pos_eq_iff, hb]

lemma slotBit_zeroByte :
    slotBit (clearBytes bm p 8).1 r = (slotBit bm r && !decide (p.val / 8 = r.val / 8)) := by
  change slotBit (bm.set (posByte p) 0) r = _
  unfold slotBit
  by_cases hb : p.val / 8 = r.val / 8
  · have hbyte : (posByte p).val = (posByte r).val := hb
    simp [hbyte, hb]
  · have hne : (posByte p).val ≠ (posByte r).val := hb
    simp [hne, hb]

@[simp] lemma slotBit_replicate : slotBit (Vector.replicate wgReplayWindowBytes 0) r = false := by
  simp [slotBit]

/-- `bm'` is `bm` with the `n` slots from number `p` on emptied, wrapping around. -/
def Cleared (bm : ReplayBitmap) (p n : ℕ) (bm' : ReplayBitmap) : Prop :=
  ∀ r : Fin wgReplayWindowBits, slotBit bm' r = true ↔
    slotBit bm r = true ∧ ∀ i, i < n → r.val ≠ (p + i) % wgReplayWindowBits

lemma Cleared.trans {bm bm₁ bm₂ : ReplayBitmap} {p q a b : ℕ} (h₁ : Cleared bm p a bm₁)
    (h₂ : Cleared bm₁ q b bm₂) (hq : q % wgReplayWindowBits = (p + a) % wgReplayWindowBits) :
    Cleared bm p (a + b) bm₂ := by
  intro r
  rw [h₂ r, h₁ r]
  constructor
  · rintro ⟨⟨hb, ha⟩, hb'⟩
    refine ⟨hb, fun i hi => ?_⟩
    rcases Nat.lt_or_ge i a with hia | hia
    · exact ha i hia
    · have := hb' (i - a) (by omega)
      simp only [wgReplayWindowBits] at *
      omega
  · rintro ⟨hb, hall⟩
    refine ⟨⟨hb, fun i hi => hall i (by omega)⟩, fun i hi => ?_⟩
    have := hall (a + i) (by omega)
    simp only [wgReplayWindowBits] at *
    omega

lemma cleared_clearSlot : Cleared bm pos.val 1 (clearSlot bm pos) := by
  intro r
  have hp := pos.isLt
  rw [slotBit_clearSlot]
  simp only [Bool.and_eq_true, Bool.not_eq_true', decide_eq_false_iff_not, Fin.ext_iff,
    Nat.lt_one_iff, forall_eq, Nat.add_zero, Nat.mod_eq_of_lt hp, ne_eq, eq_comm (a := r.val)]

lemma cleared_zeroByte (h8 : pos.val % 8 = 0) : Cleared bm pos.val 8 (clearBytes bm pos 8).1 := by
  intro r
  rw [slotBit_zeroByte]
  simp only [Bool.and_eq_true, Bool.not_eq_true', decide_eq_false_iff_not, wgReplayWindowBits] at *
  constructor
  · rintro ⟨hb, hne⟩
    refine ⟨hb, fun i hi => ?_⟩
    omega
  · rintro ⟨hb, hall⟩
    refine ⟨hb, fun heq => ?_⟩
    have := hall (r.val % 8) (Nat.mod_lt _ (by norm_num))
    omega

lemma fin_add_mod (k : Fin wgReplayWindowBits) :
    (pos + k).val % wgReplayWindowBits = (pos.val + k.val) % wgReplayWindowBits := by
  rw [Fin.val_add, Nat.mod_mod]

lemma clearHead_spec : ∃ k, k ≤ n ∧ (clearHead bm pos n).2.2 = n - k ∧
      (clearHead bm pos n).2.1.val = (pos.val + k) % wgReplayWindowBits ∧
      Cleared bm pos.val k (clearHead bm pos n).1 ∧
      (n - k = 0 ∨ (clearHead bm pos n).2.1.val % 8 = 0) := by
  induction n generalizing bm pos with
  | zero =>
    exact ⟨0, le_rfl, rfl, (Nat.mod_eq_of_lt pos.isLt).symm, fun r => by simp [clearHead], .inl rfl⟩
  | succ n ih =>
    have hand : pos.val &&& 7 = pos.val % 8 := Nat.and_two_pow_sub_one_eq_mod pos.val 3
    by_cases h8 : pos.val % 8 = 0
    · refine ⟨0, by omega, ?_⟩
      rw [clearHead, hand, if_neg (by simp [h8])]
      exact ⟨rfl, (Nat.mod_eq_of_lt pos.isLt).symm, fun r => by simp, .inr h8⟩
    · rw [clearHead, hand, if_pos h8]
      obtain ⟨k, hk, hn, hpos, hcl, hend⟩ := ih (clearSlot bm pos) (pos + 1)
      have h1 := fin_add_mod pos 1
      refine ⟨k + 1, by omega, by omega, ?_, ?_, by omega⟩
      · rw [hpos]
        simp only [wgReplayWindowBits, Fin.val_one] at *
        omega
      · rw [Nat.add_comm k 1]
        exact (cleared_clearSlot bm pos).trans hcl h1

lemma clearBytes_spec (h8 : n = 0 ∨ pos.val % 8 = 0) : (clearBytes bm pos n).2.2 = n % 8 ∧
      (clearBytes bm pos n).2.1.val % wgReplayWindowBits =
        (pos.val + (n - n % 8)) % wgReplayWindowBits ∧
      Cleared bm pos.val (n - n % 8) (clearBytes bm pos n).1 := by
  induction n using Nat.strong_induction_on generalizing bm pos with
  | _ n ih =>
    by_cases hn : 8 ≤ n
    · obtain ⟨m, rfl⟩ := Nat.exists_eq_add_of_le' hn
      have hp8 : pos.val % 8 = 0 := by omega
      have hadd := fin_add_mod pos 8
      have hval : (8 : Fin wgReplayWindowBits).val = 8 := rfl
      have hnext : (pos + 8).val % 8 = 0 := by
        simp only [wgReplayWindowBits, hval] at *
        omega
      obtain ⟨h1, h2, h3⟩ := ih m (by omega) (bm.set (posByte pos) 0) (pos + 8) (.inr hnext)
      rw [show clearBytes bm pos (m + 8) = clearBytes (bm.set (posByte pos) 0) (pos + 8) m from by
        rw [clearBytes]]
      refine ⟨by omega, ?_, ?_⟩
      · rw [h2]
        simp only [wgReplayWindowBits, hval] at *
        omega
      · have hsum : m + 8 - (m + 8) % 8 = 8 + (m - m % 8) := by omega
        rw [hsum]
        exact (cleared_zeroByte bm pos hp8).trans h3 hadd
    · have hsmall : clearBytes bm pos n = (bm, pos, n) := by
        interval_cases n <;> rfl
      rw [hsmall, Nat.mod_eq_of_lt (by omega : n < 8)]
      exact ⟨rfl, by simp, fun r => by simp⟩

lemma clearTail_spec : Cleared bm pos.val n (clearTail bm pos n) := by
  induction n generalizing bm pos with
  | zero => intro r; simp [clearTail]
  | succ n ih =>
    rw [clearTail, Nat.add_comm n 1]
    exact (cleared_clearSlot bm pos).trans (ih _ _) (fin_add_mod pos 1)

@[simp] lemma replayPos_val : (replayPos c).val = c.toNat % wgReplayWindowBits := by
  have hand : c.toNat &&& 8191 = c.toNat % 8192 := Nat.and_two_pow_sub_one_eq_mod c.toNat 13
  simp [replayPos, Fin.ofNat, hand]

/-- Byte-wise clearing equals emptying each slot of `first, …, first + n - 1`. -/
theorem replayClearSlots_spec (first : UInt64) (n : ℕ) :
    Cleared bm first.toNat n (replayClearSlots bm first n) := by
  unfold replayClearSlots
  obtain ⟨k, hk, hn, hpos, hcl, hend⟩ := clearHead_spec bm (replayPos first) n
  generalize clearHead bm (replayPos first) n = out₁ at hn hpos hcl hend ⊢
  obtain ⟨bm₁, p₁, n₁⟩ := out₁
  dsimp only at hn hpos hcl hend ⊢
  obtain ⟨hm, hq, hcl₂⟩ := clearBytes_spec bm₁ p₁ n₁ (by omega)
  generalize clearBytes bm₁ p₁ n₁ = out₂ at hm hq hcl₂ ⊢
  obtain ⟨bm₂, p₂, n₂⟩ := out₂
  dsimp only at hm hq hcl₂ ⊢
  have h12 := hcl.trans hcl₂ (by rw [hpos, Nat.mod_mod])
  have h123 := h12.trans (clearTail_spec bm₂ p₂ n₂) (by
    rw [hq, hpos, Nat.mod_add_mod, Nat.add_assoc])
  have hlen : k + (n₁ - n₁ % 8) + n₂ = n := by omega
  rw [hlen] at h123
  intro r
  rw [h123 r, replayPos_val]
  simp only [Nat.mod_add_mod]

lemma windowOf_mark {w : WgReplayWindow} {r : ℕ} (hr : r < wgReplayWindowBits) :
    (windowOf w).mark r = slotBit w.bitmap ⟨r, hr⟩ := by
  have hpos : Fin.ofNat wgReplayWindowBits r = ⟨r, hr⟩ := Fin.ext (Nat.mod_eq_of_lt hr)
  simp only [windowOf, hpos]

lemma exists_slid {h c r : ℕ} (hr : r < wgReplayWindowBits) (hc : h + wgReplayWindowBits ≤ c) :
    ∃ d, h < d ∧ d ≤ c ∧ d % wgReplayWindowBits = r := by
  simp only [wgReplayWindowBits] at *
  exact ⟨h + 1 + (r + 8192 - (h + 1) % 8192) % 8192, by omega, by omega, by omega⟩

lemma slide_bitmap (hc : w.highest < c) (r : Fin wgReplayWindowBits) :
    slotBit (if c - w.highest ≥ 8192 then Vector.replicate wgReplayWindowBytes 0
      else replayClearSlots w.bitmap (w.highest + 1) (c - w.highest).toNat) r = true ↔
      slotBit w.bitmap r = true ∧
        ∀ d, w.highest.toNat < d → d ≤ c.toNat → d % wgReplayWindowBits ≠ r.val := by
  have hlt : w.highest.toNat < c.toNat := UInt64.lt_iff_toNat_lt.mp hc
  have hcl := c.toNat_lt
  have hdiff : (c - w.highest).toNat = c.toNat - w.highest.toNat :=
    UInt64.toNat_sub_of_le _ _ (UInt64.le_iff_toNat_le.mpr hlt.le)
  by_cases hbig : c - w.highest ≥ 8192
  · have hnat : 8192 ≤ c.toNat - w.highest.toNat := by
      rw [← hdiff]
      exact UInt64.le_iff_toNat_le.mp hbig
    obtain ⟨d, h1, h2, h3⟩ := exists_slid (c := c.toNat) (h := w.highest.toNat) r.isLt
      (by simp only [wgReplayWindowBits]; omega)
    rw [if_pos hbig, slotBit_replicate]
    simp only [Bool.false_eq_true, false_iff, not_and, not_forall]
    exact fun _ => ⟨d, h1, h2, fun hne => hne h3⟩
  · have hone : (w.highest + 1).toNat = w.highest.toNat + 1 := by
      rw [UInt64.toNat_add]
      exact Nat.mod_eq_of_lt (by simp; omega)
    rw [if_neg hbig, replayClearSlots_spec w.bitmap (w.highest + 1) _ r, hone, hdiff]
    refine and_congr_right fun _ => ⟨fun hall d h1 h2 => ?_, fun hall i hi => ?_⟩
    · have := hall (d - w.highest.toNat - 1) (by omega)
      rw [show w.highest.toNat + 1 + (d - w.highest.toNat - 1) = d by omega] at this
      exact this.symm
    · exact (hall (w.highest.toNat + 1 + i) (by omega) (by omega)).symm

theorem wgReplayUpdate_recorded :
    Recorded wgReplayWindowBits (windowOf w) c.toNat (windowOf (wgReplayUpdate w c)) := by
  by_cases hc : c > w.highest
  · have hlt : w.highest.toNat < c.toNat := UInt64.lt_iff_toNat_lt.mp hc
    constructor
    · simp only [windowOf, wgReplayUpdate, if_pos hc]
      omega
    · intro r hr
      rw [windowOf_mark hr, windowOf_mark hr]
      simp only [wgReplayUpdate, if_pos hc, slotBit_setSlot, Bool.or_eq_true, decide_eq_true_eq]
      rw [slide_bitmap w c hc ⟨r, hr⟩, Fin.ext_iff, replayPos_val, eq_comm]
      rfl
  · have hle : c.toNat ≤ w.highest.toNat := UInt64.le_iff_toNat_le.mp (UInt64.not_lt.mp hc)
    constructor
    · simp only [windowOf, wgReplayUpdate, if_neg hc]
      omega
    · intro r hr
      rw [windowOf_mark hr, windowOf_mark hr]
      simp only [wgReplayUpdate, if_neg hc, slotBit_setSlot, Bool.or_eq_true, decide_eq_true_eq]
      have hnone : ∀ d, (windowOf w).highest < d → d ≤ c.toNat → d % wgReplayWindowBits ≠ r := by
        intro d h1 h2
        simp only [windowOf] at h1
        omega
      rw [Fin.ext_iff, replayPos_val, eq_comm]
      tauto

lemma windowOf_mark_counter :
    (windowOf w).mark (c.toNat % wgReplayWindowBits) = slotBit w.bitmap (replayPos c) := by
  rw [windowOf_mark (Nat.mod_lt _ (by norm_num))]
  congr 1
  exact Fin.ext (replayPos_val c).symm

lemma wgReplayCheck_eq_zero_iff : wgReplayCheck w c = 0 ↔ c ≠ wgCounterRejectAt ∧
      (w.highest.toNat < c.toNat ∨ w.highest.toNat < (c.toNat + 8192) % 2 ^ 64 ∧
        (windowOf w).mark (c.toNat % wgReplayWindowBits) = false) := by
  have hsum : (c + 8192 ≤ w.highest) = ((c.toNat + 8192) % 2 ^ 64 ≤ w.highest.toNat) := by
    rw [UInt64.le_iff_toNat_le, UInt64.toNat_add]
    rfl
  have hgt : (c > w.highest) = (w.highest.toNat < c.toNat) :=
    propext UInt64.lt_iff_toNat_lt
  have hslot : (w.bitmap[posByte (replayPos c)] &&& posMask (replayPos c) ≠ 0) =
      (slotBit w.bitmap (replayPos c) = true) := propext (test_slot_iff _ _)
  simp only [wgReplayCheck, hsum, hgt, hslot, ← windowOf_mark_counter]
  split_ifs with h1 h2 h3 h4
  · simp [h1]
  · simp [h1, h2]
  · exact iff_of_false (by decide) fun h => h.2.elim h2 fun h => absurd h.1 (Nat.not_lt.mpr h3)
  · simp [h2, h4]
  · exact iff_of_true rfl ⟨h1, .inr ⟨Nat.not_le.mp h3, Bool.not_eq_true _ ▸ h4⟩⟩

lemma wgReplayCheck_sound {w : WgReplayWindow} {c : UInt64} (h : wgReplayCheck w c = 0) :
    Fresh wgReplayWindowBits (windowOf w) c.toNat := by
  obtain ⟨_, hlt | ⟨hwin, hbit⟩⟩ := (wgReplayCheck_eq_zero_iff w c).mp h
  · exact .inl hlt
  · refine .inr ⟨?_, hbit⟩
    simp only [windowOf, wgReplayWindowBits]
    omega

lemma wgReplayCheck_complete {w : WgReplayWindow} {c : UInt64} (hc : c.toNat + 8192 < 2 ^ 64)
    (hf : Fresh wgReplayWindowBits (windowOf w) c.toNat) : wgReplayCheck w c = 0 := by
  have hrej : c ≠ wgCounterRejectAt := by
    intro h
    rw [h] at hc
    exact absurd hc (by decide)
  refine (wgReplayCheck_eq_zero_iff w c).mpr ⟨hrej, ?_⟩
  rcases hf with hlt | ⟨hwin, hbit⟩
  · exact .inl hlt
  · refine .inr ⟨?_, hbit⟩
    rwa [Nat.mod_eq_of_lt hc]

lemma tracks_zero : Tracks wgReplayWindowBits (windowOf .zero) ∅ := by
  refine tracks_empty rfl ?_
  intro r hr
  rw [windowOf_mark hr]
  exact slotBit_replicate _

lemma tracks_update {w : WgReplayWindow} {c : UInt64} {s : Set ℕ}
    (ht : Tracks wgReplayWindowBits (windowOf w) s) (hc : wgReplayCheck w c = 0) :
    c.toNat ∉ s ∧
      Tracks wgReplayWindowBits (windowOf (wgReplayUpdate w c)) (insert c.toNat s) := by
  obtain ⟨hnew, hwin⟩ := (ht.fresh_iff (by norm_num) _).mp (wgReplayCheck_sound hc)
  exact ⟨hnew, ht.record (by norm_num) hwin (wgReplayUpdate_recorded w c)⟩

/-- Counters offered one after the other to a zeroed window: the window, and which were accepted. -/
def replayRun : List UInt64 → WgReplayWindow × List UInt64 :=
  List.foldl (fun r c => ((wgReplayCheckAndUpdate r.1 c).2,
    if (wgReplayCheckAndUpdate r.1 c).1 = 0 then c :: r.2 else r.2)) (.zero, [])

def highestOf (accepted : List UInt64) : ℕ := (accepted.map UInt64.toNat).foldr max 0

lemma le_highestOf {accepted : List UInt64} {c : UInt64} (h : c ∈ accepted) :
    c.toNat ≤ highestOf accepted := by
  induction accepted with
  | nil => cases h
  | cons _ _ ih =>
    rcases List.mem_cons.mp h with rfl | h
    · exact le_max_left _ _
    · exact (ih h).trans (le_max_right _ _)

lemma highestOf_mem (accepted : List UInt64) :
    highestOf accepted = 0 ∨ ∃ c ∈ accepted, highestOf accepted = c.toNat := by
  induction accepted with
  | nil => exact .inl rfl
  | cons d ds ih =>
    have hmax : highestOf (d :: ds) = max d.toNat (highestOf ds) := rfl
    rcases le_total d.toNat (highestOf ds) with hle | hle
    · rw [hmax, max_eq_right hle]
      exact ih.imp_right fun ⟨c, hc, h⟩ => ⟨c, List.mem_cons_of_mem d hc, h⟩
    · rw [hmax, max_eq_left hle]
      exact .inr ⟨d, List.mem_cons_self, rfl⟩

structure ReplayInv (r : WgReplayWindow × List UInt64) : Prop where
  tracks : Tracks wgReplayWindowBits (windowOf r.1) {n | ∃ c ∈ r.2, c.toNat = n}
  sentinel : wgCounterRejectAt ∉ r.2

lemma ReplayInv.highest {r : WgReplayWindow × List UInt64} (h : ReplayInv r) :
    r.1.highest.toNat = highestOf r.2 := by
  apply le_antisymm
  · rcases h.tracks.highest_mem with h0 | ⟨c, hc, hcn⟩
    · exact (le_of_eq h0).trans (Nat.zero_le _)
    · exact (le_of_eq hcn.symm).trans (le_highestOf hc)
  · rcases highestOf_mem r.2 with h0 | ⟨c, hc, hcn⟩
    · exact (le_of_eq h0).trans (Nat.zero_le _)
    · rw [hcn]
      exact h.tracks.le_highest _ ⟨c, hc, rfl⟩

lemma replayInv_step {r : WgReplayWindow × List UInt64} (h : ReplayInv r) (c : UInt64) :
    ReplayInv ((wgReplayCheckAndUpdate r.1 c).2,
      if (wgReplayCheckAndUpdate r.1 c).1 = 0 then c :: r.2 else r.2) := by
  unfold wgReplayCheckAndUpdate
  by_cases hc : wgReplayCheck r.1 c = 0
  · rw [if_neg (not_not.mpr hc)]
    have hset : {n | ∃ d ∈ c :: r.2, UInt64.toNat d = n} =
        insert c.toNat {n | ∃ d ∈ r.2, UInt64.toNat d = n} := by
      ext n
      simp only [List.mem_cons, Set.mem_ofPred_eq, Set.mem_insert_iff, exists_eq_or_imp, eq_comm (a := n)]
    refine ⟨?_, ?_⟩
    · dsimp only
      rw [if_pos rfl, hset]
      exact (tracks_update h.tracks hc).2
    · dsimp only
      rw [if_pos rfl, List.mem_cons, not_or]
      exact ⟨fun heq => ((wgReplayCheck_eq_zero_iff r.1 c).mp hc).1 heq.symm, h.sentinel⟩
  · rw [if_pos hc]
    exact h

lemma replayInv_run (cs : List UInt64) : ReplayInv (replayRun cs) := by
  have hstart : ReplayInv (.zero, []) := by
    refine ⟨?_, List.not_mem_nil⟩
    have hempty : {n | ∃ d ∈ ([] : List UInt64), UInt64.toNat d = n} = ∅ := by simp
    rw [hempty]
    exact tracks_zero
  have hfold : ∀ (cs : List UInt64) r, ReplayInv r → ReplayInv (cs.foldl (fun r c =>
      ((wgReplayCheckAndUpdate r.1 c).2,
        if (wgReplayCheckAndUpdate r.1 c).1 = 0 then c :: r.2 else r.2)) r) := by
    intro cs
    induction cs with
    | nil => exact fun r hr => hr
    | cons c _ ih => exact fun r hr => ih _ (replayInv_step hr c)
  exact hfold cs _ hstart

/-- What an exact window would accept. -/
def ReplayAccepts (accepted : List UInt64) (c : UInt64) : Prop :=
  c ≠ wgCounterRejectAt ∧ c ∉ accepted ∧
    (highestOf accepted < c.toNat ∨ highestOf accepted ≤ c.toNat + 8191)

def clearEach (bm : ReplayBitmap) (first : UInt64) (n : ℕ) : ReplayBitmap :=
  (List.range n).foldl (fun bm i => clearSlot bm (replayPos (first + UInt64.ofNat i))) bm

lemma bitmap_ext {bm bm' : ReplayBitmap} (h : ∀ r, slotBit bm r = slotBit bm' r) : bm = bm' := by
  refine Vector.ext fun i hi => UInt8.toBitVec_inj.mp ?_
  refine BitVec.eq_of_getLsbD_eq fun j hj => ?_
  have hlt : i * 8 + j < wgReplayWindowBits := by
    simp only [wgReplayWindowBits, wgReplayWindowBytes] at *
    omega
  have hr := h ⟨i * 8 + j, hlt⟩
  have hbyte : (posByte ⟨i * 8 + j, hlt⟩).val = i := by
    change (i * 8 + j) / 8 = i
    omega
  have hbit : (i * 8 + j) % 8 = j := by omega
  simpa only [slotBit, Fin.getElem_fin, hbyte, hbit] using hr

lemma cleared_unique {bm bm₁ bm₂ : ReplayBitmap} {p n : ℕ} (h₁ : Cleared bm p n bm₁)
    (h₂ : Cleared bm p n bm₂) : bm₁ = bm₂ :=
  bitmap_ext fun r => Bool.eq_iff_iff.mpr ((h₁ r).trans (h₂ r).symm)

lemma clearEach_spec (first : UInt64) (n : ℕ) :
    Cleared bm first.toNat n (clearEach bm first n) := by
  induction n with
  | zero => intro r; simp [clearEach]
  | succ n ih =>
    unfold clearEach at ih ⊢
    rw [List.range_succ, List.foldl_append]
    have hpos : (replayPos (first + UInt64.ofNat n)).val % wgReplayWindowBits =
        (first.toNat + n) % wgReplayWindowBits := by
      rw [replayPos_val, UInt64.toNat_add, UInt64.toNat_ofNat']
      simp only [wgReplayWindowBits]
      omega
    exact ih.trans (cleared_clearSlot _ _) hpos

/-- The next counter is accepted exactly as specified if and only if the sum of the check does not
wrap for it, or the verdict does not depend on it; and clearing in bytes equals clearing slot by
slot. -/
theorem replay_window_exact_iff (cs : List UInt64) (c : UInt64) :
    (((wgReplayCheckAndUpdate (replayRun cs).1 c).1 = 0 ↔ ReplayAccepts (replayRun cs).2 c) ↔
      c.toNat + 8192 < 2 ^ 64 ∨ highestOf (replayRun cs).2 < c.toNat ∨ c = wgCounterRejectAt ∨
        c ∈ (replayRun cs).2) ∧
    ∀ bm first n, replayClearSlots bm first n = clearEach bm first n := by
  refine ⟨?_, fun bm first n => cleared_unique (replayClearSlots_spec bm first n) (clearEach_spec bm first n)⟩
  have hinv := replayInv_run cs
  have hhigh := hinv.highest
  have haccepted : (wgReplayCheckAndUpdate (replayRun cs).1 c).1 = 0 ↔ wgReplayCheck (replayRun cs).1 c = 0 := by
    unfold wgReplayCheckAndUpdate
    by_cases hc : wgReplayCheck (replayRun cs).1 c = 0
    · simp [hc]
    · simp [hc]
  rw [haccepted]
  have hmem : c.toNat ∈ {n | ∃ d ∈ (replayRun cs).2, UInt64.toNat d = n} ↔ c ∈ (replayRun cs).2 :=
    ⟨fun ⟨d, hd, hdc⟩ => UInt64.toNat_inj.mp hdc ▸ hd, fun h => ⟨c, h, rfl⟩⟩
  have hfresh := hinv.tracks.fresh_iff (by norm_num) c.toNat
  rw [hmem] at hfresh
  have hwin : (windowOf (replayRun cs).1).highest = highestOf (replayRun cs).2 := hhigh
  rw [hwin] at hfresh
  have hspec : ReplayAccepts (replayRun cs).2 c ↔
      c ≠ wgCounterRejectAt ∧ Fresh wgReplayWindowBits (windowOf (replayRun cs).1) c.toNat := by
    rw [hfresh]
    unfold ReplayAccepts wgReplayWindowBits
    constructor
    · rintro ⟨hs, hn, hw⟩
      exact ⟨hs, hn, by omega⟩
    · rintro ⟨hs, hn, hw⟩
      exact ⟨hs, hn, by omega⟩
  have hsound : wgReplayCheck (replayRun cs).1 c = 0 → ReplayAccepts (replayRun cs).2 c := fun h =>
    hspec.mpr ⟨((wgReplayCheck_eq_zero_iff _ c).mp h).1, wgReplayCheck_sound h⟩
  constructor
  · intro hexact
    by_contra hwrap
    rw [not_or, not_or, not_or] at hwrap
    obtain ⟨hsum, hle, hsentinel, hnew⟩ := hwrap
    have hspecOk : ReplayAccepts (replayRun cs).2 c := by
      have hhl := (replayRun cs).1.highest.toNat_lt
      refine ⟨hsentinel, hnew, .inr ?_⟩
      rw [← hhigh]
      omega
    obtain ⟨-, hgt | ⟨hgt, -⟩⟩ := (wgReplayCheck_eq_zero_iff _ c).mp (hexact.mpr hspecOk)
    · omega
    · rw [hhigh] at hgt
      omega
  · intro hcond
    refine ⟨hsound, fun hacc => ?_⟩
    obtain ⟨hs, hf⟩ := hspec.mp hacc
    rcases hcond with hsum | hgt | hsent | hmem
    · exact wgReplayCheck_complete hsum hf
    · exact (wgReplayCheck_eq_zero_iff _ c).mpr ⟨hs, .inl (hhigh ▸ hgt)⟩
    · exact absurd hsent hs
    · exact absurd hmem hacc.2.1

/-- One below the highest counter of all, never seen: it is rejected. -/
theorem wrapping_counter_is_rejected :
    (replayRun [0xFFFFFFFFFFFFFFFE]).2 = [0xFFFFFFFFFFFFFFFE] ∧
    (wgReplayCheckAndUpdate (replayRun [0xFFFFFFFFFFFFFFFE]).1 0xFFFFFFFFFFFFFFFD).1 = -1 ∧
    ReplayAccepts (replayRun [0xFFFFFFFFFFFFFFFE]).2 0xFFFFFFFFFFFFFFFD := by
  have hrun : (replayRun [0xFFFFFFFFFFFFFFFE]).2 = [0xFFFFFFFFFFFFFFFE] := by decide +kernel
  refine ⟨hrun, by decide +kernel, ?_⟩
  rw [hrun]
  unfold ReplayAccepts
  decide +kernel

end TinyLink.Proofs
