import TinyLink.Proofs.RescuePass
import TinyLink.RescueSystem

/-!
# What a flush sends and what it leaves

Along a run the frames stand in the ring in the order they were kept in.
-/

namespace TinyLink.Proofs
open StepSystem

section Pass
variable (c : FlushCall)

lemma handed_eq : wgRescueHanded c.ring c.now c.fromUs c.maxAgeUs c.accepts =
    (List.range wgRescueSlots).filter fun q => c.takes q && c.pends q := by
  apply List.filter_congr
  intro q hq
  have hlt : q < 10 := List.mem_range.mp hq
  have h := flushPass c q hlt.le
  have hnth := h.slots q hlt
  rw [if_neg (Nat.lt_irrefl q)] at hnth
  have hleft : decide (((List.range q).foldl
      (wgRescueFlushSlot c.now c.fromUs c.maxAgeUs c.accepts) ⟨c.ring, [], 0⟩).left = 0) = c.takes q := by
    rw [Bool.eq_iff_iff, decide_eq_true_eq]
    exact h.left
  simp only [hleft, hnth, FlushCall.pends]

lemma mem_handed {q : ℕ} : q ∈ wgRescueHanded c.ring c.now c.fromUs c.maxAgeUs c.accepts ↔
    q < 10 ∧ c.pends q = true ∧ ∀ j, j < q → c.pends j = true → c.accepts j = true := by
  rw [handed_eq, List.mem_filter, List.mem_range, Bool.and_eq_true, takes_iff, wgRescueSlots]
  tauto

lemma flush_sent : c.result.sent = ((wgRescueHanded c.ring c.now c.fromUs c.maxAgeUs
    c.accepts).filter c.accepts).map fun q => (c.ring.nth q).buf := by
  rw [(flush_pass c).sent, handed_eq, List.filter_filter, FlushCall.taken]
  congr 1
  apply List.filter_congr
  intro q _
  rw [Bool.eq_iff_iff, Bool.and_eq_true, takes_succ, Bool.and_eq_true, Bool.and_eq_true]
  tauto

lemma after_kept (q : ℕ) : (c.after q).buf = (c.ring.nth q).buf ∧
    ((c.after q).atUs ≠ 0 → (c.after q).atUs = (c.ring.nth q).atUs) := by
  unfold FlushCall.after
  split
  · exact ⟨rfl, fun _ => rfl⟩
  · exact ⟨rfl, fun h => absurd rfl h⟩

end Pass

lemma slot_of_distance (h s : Fin 10) : h + Fin.ofNat 10 (s - h).val = s := by
  revert h s
  decide

lemma slot_get_eq_nth (r : WgRescueRing) (s : Fin 10) : r.slot.get s = r.nth (s - r.head).val := by
  rw [WgRescueRing.nth, slot_of_distance]

lemma slot_behind_head (h : Fin 10) : (h - (h + 1)).val = 9 := by
  revert h
  decide

lemma slot_moves_up {s h : Fin 10} (hne : s ≠ h) : (s - (h + 1)).val + 1 = (s - h).val := by
  revert s h
  decide

section Runs
variable {E : RescueRun} {k i j : ℕ}

def Unwritten (E : RescueRun) (k i : ℕ) : Prop :=
  i < k ∧ E.Keeps i ∧ ∀ j, i < j → j < k → ¬ E.Overwrites j i

lemma inRing_iff : E.InRing k i ↔ Unwritten E k i ∧ (E.frameAt k i).atUs ≠ 0 := by
  simp [RescueRun.InRing, Unwritten, and_assoc]

lemma frameAt_eq (k i : ℕ) : E.frameAt k i = (E.ringAt k).nth (E.posAt k i) :=
  slot_get_eq_nth _ _

lemma posAt_lt (k i : ℕ) : E.posAt k i < 10 := Fin.isLt _

lemma ringAt_succ (hk : k < E.length) :
    E.ringAt (k + 1) = rescueOp (E.ringAt k) (E.timeAt k) (E.act k).op := by
  have h := E.steps k hk
  unfold rescueStep at h
  split_ifs at h
  rw [RescueRun.ringAt, ← Option.some.inj h]
  rfl

lemma rescueTime_mono (hij : i < j) (hj : j < E.length) : E.timeAt i ≤ E.timeAt j := by
  have hstep : ∀ m, m < E.length → (E.state m).clock ≤ (E.act m).now ∧
      (E.state (m + 1)).clock = (E.act m).now := by
    intro m hm
    have h := E.steps m hm
    unfold rescueStep at h
    split_ifs at h with hle
    exact ⟨hle, by rw [← Option.some.inj h]⟩
  have hmono : (E.state (i + 1)).clock ≤ (E.state j).clock := by
    apply E.mono RescueState.clock hij
    intro m _ hmj
    rw [(hstep m (by omega)).2]
    exact (hstep m (by omega)).1
  rw [(hstep i (by omega)).2] at hmono
  exact Int.ofNat_le.mpr (hmono.trans (hstep j hj).1)

abbrev flushCall (E : RescueRun) (k : ℕ) (fromUs maxAgeUs : ℤ) (accepts : ℕ → Bool) : FlushCall :=
  ⟨E.ringAt k, E.timeAt k, fromUs, maxAgeUs, accepts⟩

lemma rescueStep_cases (hk : k < E.length) : (∃ buf gen, E.KeepsAt k buf gen ∧ E.ringAt (k + 1) =
        pushed (E.ringAt k) ⟨E.timeAt k, gen, false, buf⟩) ∨
      (¬ E.Keeps k ∧ (∀ fromUs maxAgeUs accepts, ¬ E.FlushesAt k fromUs maxAgeUs accepts) ∧
        E.ringAt (k + 1) = E.ringAt k) ∨
      (¬ E.Keeps k ∧ ∃ fromUs maxAgeUs accepts, E.FlushesAt k fromUs maxAgeUs accepts ∧
        E.ringAt (k + 1) = (flushCall E k fromUs maxAgeUs accepts).result.ring) := by
  rw [ringAt_succ hk]
  cases hop : (E.act k).op with
  | keep buf gen =>
    by_cases hlen : buf.length > wgRescueMax
    · right
      left
      refine ⟨?_, ?_, if_pos hlen⟩
      · rintro ⟨buf', gen', _, hop', hlen'⟩
        rw [hop] at hop'
        cases hop'
        omega
      · rintro fromUs maxAgeUs accepts ⟨_, hop'⟩
        rw [hop] at hop'
        cases hop'
    · exact .inl ⟨buf, gen, ⟨hk, hop, by omega⟩, if_neg hlen⟩
  | flush fromUs maxAgeUs accepts =>
    refine .inr (.inr ⟨?_, fromUs, maxAgeUs, accepts, ⟨hk, hop⟩, rfl⟩)
    rintro ⟨buf, gen, _, hop', _⟩
    rw [hop] at hop'
    cases hop'

lemma flushesAt_unique {fromUs fromUs' maxAgeUs maxAgeUs' : ℤ} {accepts accepts' : ℕ → Bool}
    (h : E.FlushesAt k fromUs maxAgeUs accepts) (h' : E.FlushesAt k fromUs' maxAgeUs' accepts') :
    fromUs' = fromUs ∧ maxAgeUs' = maxAgeUs ∧ accepts' = accepts := by
  have hop := h.2.symm.trans h'.2
  cases hop
  exact ⟨rfl, rfl, rfl⟩

lemma unwritten_succ : Unwritten E (k + 1) i ↔
    (i = k ∧ E.Keeps k) ∨ (Unwritten E k i ∧ ¬ E.Overwrites k i) := by
  constructor
  · rintro ⟨hi, hkeeps, hno⟩
    rcases Nat.lt_or_eq_of_le (Nat.le_of_lt_succ hi) with hlt | rfl
    · exact .inr ⟨⟨hlt, hkeeps, fun j hij hjk => hno j hij (by omega)⟩, hno k hlt (by omega)⟩
    · exact .inl ⟨rfl, hkeeps⟩
  · rintro (⟨rfl, hkeeps⟩ | ⟨⟨hi, hkeeps, hno⟩, hk⟩)
    · exact ⟨by omega, hkeeps, fun j hij hj => by omega⟩
    · refine ⟨by omega, hkeeps, ?_⟩
      intro j hij hj
      rcases Nat.lt_or_eq_of_le (Nat.le_of_lt_succ hj) with hlt | rfl
      · exact hno j hij hlt
      · exact hk

lemma posAt_succ_of_head (h : (E.ringAt (k + 1)).head = (E.ringAt k).head) :
    E.posAt (k + 1) i = E.posAt k i := by
  rw [RescueRun.posAt, h, RescueRun.posAt]

lemma unwritten_succ_of_not_keeps (h : ¬ E.Keeps k) : Unwritten E (k + 1) i ↔ Unwritten E k i := by
  rw [unwritten_succ]
  constructor
  · rintro (⟨_, hk⟩ | ⟨hu, _⟩)
    · exact absurd hk h
    · exact hu
  · exact fun hu => .inr ⟨hu, fun ho => h ho.1⟩

section Write
variable {v : WgRescue} (hring : E.ringAt (k + 1) = pushed (E.ringAt k) v)
include hring

lemma posAt_written : E.posAt (k + 1) k = 9 := by
  rw [RescueRun.posAt, hring]
  exact slot_behind_head _

lemma posAt_moves_up (hne : E.slotOf k ≠ E.slotOf i) : E.posAt (k + 1) i + 1 = E.posAt k i := by
  rw [RescueRun.posAt, hring]
  exact slot_moves_up hne.symm

lemma frameAt_written : E.frameAt (k + 1) k = v := by
  rw [frameAt_eq, posAt_written hring, hring, nth_pushed_last]

lemma frameAt_moves_up (hne : E.slotOf k ≠ E.slotOf i) : E.frameAt (k + 1) i = E.frameAt k i := by
  have hpos := posAt_moves_up hring hne
  have hlt := posAt_lt (E := E) k i
  rw [frameAt_eq, frameAt_eq, hring, nth_pushed _ _ (by omega), hpos]

end Write

/-- The slots hold the frames of the run, the oldest first. -/
structure RingHistory (E : RescueRun) (k : ℕ) : Prop where
  bytes : ∀ i, Unwritten E k i → (E.frameAt k i).buf = E.bufAt i
  time : ∀ i, Unwritten E k i → (E.frameAt k i).atUs ≠ 0 → (E.frameAt k i).atUs = E.timeAt i
  order : ∀ i j, Unwritten E k i → Unwritten E k j → i < j → E.posAt k i < E.posAt k j
  cover : ∀ q, q < 10 → ((E.ringAt k).nth q).atUs ≠ 0 → ∃ i, Unwritten E k i ∧ E.posAt k i = q

lemma RingHistory.write (h : RingHistory E k) {buf : Bytes} {gen : UInt32}
    (hkeep : E.KeepsAt k buf gen)
    (hring : E.ringAt (k + 1) = pushed (E.ringAt k) ⟨E.timeAt k, gen, false, buf⟩) :
    RingHistory E (k + 1) := by
  have hkeeps : E.Keeps k := ⟨buf, gen, hkeep⟩
  have hslot : ∀ i, ¬ E.Overwrites k i → E.slotOf k ≠ E.slotOf i := fun i ho hs => ho ⟨hkeeps, hs⟩
  refine ⟨?_, ?_, ?_, ?_⟩
  · intro i hi
    rcases unwritten_succ.mp hi with ⟨rfl, _⟩ | ⟨hu, ho⟩
    · rw [frameAt_written hring, RescueRun.bufAt, hkeep.2.1]
    · rw [frameAt_moves_up hring (hslot i ho)]
      exact h.bytes i hu
  · intro i hi
    rcases unwritten_succ.mp hi with ⟨rfl, _⟩ | ⟨hu, ho⟩
    · rw [frameAt_written hring]
      exact fun _ => rfl
    · rw [frameAt_moves_up hring (hslot i ho)]
      exact h.time i hu
  · intro i j hi hj hij
    rcases unwritten_succ.mp hi with ⟨rfl, _⟩ | ⟨hu, ho⟩
    · have hlt := hj.1
      omega
    · have hpos := posAt_moves_up hring (hslot i ho)
      have hlt := posAt_lt (E := E) k i
      rcases unwritten_succ.mp hj with ⟨rfl, _⟩ | ⟨hu', ho'⟩
      · rw [posAt_written hring]
        omega
      · have hpos' := posAt_moves_up hring (hslot j ho')
        have hord := h.order i j hu hu' hij
        omega
  · intro q hq hne
    rcases Nat.lt_or_ge q 9 with hq9 | hq9
    · rw [hring, nth_pushed _ _ hq9] at hne
      obtain ⟨i, hu, hpos⟩ := h.cover (q + 1) (by omega) hne
      have hs : E.slotOf k ≠ E.slotOf i := by
        intro hs
        rw [RescueRun.posAt, ← hs, RescueRun.slotOf, Fin.sub_self] at hpos
        cases hpos
      have hup := posAt_moves_up hring hs
      exact ⟨i, unwritten_succ.mpr (.inr ⟨hu, fun ho => hs ho.2⟩), by omega⟩
    · obtain rfl : q = 9 := by omega
      exact ⟨k, unwritten_succ.mpr (.inl ⟨rfl, hkeeps⟩), posAt_written hring⟩

lemma RingHistory.stay (h : RingHistory E k) (hk : ¬ E.Keeps k)
    (hhead : (E.ringAt (k + 1)).head = (E.ringAt k).head)
    (hslots : ∀ q, q < 10 → ((E.ringAt (k + 1)).nth q).buf = ((E.ringAt k).nth q).buf ∧
      (((E.ringAt (k + 1)).nth q).atUs ≠ 0 →
        ((E.ringAt (k + 1)).nth q).atUs = ((E.ringAt k).nth q).atUs)) : RingHistory E (k + 1) := by
  have hframe : ∀ i, E.frameAt (k + 1) i = (E.ringAt (k + 1)).nth (E.posAt k i) := by
    intro i
    rw [frameAt_eq, posAt_succ_of_head hhead]
  refine ⟨?_, ?_, ?_, ?_⟩
  · intro i hi
    rw [unwritten_succ_of_not_keeps hk] at hi
    rw [hframe, (hslots _ (posAt_lt k i)).1, ← frameAt_eq]
    exact h.bytes i hi
  · intro i hi hne
    rw [unwritten_succ_of_not_keeps hk] at hi
    rw [hframe] at hne ⊢
    have hat := (hslots _ (posAt_lt k i)).2 hne
    rw [hat, ← frameAt_eq] at hne ⊢
    exact h.time i hi hne
  · intro i j hi hj
    rw [unwritten_succ_of_not_keeps hk] at hi hj
    rw [posAt_succ_of_head hhead, posAt_succ_of_head hhead]
    exact h.order i j hi hj
  · intro q hq hne
    rw [(hslots q hq).2 hne] at hne
    obtain ⟨i, hu, hpos⟩ := h.cover q hq hne
    exact ⟨i, (unwritten_succ_of_not_keeps hk).mpr hu, (posAt_succ_of_head hhead).trans hpos⟩

lemma ringHistory (E : RescueRun) : ∀ k, k ≤ E.length → RingHistory E k := by
  refine E.along ?_ ?_
  · have hnone : ∀ i, ¬ Unwritten E 0 i := fun i h => absurd h.1 (Nat.not_lt_zero i)
    refine ⟨fun i h => absurd h (hnone i), fun i h => absurd h (hnone i),
      fun i _ h => absurd h (hnone i), ?_⟩
    intro q _ hne
    rw [RescueRun.ringAt, E.starts] at hne
    exact absurd (by simp [WgRescueRing.nth, WgRescueRing.empty, Vector.get]) hne
  · intro k hk ih
    rcases rescueStep_cases hk with ⟨buf, gen, hkeep, hring⟩ | ⟨hno, _, hring⟩ |
      ⟨hno, fromUs, maxAgeUs, accepts, _, hring⟩
    · exact ih.write hkeep hring
    · exact ih.stay hno (by rw [hring]) fun q _ => by rw [hring]; exact ⟨rfl, fun _ => rfl⟩
    · refine ih.stay hno (by rw [hring]; exact flush_head _) ?_
      intro q hq
      rw [hring, flush_nth _ hq]
      exact after_kept _ q

lemma inRing_prev (hk : k < E.length) (hik : i < k) (h : E.InRing (k + 1) i) : E.InRing k i := by
  rw [inRing_iff] at h ⊢
  obtain ⟨hu, hne⟩ := h
  obtain ⟨hu', ho⟩ : Unwritten E k i ∧ ¬ E.Overwrites k i := by
    rcases unwritten_succ.mp hu with ⟨rfl, _⟩ | h
    · omega
    · exact h
  refine ⟨hu', ?_⟩
  rcases rescueStep_cases hk with ⟨buf, gen, hkeep, hring⟩ | ⟨hno, _, hring⟩ |
    ⟨hno, fromUs, maxAgeUs, accepts, _, hring⟩
  · rwa [frameAt_moves_up hring fun hs => ho ⟨⟨buf, gen, hkeep⟩, hs⟩] at hne
  · rwa [RescueRun.frameAt, hring] at hne
  · rw [frameAt_eq, posAt_succ_of_head (hring ▸ flush_head _), hring,
      flush_nth _ (posAt_lt k i)] at hne
    rw [(after_kept _ _).2 hne] at hne
    rwa [frameAt_eq]

lemma not_inRing_later {m : ℕ} (hik : i < k) (hkm : k ≤ m) (hm : m ≤ E.length)
    (h : ¬ E.InRing k i) : ¬ E.InRing m i :=
  stretch hkm h fun _ _ _ hno hc => hno (inRing_prev (by omega) (by omega) hc)

lemma order_iff (hk : k ≤ E.length) (hi : Unwritten E k i) (hj : Unwritten E k j) :
    E.posAt k i < E.posAt k j ↔ i < j := by
  have h := ringHistory E k hk
  constructor
  · intro hpos
    rcases Nat.lt_trichotomy i j with hlt | rfl | hgt
    · exact hlt
    · omega
    · have := h.order j i hj hi hgt
      omega
  · exact h.order i j hi hj

section Flush
variable {fromUs maxAgeUs : ℤ} {accepts : ℕ → Bool}

lemma pendingAt_iff (hk : k ≤ E.length) : E.PendingAt k i fromUs maxAgeUs ↔ Unwritten E k i ∧
      wgRescuePending ((E.ringAt k).nth (E.posAt k i)) (E.timeAt k) fromUs maxAgeUs = true := by
  have h := ringHistory E k hk
  rw [RescueRun.PendingAt, inRing_iff, ← frameAt_eq, wgRescuePending]
  simp only [Bool.and_eq_true, Bool.or_eq_true, decide_eq_true_eq, Bool.not_eq_true',
    wgTimerDue_eq_false_iff, RescueRun.WantedAt, RescueRun.YoungAt, RescueRun.OwedAt, ge_iff_le]
  constructor
  · rintro ⟨⟨hu, hne⟩, hwanted, hyoung⟩
    rw [h.time i hu hne]
    rw [h.time i hu hne] at hne
    exact ⟨hu, ⟨hne, hwanted⟩, hyoung⟩
  · rintro ⟨hu, ⟨hne, hwanted⟩, hyoung⟩
    rw [h.time i hu hne] at hwanted hyoung
    exact ⟨⟨hu, hne⟩, hwanted, hyoung⟩

lemma exists_pendingAt (hk : k ≤ E.length) {q : ℕ} (hq : q < 10)
    (h : (flushCall E k fromUs maxAgeUs accepts).pends q) :
    ∃ i, E.PendingAt k i fromUs maxAgeUs ∧ E.posAt k i = q := by
  obtain ⟨i, hu, hpos⟩ := (ringHistory E k hk).cover q hq (pends_full h)
  exact ⟨i, (pendingAt_iff hk).mpr ⟨hu, hpos ▸ h⟩, hpos⟩

lemma posAt_mem_handed (hk : k ≤ E.length) (hi : Unwritten E k i) :
    E.posAt k i ∈ wgRescueHanded (E.ringAt k) (E.timeAt k) fromUs maxAgeUs accepts ↔
      E.PendingAt k i fromUs maxAgeUs ∧
        ∀ j, j < i → E.PendingAt k j fromUs maxAgeUs → accepts (E.posAt k j) = true := by
  rw [mem_handed (flushCall E k fromUs maxAgeUs accepts), pendingAt_iff hk]
  constructor
  · rintro ⟨_, hp, hall⟩
    refine ⟨⟨hi, hp⟩, ?_⟩
    intro j hji hj
    obtain ⟨huj, hpj⟩ := (pendingAt_iff hk).mp hj
    exact hall _ ((order_iff hk huj hi).mpr hji) hpj
  · rintro ⟨⟨_, hp⟩, hall⟩
    refine ⟨posAt_lt k i, hp, ?_⟩
    intro q hq hpq
    obtain ⟨j, hj, rfl⟩ := exists_pendingAt hk (hq.trans (posAt_lt k i)) hpq
    exact hall j ((order_iff hk ((pendingAt_iff hk).mp hj).1 hi).mp hq) hj

lemma exists_handed_frames (fromUs maxAgeUs : ℤ) (accepts : ℕ → Bool) (hk : k ≤ E.length) : ∃ ids :
    List ℕ, ids.Pairwise (· < ·) ∧ (∀ i, i ∈ ids ↔ E.PendingAt k i fromUs maxAgeUs ∧
      ∀ j, j < i → E.PendingAt k j fromUs maxAgeUs → accepts (E.posAt k j) = true) ∧
    wgRescueHanded (E.ringAt k) (E.timeAt k) fromUs maxAgeUs accepts = ids.map (E.posAt k) := by
  have hframe : ∀ q, ∃ i, q ∈ wgRescueHanded (E.ringAt k) (E.timeAt k) fromUs maxAgeUs accepts →
      Unwritten E k i ∧ E.posAt k i = q := by
    intro q
    by_cases hq : q ∈ wgRescueHanded (E.ringAt k) (E.timeAt k) fromUs maxAgeUs accepts
    · obtain ⟨hlt, hp, _⟩ := (mem_handed (flushCall E k fromUs maxAgeUs accepts)).mp hq
      obtain ⟨i, hi, hpos⟩ := exists_pendingAt hk hlt hp
      exact ⟨i, fun _ => ⟨((pendingAt_iff hk).mp hi).1, hpos⟩⟩
    · exact ⟨0, fun h => absurd h hq⟩
  choose g hg using hframe
  have hsorted : (wgRescueHanded (E.ringAt k) (E.timeAt k) fromUs maxAgeUs accepts).Pairwise (· < ·) :=
    List.Pairwise.filter _ List.pairwise_lt_range
  refine ⟨(wgRescueHanded (E.ringAt k) (E.timeAt k) fromUs maxAgeUs accepts).map g, ?_, ?_, ?_⟩
  · rw [List.pairwise_map]
    refine hsorted.imp_of_mem ?_
    intro p q hp hq hpq
    obtain ⟨hup, hposp⟩ := hg p hp
    obtain ⟨huq, hposq⟩ := hg q hq
    rw [← order_iff hk hup huq, hposp, hposq]
    exact hpq
  · intro i
    rw [List.mem_map]
    constructor
    · rintro ⟨q, hq, rfl⟩
      obtain ⟨hu, hpos⟩ := hg q hq
      rw [← posAt_mem_handed hk hu, hpos]
      exact hq
    · intro h
      have hu := ((pendingAt_iff hk).mp h.1).1
      have hmem : E.posAt k i ∈
          wgRescueHanded (E.ringAt k) (E.timeAt k) fromUs maxAgeUs accepts :=
        (posAt_mem_handed hk hu).mpr h
      obtain ⟨hu', hpos'⟩ := hg _ hmem
      refine ⟨_, hmem, ?_⟩
      have h1 := order_iff hk hu hu'
      have h2 := order_iff hk hu' hu
      omega
  · rw [List.map_map]
    refine (List.map_id _).symm.trans (List.map_congr_left ?_)
    intro q hq
    exact (hg q hq).2.symm

variable (hf : E.FlushesAt k fromUs maxAgeUs accepts)
include hf

lemma flushesAt_ring : ¬ E.Keeps k ∧ E.ringAt (k + 1) =
    (flushCall E k fromUs maxAgeUs accepts).result.ring := by
  rcases rescueStep_cases hf.1 with ⟨buf, gen, hkeep, _⟩ | ⟨_, hno, _⟩ |
    ⟨hno, fromUs', maxAgeUs', accepts', hf', hring⟩
  · have hop := hf.2.symm.trans hkeep.2.1
    cases hop
  · exact absurd hf (hno _ _ _)
  · obtain ⟨rfl, rfl, rfl⟩ := flushesAt_unique hf hf'
    exact ⟨hno, hring⟩

lemma flushesAt_frame : E.frameAt (k + 1) i =
    (flushCall E k fromUs maxAgeUs accepts).after (E.posAt k i) := by
  have hring := (flushesAt_ring hf).2
  rw [frameAt_eq, posAt_succ_of_head (hring ▸ flush_head _), hring,
    flush_nth _ (posAt_lt k i)]

lemma handsAt_iff {taken : Bool} : E.HandsAt k i taken ↔ E.InRing k i ∧
    E.posAt k i ∈ wgRescueHanded (E.ringAt k) (E.timeAt k) fromUs maxAgeUs accepts ∧
      accepts (E.posAt k i) = taken := by
  constructor
  · rintro ⟨hin, fromUs', maxAgeUs', accepts', hf', hmem, ha⟩
    obtain ⟨rfl, rfl, rfl⟩ := flushesAt_unique hf hf'
    exact ⟨hin, hmem, ha⟩
  · rintro ⟨hin, hmem, ha⟩
    exact ⟨hin, _, _, _, hf, hmem, ha⟩

lemma handsAt_true_iff (hp : E.PendingAt k i fromUs maxAgeUs) : E.HandsAt k i true ↔
    (flushCall E k fromUs maxAgeUs accepts).takes (E.posAt k i + 1) = true := by
  have hpend := ((pendingAt_iff hf.1.le).mp hp).2
  rw [handsAt_iff hf, mem_handed (flushCall E k fromUs maxAgeUs accepts), takes_succ, takes_iff]
  constructor
  · rintro ⟨_, ⟨_, _, hall⟩, ha⟩
    exact ⟨hall, fun _ => ha⟩
  · rintro ⟨hall, ha⟩
    exact ⟨hp.1, ⟨posAt_lt k i, hpend, hall⟩, ha hpend⟩

lemma flushesAt_left (hp : E.PendingAt k i fromUs maxAgeUs) (hno : ¬ E.HandsAt k i true) :
    E.InRing (k + 1) i ∧ E.frameAt (k + 1) i = { E.frameAt k i with owed := true } := by
  have hpend := (pendingAt_iff hf.1.le).mp hp
  rw [handsAt_true_iff hf hp, Bool.not_eq_true] at hno
  have hframe : E.frameAt (k + 1) i = { E.frameAt k i with owed := true } := by
    rw [flushesAt_frame hf, FlushCall.after, if_pos ⟨hpend.2, hno⟩, frameAt_eq]
  refine ⟨?_, hframe⟩
  rw [inRing_iff, unwritten_succ_of_not_keeps (flushesAt_ring hf).1, hframe]
  exact inRing_iff.mp hp.1

lemma flushesAt_gone (h : ¬ E.PendingAt k i fromUs maxAgeUs ∨ E.HandsAt k i true)
    (hin : E.InRing k i) : ¬ E.InRing (k + 1) i := by
  have hno : ¬ ((flushCall E k fromUs maxAgeUs accepts).pends (E.posAt k i) = true ∧
      (flushCall E k fromUs maxAgeUs accepts).takes (E.posAt k i + 1) = false) := by
    rintro ⟨hp, ht⟩
    have hpend := (pendingAt_iff hf.1.le).mpr ⟨(inRing_iff.mp hin).1, hp⟩
    rcases h with h | h
    · exact h hpend
    · rw [handsAt_true_iff hf hpend, ht] at h
      cases h
  intro hc
  rw [inRing_iff, flushesAt_frame hf, FlushCall.after, if_neg hno] at hc
  exact hc.2 rfl

end Flush

lemma keepsAt_inRing (h : E.Keeps i) (ht : E.timeAt i ≠ 0) : E.InRing (i + 1) i := by
  obtain ⟨buf, gen, hkeep⟩ := h
  rcases rescueStep_cases hkeep.1 with ⟨buf', gen', _, hring⟩ | ⟨hno, _, _⟩ | ⟨hno, _⟩
  · rw [inRing_iff, frameAt_written hring]
    exact ⟨unwritten_succ.mpr (.inl ⟨rfl, buf, gen, hkeep⟩), ht⟩
  · exact absurd ⟨buf, gen, hkeep⟩ hno
  · exact absurd ⟨buf, gen, hkeep⟩ hno

lemma frameAt_unflushed (hk : k < E.length) (hin : E.InRing k i)
    (hno : ∀ fromUs maxAgeUs accepts, ¬ E.FlushesAt k fromUs maxAgeUs accepts)
    (ho : ¬ E.Overwrites k i) : E.InRing (k + 1) i ∧ E.frameAt (k + 1) i = E.frameAt k i := by
  have hframe : E.frameAt (k + 1) i = E.frameAt k i := by
    rcases rescueStep_cases hk with ⟨buf, gen, hkeep, hring⟩ | ⟨_, _, hring⟩ |
      ⟨_, fromUs, maxAgeUs, accepts, hf, _⟩
    · exact frameAt_moves_up hring fun hs => ho ⟨⟨buf, gen, hkeep⟩, hs⟩
    · rw [RescueRun.frameAt, hring, RescueRun.frameAt]
    · exact absurd hf (hno _ _ _)
  refine ⟨?_, hframe⟩
  rw [inRing_iff] at hin ⊢
  rw [hframe]
  exact ⟨unwritten_succ.mpr (.inr ⟨hin.1, ho⟩), hin.2⟩

lemma owed_leaves (hk : k < E.length) (hin : E.InRing k i) (howed : E.OwedAt k i) :
    (E.InRing (k + 1) i ∧ E.OwedAt (k + 1) i) ∨ E.HandsAt k i true ∨ E.AgesAt k i ∨
      E.Overwrites k i := by
  by_cases hflush : ∃ fromUs maxAgeUs accepts, E.FlushesAt k fromUs maxAgeUs accepts
  · obtain ⟨fromUs, maxAgeUs, accepts, hf⟩ := hflush
    by_cases hyoung : E.YoungAt k i maxAgeUs
    · by_cases ht : E.HandsAt k i true
      · exact .inr (.inl ht)
      · left
        obtain ⟨hin', hframe⟩ := flushesAt_left hf ⟨hin, .inl howed, hyoung⟩ ht
        exact ⟨hin', by rw [RescueRun.OwedAt, hframe]⟩
    · exact .inr (.inr (.inl ⟨fromUs, maxAgeUs, accepts, hf, hyoung⟩))
  · by_cases ho : E.Overwrites k i
    · exact .inr (.inr (.inr ho))
    · left
      have hno : ∀ fromUs maxAgeUs accepts, ¬ E.FlushesAt k fromUs maxAgeUs accepts :=
        fun fromUs maxAgeUs accepts hf => hflush ⟨fromUs, maxAgeUs, accepts, hf⟩
      obtain ⟨hin', hframe⟩ := frameAt_unflushed hk hin hno ho
      exact ⟨hin', by rw [RescueRun.OwedAt, hframe]; exact howed⟩

end Runs

/-- A flush hands over the pending frames in the order they were kept in, up to the first refused;
what it does not get rid of stays, owed. No frame is handed over again once taken, and an owed one
leaves by being taken, by its age, or for a newer frame. -/
theorem flush_sends_pending_once (E : RescueRun) :
    (∀ i, E.Keeps i → E.timeAt i ≠ 0 → E.InRing (i + 1) i) ∧
      (∀ k fromUs maxAgeUs accepts, E.FlushesAt k fromUs maxAgeUs accepts →
        (∃ ids : List ℕ, ids.Pairwise (· < ·) ∧ (∀ i, i ∈ ids ↔ E.PendingAt k i fromUs maxAgeUs ∧
            ∀ j, j < i → E.PendingAt k j fromUs maxAgeUs → accepts (E.posAt k j) = true) ∧
          wgRescueHanded (E.ringAt k) (E.timeAt k) fromUs maxAgeUs accepts = ids.map (E.posAt k) ∧
          (ids.map fun i => (E.frameAt k i).buf) = ids.map E.bufAt ∧
          (wgRescueFlush (E.ringAt k) (E.timeAt k) fromUs maxAgeUs accepts).sent =
            (ids.filter fun i => accepts (E.posAt k i)).map E.bufAt) ∧
        (∀ i, E.PendingAt k i fromUs maxAgeUs → ¬ E.HandsAt k i true →
          E.InRing (k + 1) i ∧ E.frameAt (k + 1) i = { E.frameAt k i with owed := true }) ∧
        ∀ i, E.InRing k i → ¬ E.PendingAt k i fromUs maxAgeUs → ¬ E.InRing (k + 1) i) ∧
      (∀ k i, E.HandsAt k i true → ∀ m taken, k < m → ¬ E.HandsAt m i taken) ∧
      ∀ k i, k < E.length → E.InRing k i → E.OwedAt k i →
        (E.InRing (k + 1) i ∧ E.OwedAt (k + 1) i) ∨ E.HandsAt k i true ∨ E.AgesAt k i ∨
          E.Overwrites k i := by
  refine ⟨fun i => keepsAt_inRing, ?_, ?_, fun k i => owed_leaves⟩
  · intro k fromUs maxAgeUs accepts hf
    refine ⟨?_, fun i => flushesAt_left hf, fun i hin hp => flushesAt_gone hf (.inl hp) hin⟩
    obtain ⟨ids, hsorted, hmem, hhanded⟩ :=
      exists_handed_frames fromUs maxAgeUs accepts hf.1.le
    have hbytes : ∀ i ∈ ids, (E.frameAt k i).buf = E.bufAt i := by
      intro i hi
      exact (ringHistory E k hf.1.le).bytes i ((pendingAt_iff hf.1.le).mp ((hmem i).mp hi).1).1
    refine ⟨ids, hsorted, hmem, hhanded, List.map_congr_left hbytes, ?_⟩
    refine (flush_sent (flushCall E k fromUs maxAgeUs accepts)).trans ?_
    rw [flushCall, hhanded, List.filter_map, List.map_map]
    refine List.map_congr_left ?_
    intro i hi
    exact (congrArg WgRescue.buf (frameAt_eq k i).symm).trans (hbytes i (List.mem_filter.mp hi).1)
  · intro k i hh m taken hkm hm
    have hin := hh.1
    obtain ⟨fromUs, maxAgeUs, accepts, hf, _⟩ := hh.2
    obtain ⟨hin', _, _, _, hf', _⟩ := hm
    have hgone := flushesAt_gone hf (.inr hh) hin
    exact not_inRing_later (Nat.lt_succ_of_lt hin.1) hkm hf'.1.le hgone hin'

section Samples

def emptyStart : RescueState := ⟨.empty, 0⟩

lemma emptyStart_started : emptyStart.Started := rfl

def refusedSteps : List RescueStep :=
  [⟨5, .keep [1] 1⟩, ⟨6, .keep [2] 1⟩, ⟨7, .flush 0 100 fun q => q = 8⟩]

def refusedRun : RescueRun :=
  runOf emptyStart emptyStart_started ⟨0, .keep [] 0⟩ refusedSteps (by decide +kernel)

lemma refusedRun_pending : refusedRun.PendingAt 2 1 0 100 := by
  refine ⟨⟨by decide, ⟨[2], 1, by decide, rfl, by decide⟩, ?_, by decide +kernel⟩, .inr (by decide),
    (by decide : (7 : ℤ) ≤ 6 + 100)⟩
  intro j hj hj'
  omega

theorem refused_frame_stays : refusedRun.InRing 3 1 ∧ refusedRun.OwedAt 3 1 := by
  have hflush : refusedRun.FlushesAt 2 0 100 fun q => q = 8 := ⟨by decide, rfl⟩
  have hrefused : ¬ refusedRun.HandsAt 2 1 true := by
    rw [handsAt_iff hflush]
    rintro ⟨_, _, ha⟩
    exact absurd ha (by decide +kernel)
  obtain ⟨hin, hframe⟩ := ((flush_sends_pending_once refusedRun).2.1 2 0 100 _ hflush).2.1 1
    refusedRun_pending hrefused
  exact ⟨hin, by rw [RescueRun.OwedAt, hframe]⟩

def zeroSteps : List RescueStep := [⟨0, .keep [1] 1⟩, ⟨0, .flush 0 100 fun _ => true⟩]

def zeroRun : RescueRun :=
  runOf emptyStart emptyStart_started ⟨0, .keep [] 0⟩ zeroSteps (by decide +kernel)

/-- A frame kept at time 0 is an empty slot, and is not re-sent. -/
theorem frame_of_time_zero_is_lost : zeroRun.KeepsAt 0 [1] 1 ∧
    zeroRun.FlushesAt 1 0 100 (fun _ => true) ∧ zeroRun.WantedAt 1 0 0 ∧ zeroRun.YoungAt 1 0 100 ∧
    wgRescueHanded (zeroRun.ringAt 1) (zeroRun.timeAt 1) 0 100 (fun _ => true) = [] :=
  ⟨⟨by decide, rfl, by decide⟩, ⟨by decide, rfl⟩, .inr (by decide), (by decide : (0 : ℤ) ≤ 0 + 100),
    by decide +kernel⟩

end Samples

end TinyLink.Proofs
