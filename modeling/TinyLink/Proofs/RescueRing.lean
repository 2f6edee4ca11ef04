import Mathlib.Data.List.Induction
import TinyLink.Proofs.RescuePass

/-!
# The rescue ring and its summary

The summary and the memory of re-sent keypairs keep the two newest generations only; what they say
of those is exact.
-/

namespace TinyLink.Proofs

variable {r : WgRescueRing} {s : WgRescueSent} {i lastGen : ℕ} {lastUs : ℤ} {k : WgRescueKeypair}

section Memory
variable {k0 k1 d : ℕ} {P0 P1 : Prop}

/-- What a memory of the two newest keys says of key `d`: an entry is about it, or it is older than
both. -/
def Noted (k0 k1 : ℕ) (P0 P1 : Prop) (d : ℕ) : Prop :=
  (k0 = d ∧ P0) ∨ (k1 = d ∧ P1) ∨ d < k1

lemma Noted.shift (h : Noted k0 k1 P0 P1 d) (hd : d ≠ 0) (hk : k1 ≠ 0 → k1 < k0) (k : ℕ)
    (Q : Prop) : Noted k k0 Q P0 d := by
  rcases h with h | ⟨h, _⟩ | h
  · exact .inr (.inl h)
  · exact .inr (.inr (by omega))
  · exact .inr (.inr (by omega))

lemma Noted.imp {Q0 Q1 : Prop} (h : Noted k0 k1 P0 P1 d) (h0 : P0 → Q0) (h1 : P1 → Q1) :
    Noted k0 k1 Q0 Q1 d := by
  rcases h with ⟨h, hp⟩ | ⟨h, hp⟩ | h
  · exact .inl ⟨h, h0 hp⟩
  · exact .inr (.inl ⟨h, h1 hp⟩)
  · exact .inr (.inr h)

lemma Noted.entry (h : Noted k0 k1 P0 P1 d) (hk : k1 ≠ 0 → k1 < k0) (hd : k0 ≤ d + 1) :
    (k0 = d ∧ P0) ∨ (k1 = d ∧ P1) := by
  rcases h with h | h | h
  · exact .inl h
  · exact .inr h
  · omega

end Memory

section Summary

def Covers (k : WgRescueKeypair) (s : WgRescue) : Prop :=
  s.atUs ≤ k.newestUs ∧ (s.owed = true → s.atUs ≤ k.owedUs)

def OwedFrom (l : List WgRescue) (k : WgRescueKeypair) : Prop :=
  k.owedUs ≠ 0 → ∃ s ∈ l, s.owed = true ∧ s.gen = k.gen ∧ s.atUs = k.owedUs

/-- The two instants of a keypair are those of frames of it in the ring. -/
def KeyFrom (l : List WgRescue) (k : WgRescueKeypair) : Prop :=
  k.gen.toNat ≠ 0 →
    (∃ s ∈ l, s.atUs ≠ 0 ∧ s.gen = k.gen ∧ s.atUs = k.newestUs) ∧ OwedFrom l k

variable {l : List WgRescue}

lemma OwedFrom.append (h : OwedFrom l k) (s : WgRescue) :
    OwedFrom (l ++ [s]) k := by
  intro howed
  obtain ⟨t, ht, hk⟩ := h howed
  exact ⟨t, List.mem_append_left _ ht, hk⟩

lemma KeyFrom.append (h : KeyFrom l k) (s : WgRescue) :
    KeyFrom (l ++ [s]) k := by
  intro h0
  obtain ⟨⟨t, ht, hn⟩, ho⟩ := h h0
  exact ⟨⟨t, List.mem_append_left _ ht, hn⟩, ho.append s⟩

lemma keyFrom_newest {s : WgRescue}
    (h : k.gen.toNat ≠ 0 → OwedFrom l k) (hs : s.atUs ≠ 0) (hg : s.gen = k.gen) :
    KeyFrom (l ++ [s]) ⟨k.gen, s.atUs, if s.owed then s.atUs else k.owedUs⟩ := by
  intro h0
  refine ⟨⟨s, by simp, hs, hg, rfl⟩, ?_⟩
  split
  · next ho => exact fun _ => ⟨s, by simp, ho, hg, rfl⟩
  · exact (h h0).append s

structure Summarized (l : List WgRescue) (out : WgRescueSum) : Prop where
  order : out.key1.gen.toNat ≠ 0 → out.key1.gen.toNat < out.key0.gen.toNat
  found : KeyFrom l out.key0 ∧ KeyFrom l out.key1
  noted : ∀ s ∈ l, s.atUs ≠ 0 → s.gen.toNat ≠ 0 →
    Noted out.key0.gen.toNat out.key1.gen.toNat (Covers out.key0 s) (Covers out.key1 s) s.gen.toNat

lemma summarized_append {out : WgRescueSum} (h : Summarized l out)
    (s : WgRescue)
    (hlast : s.atUs ≠ 0 → ∀ t ∈ l, t.atUs ≠ 0 → t.gen.toNat ≤ s.gen.toNat ∧ t.atUs ≤ s.atUs) :
    Summarized (l ++ [s]) (wgRescueSumSlot out s) := by
  unfold wgRescueSumSlot
  by_cases hs : s.atUs = 0
  · rw [if_pos hs]
    refine ⟨h.order, ⟨h.found.1.append s, h.found.2.append s⟩, ?_⟩
    intro t ht hne
    rcases List.mem_append.mp ht with ht | ht
    · exact h.noted t ht hne
    · rw [List.mem_singleton.mp ht] at hne
      exact absurd hs hne
  · rw [if_neg hs]
    have hold := hlast hs
    by_cases hg : s.gen = out.key0.gen
    · -- the newest keypair has one more frame
      rw [if_neg (not_not.mpr hg)]
      refine ⟨h.order, ⟨keyFrom_newest (fun h0 => (h.found.1 h0).2) hs hg, h.found.2.append s⟩, ?_⟩
      intro t ht hne h0
      rcases List.mem_append.mp ht with ht | ht
      · refine (h.noted t ht hne h0).imp ?_ id
        rintro ⟨hn, ho⟩
        refine ⟨(hold t ht hne).2, ?_⟩
        intro howed
        split
        · exact (hold t ht hne).2
        · exact ho howed
      · rw [List.mem_singleton.mp ht]
        refine .inl ⟨by rw [hg], le_rfl, ?_⟩
        intro howed
        exact le_of_eq (if_pos howed).symm
    · rw [if_pos hg]
      have hnone : OwedFrom l ⟨s.gen, 0, 0⟩ := fun h => absurd rfl h
      refine ⟨?_, ⟨keyFrom_newest (fun _ => hnone) hs rfl, h.found.1.append s⟩, ?_⟩
      · intro h0
        obtain ⟨⟨t, ht, hne, htg, -⟩, -⟩ := h.found.1 h0
        have hle := (hold t ht hne).1
        have hneq : s.gen.toNat ≠ out.key0.gen.toNat := fun heq => hg (UInt32.toNat_inj.mp heq)
        rw [htg] at hle
        change out.key0.gen.toNat < s.gen.toNat
        omega
      · intro t ht hne h0
        rcases List.mem_append.mp ht with ht | ht
        · exact (h.noted t ht hne h0).shift h0 h.order _ _
        · rw [List.mem_singleton.mp ht]
          refine .inl ⟨rfl, le_rfl, ?_⟩
          intro howed
          exact le_of_eq (if_pos howed).symm

lemma summarized_foldl (hsorted : l.Pairwise fun t s => t.atUs ≠ 0 → s.atUs ≠ 0 →
      t.gen.toNat ≤ s.gen.toNat ∧ t.atUs ≤ s.atUs) (sent0 sent1 : WgRescueSent) :
    Summarized l (l.foldl wgRescueSumSlot ⟨⟨0, 0, 0⟩, ⟨0, 0, 0⟩, sent0, sent1⟩) := by
  induction l using List.reverseRecOn with
  | nil =>
    refine ⟨fun h => absurd rfl h, ⟨fun h => absurd rfl h, fun h => absurd rfl h⟩, ?_⟩
    intro s hs
    cases hs
  | append_singleton l s ih =>
    obtain ⟨hl, _, hlast⟩ := List.pairwise_append.mp hsorted
    rw [List.foldl_append, List.foldl_cons, List.foldl_nil]
    refine summarized_append (ih hl) s ?_
    intro hs t ht hne
    exact hlast t ht s (List.mem_singleton_self s) hne hs

lemma foldl_sumSlot_sent (l : List WgRescue) (out : WgRescueSum) :
    (l.foldl wgRescueSumSlot out).sent0 = out.sent0 ∧ (l.foldl wgRescueSumSlot out).sent1 = out.sent1 := by
  induction l generalizing out with
  | nil => exact ⟨rfl, rfl⟩
  | cons s l ih =>
    have hslot : (wgRescueSumSlot out s).sent0 = out.sent0 ∧ (wgRescueSumSlot out s).sent1 = out.sent1 := by
      simp only [wgRescueSumSlot]
      split
      · exact ⟨rfl, rfl⟩
      · split <;> exact ⟨rfl, rfl⟩
    rw [List.foldl_cons, (ih _).1, (ih _).2]
    exact hslot

end Summary

section Ring

/-- The frames stand in the order of their times and generations; re-sent keypairs are not newer
than the frames left. -/
structure RingInv (r : WgRescueRing) (lastUs : ℤ) (lastGen : ℕ) : Prop where
  sorted : ∀ i j, i < j → Full r i → Full r j →
    (r.nth i).gen.toNat ≤ (r.nth j).gen.toNat ∧ (r.nth i).atUs ≤ (r.nth j).atUs
  last : ∀ i, Full r i →
    0 < (r.nth i).atUs ∧ (r.nth i).atUs ≤ lastUs ∧ (r.nth i).gen.toNat ≤ lastGen
  sentFirst : ∀ i, Full r i → r.sent0.gen.toNat ≤ (r.nth i).gen.toNat
  sentLast : r.sent0.gen.toNat ≤ lastGen
  order : r.sent1.gen.toNat ≠ 0 → r.sent1.gen.toNat < r.sent0.gen.toNat

lemma ringInv_empty : RingInv .empty 0 0 := by
  have hempty : ∀ i, ¬ Full .empty i := by
    rintro i ⟨hi, h⟩
    apply h
    simp [WgRescueRing.nth, WgRescueRing.empty, Vector.get]
  exact ⟨fun i _ _ h => absurd h (hempty i), fun i h => absurd h (hempty i),
    fun i h => absurd h (hempty i), le_rfl, fun h => absurd rfl h⟩

lemma ringInv_keep (h : RingInv r lastUs lastGen)
    (buf : Bytes) {now : ℤ} {gen : UInt32} (hpos : 0 < now) (hus : lastUs ≤ now)
    (hgen : lastGen ≤ gen.toNat) : RingInv (wgRescueKeep r buf now gen) now gen.toNat := by
  unfold wgRescueKeep
  split
  · -- too long to be kept
    refine ⟨h.sorted, ?_, h.sentFirst, h.sentLast.trans hgen, h.order⟩
    intro i hi
    obtain ⟨h0, hu, hg⟩ := h.last i hi
    exact ⟨h0, hu.trans hus, hg.trans hgen⟩
  · change RingInv (pushed r ⟨now, gen, false, buf⟩) now gen.toNat
    have hshift : ∀ i, i < 9 → Full (pushed r ⟨now, gen, false, buf⟩) i → Full r (i + 1) := by
      rintro i hi ⟨_, hne⟩
      rw [nth_pushed _ _ hi] at hne
      exact ⟨by omega, hne⟩
    refine ⟨?_, ?_, ?_, h.sentLast.trans hgen, h.order⟩
    · intro i j hij hi hj
      have hi9 : i < 9 := by
        have := hj.1
        omega
      rw [nth_pushed _ _ hi9]
      rcases Nat.lt_or_ge j 9 with hj9 | hj9
      · rw [nth_pushed _ _ hj9]
        exact h.sorted (i + 1) (j + 1) (by omega) (hshift i hi9 hi) (hshift j hj9 hj)
      · obtain rfl : j = 9 := by
          have := hj.1
          omega
        rw [nth_pushed_last]
        obtain ⟨_, hu, hg⟩ := h.last (i + 1) (hshift i hi9 hi)
        exact ⟨hg.trans hgen, hu.trans hus⟩
    · intro i hi
      rcases Nat.lt_or_ge i 9 with hi9 | hi9
      · rw [nth_pushed _ _ hi9]
        obtain ⟨h0, hu, hg⟩ := h.last (i + 1) (hshift i hi9 hi)
        exact ⟨h0, hu.trans hus, hg.trans hgen⟩
      · obtain rfl : i = 9 := by
          have := hi.1
          omega
        rw [nth_pushed_last]
        exact ⟨hpos, le_rfl, le_rfl⟩
    · intro i hi
      rcases Nat.lt_or_ge i 9 with hi9 | hi9
      · rw [nth_pushed _ _ hi9]
        exact h.sentFirst (i + 1) (hshift i hi9 hi)
      · obtain rfl : i = 9 := by
          have := hi.1
          omega
        rw [nth_pushed_last]
        exact h.sentLast.trans hgen

lemma keep_sent (r : WgRescueRing) (buf : Bytes) (now : ℤ) (gen : UInt32) :
    (wgRescueKeep r buf now gen).sent0 = r.sent0 ∧ (wgRescueKeep r buf now gen).sent1 = r.sent1 := by
  unfold wgRescueKeep
  split <;> exact ⟨rfl, rfl⟩

lemma pairwise_oldestFirst (h : RingInv r lastUs lastGen) :
    r.oldestFirst.Pairwise fun t s => t.atUs ≠ 0 → s.atUs ≠ 0 →
      t.gen.toNat ≤ s.gen.toNat ∧ t.atUs ≤ s.atUs := by
  rw [WgRescueRing.oldestFirst, List.pairwise_map, List.pairwise_iff_getElem]
  intro i j hi hj hij hne hne'
  simp only [List.getElem_range] at hne hne' ⊢
  exact h.sorted i j hij ⟨hi, hne⟩ ⟨hj, hne'⟩

end Ring

section Resent
variable {now t : ℤ} {gen : UInt32} {gs gs' : List UInt32} {r₁ r₂ : WgRescueRing}

def Resent (r : WgRescueRing) (d : ℕ) (t : ℤ) : Prop :=
  Noted r.sent0.gen.toNat r.sent1.gen.toNat (t ≤ r.sent0.us) (t ≤ r.sent1.us) d

def SentBefore (r : WgRescueRing) (t : ℤ) : Prop :=
  (r.sent0.gen.toNat ≠ 0 → r.sent0.us ≤ t) ∧ (r.sent1.gen.toNat ≠ 0 → r.sent1.us ≤ t)

/-- The memory of `r'` is that of `r` behind frames of the generations `gs`, taken at `now`. -/
structure Remembers (r r' : WgRescueRing) (now : ℤ) (gs : List UInt32) : Prop where
  order : r'.sent1.gen.toNat ≠ 0 → r'.sent1.gen.toNat < r'.sent0.gen.toNat
  us : SentBefore r' now
  old : ∀ d t, d ≠ 0 → Resent r d t → Resent r' d t
  new : ∀ g ∈ gs, g.toNat ≠ 0 → Resent r' g.toNat now
  origin : ∀ e, e = r'.sent0 ∨ e = r'.sent1 → e = r.sent0 ∨ e = r.sent1 ∨ ∃ g ∈ gs, e = ⟨g, now⟩

lemma remembers_none (horder : r.sent1.gen.toNat ≠ 0 → r.sent1.gen.toNat < r.sent0.gen.toNat)
    (hus : SentBefore r now) : Remembers r r now [] := by
  refine ⟨horder, hus, fun _ _ _ => id, ?_, ?_⟩
  · intro g hg
    cases hg
  · rintro e (he | he)
    · exact .inl he
    · exact .inr (.inl he)

lemma Remembers.trans (h : Remembers r r₁ now gs) (h' : Remembers r₁ r₂ now gs') :
    Remembers r r₂ now (gs ++ gs') := by
  refine ⟨h'.order, h'.us, fun d t hd ht => h'.old d t hd (h.old d t hd ht), ?_, ?_⟩
  · intro g hg h0
    rcases List.mem_append.mp hg with hg | hg
    · exact h'.old _ _ h0 (h.new g hg h0)
    · exact h'.new g hg h0
  · have hold : ∀ e, e = r₁.sent0 ∨ e = r₁.sent1 →
        e = r.sent0 ∨ e = r.sent1 ∨ ∃ g ∈ gs ++ gs', e = ⟨g, now⟩ := by
      intro e he
      refine (h.origin e he).imp_right (Or.imp_right ?_)
      rintro ⟨g, hg, heq⟩
      exact ⟨g, List.mem_append_left _ hg, heq⟩
    intro e he
    rcases h'.origin e he with he | he | ⟨g, hg, heq⟩
    · exact hold e (.inl he)
    · exact hold e (.inr he)
    · exact .inr (.inr ⟨g, List.mem_append_right _ hg, heq⟩)

section
variable (horder : r.sent1.gen.toNat ≠ 0 → r.sent1.gen.toNat < r.sent0.gen.toNat)
include horder

lemma remembers_one (hus : SentBefore r now) (hle : r.sent0.gen.toNat ≤ gen.toNat) :
    Remembers r (r.markSent gen now) now [gen] := by
  have hnew : Resent (r.markSent gen now) gen.toNat now := by
    rw [Resent, (markSent_sent r gen now).1]
    exact .inl ⟨rfl, le_rfl⟩
  have hone : ∀ g ∈ [gen], g.toNat ≠ 0 → Resent (r.markSent gen now) g.toNat now := by
    intro g hg _
    rw [List.mem_singleton.mp hg]
    exact hnew
  by_cases hg : gen = r.sent0.gen
  · have hr : r.markSent gen now = { r with sent0 := ⟨gen, now⟩ } := if_neg (not_not.mpr hg)
    rw [hr] at hone ⊢
    refine ⟨hg ▸ horder, ⟨fun _ => le_rfl, hus.2⟩, ?_, hone, ?_⟩
    · rintro d t hd (⟨h0, ht⟩ | h)
      · exact .inl ⟨hg ▸ h0, ht.trans (hus.1 (h0 ▸ hd))⟩
      · exact .inr h
    · rintro e (he | he)
      · exact .inr (.inr ⟨gen, List.mem_singleton_self _, he⟩)
      · exact .inr (.inl he)
  · have hr : r.markSent gen now = { r with sent1 := r.sent0, sent0 := ⟨gen, now⟩ } := if_pos hg
    rw [hr] at hone ⊢
    refine ⟨?_, ⟨fun _ => le_rfl, hus.1⟩, fun d t hd ht => Noted.shift ht hd horder _ _, hone, ?_⟩
    · intro _
      have hne : gen.toNat ≠ r.sent0.gen.toNat := fun heq => hg (UInt32.toNat_inj.mp heq)
      change r.sent0.gen.toNat < gen.toNat
      omega
    · rintro e (he | he)
      · exact .inr (.inr ⟨gen, List.mem_singleton_self _, he⟩)
      · exact .inl he

lemma remembers_sorted (hus : SentBefore r now) (hgs : gs.Pairwise fun g g' => g.toNat ≤ g'.toNat)
    (hfirst : ∀ g ∈ gs, r.sent0.gen.toNat ≤ g.toNat) :
    Remembers r (remembered r now gs) now gs := by
  induction gs generalizing r with
  | nil => exact remembers_none horder hus
  | cons g gs ih =>
    obtain ⟨hg, hgs⟩ := List.pairwise_cons.mp hgs
    have hone := remembers_one horder hus (hfirst g List.mem_cons_self)
    refine hone.trans (ih hone.order hone.us hgs ?_)
    rw [(markSent_sent r g now).1]
    exact hg

end

end Resent

section Flush
variable {c : FlushCall} {f : FlushState} {gs : List UInt32}

lemma flush_remembers (hr : RingInv c.ring lastUs lastGen) (hus : SentBefore c.ring c.now)
    (hf : c.result = f) (hgs : resentGens c.ring f.ring c.now c.fromUs c.maxAgeUs = gs) :
    RingInv f.ring lastUs lastGen ∧ Remembers c.ring f.ring c.now gs ∧
      (gs ≠ [] → 0 < f.sent.length) := by
  have hpass := flush_pass c
  have hgens := resentGens_eq c
  have hslot : ∀ q < 10, f.ring.nth q = c.after q := fun q hq => hf ▸ flush_nth c hq
  rw [hf] at hpass hgens
  rw [hgs] at hgens
  have htaken : ∀ q ∈ c.taken wgRescueSlots, Full c.ring q ∧ c.takes (q + 1) = true := by
    intro q hq
    obtain ⟨hlt, hq⟩ := List.mem_filter.mp hq
    obtain ⟨hp, ht⟩ := Bool.and_eq_true_iff.mp hq
    exact ⟨⟨List.mem_range.mp hlt, pends_full hp⟩, ht⟩
  have hkept : ∀ q, Full f.ring q → Full c.ring q ∧ (f.ring.nth q).gen = (c.ring.nth q).gen ∧
      (f.ring.nth q).atUs = (c.ring.nth q).atUs ∧ c.takes (q + 1) = false := by
    rintro q ⟨hq, hne⟩
    rw [hslot q hq] at hne ⊢
    unfold FlushCall.after at hne ⊢
    split at hne
    · next hp =>
      rw [if_pos hp]
      exact ⟨⟨hq, hne⟩, rfl, rfl, hp.2⟩
    · exact absurd rfl hne
  have hmem : Remembers c.ring f.ring c.now gs := by
    have hsorted : ((c.taken wgRescueSlots).map fun q =>
        (c.ring.nth q).gen).Pairwise fun g g' => g.toNat ≤ g'.toNat := by
      rw [List.pairwise_map]
      refine (List.Pairwise.filter _ List.pairwise_lt_range).imp_of_mem ?_
      intro q q' hq hq' hlt
      exact (hr.sorted q q' hlt (htaken q hq).1 (htaken q' hq').1).1
    have hrem := remembers_sorted hr.order hus hsorted fun g hg => by
      obtain ⟨q, hq, rfl⟩ := List.mem_map.mp hg
      exact hr.sentFirst q (htaken q hq).1
    obtain ⟨h0, h1⟩ := hpass.memory _ rfl
    rw [← hgens] at hrem h0 h1
    refine ⟨?_, ?_, ?_, ?_, ?_⟩
    · rw [h0, h1]
      exact hrem.order
    · rw [SentBefore, h0, h1]
      exact hrem.us
    · intro d t hd ht
      rw [Resent, h0, h1]
      exact hrem.old d t hd ht
    · intro g hg hg0
      rw [Resent, h0, h1]
      exact hrem.new g hg hg0
    · rw [h0, h1]
      exact hrem.origin
  -- the newest keypair that was re-sent, before or in this pass
  have hsent : ∀ e, e = f.ring.sent0 → e = c.ring.sent0 ∨ (e = c.ring.sent1) ∨ ∃ q, Full c.ring q ∧
      c.takes (q + 1) = true ∧ e.gen = (c.ring.nth q).gen := by
    intro e he
    refine (hmem.origin e (.inl he)).imp_right (Or.imp_right ?_)
    rintro ⟨g, hg, rfl⟩
    rw [hgens] at hg
    obtain ⟨q, hq, rfl⟩ := List.mem_map.mp hg
    exact ⟨q, (htaken q hq).1, (htaken q hq).2, rfl⟩
  have hold : c.ring.sent1.gen.toNat ≤ c.ring.sent0.gen.toNat := by
    by_cases h0 : c.ring.sent1.gen.toNat = 0
    · omega
    · exact (hr.order h0).le
  refine ⟨⟨?_, ?_, ?_, ?_, hmem.order⟩, hmem, ?_⟩
  · intro i j hij hi hj
    obtain ⟨hi', hgi, hai, -⟩ := hkept i hi
    obtain ⟨hj', hgj, haj, -⟩ := hkept j hj
    rw [hgi, hai, hgj, haj]
    exact hr.sorted i j hij hi' hj'
  · intro i hi
    obtain ⟨hi', hg, ha, -⟩ := hkept i hi
    rw [hg, ha]
    exact hr.last i hi'
  · intro i hi
    obtain ⟨hi', hg, -, hleft⟩ := hkept i hi
    rw [hg]
    rcases hsent _ rfl with he | he | ⟨q, hq, ht, he⟩
    · rw [he]
      exact hr.sentFirst i hi'
    · rw [he]
      exact hold.trans (hr.sentFirst i hi')
    · rw [he]
      have hlt : q < i := by
        by_contra hge
        rw [← Bool.not_eq_true, takes_iff] at hleft
        exact hleft fun p hp => takes_iff.mp ht p (by omega)
      exact (hr.sorted q i hlt hq hi').1
  · rcases hsent _ rfl with he | he | ⟨q, hq, -, he⟩
    · rw [he]
      exact hr.sentLast
    · rw [he]
      exact hold.trans hr.sentLast
    · rw [he]
      exact (hr.last q hq).2.2
  · intro hne
    rw [hpass.sent, List.length_map, List.length_pos_iff]
    intro hnil
    rw [hgens, hnil] at hne
    exact hne rfl

end Flush

section SentBy
variable {r : WgRescueRing} {now leftUs : ℤ}

def movedTo (s : WgRescueSent) (now leftUs : ℤ) : WgRescueSent :=
  if s.gen ≠ 0 && s.us = now then { s with us := leftUs } else s

lemma sentBy_eq (r : WgRescueRing) (now leftUs : ℤ) : wgRescueSentBy r now leftUs =
    { r with sent0 := movedTo r.sent0 now leftUs, sent1 := movedTo r.sent1 now leftUs } := rfl

lemma movedTo_gen (s : WgRescueSent) : (movedTo s now leftUs).gen = s.gen := by
  unfold movedTo
  split <;> rfl

lemma le_movedTo (hle : now ≤ leftUs) {t : ℤ} (h : t ≤ s.us) : t ≤ (movedTo s now leftUs).us := by
  unfold movedTo
  split
  · next hm =>
    simp only [Bool.and_eq_true, decide_eq_true_eq] at hm
    change t ≤ leftUs
    omega
  · exact h

lemma movedTo_le (hle : now ≤ leftUs) (h : s.gen.toNat ≠ 0 → s.us ≤ now)
    (hg : (movedTo s now leftUs).gen.toNat ≠ 0) : (movedTo s now leftUs).us ≤ leftUs := by
  rw [movedTo_gen] at hg
  unfold movedTo
  split
  · exact le_rfl
  · exact (h hg).trans hle

lemma movedTo_new (hg : s.gen.toNat ≠ 0) (h : s.us ≤ now) (h' : now ≤ s.us) :
    leftUs ≤ (movedTo s now leftUs).us := by
  have hgen : s.gen ≠ 0 := fun h0 => hg (by rw [h0]; rfl)
  unfold movedTo
  rw [if_pos (by simp [hgen, le_antisymm h h'])]

end SentBy

section Resend
variable {now leftUs fromUs maxAgeUs : ℤ} {accepts : ℕ → Bool} {f : FlushState}

lemma sentBy_spec (hring : RingInv f.ring lastUs lastGen) {gs : List UInt32}
    (hrem : Remembers r f.ring now gs) (hle : now ≤ leftUs) :
    RingInv (wgRescueSentBy f.ring now leftUs) lastUs lastGen ∧
      SentBefore (wgRescueSentBy f.ring now leftUs) leftUs ∧
      (∀ d t, d ≠ 0 → Resent r d t → Resent (wgRescueSentBy f.ring now leftUs) d t) ∧
      ∀ g ∈ gs, g.toNat ≠ 0 → Resent (wgRescueSentBy f.ring now leftUs) g.toNat leftUs := by
  rw [sentBy_eq]
  refine ⟨⟨hring.sorted, hring.last, ?_, ?_, ?_⟩, ⟨movedTo_le hle hrem.us.1, movedTo_le hle hrem.us.2⟩,
    ?_, ?_⟩
  · intro i hi
    simp only [movedTo_gen]
    exact hring.sentFirst i hi
  · simpa only [movedTo_gen] using hring.sentLast
  · simpa only [movedTo_gen] using hring.order
  · intro d t hd ht
    have hold := hrem.old d t hd ht
    simp only [Resent, movedTo_gen] at hold ⊢
    exact hold.imp (le_movedTo hle) (le_movedTo hle)
  · intro g hg h0
    have hold := hrem.new g hg h0
    simp only [Resent, movedTo_gen] at hold ⊢
    rcases hold with ⟨hg0, ht⟩ | ⟨hg1, ht⟩ | hlt
    · exact .inl ⟨hg0, movedTo_new (hg0 ▸ h0) (hrem.us.1 (hg0 ▸ h0)) ht⟩
    · exact .inr (.inl ⟨hg1, movedTo_new (hg1 ▸ h0) (hrem.us.2 (hg1 ▸ h0)) ht⟩)
    · exact .inr (.inr hlt)

lemma resend_spec (hr : RingInv r lastUs lastGen) (hus : SentBefore r now)
    (hle : now ≤ leftUs) (hf : wgRescueFlush r now fromUs maxAgeUs accepts = f)
    {r' : WgRescueRing} (hr' : r' = if f.sent.length > 0 then wgRescueSentBy f.ring now leftUs else f.ring) :
    RingInv r' lastUs lastGen ∧ SentBefore r' leftUs ∧
      (∀ d t, d ≠ 0 → Resent r d t → Resent r' d t) ∧
      (∀ g ∈ resentGens r f.ring now fromUs maxAgeUs, g.toNat ≠ 0 → Resent r' g.toNat leftUs) := by
  obtain ⟨hring, hrem, hsent⟩ :=
    flush_remembers (c := ⟨r, now, fromUs, maxAgeUs, accepts⟩) hr hus hf rfl
  rw [hr']
  split
  · exact sentBy_spec hring hrem hle
  · next hnone =>
    refine ⟨hring, ⟨fun h => (hrem.us.1 h).trans hle, fun h => (hrem.us.2 h).trans hle⟩, hrem.old, ?_⟩
    intro g hg h0
    exact absurd (hsent (List.ne_nil_of_mem hg)) hnone

end Resend

section Risk
variable {r : WgRescueRing} {lastUs now fromUs maxAgeUs : ℤ} {lastGen : ℕ} {d g : UInt32} {confirmed : Bool}

lemma genAtRisk_iff : wgRescueGenAtRisk d g confirmed = true ↔
    d ≠ 0 ∧ (d = g - 1 ∨ (confirmed = false ∧ d = g)) := by
  simp [wgRescueGenAtRisk]

lemma toNat_le_of_atRisk (h : wgRescueGenAtRisk d g confirmed) : g.toNat ≤ d.toNat + 1 := by
  obtain ⟨_, rfl | ⟨_, rfl⟩⟩ := genAtRisk_iff.mp h
  · rw [UInt32.toNat_sub]
    have := g.toNat_lt
    simp only [UInt32.toNat_one]
    omega
  · omega

lemma keyAtRisk_of_pending {s : WgRescue}
    (hk : wgRescueGenAtRisk k.gen g confirmed)
    (hc : Covers k s) (hpos : 0 < s.atUs) (hp : wgRescuePending s now fromUs maxAgeUs) :
    wgRescueKeyAtRisk k now fromUs maxAgeUs g confirmed = true := by
  obtain ⟨hn, ho⟩ := hc
  simp only [wgRescuePending, Bool.and_eq_true, Bool.or_eq_true, decide_eq_true_eq,
    Bool.not_eq_true', wgTimerDue_eq_false_iff] at hp
  obtain ⟨⟨_, hwhy⟩, hage⟩ := hp
  simp only [wgRescueKeyAtRisk, hk, Bool.true_and, Bool.and_eq_true, Bool.or_eq_true,
    decide_eq_true_eq, Bool.not_eq_true', wgTimerDue_eq_false_iff]
  rcases hwhy with hw | hw
  · have := ho hw
    refine ⟨.inl (by omega), ?_⟩
    split <;> omega
  · refine ⟨.inr (by omega), ?_⟩
    rw [if_neg (by omega)]
    omega

lemma no_risk_spec (hr : RingInv r lastUs lastGen) (hg : lastGen ≤ g.toNat)
    (hd : wgRescueGenAtRisk d g confirmed)
    (hrisk : wgRescueInitRisk (wgRescueSummarize r) now fromUs maxAgeUs g confirmed = false) :
    (∀ s ∈ r.oldestFirst, s.gen = d → wgRescuePending s now fromUs maxAgeUs = false) ∧
      (∀ t, Resent r d.toNat t → t + wgRescueTransitUs < now) := by
  simp only [wgRescueInitRisk, Bool.or_eq_false_iff] at hrisk
  obtain ⟨⟨⟨hsent0, hkey0⟩, hsent1⟩, hkey1⟩ := hrisk
  have hle := toNat_le_of_atRisk hd
  have hd0 : d.toNat ≠ 0 := fun h0 => (genAtRisk_iff.mp hd).1 (UInt32.toNat_inj.mp h0)
  constructor
  · intro s hs hsd
    have hsum : Summarized r.oldestFirst (wgRescueSummarize r) :=
      summarized_foldl (pairwise_oldestFirst hr) r.sent0 r.sent1
    have hfull : ∀ t ∈ r.oldestFirst, t.atUs ≠ 0 → 0 < t.atUs ∧ t.gen.toNat ≤ lastGen := by
      intro t ht hne
      obtain ⟨i, hi, rfl⟩ := (mem_oldestFirst r).mp ht
      obtain ⟨h0, _, hgen⟩ := hr.last i ⟨hi, hne⟩
      exact ⟨h0, hgen⟩
    have hnewest : (wgRescueSummarize r).key0.gen.toNat ≤ d.toNat + 1 := by
      by_cases h0 : (wgRescueSummarize r).key0.gen.toNat = 0
      · omega
      · obtain ⟨⟨t, ht, hne, htg, -⟩, -⟩ := hsum.found.1 h0
        have := (hfull t ht hne).2
        rw [htg] at this
        omega
    by_contra hp
    rw [Bool.not_eq_false] at hp
    have hne : s.atUs ≠ 0 := by
      intro h0
      simp [wgRescuePending, h0] at hp
    have hnoted := hsum.noted s hs hne (by rw [hsd]; exact hd0)
    rw [hsd] at hnoted
    rcases hnoted.entry hsum.order hnewest with ⟨hk, hc⟩ | ⟨hk, hc⟩
    · have hkey := keyAtRisk_of_pending (UInt32.toNat_inj.mp hk ▸ hd) hc (hfull s hs hne).1 hp
      simp [hkey] at hkey0
    · have hkey := keyAtRisk_of_pending (UInt32.toNat_inj.mp hk ▸ hd) hc (hfull s hs hne).1 hp
      simp [hkey] at hkey1
  · intro t ht
    obtain ⟨hs0, hs1⟩ : (wgRescueSummarize r).sent0 = r.sent0 ∧ (wgRescueSummarize r).sent1 = r.sent1 :=
      foldl_sumSlot_sent _ _
    have hdue : ∀ s : WgRescueSent, s.gen.toNat = d.toNat → wgRescueSentAtRisk s now g confirmed = false →
        s.us + wgRescueTransitUs < now := by
      intro s hsd hs
      simpa [wgRescueSentAtRisk, UInt32.toNat_inj.mp hsd, hd, wgTimerDue_iff] using hs
    have hlast := hr.sentLast
    rcases Noted.entry ht hr.order (by omega) with ⟨hk, hle'⟩ | ⟨hk, hle'⟩
    · have := hdue r.sent0 hk (hs0 ▸ hsent0)
      omega
    · have := hdue r.sent1 hk (hs1 ▸ hsent1)
      omega

end Risk

end TinyLink.Proofs
