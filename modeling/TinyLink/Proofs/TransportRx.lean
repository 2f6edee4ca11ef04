import TinyLink.Proofs.TransportSteps

/-!
# Receiving: no counter is accepted twice under one keypair

The replay window tracks the counters accepted since the last key change.
-/

namespace TinyLink.Proofs
open StepSystem SlidingWindow TransportRun

variable {counter : UInt64} {i id j k : ℕ}
    {aead : Aead} {σ σ' : TransportSystem} {a : TransportStep}

section Run

variable {E : TransportRun aead}

lemma gen_le_nextGen (hw : GenNoWrap E) :
    ∀ k, k ≤ E.length → (E.state k).session.gen.toNat ≤ (E.state k).nextGen.toNat := by
  refine E.along ?_ fun k hk ih => ?_
  · rw [E.starts]
    exact le_refl _
  · have hs := E.steps k hk
    have hn := transportStep_nextGen hs
    by_cases hr : (E.act k).rekeys = true
    · rw [(transportStep_rekey hs hr).1, hn, if_pos (takesGen_of_rekeys hr)]
    · rw [(transportStep_replay hs (by simpa using hr)).1, hn]
      split
      · rename_i ht
        rw [newGen_toNat (hw k hk ht)]
        omega
      · exact ih

lemma gen_lt_of_rekeys (hw : GenNoWrap E) (hk : k < E.length) (hr : (E.act k).rekeys) :
    (E.state k).session.gen.toNat < (E.state (k + 1)).session.gen.toNat := by
  have hle := gen_le_nextGen hw k hk.le
  rw [(transportStep_rekey (E.steps k hk) hr).1, newGen_toNat (hw k hk (takesGen_of_rekeys hr))]
  omega

lemma gen_mono (hw : GenNoWrap E) : ∀ j, i ≤ j → j ≤ E.length →
      (E.state i).session.gen.toNat ≤ (E.state j).session.gen.toNat := by
  intro j hij hj
  apply E.mono (fun σ => σ.session.gen.toNat) hij
  intro k _ hkj
  by_cases hr : (E.act k).rekeys = true
  · exact (gen_lt_of_rekeys hw (by omega) hr).le
  · rw [(transportStep_replay (E.steps k (by omega)) (by simpa using hr)).1]

lemma sameKeys_of_gen_eq (hw : GenNoWrap E) (hj : j ≤ E.length)
    (hg : (E.state i).session.gen = (E.state j).session.gen) : SameKeys E i j := by
  intro k hik hkj
  by_contra hr
  have h1 := gen_mono hw k hik.le (by omega)
  have h2 := gen_lt_of_rekeys (k := k) hw (by omega) (by simpa using hr)
  have h3 := gen_mono hw j (show k + 1 ≤ j by omega) hj
  rw [hg] at h1
  omega

lemma filledAt_succ {t : WgRxTicket} (h : FilledAt E i k id t)
    (hk : ∀ wire maxPlen, E.act k ≠ .rxBegin id wire maxPlen) : FilledAt E i (k + 1) id t := by
  refine ⟨by have := h.1; omega, h.2.1, fun l hil hl => ?_⟩
  rcases Nat.lt_succ_iff_lt_or_eq.mp hl with hl | rfl
  · exact h.2.2 l hil hl
  · exact hk

lemma not_rxBegin_of_some (h : transportStep aead σ a = some σ') {p : RxPhase}
    (hp : σ.rx id = some p) (wire : Bytes) (maxPlen : ℕ) : a ≠ .rxBegin id wire maxPlen := by
  rintro rfl
  simp [transportStep, hp] at h

def Descends (E : TransportRun aead) (k id : ℕ) : RxPhase → Prop
  | .begun t => ∃ i, FilledAt E i k id t
  | .opened t => ∃ i m t₀, FilledAt E i k id t₀ ∧ i < m ∧ m < k ∧ RxOpens E m id t₀ ∧ t = t₀.wiped

lemma descends_succ {p : RxPhase} (h : Descends E k id p)
    (hk : ∀ wire maxPlen, E.act k ≠ .rxBegin id wire maxPlen) : Descends E (k + 1) id p := by
  cases p with
  | begun =>
    obtain ⟨i, hf⟩ := h
    exact ⟨i, filledAt_succ hf hk⟩
  | opened =>
    obtain ⟨i, m, t₀, hf, him, hmk, ho, ht⟩ := h
    exact ⟨i, m, t₀, filledAt_succ hf hk, him, by omega, ho, ht⟩

lemma rx_descends : ∀ k, k ≤ E.length → ∀ id p, (E.state k).rx id = some p → Descends E k id p := by
  refine E.along ?_ fun k hk ih id p hp => ?_
  · intro id p hp
    rw [E.starts] at hp
    cases hp
  · have hs := E.steps k hk
    rcases transportStep_rx hs hp with hold | ⟨wire, maxPlen, t, ha, _, ht, rfl⟩ |
      ⟨wire, plaintext, t, ha, hb, ho, rfl⟩
    · exact descends_succ (ih id p hold) (not_rxBegin_of_some hs hold)
    · exact ⟨k, by omega, ⟨hk, wire, maxPlen, ha, ht⟩, fun l h1 h2 => by omega⟩
    · obtain ⟨i, hf⟩ := ih id _ hb
      have hf' := filledAt_succ hf (not_rxBegin_of_some hs hb)
      exact ⟨i, k, t, hf', hf.1, by omega, ⟨hk, wire, plaintext, ha, hb, ho⟩, rfl⟩

def acceptedSince (E : TransportRun aead) (k : ℕ) : Set ℕ :=
  {c | ∃ i id counter, i < k ∧ RxAccepts E i id counter ∧ counter.toNat = c ∧ SameKeys E i k}

lemma rxAccepts_not_rekeys (h : RxAccepts E i id counter) : (E.act i).rekeys = false := by
  obtain ⟨_, t, ⟨ha, _⟩, _⟩ := h
  rw [ha]
  rfl

lemma acceptedSince_rekey (hr : (E.act k).rekeys) : acceptedSince E (k + 1) = ∅ := by
  ext c
  simp only [acceptedSince, Set.mem_ofPred_eq, Set.mem_empty_iff_false, iff_false]
  rintro ⟨i, id, counter, hi, hacc, _, hsame⟩
  rcases Nat.lt_succ_iff_lt_or_eq.mp hi with hi | rfl
  · rw [hsame k hi (by omega)] at hr
    cases hr
  · rw [rxAccepts_not_rekeys hacc] at hr
    cases hr

lemma acceptedSince_idle (hr : (E.act k).rekeys = false)
    (hno : ∀ id t, ¬CommitAccepts (E.state k) (E.act k) id t) :
    acceptedSince E (k + 1) = acceptedSince E k := by
  ext c
  constructor
  · rintro ⟨i, id, counter, hi, hacc, hc, hsame⟩
    rcases Nat.lt_succ_iff_lt_or_eq.mp hi with hi | rfl
    · exact ⟨i, id, counter, hi, hacc, hc, sameKeys_of_succ hsame⟩
    · obtain ⟨_, t, hcom, _⟩ := hacc
      exact absurd hcom (hno id t)
  · rintro ⟨i, id, counter, hi, hacc, hc, hsame⟩
    exact ⟨i, id, counter, by omega, hacc, hc, sameKeys_succ hsame hr⟩

lemma acceptedSince_commit {t : WgRxTicket} (hk : k < E.length)
    (hcom : CommitAccepts (E.state k) (E.act k) id t) :
    acceptedSince E (k + 1) = insert t.counter.toNat (acceptedSince E k) := by
  have hacc : RxAccepts E k id t.counter := ⟨hk, t, hcom, rfl⟩
  have hr := rxAccepts_not_rekeys hacc
  ext c
  rw [Set.mem_insert_iff]
  constructor
  · rintro ⟨i, id', counter, hi, ⟨hi', t', hcom', htc⟩, hc, hsame⟩
    rcases Nat.lt_succ_iff_lt_or_eq.mp hi with hi | rfl
    · exact .inr ⟨i, id', counter, hi, ⟨hi', t', hcom', htc⟩, hc, sameKeys_of_succ hsame⟩
    · left
      have hid := hcom.1.symm.trans hcom'.1
      cases hid
      have htt := hcom.2.1.symm.trans hcom'.2.1
      cases htt
      rw [htc, hc]
  · rintro (rfl | ⟨i, id', counter, hi, hacc', hc, hsame⟩)
    · exact ⟨k, id, t.counter, by omega, hacc, rfl, fun l h1 h2 => by omega⟩
    · exact ⟨i, id', counter, by omega, hacc', hc, sameKeys_succ hsame hr⟩

lemma replay_tracks :
    ∀ k, k ≤ E.length →
      Tracks wgReplayWindowBits (windowOf (E.state k).session.replay) (acceptedSince E k) := by
  refine E.along ?_ fun k hk ih => ?_
  · have hempty : acceptedSince E 0 = ∅ := by
      ext c
      simp [acceptedSince]
    rw [hempty, E.starts]
    exact tracks_zero
  · have hs := E.steps k hk
    by_cases hr : (E.act k).rekeys = true
    · rw [acceptedSince_rekey hr, (transportStep_rekey hs hr).2]
      exact tracks_zero
    · have hr' : (E.act k).rekeys = false := by simpa using hr
      obtain ⟨_, _, ⟨id, t, hcom, hup⟩ | ⟨hno, hsame⟩⟩ := transportStep_replay hs hr'
      · rw [acceptedSince_commit hk hcom, hup]
        exact (tracks_update ih (commitAccepts_check hcom).2.2).2
      · rw [acceptedSince_idle hr' hno, hsame]
        exact ih

lemma not_accepted_twice {id' : ℕ} (hij : i < j)
    (hi : RxAccepts E i id counter) (hj : RxAccepts E j id' counter) :
    ∃ k, i < k ∧ k < j ∧ (E.act k).rekeys = true := by
  by_contra hno
  have hsame : SameKeys E i j := by
    intro k hik hkj
    by_contra hr
    exact hno ⟨k, hik, hkj, by simpa using hr⟩
  obtain ⟨hlen, t, hcom, rfl⟩ := hj
  have hnew := (tracks_update (replay_tracks j hlen.le) (commitAccepts_check hcom).2.2).1
  exact hnew ⟨i, id, t.counter, hij, hi, rfl, hsame⟩

lemma accepted_provenance (hw : GenNoWrap E) (hj : RxAccepts E j id counter) :
    (E.state j).session.valid = true ∧ ∃ i m t, FilledAt E i j id t ∧ i < m ∧ m < j ∧
      RxOpens E m id t ∧ t.counter = counter ∧ SameKeys E i j := by
  obtain ⟨hlen, t, hcom, rfl⟩ := hj
  obtain ⟨hv, hg, _⟩ := commitAccepts_check hcom
  obtain ⟨i, m, t₀, hf, him, hmj, ho, rfl⟩ := rx_descends j hlen.le id _ hcom.2.1
  refine ⟨hv, i, m, t₀, hf, him, hmj, ho, rfl, sameKeys_of_gen_eq hw hlen.le ?_⟩
  obtain ⟨_, wire, maxPlen, _, hb⟩ := hf.2.1
  rw [hg]
  exact (wgTransportRxBegin_gen hb).symm

end Run

theorem rx_accepts_each_counter_once (E : TransportRun aead) (hw : GenNoWrap E) :
    (∀ i j id id' counter, i < j → RxAccepts E i id counter → RxAccepts E j id' counter →
      ∃ k, i < k ∧ k < j ∧ (E.act k).rekeys = true) ∧
    (∀ j id counter, RxAccepts E j id counter → (E.state j).session.valid = true ∧
      ∃ i m t, FilledAt E i j id t ∧ i < m ∧ m < j ∧ RxOpens E m id t ∧ t.counter = counter ∧
        SameKeys E i j) ∧
    (∀ k id wire t, k < E.length → E.act k = .rxOpen id wire →
      (E.state k).rx id = some (.begun t) → wgTransportRxOpen aead t wire = none →
      (E.state (k + 1)).session.replay = (E.state k).session.replay ∧
        (E.state (k + 1)).rx id = none) ∧
    (∀ k, k < E.length → (E.state (k + 1)).session.replay ≠ (E.state k).session.replay →
      (E.act k).rekeys = true ∨ ∃ id counter, RxAccepts E k id counter) := by
  refine ⟨fun i j id id' counter hij hi hj => not_accepted_twice hij hi hj,
    fun j id counter hj => accepted_provenance hw hj, ?_, ?_⟩
  · intro k id wire t hk ha ht hfail
    have hs := E.steps k hk
    rw [ha] at hs
    simp only [transportStep, ht, hfail, Option.some.injEq] at hs
    rw [← hs]
    exact ⟨rfl, by simp [setSlotAt]⟩
  · intro k hk hne
    by_cases hr : (E.act k).rekeys = true
    · exact .inl hr
    · obtain ⟨_, _, ⟨id, t, hcom, _⟩ | ⟨_, hsame⟩⟩ :=
        transportStep_replay (E.steps k hk) (by simpa using hr)
      · exact .inr ⟨id, t.counter, hk, t, hcom, rfl⟩
      · exact absurd hsame hne

def rxSample : TransportRun tagAead :=
  let wire := transportHeader 5 1 ++ List.replicate wgTagLen 0
  runOf .boot rfl .otherGen [.sessionInit 5 9 zeroKey zeroKey, .rxBegin 0 wire 0, .rxOpen 0 wire,
    .rxCommit 0] (by decide +kernel)

theorem rxSample_accepts :
    GenNoWrap rxSample ∧ RxAccepts rxSample 3 0 1 ∧ ∃ i m t, FilledAt rxSample i 3 0 t ∧ i < m ∧
      m < 3 ∧ RxOpens rxSample m 0 t ∧ t.counter = 1 ∧ SameKeys rxSample i 3 := by
  have hw : GenNoWrap rxSample := by
    show ∀ k, k < 4 → _
    decide +kernel
  have hacc : RxAccepts rxSample 3 0 1 :=
    ⟨by decide, ⟨zeroKey, 1, 1, 0⟩, ⟨rfl, rfl, by decide +kernel⟩, rfl⟩
  exact ⟨hw, hacc, ((rx_accepts_each_counter_once rxSample hw).2.1 3 0 1 hacc).2⟩

end TinyLink.Proofs
