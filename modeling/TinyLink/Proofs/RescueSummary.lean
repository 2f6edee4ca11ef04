import TinyLink.Proofs.RescueRing

/-!
# The published summary of the rescue ring

It says exactly whether an INIT would delete the keypair of a frame that is pending or on its way.
-/

namespace TinyLink.Proofs

/-- The rings built from the empty one, with the time and keypair of the last frame kept, when the
last flush left, and the frames the relay took. -/
inductive Built : WgRescueRing → ℤ → UInt32 → Option ℤ → List (UInt32 × ℤ) → Prop
  | empty : Built .empty 0 0 none []
  | keep {r us g left taken now gen} {buf : Bytes} : Built r us g left taken →
      buf.length ≤ wgRescueMax → 0 < now → us ≤ now → gen ≠ 0 →
      g ≤ gen → Built (wgRescueKeep r buf now gen) now gen left taken
  | tooLong {r us g left taken now gen} {buf : Bytes} : Built r us g left taken →
      wgRescueMax < buf.length → Built (wgRescueKeep r buf now gen) us g left taken
  | flush {r us g left taken now leftUs fromUs maxAgeUs} {accepts : ℕ → Bool} :
      Built r us g left taken → (∀ t, left = some t → t < now) → now ≤ leftUs →
      Built (wgRescueSentBy (wgRescueFlush r now fromUs maxAgeUs accepts).ring now leftUs) us g
        (some leftUs) (taken ++ (resentGens r (wgRescueFlush r now fromUs maxAgeUs accepts).ring now
          fromUs maxAgeUs).map fun d => (d, leftUs))

variable {r : WgRescueRing} {us now leftUs fromUs maxAgeUs : ℤ} {g curGen : UInt32}
  {left : Option ℤ} {taken : List (UInt32 × ℤ)} {confirmed : Bool}

def EntryFrom (left : Option ℤ) (taken : List (UInt32 × ℤ)) (e : WgRescueSent) : Prop :=
  e.gen.toNat ≠ 0 → (∃ t, left = some t ∧ e.us ≤ t) ∧ (e.gen, e.us) ∈ taken

structure BuiltInv (r : WgRescueRing) (us : ℤ) (g : UInt32) (left : Option ℤ)
    (taken : List (UInt32 × ℤ)) : Prop where
  ring : RingInv r us g.toNat
  sent : EntryFrom left taken r.sent0 ∧ EntryFrom left taken r.sent1
  noted : ∀ p ∈ taken, p.1.toNat ≠ 0 → Resent r p.1.toNat p.2

lemma EntryFrom.before {e : WgRescueSent} (h : EntryFrom left taken e)
    (hnow : ∀ t, left = some t → t < now) (h0 : e.gen.toNat ≠ 0) : e.us < now := by
  obtain ⟨⟨t, ht, hle⟩, -⟩ := h h0
  exact hle.trans_lt (hnow t ht)

lemma Remembers.entry {r' : WgRescueRing} {gs : List UInt32} (h : Remembers r r' now gs)
    (hold : EntryFrom left taken r.sent0 ∧ EntryFrom left taken r.sent1)
    (hnow : ∀ t, left = some t → t < now) (hle : now ≤ leftUs) {e : WgRescueSent}
    (he : e = r'.sent0 ∨ e = r'.sent1) :
    EntryFrom (some leftUs) (taken ++ gs.map fun d => (d, leftUs)) (movedTo e now leftUs) := by
  have keeps : ∀ e, EntryFrom left taken e →
      EntryFrom (some leftUs) (taken ++ gs.map fun d => (d, leftUs)) (movedTo e now leftUs) := by
    intro e he h0
    rw [movedTo_gen] at h0
    have hlt := he.before hnow h0
    have hsame : movedTo e now leftUs = e := if_neg (by simp [hlt.ne])
    rw [hsame]
    exact ⟨⟨leftUs, rfl, hlt.le.trans hle⟩, List.mem_append_left _ (he h0).2⟩
  rcases h.origin e he with rfl | rfl | ⟨g, hg, rfl⟩
  · exact keeps _ hold.1
  · exact keeps _ hold.2
  · intro h0
    rw [movedTo_gen] at h0
    have hgen : g ≠ 0 := fun h => h0 (congrArg UInt32.toNat h)
    have hmoved : movedTo ⟨g, now⟩ now leftUs = ⟨g, leftUs⟩ := if_pos (by simp [hgen])
    rw [hmoved]
    exact ⟨⟨leftUs, rfl, le_rfl⟩, List.mem_append_right _ (List.mem_map.mpr ⟨g, hg, rfl⟩)⟩

lemma Built.inv (h : Built r us g left taken) : BuiltInv r us g left taken := by
  induction h with
  | empty =>
    refine ⟨ringInv_empty, ⟨fun h => absurd rfl h, fun h => absurd rfl h⟩, ?_⟩
    intro p hp
    cases hp
  | @keep r us g left taken now gen buf _ _ hpos hus _ hg ih =>
    have hsent := keep_sent r buf now gen
    refine ⟨ringInv_keep ih.ring buf hpos hus (UInt32.le_iff_toNat_le.mp hg), ?_, ?_⟩
    · rw [hsent.1, hsent.2]
      exact ih.sent
    · intro p hp h0
      rw [Resent, hsent.1, hsent.2]
      exact ih.noted p hp h0
  | tooLong _ hlen ih =>
    rw [wgRescueKeep, if_pos hlen]
    exact ih
  | @flush r us g left taken now leftUs fromUs maxAgeUs accepts _ hnow hle ih =>
    have hus : SentBefore r now :=
      ⟨fun h0 => (ih.sent.1.before hnow h0).le, fun h0 => (ih.sent.2.before hnow h0).le⟩
    obtain ⟨f, hf⟩ : ∃ f, wgRescueFlush r now fromUs maxAgeUs accepts = f := ⟨_, rfl⟩
    obtain ⟨hring, hrem, -⟩ :=
      flush_remembers (c := ⟨r, now, fromUs, maxAgeUs, accepts⟩) ih.ring hus hf rfl
    obtain ⟨hring, -, hold, hnew⟩ := sentBy_spec hring hrem hle
    rw [hf]
    refine ⟨hring, ⟨hrem.entry ih.sent hnow hle (.inl rfl), hrem.entry ih.sent hnow hle (.inr rfl)⟩, ?_⟩
    intro p hp h0
    rcases List.mem_append.mp hp with hp | hp
    · exact hold _ _ h0 (ih.noted p hp h0)
    · obtain ⟨d, hd, rfl⟩ := List.mem_map.mp hp
      exact hnew d hd h0

lemma pending_of_keyAtRisk {l : List WgRescue} {k : WgRescueKeypair} (hk : KeyFrom l k)
    (h : wgRescueKeyAtRisk k now fromUs maxAgeUs curGen confirmed) :
    ∃ s ∈ l, wgRescuePending s now fromUs maxAgeUs = true ∧
      wgRescueGenAtRisk s.gen curGen confirmed = true := by
  simp only [wgRescueKeyAtRisk, Bool.and_eq_true, Bool.or_eq_true, decide_eq_true_eq,
    Bool.not_eq_true', wgTimerDue_eq_false_iff] at h
  obtain ⟨⟨hrisk, hwhy⟩, hage⟩ := h
  obtain ⟨⟨s, hs, hne, hg, hn⟩, ho⟩ := hk fun h0 =>
    (genAtRisk_iff.mp hrisk).1 (UInt32.toNat_inj.mp h0)
  split at hage
  · next howed =>
    obtain ⟨t, ht, hto, htg, hta⟩ := ho howed.1
    refine ⟨t, ht, ?_, htg ▸ hrisk⟩
    simp [wgRescuePending, wgTimerDue_eq_false_iff, hto, hta, howed.1, hage]
  · next hnot =>
    refine ⟨s, hs, ?_, hg ▸ hrisk⟩
    have hfrom : fromUs ≤ k.newestUs := by
      by_contra hlt
      rcases hwhy with h0 | h0
      · exact hnot ⟨h0, by omega⟩
      · exact hlt h0
    simp [wgRescuePending, wgTimerDue_eq_false_iff, hn, hn ▸ hne, hfrom, hage]

/-- The risk of an INIT by the summary is the one by the ring and the whole history of re-sends. -/
theorem rescue_summary_exact (r : WgRescueRing) (us : ℤ) (g : UInt32) (left : Option ℤ)
    (taken : List (UInt32 × ℤ)) (h : Built r us g left taken) (curGen : UInt32) (hg : g ≤ curGen)
    (confirmed : Bool) (now fromUs maxAgeUs : ℤ) :
    wgRescueInitRisk (wgRescueSummarize r) now fromUs maxAgeUs curGen confirmed = true ↔
      (∃ s ∈ r.oldestFirst, wgRescuePending s now fromUs maxAgeUs = true ∧
        wgRescueGenAtRisk s.gen curGen confirmed = true) ∨
      ∃ p ∈ taken, wgRescueGenAtRisk p.1 curGen confirmed = true ∧ now - p.2 ≤ wgRescueTransitUs := by
  obtain ⟨hring, hsent, hnoted⟩ := h.inv
  have hsum : Summarized r.oldestFirst (wgRescueSummarize r) :=
    summarized_foldl (pairwise_oldestFirst hring) r.sent0 r.sent1
  have sentRisk : ∀ e, EntryFrom left taken e → wgRescueSentAtRisk e now curGen confirmed = true →
      ∃ p ∈ taken, wgRescueGenAtRisk p.1 curGen confirmed = true ∧ now - p.2 ≤ wgRescueTransitUs := by
    intro e he hrisk
    simp only [wgRescueSentAtRisk, Bool.and_eq_true, Bool.not_eq_true',
      wgTimerDue_eq_false_iff] at hrisk
    have h0 : e.gen.toNat ≠ 0 := fun h0 => (genAtRisk_iff.mp hrisk.1).1 (UInt32.toNat_inj.mp h0)
    exact ⟨_, (he h0).2, hrisk.1, by omega⟩
  constructor
  · intro hrisk
    obtain ⟨hs0, hs1⟩ : (wgRescueSummarize r).sent0 = r.sent0 ∧ (wgRescueSummarize r).sent1 = r.sent1 :=
      foldl_sumSlot_sent _ _
    simp only [wgRescueInitRisk, Bool.or_eq_true, hs0, hs1] at hrisk
    rcases hrisk with ((hr | hr) | hr) | hr
    · exact .inr (sentRisk _ hsent.1 hr)
    · exact .inl (pending_of_keyAtRisk hsum.found.1 hr)
    · exact .inr (sentRisk _ hsent.2 hr)
    · exact .inl (pending_of_keyAtRisk hsum.found.2 hr)
  · intro hwhy
    by_contra hrisk
    rw [Bool.not_eq_true] at hrisk
    have hle := UInt32.le_iff_toNat_le.mp hg
    rcases hwhy with ⟨s, hs, hp, hd⟩ | ⟨p, hp, hd, hage⟩
    · have hnone := (no_risk_spec hring hle hd hrisk).1 s hs rfl
      rw [hp] at hnone
      cases hnone
    · have h0 : p.1.toNat ≠ 0 := fun h0 => (genAtRisk_iff.mp hd).1 (UInt32.toNat_inj.mp h0)
      have hlate := (no_risk_spec hring hle hd hrisk).2 p.2 (hnoted p hp h0)
      omega

def resentRing : WgRescueRing :=
  wgRescueSentBy (wgRescueFlush (wgRescueKeep .empty [7] 1 1) 2 0 10 fun _ => true).ring 2 3

theorem resent_frame_at_risk :
    wgRescueInitRisk (wgRescueSummarize resentRing) 5000003 0 0 2 true = true := by
  have hkept : Built (wgRescueKeep .empty [7] 1 1) 1 1 none [] :=
    .keep .empty (by decide) (by decide) (by decide) (by decide) (by decide)
  have hbuilt : Built resentRing 1 1 (some 3) _ :=
    .flush hkept (fun t h => by cases h) (by decide)
  refine (rescue_summary_exact resentRing 1 1 _ _ hbuilt 2 (by decide) true 5000003 0 0).mpr ?_
  exact .inr ⟨(1, 3), by decide, by decide, by decide⟩

end TinyLink.Proofs
