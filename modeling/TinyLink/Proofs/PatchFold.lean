import TinyLink.Proofs.MapElements
import TinyLink.Proofs.PeerMerge

/-!
# Folding the patches of a frame

What the kept patches do to a peer is what all patches for its NodeID do to it in order.
-/

namespace TinyLink.Proofs
open KeyedTable

def patchFor (p : Peer) (pc : PeerPatch) : Peer :=
  if pc.id ≠ 0 ∧ p.id = pc.id then p.patched pc else p

@[simp] lemma patchFor_id (p : Peer) (pc : PeerPatch) : (patchFor p pc).id = p.id := by
  unfold patchFor
  split <;> rfl

lemma foldl_patchFor_id (pcs : List PeerPatch) (p : Peer) : (pcs.foldl patchFor p).id = p.id := by
  induction pcs generalizing p with
  | nil => rfl
  | cons _ _ ih => rw [List.foldl_cons, ih, patchFor_id]

lemma foldl_applyPatch (pcs : List PeerPatch) (t : List Peer) :
    pcs.foldl applyPatch t = t.map fun p => pcs.foldl patchFor p := by
  induction pcs generalizing t with
  | nil => simp
  | cons _ _ ih =>
    rw [List.foldl_cons, ih]
    unfold applyPatch
    rw [List.map_map]
    rfl

variable {pc : PeerPatch}

lemma patchFor_irrelevant (h : pc.relevant = false) (p : Peer) :
    patchFor p pc = p := by
  unfold patchFor
  split
  · next hid =>
    unfold PeerPatch.relevant at h
    simp only [hid.1, ne_eq, not_false_eq_true, decide_true, Bool.true_and, Bool.or_eq_false_iff,
      decide_eq_false_iff_not, not_not] at h
    obtain ⟨⟨⟨hk, hd⟩, he⟩, hr⟩ := h
    unfold Peer.patched
    simp [hk, hd, he, hr]
  · rfl

lemma patchFor_other {p : Peer} (h : p.id ≠ pc.id) : patchFor p pc = p :=
  if_neg fun hid => h hid.2

lemma foldl_patchFor_other {ds : List PeerPatch} {p : Peer} (h : ∀ d ∈ ds, d.id ≠ p.id) :
    ds.foldl patchFor p = p := by
  induction ds with
  | nil => rfl
  | cons d _ ih =>
    rw [List.foldl_cons, patchFor_other (h d List.mem_cons_self).symm]
    exact ih fun e he => h e (List.mem_cons_of_mem d he)

lemma patchFor_foldPatch {d pc : PeerPatch} (hid : d.id = pc.id) (p : Peer) :
    patchFor p (foldPatch d pc) = patchFor (patchFor p d) pc := by
  by_cases h : pc.id ≠ 0 ∧ p.id = pc.id
  · have hd : d.id ≠ 0 ∧ p.id = d.id := by rw [hid]; exact h
    have hp : pc.id ≠ 0 ∧ (p.patched d).id = pc.id := h
    have hf : (foldPatch d pc).id ≠ 0 ∧ p.id = (foldPatch d pc).id := hd
    unfold patchFor
    rw [if_pos hf, if_pos hd, if_pos hp]
    unfold Peer.patched foldPatch
    cases pc.hasKey <;> cases pc.hasDisco <;> cases pc.hasEndpoints <;>
      by_cases hr : pc.derpRegion = 0 <;> simp [hr]
  · have hd : ¬ (d.id ≠ 0 ∧ p.id = d.id) := by rw [hid]; exact h
    have hf : ¬ ((foldPatch d pc).id ≠ 0 ∧ p.id = (foldPatch d pc).id) := hd
    unfold patchFor
    rw [if_neg hf, if_neg hd, if_neg h]

def relevantIds (pcs : List PeerPatch) : Finset ℕ :=
  ((pcs.filter PeerPatch.relevant).map PeerPatch.id).toFinset

variable {pcs : List PeerPatch}

lemma mem_relevantIds {id : ℕ} :
    id ∈ relevantIds pcs ↔ ∃ pc ∈ pcs, pc.relevant = true ∧ pc.id = id := by
  simp [relevantIds, and_assoc]

lemma relevantIds_mono {pcs qs : List PeerPatch} (h : pcs ⊆ qs) :
    relevantIds pcs ⊆ relevantIds qs := by
  intro id hid
  rw [mem_relevantIds] at hid ⊢
  obtain ⟨pc, hpc, hrel⟩ := hid
  exact ⟨pc, h hpc, hrel⟩

lemma addPatch_cases (nm : Netmap) (pc : PeerPatch) : (pc.relevant = false ∧ addPatch pc nm = nm) ∨
    (∃ xs d ys, nm.patches = xs ++ d :: ys ∧ d.id = pc.id ∧
      addPatch pc nm = { nm with patches := xs ++ foldPatch d pc :: ys }) ∨
    (pc.relevant = true ∧ pc.id ∉ nm.patches.map PeerPatch.id ∧
      (nm.patches.length < tlMaxPeerPatches →
        addPatch pc nm = { nm with patches := nm.patches ++ [pc] })) := by
  unfold addPatch
  cases hrel : pc.relevant with
  | false => exact .inl ⟨rfl, rfl⟩
  | true =>
    refine .inr ?_
    cases hj : nm.patches.findIdx? fun d => d.id = pc.id with
    | none =>
      refine .inr ⟨rfl, ?_, fun hroom => ?_⟩
      · rw [List.findIdx?_eq_none_iff] at hj
        rw [List.mem_map]
        rintro ⟨d, hd, hid⟩
        exact absurd (hj d hd) (by simp [hid])
      · simp [Nat.not_le.mpr hroom]
    | some j =>
      obtain ⟨hlt, hd, -⟩ := List.findIdx?_eq_some_iff_getElem.mp hj
      refine .inl ⟨nm.patches.take j, nm.patches[j], nm.patches.drop (j + 1), ?_, ?_, ?_⟩
      · rw [← List.drop_eq_getElem_cons hlt, List.take_append_drop]
      · simpa using hd
      · simp [List.modify_eq_take_cons_drop hlt]

/-- The kept patches `ds` do what all patches do, with one for each NodeID. -/
structure Folded (pcs ds : List PeerPatch) : Prop where
  distinct : Distinct PeerPatch.id ds
  ids : ∀ d ∈ ds, d.id ∈ relevantIds pcs
  same : ∀ p, ds.foldl patchFor p = pcs.foldl patchFor p

lemma Folded.step {nm : Netmap} (h : Folded pcs nm.patches) (pc : PeerPatch)
    (hfew : (relevantIds (pcs ++ [pc])).card ≤ tlMaxPeerPatches) :
    ∃ ds, addPatch pc nm = { nm with patches := ds } ∧ Folded (pcs ++ [pc]) ds := by
  have hmono : relevantIds pcs ⊆ relevantIds (pcs ++ [pc]) :=
    relevantIds_mono (List.subset_append_left _ _)
  have hlast : ∀ p, (pcs ++ [pc]).foldl patchFor p = patchFor (pcs.foldl patchFor p) pc := by
    intro p
    rw [List.foldl_append]
    rfl
  rcases addPatch_cases nm pc with ⟨hrel, heq⟩ | ⟨xs, d, ys, hl, hid, heq⟩ | ⟨hrel, hnew, hroom⟩
  · refine ⟨nm.patches, heq, h.distinct, fun d hd => hmono (h.ids d hd), fun p => ?_⟩
    rw [hlast, patchFor_irrelevant hrel, h.same]
  · have hd := h.distinct
    have hids := h.ids
    have hsame := h.same
    rw [hl] at hd hids hsame
    refine ⟨_, heq, hd.replace rfl, fun e he => hmono ?_, fun p => ?_⟩
    · rw [List.mem_append, List.mem_cons] at he
      rcases he with he | rfl | he
      · exact hids e (List.mem_append_left _ he)
      · exact hids d (List.mem_append_right _ List.mem_cons_self)
      · exact hids e (List.mem_append_right _ (List.mem_cons_of_mem _ he))
    · rw [hlast, ← hsame, List.foldl_append, List.foldl_append, List.foldl_cons, List.foldl_cons,
        patchFor_foldPatch hid]
      by_cases hp : p.id = pc.id
      · -- the patches behind are for other NodeIDs
        have hbehind : ∀ q : Peer, q.id = p.id → ys.foldl patchFor q = q := by
          intro q hq
          refine foldl_patchFor_other fun e he => ?_
          rw [hq, hp, ← hid]
          exact hd.other (List.mem_append_right _ he)
        have hxs := foldl_patchFor_id xs p
        rw [hbehind _ (by rw [patchFor_id, patchFor_id, hxs]), hbehind _ (by rw [patchFor_id, hxs])]
      · have hskip : ∀ q : Peer, q.id = p.id → patchFor q pc = q := by
          intro q hq
          exact patchFor_other (by rw [hq]; exact hp)
        have hxs := foldl_patchFor_id xs p
        rw [hskip _ (by rw [patchFor_id, hxs]), hskip _ (by rw [foldl_patchFor_id, patchFor_id, hxs])]
  · have hmem : pc.id ∈ relevantIds (pcs ++ [pc]) :=
      mem_relevantIds.mpr ⟨pc, List.mem_append_right _ List.mem_cons_self, hrel, rfl⟩
    have hcard : nm.patches.length < tlMaxPeerPatches := by
      have hsub : insert pc.id (nm.patches.map PeerPatch.id).toFinset ⊆ relevantIds (pcs ++ [pc]) := by
        intro id hid
        rw [Finset.mem_insert, List.mem_toFinset, List.mem_map] at hid
        rcases hid with rfl | ⟨d, hd, rfl⟩
        · exact hmem
        · exact hmono (h.ids d hd)
      have hle := Finset.card_le_card hsub
      rw [Finset.card_insert_of_notMem (by rwa [List.mem_toFinset]),
        List.toFinset_card_of_nodup h.distinct, List.length_map] at hle
      omega
    refine ⟨_, hroom hcard, h.distinct.concat hnew, fun d hd => ?_, fun p => ?_⟩
    · rcases List.mem_append.mp hd with hd | hd
      · exact hmono (h.ids d hd)
      · rw [List.mem_singleton.mp hd]
        exact hmem
    · rw [hlast, ← h.same, List.foldl_append]
      rfl

lemma subParse_toks (js : Bytes) (o o' : MapOut) (h : o.toks = o'.toks) :
    (subParse js o).1 = (subParse js o').1 ∧ (subParse js o).2.toks = (subParse js o').2.toks ∧
      (subParse js o).2.nm = o.nm := by
  unfold subParse
  rw [h]
  generalize jsmnParse subMaxTokens js o'.toks = r
  obtain ⟨r, toks⟩ := r
  cases r with
  | error => exact ⟨rfl, rfl, rfl⟩
  | ok =>
    dsimp only
    split
    · exact ⟨rfl, rfl, rfl⟩
    · exact ⟨rfl, rfl, rfl⟩

lemma elemPatch_nm (v : Bytes) (o : MapOut) : (elemPatch v o).nm =
    (patchOf v).elim { o.nm with patchesOverflow := true } fun pc => addPatch pc o.nm := by
  have hbare : (elemPatch v o).nm = (elemPatch v o.bare).nm := by
    refine nm_of_bare (onObject_bare v _ (fun n t u ha hw ho => ?_) rfl)
    unfold parseOnePatch
    rw [ha.members hw ho (ha.patchMember v)]
  obtain ⟨hn, htoks, hnm⟩ := subParse_toks v o.bare ⟨.cleared, fun _ => ⟨.undefined, 0, 0, 0⟩, 0, []⟩ rfl
  rw [hbare]
  unfold elemPatch onObject patchOf
  dsimp only
  rw [hn, htoks, hnm]
  split
  · rfl
  · rfl

def ParseTo (vs : List Bytes) (pcs : List PeerPatch) : Prop := vs.map patchOf = pcs.map some

lemma foldl_elemPatch {vs : List Bytes} {qs : List PeerPatch} (hparse : ParseTo vs qs)
    {o : MapOut} (h : Folded pcs o.nm.patches)
    (hfew : (relevantIds (pcs ++ qs)).card ≤ tlMaxPeerPatches) :
    ∃ ds, (vs.foldl (fun o v => elemPatch v o) o).nm = { o.nm with patches := ds } ∧
      Folded (pcs ++ qs) ds := by
  unfold ParseTo at hparse
  induction vs generalizing qs pcs o with
  | nil =>
    cases qs with
    | nil =>
      rw [List.append_nil]
      exact ⟨o.nm.patches, rfl, h⟩
    | cons => cases hparse
  | cons v _ ih =>
    cases qs with
    | nil => cases hparse
    | cons q qs =>
      rw [List.map_cons, List.map_cons, List.cons.injEq] at hparse
      have hsplit : pcs ++ q :: qs = (pcs ++ [q]) ++ qs := by
        rw [List.append_assoc]
        rfl
      rw [hsplit] at hfew ⊢
      have hsub := Finset.card_le_card (relevantIds_mono (List.subset_append_left (pcs ++ [q]) qs))
      obtain ⟨ds, hds, hf⟩ := h.step q (hsub.trans hfew)
      have hnm : (elemPatch v o).nm = { o.nm with patches := ds } := by
        rw [elemPatch_nm, hparse.1]
        exact hds
      have hf' : Folded (pcs ++ [q]) (elemPatch v o).nm.patches := by
        rw [hnm]
        exact hf
      obtain ⟨es, hes, hfold⟩ := ih hparse.2 hf' hfew
      refine ⟨es, ?_, hfold⟩
      rw [List.foldl_cons, hes, hnm]

lemma applyPatch_absent {t : List Peer}
    (h : pc.id = 0 ∨ pc.id ∉ t.map Peer.id) : applyPatch t pc = t := by
  refine (List.map_congr_left fun p hp => if_neg ?_).trans (List.map_id t)
  rintro ⟨hne, hid⟩
  rcases h with hz | hno
  · exact hne hz
  · exact hno (List.mem_map.mpr ⟨p, hp, hid⟩)

lemma patchPeer_apply {m : Merging} (hd : Distinct Peer.id m.1) (pc : PeerPatch) :
    (patchPeer m pc).1 = applyPatch m.1 pc := by
  by_cases hz : pc.id = 0
  · rw [applyPatch_absent (.inl hz), patchPeer, hz, peerIndex_zero]
  rcases patchPeer_cases m pc with ⟨hno, heq⟩ | ⟨xs, p, ys, b, hl, hid, heq, -⟩
  · rw [heq, applyPatch_absent hno]
  · rw [hl] at hd
    have hother : ∀ q ∈ xs ++ ys, ¬ (pc.id ≠ 0 ∧ q.id = pc.id) := by
      rintro q hq ⟨-, hqid⟩
      exact hd.other hq (hqid.trans hid.symm)
    have hxs : applyPatch xs pc = xs := (List.map_congr_left fun q hq =>
      if_neg (hother q (List.mem_append_left _ hq))).trans (List.map_id xs)
    have hys : applyPatch ys pc = ys := (List.map_congr_left fun q hq =>
      if_neg (hother q (List.mem_append_right _ hq))).trans (List.map_id ys)
    have hp : applyPatch [p] pc = [p.patched pc] := by
      unfold applyPatch
      rw [List.map_singleton, if_pos ⟨hz, hid⟩]
    calc (patchPeer m pc).1 = xs ++ ([p.patched pc] ++ ys) := by rw [heq]; rfl
      _ = applyPatch xs pc ++ (applyPatch [p] pc ++ applyPatch ys pc) := by rw [hxs, hp, hys]
      _ = applyPatch m.1 pc := by
        unfold applyPatch
        rw [hl, ← List.map_append, ← List.map_append]
        rfl

lemma applyPatch_ids (t : List Peer) (pc : PeerPatch) :
    (applyPatch t pc).map Peer.id = t.map Peer.id := by
  unfold applyPatch
  rw [List.map_map]
  refine List.map_congr_left fun p _ => ?_
  rw [Function.comp_apply]
  split <;> rfl

lemma foldl_patchPeer (ds : List PeerPatch) {m : Merging} (hd : Distinct Peer.id m.1) :
    (ds.foldl patchPeer m).1 = ds.foldl applyPatch m.1 := by
  induction ds generalizing m with
  | nil => rfl
  | cons d _ ih =>
    have hstep := patchPeer_apply hd d
    have hd' : Distinct Peer.id (patchPeer m d).1 := by
      unfold Distinct
      rw [hstep, applyPatch_ids]
      exact hd
    rw [List.foldl_cons, List.foldl_cons, ih hd', hstep]

/-- A frame of patches alone, run through `elem_patch` and merged, does to the table what its patches
do one after the other, and does not overflow. -/
theorem folded_patches_apply_in_order {vs : List Bytes} {pcs : List PeerPatch}
    (hparse : ParseTo vs pcs) (hfew : (relevantIds pcs).card ≤ tlMaxPeerPatches) {t : List Peer}
    (hd : Distinct Peer.id t) (o : MapOut) (hpeers : o.nm.peers = []) (hremoved : o.nm.removedIds = [])
    (hpatches : o.nm.patches = []) :
    (mergePeers t (vs.foldl (fun o v => elemPatch v o) o).nm).1 = pcs.foldl applyPatch t ∧
      (vs.foldl (fun o v => elemPatch v o) o).nm.patchesOverflow = o.nm.patchesOverflow := by
  have hnil : Folded [] o.nm.patches := by
    rw [hpatches]
    exact ⟨List.nodup_nil, fun d hd => absurd hd List.not_mem_nil, fun _ => rfl⟩
  obtain ⟨ds, hnm, hf⟩ := foldl_elemPatch hparse hnil hfew
  refine ⟨?_, by rw [hnm]⟩
  have hmerge : mergePeers t { o.nm with patches := ds } = ds.foldl patchPeer (t, false) := by
    unfold mergePeers
    simp [hpeers, hremoved]
  calc (mergePeers t (vs.foldl (fun o v => elemPatch v o) o).nm).1
      = ds.foldl applyPatch t := by rw [hnm, hmerge, foldl_patchPeer ds hd]
    _ = t.map fun p => ds.foldl patchFor p := foldl_applyPatch ds t
    _ = t.map fun p => pcs.foldl patchFor p := List.map_congr_left fun p _ => hf.same p
    _ = pcs.foldl applyPatch t := (foldl_applyPatch pcs t).symm

def derpPatch (id : ℕ) (region : ℤ) : PeerPatch :=
    { PeerPatch.zero with id := id, derpRegion := region }

def derpPatchTexts : List Bytes :=
  [asciiBytes "\x7b\"NodeID\":7,\"DERPRegion\":3\x7d",
    asciiBytes "\x7b\"NodeID\":9,\"DERPRegion\":4\x7d",
    asciiBytes "\x7b\"NodeID\":7,\"DERPRegion\":5\x7d"]

theorem last_region_wins :
    (mergePeers [⟨7, zeroKey, zeroKey, false, 1, [], []⟩] (derpPatchTexts.foldl
      (fun o v => elemPatch v o) ⟨.cleared, fun _ => ⟨.undefined, 0, 0, 0⟩, 0, []⟩).nm).1 =
      [⟨7, zeroKey, zeroKey, false, 5, [], []⟩] := by
  have hparse : ParseTo derpPatchTexts [derpPatch 7 3, derpPatch 9 4, derpPatch 7 5] := by
    unfold ParseTo
    decide +kernel
  have hone : Distinct Peer.id [⟨7, zeroKey, zeroKey, false, 1, [], []⟩] := List.nodup_singleton 7
  rw [(folded_patches_apply_in_order hparse (by decide) hone _ rfl rfl rfl).1]
  decide

end TinyLink.Proofs
