import TinyLink.Proofs.JsmnTree

/-!
# Element parsers and the tokens of earlier elements

What they make of a value does not depend on the tokens that earlier elements left.
-/

namespace TinyLink

variable {o o' : MapOut} {i j l : ℕ}

def MapOut.bare (o : MapOut) : MapOut := { o with toks := fun _ => ⟨.undefined, 0, 0, 0⟩ }

namespace Proofs

def Walks (t : JsmnTable) (n i : ℕ) : Prop := ∃ l ≤ jsmnSkipMaxDepth + 1, (span t n l i).isSome

variable {t u : JsmnTable} {n : ℕ} {σ : Type*} {f g : σ → ℕ → ℕ → σ}

lemma Walks.lt (h : Walks t n i) : i < n := by
  obtain ⟨l, -, h⟩ := h
  exact lt_of_span h

section
variable (h : Agree n t u)
include h

section
variable (hl : l ≤ jsmnSkipMaxDepth + 1)
include hl

lemma Agree.skip (hi : Proofs.span t n l i = some j) : jsmnSkip t i = j ∧ jsmnSkip u i = j :=
  ⟨skip_of_span hi hl, skip_of_span (h.span l i ▸ hi) hl⟩

lemma Agree.walkObj {k next : ℕ} (hs : spans (fun a => Proofs.span t n l (a + 1)) k next = some j)
    (hfg : ∀ s a, Walks t n (a + 1) → f s a (a + 1) = g s a (a + 1)) (s : σ) :
    walkObj t f k next s = walkObj u g k next s := by
  induction k generalizing next s with
  | zero => rfl
  | succ k ih =>
    obtain ⟨b, hb, hs⟩ := Option.bind_eq_some_iff.mp hs
    obtain ⟨ht, hu⟩ := h.skip hl hb
    rw [TinyLink.walkObj, TinyLink.walkObj, ht, hu, hfg s next ⟨l, hl, Option.isSome_of_mem hb⟩]
    exact ih hs _

lemma Agree.walkArr {f g : σ → ℕ → σ} {k next : ℕ} (hs : spans (Proofs.span t n l) k next = some j)
    (hfg : ∀ s a, Walks t n a → f s a = g s a) (s : σ) :
    walkArr t f k next s = walkArr u g k next s := by
  induction k generalizing next s with
  | zero => rfl
  | succ k ih =>
    obtain ⟨b, hb, hs⟩ := Option.bind_eq_some_iff.mp hs
    obtain ⟨ht, hu⟩ := h.skip hl hb
    rw [TinyLink.walkArr, TinyLink.walkArr, ht, hu, hfg s next ⟨l, hl, Option.isSome_of_mem hb⟩]
    exact ih hs _

end

lemma Agree.members (hi : Walks t n i) (ho : (t i).type = .object)
    (hfg : ∀ s a, Walks t n (a + 1) → f s a (a + 1) = g s a (a + 1)) (s : σ) :
    walkMembers t f i s = walkMembers u g i s := by
  unfold walkMembers
  rw [← h i hi.lt]
  obtain ⟨l, hl, hi⟩ := hi
  obtain ⟨j, hj⟩ := Option.isSome_iff_exists.mp hi
  cases l with
  | zero => cases hj
  | succ => exact h.walkObj (Nat.le_of_succ_le hl) (spans_object hj ho) hfg s

lemma Agree.elements (hi : Walks t n i) (ha : (t i).type = .array)
    {f g : σ → ℕ → σ} (hfg : ∀ s a, Walks t n a → f s a = g s a) (s : σ) :
    walkElements t f i s = walkElements u g i s := by
  unfold walkElements
  rw [← h i hi.lt]
  obtain ⟨l, hl, hi⟩ := hi
  obtain ⟨j, hj⟩ := Option.isSome_iff_exists.mp hi
  cases l with
  | zero => cases hj
  | succ => exact h.walkArr (Nat.le_of_succ_le hl) (spans_array hj ha) hfg s

end

section
variable (h : Agree n t u) (js : Bytes)
include h

lemma Agree.addresses (hi : Walks t n i) (ha : (t i).type = .array) :
    parseAddresses js t i = parseAddresses js u i :=
  h.elements hi ha (fun s a hw => by rw [h a hw.lt]) []

lemma Agree.endpoints (hi : Walks t n i) (ha : (t i).type = .array) :
    parsePeerEndpoints js t i = parsePeerEndpoints js u i :=
  h.elements hi ha (fun s a hw => by rw [h a hw.lt]) []

lemma Agree.nodeMember (s : Netmap) (a : ℕ) (hw : Walks t n (a + 1)) :
    nodeMember js t s a (a + 1) = nodeMember js u s a (a + 1) := by
  unfold TinyLink.nodeMember
  rw [← h a (Nat.lt_of_succ_lt hw.lt), ← h (a + 1) hw.lt]
  by_cases ha : (t (a + 1)).type = .array
  · rw [h.addresses js hw ha]
  · simp only [ha, decide_false, Bool.and_false, Bool.false_eq_true, if_false]

lemma Agree.peerMember (s : Peer) (a : ℕ) (hw : Walks t n (a + 1)) :
    peerMember js t s a (a + 1) = peerMember js u s a (a + 1) := by
  unfold TinyLink.peerMember
  rw [← h a (Nat.lt_of_succ_lt hw.lt), ← h (a + 1) hw.lt]
  by_cases ha : (t (a + 1)).type = .array
  · rw [h.addresses js hw ha, h.endpoints js hw ha]
  · simp only [ha, decide_false, Bool.and_false, Bool.false_eq_true, if_false]

lemma Agree.patchMember (s : PeerPatch) (a : ℕ) (hw : Walks t n (a + 1)) :
    patchMember js t s a (a + 1) = patchMember js u s a (a + 1) := by
  unfold TinyLink.patchMember
  rw [← h a (Nat.lt_of_succ_lt hw.lt), ← h (a + 1) hw.lt]
  by_cases ha : (t (a + 1)).type = .array
  · rw [h.endpoints js hw ha]
  · simp only [ha, decide_false, Bool.and_false, Bool.false_eq_true, if_false]

lemma Agree.derpNode (r : RegionSlots) (a : ℕ) (hw : Walks t n a) :
    addDerpNode js t r a = addDerpNode js u r a := by
  unfold addDerpNode
  rw [← h a hw.lt]
  dsimp only
  by_cases ho : (t a).type = .object
  · rw [h.members hw ho fun s b hb => ?_]
    unfold derpNodeMember
    rw [← h b (Nat.lt_of_succ_lt hb.lt), ← h (b + 1) hb.lt]
  · simp only [ho, decide_false, Bool.false_and, Bool.false_eq_true, if_false]

lemma Agree.regionMember (s : RegionSlots) (a : ℕ) (hw : Walks t n (a + 1)) :
    regionMember js t s a (a + 1) = regionMember js u s a (a + 1) := by
  unfold TinyLink.regionMember
  rw [← h a (Nat.lt_of_succ_lt hw.lt), ← h (a + 1) hw.lt]
  by_cases ha : (t (a + 1)).type = .array
  · rw [h.elements hw ha (h.derpNode js)]
  · simp only [ha, decide_false, Bool.and_false, Bool.false_eq_true, if_false]

end

lemma nm_of_bare (h : o.bare = o'.bare) : o.nm = o'.nm :=
  (congrArg MapOut.nm h : o.bare.nm = o'.bare.nm)

lemma setNm_bare (h : o.bare = o'.bare) (nm : Netmap) :
    { o with nm := nm }.bare = { o' with nm := nm }.bare :=
  (congrArg (fun b : MapOut => { b with nm := nm }) h :
    { o.bare with nm := nm } = { o'.bare with nm := nm })

lemma subParse_bare (js : Bytes) (h : o.bare = o'.bare) : (subParse js o).1 = (subParse js o').1 ∧
    MapOut.bare (subParse js o).2 = MapOut.bare (subParse js o').2 ∧
    ∀ k, (subParse js o).1 = some k → 1 ≤ k →
      Agree k (subParse js o).2.toks (subParse js o').2.toks ∧ Walks (subParse js o).2.toks k 0 := by
  obtain ⟨nm, toks, peak, handed⟩ := o
  obtain ⟨_, toks', _, _⟩ := o'
  cases h
  obtain ⟨hr, hagree⟩ := jsmnParse_same subMaxTokens js toks toks'
  unfold subParse
  dsimp only
  rw [← hr]
  cases hp : (jsmnParse subMaxTokens js toks).1 with
  | error => exact ⟨rfl, rfl, nofun⟩
  | ok k =>
    dsimp only
    have hk := hagree k hp
    by_cases hzero : 1 ≤ k
    · have htree : jsmnTreeOk (jsmnParse subMaxTokens js toks).2 k =
          jsmnTreeOk (jsmnParse subMaxTokens js toks').2 k := hk.treeOk
      rw [← htree]
      by_cases hok : jsmnTreeOk (jsmnParse subMaxTokens js toks).2 k = true
      · simp only [hok, Bool.not_true, Bool.and_false, Bool.false_eq_true, if_false]
        refine ⟨trivial, rfl, fun j hj _ => ?_⟩
        cases hj
        exact ⟨hk, _, le_rfl, treeOk_iff.mp hok⟩
      · simp only [hok, hzero, decide_true, Bool.not_false, Bool.and_self, if_true]
        exact ⟨trivial, rfl, nofun⟩
    · simp only [hzero, decide_false, Bool.false_and, Bool.false_eq_true, if_false]
      refine ⟨trivial, rfl, fun j hj hj1 => ?_⟩
      cases hj
      exact absurd hj1 hzero

lemma onObject_bare (v : Bytes) {parsed : JsmnTable → Netmap → Netmap} (refused : Netmap → Netmap)
    (hp : ∀ n t u, Agree n t u → Walks t n 0 → (t 0).type = .object → parsed t = parsed u) (h : o.bare = o'.bare) :
    MapOut.bare (onObject v o parsed refused) = MapOut.bare (onObject v o' parsed refused) := by
  obtain ⟨hn, hbare, hk⟩ := subParse_bare v h
  have hnm := nm_of_bare hbare
  have hset := setNm_bare hbare
  unfold onObject
  dsimp only
  rw [← hn, ← hnm]
  cases hs : (subParse v o).1 with
  | none => exact hset _
  | some k =>
    by_cases hk1 : 1 ≤ k
    · obtain ⟨hagree, hw⟩ := hk k hs hk1
      rw [← hagree 0 hw.lt]
      split
      · rename_i hobj
        simp only [Bool.and_eq_true, decide_eq_true_eq] at hobj
        rw [hp k _ _ hagree hw hobj.2]
        exact hset _
      · exact hset _
    · simp only [Option.any_some, hk1, decide_false, Bool.false_and, Bool.false_eq_true, if_false]
      exact hset _

lemma elemParse_bare [MapConfig] (act : MapAct) (v : Bytes) (h : o.bare = o'.bare) :
    MapOut.bare (elemParse act v o) = MapOut.bare (elemParse act v o') := by
  have hh : MapOut.bare { o with handed := o.handed ++ [(act, v)] } =
      MapOut.bare { o' with handed := o'.handed ++ [(act, v)] } :=
    congrArg (fun b : MapOut => { b with handed := b.handed ++ [(act, v)] }) h
  unfold elemParse
  cases act with
  | node =>
    refine onObject_bare v _ (fun n t u ha hw ho => funext fun nm => ?_) hh
    unfold parseNodeObj
    rw [ha.members hw ho (ha.nodeMember v)]
  | peer =>
    refine onObject_bare v _ (fun n t u ha hw ho => funext fun nm => ?_) hh
    unfold parseOnePeer
    rw [ha.members hw ho (ha.peerMember v)]
  | removed =>
    unfold elemRemoved
    dsimp only
    split
    · exact hh
    · rw [nm_of_bare h]
      exact setNm_bare hh _
  | patch =>
    refine onObject_bare v _ (fun n t u ha hw ho => ?_) hh
    unfold parseOnePatch
    rw [ha.members hw ho (ha.patchMember v)]
  | region =>
    refine onObject_bare v _ (fun n t u ha hw ho => funext fun nm => ?_) hh
    unfold parseOneDerpRegion
    rw [ha.members hw ho (ha.regionMember v)]

end Proofs

end TinyLink
