import TinyLink.Proofs.JsmnTokens

/-!
# Walking an accepted token tree

`span` is the walk of a value by its structure, bounded by the number of tokens.
-/

namespace TinyLink.Proofs

variable {left : List (ℕ × Bool)} {i j l : ℕ}

def spans (f : ℕ → Option ℕ) : ℕ → ℕ → Option ℕ
  | 0, i => some i
  | k + 1, i => (f i).bind (spans f k)

/-- The token past the value at `i`, with the levels that may still be entered. -/
def span (toks : JsmnTable) (ntok : ℕ) : ℕ → ℕ → Option ℕ
  | 0, _ => none
  | levels + 1, i =>
    if i ≥ ntok then none
    else
      match (toks i).type with
      | .object =>
        if (toks i).size < 0 then none
        else spans (fun j => span toks ntok levels (j + 1)) (toks i).size.toNat (i + 1)
      | .array =>
        if (toks i).size < 0 then none
        else spans (span toks ntok levels) (toks i).size.toNat (i + 1)
      | _ => some (i + 1)

variable {t u : JsmnTable} {n : ℕ} {f : ℕ → Option ℕ}

lemma lt_of_span (h : (span t n l i).isSome) : i < n := by
  cases l with
  | zero => cases h
  | succ =>
    unfold span at h
    split at h
    · cases h
    · omega

lemma spans_object (h : span t n (l + 1) i = some j) (ht : (t i).type = .object) :
    spans (fun a => span t n l (a + 1)) (t i).size.toNat (i + 1) = some j := by
  unfold span at h
  rw [ht] at h
  split_ifs at h
  exact h

lemma spans_array (h : span t n (l + 1) i = some j) (ht : (t i).type = .array) :
    spans (span t n l) (t i).size.toNat (i + 1) = some j := by
  unfold span at h
  rw [ht] at h
  split_ifs at h
  exact h

lemma spans_iterate {g : ℕ → ℕ} (hfg : ∀ a b, f a = some b → g a = b) {k : ℕ}
    (h : spans f k i = some j) : g^[k] i = j := by
  induction k generalizing i with
  | zero => exact Option.some.inj h
  | succ k ih =>
    obtain ⟨b, hb, h⟩ := Option.bind_eq_some_iff.mp h
    rw [Function.iterate_succ_apply, hfg i b hb]
    exact ih h

lemma skip_of_span {m : ℕ} (h : span t n l i = some j) (hlm : l ≤ m) : jsmnSkipD t m i = j := by
  induction l generalizing m i j with
  | zero => cases h
  | succ l ih =>
    obtain ⟨m, rfl⟩ : ∃ m', m = m' + 1 := ⟨m - 1, by omega⟩
    have hm : l ≤ m := by omega
    unfold jsmnSkipD
    cases ht : (t i).type with
    | object => exact spans_iterate (fun a b hab => ih hab hm) (spans_object h ht)
    | array => exact spans_iterate (fun a b hab => ih hab hm) (spans_array h ht)
    | _ =>
      unfold span at h
      split at h
      · cases h
      · rw [ht] at h
        exact Option.some.inj h

lemma Agree.span (h : Agree n t u) (l i : ℕ) : span t n l i = span u n l i := by
  induction l generalizing i with
  | zero => rfl
  | succ l ih =>
    unfold Proofs.span
    split
    · rfl
    · rw [h i (by omega), funext ih]

def Pending (t : JsmnTable) (n : ℕ) : ℕ → List (ℕ × Bool) → Prop
  | _, [] => True
  | i, (k, isObj) :: left =>
    ∃ j, spans (fun a => span t n (jsmnSkipMaxDepth - left.length) (if isObj then a + 1 else a)) k i
      = some j ∧ Pending t n j left

lemma visit_pending (v : ℕ) (left : List (ℕ × Bool)) :
    (∀ b, jsmnTreeVisit pairEntry t n v left = .error b →
      ((∃ j, span t n (jsmnSkipMaxDepth + 1 - left.length) v = some j ∧ Pending t n j left) ↔
        b = true)) ∧ ∀ r, jsmnTreeVisit pairEntry t n v left = .ok r →
      ((∃ j, span t n (jsmnSkipMaxDepth + 1 - left.length) v = some j ∧ Pending t n j left) ↔
        Pending t n r.1 r.2) ∧ v < n ∧ r.1 = v + 1 ∧ r.2 ≠ [] ∧ r.2.length ≤ left.length + 1 := by
  unfold jsmnTreeVisit
  by_cases hb : n ≤ v ∨ jsmnSkipMaxDepth < left.length
  · have hspan : span t n (jsmnSkipMaxDepth + 1 - left.length) v = none := by
      rcases hb with hv | hd
      · cases jsmnSkipMaxDepth + 1 - left.length with
        | zero => rfl
        | succ => rw [span, if_pos hv]
      · rw [Nat.sub_eq_zero_of_le hd]
        rfl
    simp [hspan, hb]
  · obtain ⟨hv, hd⟩ := not_or.mp hb
    rw [show jsmnSkipMaxDepth + 1 - left.length = jsmnSkipMaxDepth - left.length + 1 by omega, span]
    cases ht : (t v).type with
    | object | array =>
      by_cases hs : (t v).size < 0
      · simp [hv, hd, hs, ht]
      · simp [hv, hd, hs, ht, Nat.lt_of_not_le hv, Pending, pairEntry]
    | _ =>
      by_cases hl : left = []
      · simp [hv, hl, ht, Pending]
      · simp [hv, hd, hl, ht, Nat.lt_of_not_le hv]

lemma pending_succ (k : ℕ) (isObj : Bool) : Pending t n i ((k + 1, isObj) :: left) ↔ ∃ j,
    span t n (jsmnSkipMaxDepth - left.length) (if isObj then i + 1 else i) = some j ∧
      Pending t n j ((k, isObj) :: left) := by
  simp only [Pending, spans, Option.bind_eq_some_iff]
  constructor
  · rintro ⟨j, ⟨a, ha, hj⟩, hp⟩
    exact ⟨a, ha, j, hj, hp⟩
  · rintro ⟨a, ha, j, hj, hp⟩
    exact ⟨j, ⟨a, ha, hj⟩, hp⟩

lemma treeLoop_iff {fuel : ℕ} (hl : left ≠ []) (hf : 2 * (n - i) + left.length < fuel) :
    jsmnTreeLoop pairEntry pairNext t n fuel i left = true ↔ Pending t n i left := by
  induction fuel generalizing i left with
  | zero => omega
  | succ fuel ih =>
    obtain ⟨⟨k, isObj⟩, left, rfl⟩ := List.exists_cons_of_ne_nil hl
    rw [List.length_cons] at hf
    unfold jsmnTreeLoop jsmnTreeRound
    cases k with
    | zero =>
      by_cases hleft : left = []
      · simp [hleft, Pending, spans, pairNext]
      · simpa [hleft, Pending, spans, pairNext] using ih hleft (by omega)
    | succ k =>
      obtain ⟨herr, hok⟩ :=
        visit_pending (t := t) (n := n) (if isObj then i + 1 else i) ((k, isObj) :: left)
      rw [List.length_cons, Nat.add_sub_add_right, ← pending_succ] at herr hok
      dsimp only [pairNext]
      cases hr : jsmnTreeVisit pairEntry t n (if isObj then i + 1 else i) ((k, isObj) :: left) with
      | error b => exact (herr b hr).symm
      | ok r =>
        obtain ⟨hp, hv, hnext, hne, hlen⟩ := hok r hr
        have hi : i ≤ if isObj then i + 1 else i := by
          split <;> omega
        exact (ih hne (by omega)).trans hp.symm

lemma treeOk_iff : jsmnTreeOk t n = true ↔ (span t n (jsmnSkipMaxDepth + 1) 0).isSome := by
  obtain ⟨herr, hok⟩ := visit_pending (t := t) (n := n) 0 []
  simp only [Pending, and_true, List.length_nil, Nat.sub_zero, ← Option.isSome_iff_exists] at herr hok
  unfold jsmnTreeOk jsmnTreeLoop jsmnTreeRound
  cases hr : jsmnTreeVisit pairEntry t n 0 [] with
  | error b => exact (herr b hr).symm
  | ok r =>
    obtain ⟨hp, hv, hnext, hne, hlen⟩ := hok r hr
    exact (treeLoop_iff hne (by omega)).trans hp.symm

lemma Agree.treeOk (h : Agree n t u) : jsmnTreeOk t n = jsmnTreeOk u n := by
  have visit : ∀ i left, jsmnTreeVisit pairEntry t n i left = jsmnTreeVisit pairEntry u n i left := by
    intro i left
    unfold jsmnTreeVisit
    by_cases hi : i ≥ n
    · simp [hi]
    · rw [h i (by omega)]
  have loop : ∀ fuel i left, jsmnTreeLoop pairEntry pairNext t n fuel i left =
      jsmnTreeLoop pairEntry pairNext u n fuel i left := by
    intro fuel
    induction fuel with
    | zero => exact fun _ _ => rfl
    | succ _ ih =>
      intro i left
      unfold jsmnTreeLoop jsmnTreeRound
      simp only [visit, ih]
  exact loop _ _ _

/-- The `int` that stands for a pair. -/
def pack (p : ℕ × Bool) : ℤ := 2 * p.1 + if p.2 then 1 else 0

lemma jsmnLeft_eq (tok : JsmnTok) (h0 : 0 ≤ tok.size) (h : tok.size < 2 ^ 30) :
    jsmnLeft tok = pack (pairEntry tok) := by
  unfold jsmnLeft pack pairEntry
  simp only [decide_eq_true_eq, Int.toNat_of_nonneg h0]
  rw [Int.bmod_eq_of_le] <;> split <;> omega

lemma jsmnLeftNext_eq (p : ℕ × Bool) :
    jsmnLeftNext (pack p) = (pairNext p).map fun r => (pack r.1, r.2) := by
  obtain ⟨k, isObj⟩ := p
  cases k with
  | zero => cases isObj <;> rfl
  | succ k =>
    have hbig : ¬ pack (k + 1, isObj) < 2 := by
      unfold pack
      split <;> omega
    have hpack : pack (k + 1, isObj) - 2 = pack (k, isObj) := by
      cases isObj <;> simp [pack] <;> omega
    have hkind : pack (k, isObj) % 2 = 1 ↔ isObj = true := by
      cases isObj <;> simp [pack]
    simp [jsmnLeftNext, pairNext, hbig, hpack, hkind]

section
variable (hsize : ∀ i < n, (t i).size < 2 ^ 30)
include hsize

lemma packedVisit_eq (v : ℕ) (left : List (ℕ × Bool)) : jsmnTreeVisit jsmnLeft t n v (left.map pack) =
    (jsmnTreeVisit pairEntry t n v left).map fun r => (r.1, r.2.map pack) := by
  unfold jsmnTreeVisit
  simp only [List.length_map, List.map_eq_nil_iff]
  split_ifs with hb hc hs hl
  · rfl
  · rfl
  · have hv : v < n := by simp_all
    rw [jsmnLeft_eq _ (by omega) (hsize v hv)]
    rfl
  · rfl
  · rfl

lemma packedRound_eq (i : ℕ) (left : List (ℕ × Bool)) :
    jsmnTreeRound jsmnLeft jsmnLeftNext t n i (left.map pack) =
      (jsmnTreeRound pairEntry pairNext t n i left).map fun r => (r.1, r.2.map pack) := by
  rcases left with _ | ⟨l, left⟩
  · exact packedVisit_eq hsize i []
  · unfold jsmnTreeRound
    rw [List.map_cons]
    dsimp only
    rw [jsmnLeftNext_eq]
    cases pairNext l with
    | none =>
      simp only [Option.map_none, List.map_eq_nil_iff]
      split_ifs <;> rfl
    | some r => exact packedVisit_eq hsize _ (r.1 :: left)

lemma packedLoop_eq (fuel i : ℕ) (left : List (ℕ × Bool)) :
    jsmnTreeLoop jsmnLeft jsmnLeftNext t n fuel i (left.map pack) =
      jsmnTreeLoop pairEntry pairNext t n fuel i left := by
  induction fuel generalizing i left with
  | zero => rfl
  | succ fuel ih =>
    unfold jsmnTreeLoop
    rw [packedRound_eq hsize]
    cases jsmnTreeRound pairEntry pairNext t n i left with
    | error b => rfl
    | ok r => exact ih r.1 r.2

end

/-- The values that the walk from token 0 meets, with the levels that may be entered there. -/
inductive ValueOf (t : JsmnTable) (n : ℕ) : ℕ → ℕ → Prop
  | root : ValueOf t n (jsmnSkipMaxDepth + 1) 0
  | member {l i k a : ℕ} : ValueOf t n (l + 1) i → (t i).type = .object → k < (t i).size.toNat →
      spans (fun b => span t n l (b + 1)) k (i + 1) = some a → ValueOf t n l (a + 1)
  | element {l i k a : ℕ} : ValueOf t n (l + 1) i → (t i).type = .array → k < (t i).size.toNat →
      spans (span t n l) k (i + 1) = some a → ValueOf t n l a

lemma spans_before {k m : ℕ} (h : spans f m i = some j) (hk : k < m) :
    ∃ a, spans f k i = some a ∧ (f a).isSome := by
  induction k generalizing m i with
  | zero =>
    obtain ⟨m, rfl⟩ := Nat.exists_eq_succ_of_ne_zero (Nat.ne_of_gt hk)
    obtain ⟨b, hb, -⟩ := Option.bind_eq_some_iff.mp h
    exact ⟨i, rfl, Option.isSome_iff_exists.mpr ⟨b, hb⟩⟩
  | succ k ih =>
    obtain ⟨m, rfl⟩ := Nat.exists_eq_succ_of_ne_zero (Nat.ne_of_gt (Nat.zero_lt_of_lt hk))
    obtain ⟨b, hb, h⟩ := Option.bind_eq_some_iff.mp h
    obtain ⟨a, ha, hf⟩ := ih h (Nat.lt_of_succ_lt_succ hk)
    exact ⟨a, Option.bind_eq_some_iff.mpr ⟨b, hb, ha⟩, hf⟩

lemma ValueOf.walked (hroot : (span t n (jsmnSkipMaxDepth + 1) 0).isSome) (h : ValueOf t n l i) :
    l ≤ jsmnSkipMaxDepth + 1 ∧ ∃ j, span t n l i = some j := by
  induction h with
  | root => exact ⟨Nat.le_refl _, Option.isSome_iff_exists.mp hroot⟩
  | member _ ht hk ha ih =>
    obtain ⟨hl, j, hj⟩ := ih
    obtain ⟨b, hb, hsome⟩ := spans_before (spans_object hj ht) hk
    obtain rfl : b = _ := Option.some.inj (hb.symm.trans ha)
    exact ⟨Nat.le_of_succ_le hl, Option.isSome_iff_exists.mp hsome⟩
  | element _ ht hk ha ih =>
    obtain ⟨hl, j, hj⟩ := ih
    obtain ⟨b, hb, hsome⟩ := spans_before (spans_array hj ht) hk
    obtain rfl : b = _ := Option.some.inj (hb.symm.trans ha)
    exact ⟨Nat.le_of_succ_le hl, Option.isSome_iff_exists.mp hsome⟩

lemma walk_below {g : ℕ → ℕ} {m : ℕ} (hfg : ∀ a b, f a = some b → g a = b)
    (h : spans f m i = some j) : ∀ k < m, (f (g^[k] i)).isSome := by
  intro k hk
  obtain ⟨a, ha, hf⟩ := spans_before h hk
  rwa [spans_iterate hfg ha]

/-- `jsmn_tree_ok` accepts exactly if the walk from token 0 stays below `ntok`, nests no deeper than
`JSMN_SKIP_MAX_DEPTH` and meets no negative size; then `jsmn_skip` is exact at every value of it. -/
theorem tree_ok_exact (t : JsmnTable) (n : ℕ) (hsize : ∀ i < n, (t i).size < 2 ^ 30) :
    (jsmnTreeOkPacked t n = true ↔ (span t n (jsmnSkipMaxDepth + 1) 0).isSome) ∧
    (jsmnTreeOkPacked t n = true → ∀ l i, ValueOf t n l i →
      span t n l i = some (jsmnSkip t i) ∧ ∀ k < (t i).size.toNat,
        ((t i).type = .object → (fun j => jsmnSkip t (j + 1))^[k] (i + 1) + 1 < n) ∧
        ((t i).type = .array → (jsmnSkip t)^[k] (i + 1) < n)) := by
  have hiff : jsmnTreeOkPacked t n = true ↔ (span t n (jsmnSkipMaxDepth + 1) 0).isSome := by
    rw [← treeOk_iff, jsmnTreeOkPacked, jsmnTreeOk, ← packedLoop_eq hsize]
    rfl
  refine ⟨hiff, fun hok l i hi => ?_⟩
  obtain ⟨hl, j, hj⟩ := hi.walked (hiff.mp hok)
  refine ⟨hj.trans (congrArg some (skip_of_span hj hl).symm), fun k hk => ?_⟩
  obtain ⟨l, rfl⟩ : ∃ m, l = m + 1 := by
    cases l with
    | zero => cases hj
    | succ m => exact ⟨m, rfl⟩
  have hskip : ∀ a b, span t n l a = some b → jsmnSkip t a = b :=
    fun a b hab => skip_of_span hab (Nat.le_of_succ_le hl)
  constructor
  · intro ht
    exact lt_of_span (walk_below (fun a => hskip (a + 1)) (spans_object hj ht) k hk)
  · intro ht
    exact lt_of_span (walk_below hskip (spans_array hj ht) k hk)

def memberToks : JsmnTable := fun i =>
  [⟨.object, 0, 7, 1⟩, ⟨.string, 2, 3, 1⟩, ⟨.array, 5, 7, 0⟩].getD i ⟨.object, 0, 0, 1⟩

theorem member_walk_stays_inside :
    jsmnTreeOkPacked memberToks 3 = true ∧ jsmnTreeOkPacked memberToks 2 = false ∧
      span memberToks 3 64 2 = some (jsmnSkip memberToks 2) := by
  have hsize : ∀ i < 3, (memberToks i).size < 2 ^ 30 := by decide
  have hok : jsmnTreeOkPacked memberToks 3 = true := by decide
  refine ⟨hok, by decide, ((tree_ok_exact memberToks 3 hsize).2 hok 64 2 ?_).1⟩
  exact .member (k := 0) .root rfl (by decide) rfl

end TinyLink.Proofs
