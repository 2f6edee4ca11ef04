import Mathlib.Data.Finmap
import Mathlib.Data.List.Nodup

/-!
# Tables of keyed rows

A table is a list of rows with pairwise distinct keys. `toMap` is the finite map it stands for;
erasing a row, replacing it by one with the same key and appending a new one are `erase` and
`insert` of that map.
-/

namespace KeyedTable

variable {κ α : Type*}

def Distinct (key : α → κ) (l : List α) : Prop := (l.map key).Nodup

section Rows
variable {key : α → κ} {xs ys l : List α} {a b : α}

lemma Distinct.remove (hd : Distinct key (xs ++ a :: ys)) : Distinct key (xs ++ ys) := by
  refine List.Nodup.sublist ?_ hd
  exact ((List.sublist_cons_self a ys).append_left xs).map key

lemma Distinct.replace (hd : Distinct key (xs ++ a :: ys)) (hk : key b = key a) :
    Distinct key (xs ++ b :: ys) := by
  unfold Distinct at hd ⊢
  simpa [hk] using hd

lemma Distinct.concat (hd : Distinct key l) (hnew : key a ∉ l.map key) : Distinct key (l ++ [a]) := by
  unfold Distinct at hd ⊢
  rw [List.map_append, List.map_singleton, ← List.concat_eq_append]
  exact hd.concat hnew

lemma Distinct.other (hd : Distinct key (xs ++ a :: ys)) {c : α} (hc : c ∈ xs ++ ys) :
    key c ≠ key a := by
  unfold Distinct at hd
  rw [List.map_append, List.map_cons, List.nodup_middle, List.nodup_cons, ← List.map_append] at hd
  exact fun hk => hd.1 (List.mem_map.mpr ⟨c, hc, hk⟩)

end Rows

variable [DecidableEq κ] (key : α → κ)

/-- The finite map from keys to rows. -/
def toMap (l : List α) : Finmap fun _ : κ => α :=
  (l.map fun a => (⟨key a, a⟩ : Σ _ : κ, α)).toFinmap

lemma lookup_toMap (l : List α) (k : κ) : (toMap key l).lookup k = l.find? fun a => key a = k := by
  rw [toMap, Finmap.dlookup_list_toFinmap]
  induction l with
  | nil => rfl
  | cons a l ih =>
    rw [List.map_cons]
    by_cases hk : key a = k
    · subst hk
      simp
    · rw [List.dlookup_cons_ne _ _ (Ne.symm hk), ih, List.find?_cons_of_neg (by simpa using hk)]

lemma mem_toMap {l : List α} {k : κ} : k ∈ toMap key l ↔ k ∈ l.map key := by
  rw [← Finmap.lookup_isSome, lookup_toMap, List.find?_isSome]
  simp

variable {key}

lemma lookup_eq_some {l : List α} (hd : Distinct key l) {k : κ} {a : α} :
    (toMap key l).lookup k = some a ↔ a ∈ l ∧ key a = k := by
  rw [lookup_toMap]
  constructor
  · intro h
    exact ⟨List.mem_of_find?_eq_some h, by simpa using List.find?_some h⟩
  · rintro ⟨ha, rfl⟩
    obtain ⟨b, hb⟩ := Option.isSome_iff_exists.mp
      (List.find?_isSome.mpr ⟨a, ha, by simp⟩ : (l.find? fun x => key x = key a).isSome)
    have hkey : key b = key a := by simpa using List.find?_some hb
    rw [hb, List.inj_on_of_nodup_map hd (List.mem_of_find?_eq_some hb) ha hkey]

lemma card_keys {l : List α} (hd : Distinct key l) : (toMap key l).keys.card = l.length := by
  have hkeys : (toMap key l).keys = (l.map key).toFinset := by
    ext k
    rw [Finmap.mem_keys, mem_toMap, List.mem_toFinset]
  rw [hkeys, List.toFinset_card_of_nodup hd, List.length_map]

lemma split_at {l : List α} {i : ℕ} {a : α} (hi : l[i]? = some a) : ∃ xs ys,
    l = xs ++ a :: ys ∧ l.eraseIdx i = xs ++ ys ∧ ∀ b, l.set i b = xs ++ b :: ys := by
  obtain ⟨hlt, rfl⟩ := List.getElem?_eq_some_iff.mp hi
  refine ⟨l.take i, l.drop (i + 1), ?_, List.eraseIdx_eq_take_drop_succ _ _, fun b => ?_⟩
  · rw [← List.drop_eq_getElem_cons hlt, List.take_append_drop]
  · rw [List.set_eq_take_append_cons_drop, if_pos hlt]

section Maps
variable {xs ys l : List α} {a b : α}

lemma toMap_remove (hd : Distinct key (xs ++ a :: ys)) :
    toMap key (xs ++ ys) = (toMap key (xs ++ a :: ys)).erase (key a) := by
  refine Finmap.ext_lookup fun k => Option.ext fun c => ?_
  by_cases hk : k = key a
  · subst hk
    rw [Finmap.lookup_erase, lookup_eq_some hd.remove]
    simp only [reduceCtorEq, iff_false, not_and]
    exact fun hc => hd.other hc
  · rw [Finmap.lookup_erase_ne hk, lookup_eq_some hd.remove, lookup_eq_some hd]
    simp only [List.mem_append, List.mem_cons]
    constructor
    · rintro ⟨hc | hc, hkey⟩ <;> simp [hc, hkey]
    · rintro ⟨hc | rfl | hc, hkey⟩
      · exact ⟨.inl hc, hkey⟩
      · exact absurd hkey.symm hk
      · exact ⟨.inr hc, hkey⟩

lemma erase_absent {k : κ} (hk : k ∉ l.map key) : (toMap key l).erase k = toMap key l := by
  refine Finmap.ext_lookup fun k' => ?_
  by_cases he : k' = k
  · subst he
    rw [Finmap.lookup_erase, Finmap.lookup_eq_none.mpr (mt (mem_toMap key).mp hk)]
  · rw [Finmap.lookup_erase_ne he]

lemma toMap_replace (hd : Distinct key (xs ++ a :: ys)) (hk : key b = key a) :
    toMap key (xs ++ b :: ys) = (toMap key (xs ++ a :: ys)).insert (key a) b := by
  have hd' : Distinct key (xs ++ b :: ys) := hd.replace hk
  refine Finmap.ext_lookup fun k => Option.ext fun c => ?_
  by_cases hkey : k = key a
  · subst hkey
    rw [Finmap.lookup_insert, lookup_eq_some hd', Option.some.injEq]
    constructor
    · rintro ⟨hc, he⟩
      simp only [List.mem_append, List.mem_cons] at hc
      rcases hc with hc | rfl | hc
      · exact absurd he (hd.other (List.mem_append_left _ hc))
      · rfl
      · exact absurd he (hd.other (List.mem_append_right _ hc))
    · rintro rfl
      exact ⟨by simp, hk⟩
  · rw [Finmap.lookup_insert_of_ne _ hkey, lookup_eq_some hd', lookup_eq_some hd]
    simp only [List.mem_append, List.mem_cons]
    constructor
    · rintro ⟨hc | rfl | hc, he⟩
      · exact ⟨.inl hc, he⟩
      · exact absurd (he.symm.trans hk) hkey
      · exact ⟨.inr (.inr hc), he⟩
    · rintro ⟨hc | rfl | hc, he⟩
      · exact ⟨.inl hc, he⟩
      · exact absurd he.symm hkey
      · exact ⟨.inr (.inr hc), he⟩

lemma toMap_concat (hd : Distinct key l) (hnew : key a ∉ l.map key) :
    toMap key (l ++ [a]) = (toMap key l).insert (key a) a := by
  have hd' : Distinct key (l ++ [a]) := hd.concat hnew
  refine Finmap.ext_lookup fun k => Option.ext fun c => ?_
  by_cases hkey : k = key a
  · subst hkey
    rw [Finmap.lookup_insert, lookup_eq_some hd', Option.some.injEq]
    simp only [List.mem_append, List.mem_singleton]
    constructor
    · rintro ⟨hc | rfl, he⟩
      · exact absurd (List.mem_map.mpr ⟨c, hc, he⟩) hnew
      · rfl
    · rintro rfl
      exact ⟨.inr rfl, rfl⟩
  · rw [Finmap.lookup_insert_of_ne _ hkey, lookup_eq_some hd', lookup_eq_some hd]
    simp only [List.mem_append, List.mem_singleton]
    constructor
    · rintro ⟨hc | rfl, he⟩
      · exact ⟨hc, he⟩
      · exact absurd he.symm hkey
    · rintro ⟨hc, he⟩
      exact ⟨.inl hc, he⟩

end Maps

end KeyedTable
