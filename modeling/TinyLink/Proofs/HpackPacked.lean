import TinyLink.HpackPacked
import TinyLink.Proofs.HpackFields
import TinyLink.Proofs.HpackHuffman

/-!
# The packed table

The bytes of the dynamic table hold the entries of the list, and what the decoder does with its table
has the same effect on both.
-/

namespace TinyLink.Proofs

variable {d : HpackListDec} {e : HpackEntry} {M : HpackMem} {n : ℕ}

def packEntry (e : HpackEntry) : Bytes :=
  [UInt8.ofNat (e.name.length >>> 8), UInt8.ofNat e.name.length,
    UInt8.ofNat (e.value.length >>> 8), UInt8.ofNat e.value.length] ++ e.name ++ e.value

def packAll (l : List HpackEntry) : Bytes := l.flatMap packEntry

@[simp] lemma packAll_cons (e : HpackEntry) (l : List HpackEntry) :
    packAll (e :: l) = packEntry e ++ packAll l := rfl

lemma packEntry_length (e : HpackEntry) :
    (packEntry e).length = 4 + e.name.length + e.value.length := by
  simp only [packEntry, List.length_append, List.length_cons, List.length_nil]

lemma packAll_length (l : List HpackEntry) : (packAll l).length = hpackTabUsed l := by
  induction l with
  | nil => rfl
  | cons e l ih =>
    rw [packAll_cons, List.length_append, packEntry_length, ih]
    rfl

lemma getD_append_add (A xs : Bytes) (i : ℕ) : (A ++ xs).getD (A.length + i) 0 = xs.getD i 0 := by
  rw [List.getD_eq_getElem?_getD, List.getD_eq_getElem?_getD,
    List.getElem?_append_right (Nat.le_add_right _ _), Nat.add_sub_cancel_left]

lemma be16_bytes (h : n < 65536) :
    (UInt8.ofNat (n >>> 8)).toNat * 256 + (UInt8.ofNat n).toNat = n := by
  rw [UInt8.toNat_ofNat', UInt8.toNat_ofNat', Nat.shiftRight_eq_div_pow]
  omega

def Short (e : HpackEntry) : Prop :=
  e.name.length ≤ hpackNameCap ∧ e.value.length ≤ hpackValueCap

lemma be16_name (h : Short e) (A rest : Bytes) :
    be16 (A ++ (packEntry e ++ rest)) A.length = e.name.length := by
  have h0 := getD_append_add A (packEntry e ++ rest) 0
  have h1 := getD_append_add A (packEntry e ++ rest) 1
  have hlt : e.name.length < 65536 := Nat.lt_of_le_of_lt h.1 (by decide)
  rw [Nat.add_zero] at h0
  rw [be16, h0, h1]
  exact be16_bytes hlt

lemma be16_value (h : Short e) (A rest : Bytes) :
    be16 (A ++ (packEntry e ++ rest)) (A.length + 2) = e.value.length := by
  have hlt : e.value.length < 65536 := Nat.lt_of_le_of_lt h.2 (by decide)
  rw [be16, getD_append_add, Nat.add_assoc, getD_append_add]
  exact be16_bytes hlt

lemma dynEntry_walk : ∀ (j : ℕ) (A : Bytes) (l : List HpackEntry) (rest : Bytes), j ≤ l.length →
    (∀ e ∈ l, Short e) →
    dynEntry (A ++ (packAll l ++ rest)) j A.length = (A ++ packAll (l.take j)).length := by
  intro j
  induction j with
  | zero =>
    intro A l rest _ _
    simp [dynEntry, packAll]
  | succ j ih =>
    intro A l rest hj hshort
    cases l with
    | nil => cases hj
    | cons e l =>
      have he := hshort e (by simp)
      rw [packAll_cons, List.append_assoc, dynEntry, be16_name he, be16_value he,
        ← packEntry_length, ← List.length_append, ← List.append_assoc]
      rw [ih (A ++ packEntry e) l rest (by simpa using hj) fun e' h' => hshort e' (by simp [h'])]
      simp [packAll]

lemma bytesAt_eq {mem xs : Bytes} {p : ℕ} (A rest : Bytes) (h : mem = A ++ (xs ++ rest))
    (hp : p = A.length) : bytesAt mem p xs.length = xs := by
  rw [h, hp, bytesAt, List.drop_left, List.take_left]

lemma writeAt_append (A X Y bs : Bytes) (h : bs.length ≤ X.length) :
    writeAt (A ++ (X ++ Y)) A.length bs = A ++ bs ++ (X.drop bs.length ++ Y) := by
  rw [writeAt, List.take_left, ← List.drop_drop, List.drop_left, List.drop_append_of_le_length h]

/-- `M` holds in memory what `d` holds. -/
structure Packs (M : HpackMem) (d : HpackListDec) : Prop where
  bytes : ∃ rest, M.tab.bytes = packAll d.tab ++ rest
  length : M.tab.bytes.length = M.tabCap
  used : M.tab.used = hpackTabUsed d.tab
  size : M.tab.size = hpackTabSize d.tab
  count : M.tab.count = d.tab.length
  short : ∀ e ∈ d.tab, Short e
  small : hpackTabSize d.tab ≤ d.maxSize
  limit : d.sizeLimit ≤ d.maxSize
  maxSize : d.maxSize < 2 ^ 21
  same : M.tabCap = d.tabCap ∧ M.maxSize = d.maxSize ∧ M.sizeLimit = d.sizeLimit ∧ M.st = d.st ∧
    M.blockStart = d.blockStart

lemma Packs.withSt (h : Packs M d) (st : HpackSt) : Packs { M with st := st } { d with st := st } :=
  ⟨h.bytes, h.length, h.used, h.size, h.count, h.short, h.small, h.limit, h.maxSize, h.same.1,
    h.same.2.1, h.same.2.2.1, rfl, h.same.2.2.2.2⟩

lemma Packs.withStart (h : Packs M d) (start : Bool) :
    Packs { M with blockStart := start } { d with blockStart := start } :=
  ⟨h.bytes, h.length, h.used, h.size, h.count, h.short, h.small, h.limit, h.maxSize, h.same.1,
    h.same.2.1, h.same.2.2.1, h.same.2.2.2.1, rfl⟩

lemma dropOldest_bytes (s : HpackStore) : s.dropOldest.bytes = s.bytes := by
  unfold HpackStore.dropOldest
  rfl

lemma Packs.dropLast (h : Packs M d) (hpos : 0 < M.tab.count) :
    Packs { M with tab := M.tab.dropOldest } { d with tab := d.tab.dropLast } := by
  obtain ⟨rest, hbytes⟩ := h.bytes
  have hcount := h.count
  obtain ⟨l, e, hl⟩ : ∃ l e, d.tab = l ++ [e] := by
    have hne : d.tab ≠ [] := List.length_pos_iff.mp (by omega)
    exact ⟨d.tab.dropLast, d.tab.getLast hne, (List.dropLast_concat_getLast hne).symm⟩
  have hshort : Short e := h.short e (by rw [hl]; simp)
  have hpack : M.tab.bytes = packAll l ++ (packEntry e ++ rest) := by
    rw [hbytes, hl]
    simp [packAll]
  have hlast : M.tab.count - 1 = l.length := by
    rw [hcount, hl]
    simp
  have hoff : dynEntry M.tab.bytes (M.tab.count - 1) 0 = (packAll l).length := by
    have hwalk := dynEntry_walk l.length [] (l ++ [e]) rest (by simp) (hl ▸ h.short)
    rw [List.nil_append, ← hl, ← hbytes, List.nil_append, hl, List.take_left] at hwalk
    rw [hlast]
    exact hwalk
  have hn : be16 M.tab.bytes (dynEntry M.tab.bytes (M.tab.count - 1) 0) = e.name.length := by
    rw [hoff, hpack]
    exact be16_name hshort _ _
  have hv : be16 M.tab.bytes (dynEntry M.tab.bytes (M.tab.count - 1) 0 + 2) = e.value.length := by
    rw [hoff, hpack]
    exact be16_value hshort _ _
  have hsize := h.size
  have hused := h.used
  have hsmall := h.small
  have hmax := h.maxSize
  have hle := hpackTabUsed_le_size d.tab
  rw [hl] at hsize hused hsmall hle
  simp only [hpackTabSize, hpackTabUsed, List.map_append, List.sum_append, List.map_cons,
    List.map_nil, List.sum_cons, List.sum_nil] at hsize hused hsmall hle
  have hused' : M.tab.dropOldest.used = hpackTabUsed l := by
    simp only [HpackStore.dropOldest, hn, hv, hpackTabUsed]
    omega
  have hsize' : M.tab.dropOldest.size = hpackTabSize l := by
    simp only [HpackStore.dropOldest, hn, hv, hpackTabSize]
    omega
  rw [hl, List.dropLast_concat]
  refine ⟨⟨packEntry e ++ rest, (dropOldest_bytes _).trans hpack⟩, ?_, hused', hsize', hlast, ?_, ?_,
    h.limit, h.maxSize, h.same⟩
  · rw [dropOldest_bytes, h.length]
  · intro e' he'
    exact h.short e' (by rw [hl]; simp [he'])
  · change hpackTabSize l ≤ d.maxSize
    simp only [hpackTabSize]
    omega

lemma Packs.evictLoop (limit : ℕ) (h : Packs M d) : ∀ fuel,
    Packs { M with tab := HpackStore.evictLoop limit fuel M.tab }
      { d with tab := dynEvictLoop limit fuel d.tab } := by
  intro fuel
  induction fuel generalizing M d with
  | zero => exact h
  | succ _ ih =>
    have hcond : (decide (M.tab.count > 0) && decide (M.tab.size > limit)) =
        (decide (d.tab.length > 0) && decide (hpackTabSize d.tab > limit)) := by
      rw [h.count, h.size]
    unfold HpackStore.evictLoop dynEvictLoop
    rw [← hcond]
    split
    · next hc =>
      simp only [Bool.and_eq_true, decide_eq_true_eq] at hc
      exact ih (h.dropLast hc.1)
    · exact h

lemma Packs.evictTo (h : Packs M d) (limit : ℕ) :
    Packs (M.dynEvictTo limit) (d.dynEvictTo limit) := by
  have hloop := h.evictLoop limit M.tab.count
  nth_rewrite 2 [h.count] at hloop
  exact hloop

lemma Packs.resize (h : Packs M d) (hn : n ≤ d.maxSize) :
    Packs ({ M with sizeLimit := n }.dynEvictTo n) ({ d with sizeLimit := n }.dynEvictTo n) := by
  have hset : Packs { M with sizeLimit := n } { d with sizeLimit := n } :=
    ⟨h.bytes, h.length, h.used, h.size, h.count, h.short, h.small, hn, h.maxSize, h.same.1,
      h.same.2.1, rfl, h.same.2.2.2⟩
  exact hset.evictTo n

/-- The captures of a field in progress. -/
structure NameCap (n : HpackName) : Prop where
  length : n.name.length = min n.total hpackNameCap
  uncut : n.fflags.nameCut = false → n.total ≤ hpackNameCap

structure ValueCap (v : HpackValue) : Prop where
  nameLength : v.name.length = min v.nameTotal hpackNameCap
  nameUncut : v.fflags.nameCut = false → v.nameTotal ≤ hpackNameCap
  length : v.value.length = min v.total hpackValueCap
  uncut : v.fflags.valueCut = false → v.total ≤ hpackValueCap

lemma length_le_tabSize (l : List HpackEntry) : 32 * l.length ≤ hpackTabSize l := by
  induction l with
  | nil => exact Nat.le_refl _
  | cons =>
    rw [hpackTabSize_cons, List.length_cons, HpackEntry.rfcSize]
    omega

lemma insert_bytes {tab : Bytes} {l : List HpackEntry} (e : HpackEntry)
    (hfits : (packAll l).length + (packEntry e).length ≤ tab.length) :
    writeAt (writeAt (writeAt (writeAt tab (packEntry e).length (packAll l)) 0
        [UInt8.ofNat (e.name.length >>> 8), UInt8.ofNat e.name.length,
          UInt8.ofNat (e.value.length >>> 8), UInt8.ofNat e.value.length]) 4 e.name)
        (4 + e.name.length) e.value =
      packAll (e :: l) ++ tab.drop ((packEntry e).length + (packAll l).length) := by
  have hlen := packEntry_length e
  obtain ⟨X, hX⟩ : ∃ X, tab.take (packEntry e).length = X := ⟨_, rfl⟩
  have hXlen : X.length = 4 + e.name.length + e.value.length := by
    rw [← hX, List.length_take]
    omega
  obtain ⟨Y, hY⟩ : ∃ Y, packAll l ++ tab.drop ((packEntry e).length + (packAll l).length) = Y :=
    ⟨_, rfl⟩
  obtain ⟨hdr, hhdr⟩ : ∃ hdr : Bytes, [UInt8.ofNat (e.name.length >>> 8),
      UInt8.ofNat e.name.length, UInt8.ofNat (e.value.length >>> 8),
      UInt8.ofNat e.value.length] = hdr := ⟨_, rfl⟩
  have hh : hdr.length = 4 := by rw [← hhdr]; rfl
  have h1 : writeAt tab (packEntry e).length (packAll l) = [] ++ (X ++ Y) := by
    rw [writeAt, hX, List.append_assoc, hY]
    rfl
  have h2 : writeAt ([] ++ (X ++ Y)) 0 hdr = hdr ++ (X.drop 4 ++ Y) := by
    have hw := writeAt_append [] X Y hdr (by omega)
    rw [hh] at hw
    exact hw
  have h3 : writeAt (hdr ++ (X.drop 4 ++ Y)) 4 e.name =
      (hdr ++ e.name) ++ (X.drop (4 + e.name.length) ++ Y) := by
    have hw := writeAt_append hdr (X.drop 4) Y e.name (by rw [List.length_drop]; omega)
    rw [hh, List.drop_drop] at hw
    exact hw
  have h4 : writeAt ((hdr ++ e.name) ++ (X.drop (4 + e.name.length) ++ Y)) (4 + e.name.length)
      e.value = (hdr ++ e.name ++ e.value) ++ Y := by
    have hw := writeAt_append (hdr ++ e.name) (X.drop (4 + e.name.length)) Y e.value
      (by rw [List.length_drop]; omega)
    have hnil : X.drop (4 + e.name.length + e.value.length) = [] :=
      List.drop_of_length_le (Nat.le_of_eq hXlen)
    rw [List.length_append, hh, List.drop_drop, hnil, List.nil_append] at hw
    exact hw
  rw [hhdr, h1, h2, h3, h4, packAll_cons, List.append_assoc (packEntry e), hY, packEntry, hhdr]

lemma Packs.push (h : Packs M d) {v : HpackValue} (hn : v.name.length = v.nameTotal)
    (hm : v.value.length = v.total) (hshort : Short ⟨v.name, v.value⟩)
    (hroom : ¬ hpackTabUsed d.tab + (4 + v.nameTotal + v.total) > d.tabCap)
    (hsize : hpackTabSize d.tab + (32 + v.nameTotal + v.total) ≤ d.sizeLimit) :
    Packs { M with tab := M.tab.push v } { d with tab := ⟨v.name, v.value⟩ :: d.tab } := by
  obtain ⟨rest, hbytes⟩ := h.bytes
  obtain ⟨e, he⟩ : ∃ e : HpackEntry, e = ⟨v.name, v.value⟩ := ⟨_, rfl⟩
  have hname : v.name = e.name := by rw [he]
  have hvalue : v.value = e.value := by rw [he]
  have hlen := packEntry_length e
  have htake : M.tab.bytes.take (hpackTabUsed d.tab) = packAll d.tab := by
    rw [hbytes, ← packAll_length, List.take_left]
  have hcap : M.tab.bytes.length = d.tabCap := h.length.trans h.same.1
  have hused : hpackTabUsed (e :: d.tab) = 4 + e.name.length + e.value.length + hpackTabUsed d.tab :=
    rfl
  have hrfc : e.rfcSize = e.name.length + e.value.length + 32 := rfl
  have hcount := length_le_tabSize d.tab
  have hmax := h.maxSize
  have hlimit := h.limit
  have hle := hpackTabUsed_le_size d.tab
  rw [← hn, ← hm, hname, hvalue] at hroom hsize
  have hins : _ = packAll (e :: d.tab) ++ M.tab.bytes.drop _ :=
    insert_bytes e (by rw [packAll_length]; omega)
  rw [hlen] at hins
  unfold HpackStore.push
  rw [h.used, htake, ← he, ← hn, ← hm, hname, hvalue]
  dsimp only
  rw [List.take_of_length_le (Nat.le_refl _), List.take_of_length_le (Nat.le_refl _), hins]
  refine ⟨⟨_, rfl⟩, ?_, ?_, ?_, ?_, ?_, ?_, h.limit, h.maxSize, h.same⟩
  · change (packAll (e :: d.tab) ++ _).length = M.tabCap
    rw [List.length_append, packAll_length, hused, List.length_drop, packAll_length, h.same.1]
    omega
  · change (hpackTabUsed d.tab + (4 + e.name.length + e.value.length)) % 2 ^ 32 =
      hpackTabUsed (e :: d.tab)
    rw [hused]
    omega
  · change (M.tab.size + (32 + e.name.length + e.value.length)) % 2 ^ 32 = hpackTabSize (e :: d.tab)
    rw [hpackTabSize_cons, hrfc, h.size]
    omega
  · change (M.tab.count + 1) % 2 ^ 16 = (e :: d.tab).length
    rw [h.count, List.length_cons]
    omega
  · intro e' he'
    rcases List.mem_cons.mp he' with rfl | hmem
    · exact he ▸ hshort
    · exact h.short e' hmem
  · change hpackTabSize (e :: d.tab) ≤ d.maxSize
    rw [hpackTabSize_cons, hrfc]
    omega

lemma Packs.insert (h : Packs M d) {v : HpackValue}
    (hv : ValueCap v) : (M.dynInsert v).2 = (d.dynInsert v).2 ∧
      ((d.dynInsert v).2 = .ok → Packs (M.dynInsert v).1 (d.dynInsert v).1) := by
  unfold HpackDec.dynInsert
  dsimp only
  rw [h.same.2.2.1]
  by_cases hbig : 32 + v.nameTotal + v.total > d.sizeLimit
  · rw [if_pos hbig, if_pos hbig]
    exact ⟨rfl, fun _ => h.evictTo 0⟩
  · rw [if_neg hbig, if_neg hbig]
    by_cases hcut : (v.fflags.nameCut || v.fflags.valueCut) = true
    · rw [if_pos hcut, if_pos hcut]
      exact ⟨rfl, nofun⟩
    · rw [if_neg hcut, if_neg hcut]
      have hev := h.evictTo (d.sizeLimit - (32 + v.nameTotal + v.total))
      have hkeep := rfcKeep_size (d.sizeLimit - (32 + v.nameTotal + v.total)) d.tab
      have htab : (d.dynEvictTo (d.sizeLimit - (32 + v.nameTotal + v.total))).tab =
          rfcKeep (d.sizeLimit - (32 + v.nameTotal + v.total)) d.tab := by rw [dynEvictTo_eq]
      rw [← htab] at hkeep
      have hlim : (d.dynEvictTo (d.sizeLimit - (32 + v.nameTotal + v.total))).sizeLimit =
          d.sizeLimit := rfl
      generalize d.dynEvictTo (d.sizeLimit - (32 + v.nameTotal + v.total)) = d₁ at *
      generalize M.dynEvictTo (d.sizeLimit - (32 + v.nameTotal + v.total)) = M₁ at *
      have hcap := hev.same.1
      have hused : HpackTable.used M₁.tab = hpackTabUsed d₁.tab := hev.used
      have hlist : HpackTable.used d₁.tab = hpackTabUsed d₁.tab := rfl
      rw [hused, hlist]
      by_cases hroom : hpackTabUsed d₁.tab + (4 + v.nameTotal + v.total) > d₁.tabCap
      · rw [if_pos (by omega), if_pos hroom]
        exact ⟨rfl, nofun⟩
      · rw [if_neg (by omega), if_neg hroom]
        refine ⟨rfl, fun _ => ?_⟩
        rw [Bool.not_eq_true, Bool.or_eq_false_iff] at hcut
        have hname := hv.nameLength
        have hvalue := hv.length
        rw [Nat.min_eq_left (hv.nameUncut hcut.1)] at hname
        rw [Nat.min_eq_left (hv.uncut hcut.2)] at hvalue
        have hshort : Short ⟨v.name, v.value⟩ :=
          ⟨Nat.le_trans (Nat.le_of_eq hname) (hv.nameUncut hcut.1),
            Nat.le_trans (Nat.le_of_eq hvalue) (hv.uncut hcut.2)⟩
        exact hev.push hname hvalue hshort hroom (by omega)

def packStatic (e : HpackEntry) : Bytes :=
  UInt8.ofNat e.name.length :: e.name ++ UInt8.ofNat e.value.length :: e.value

lemma kStatic_packed : kStatic = hpackStatic.flatMap packStatic ∧
    ∀ e ∈ hpackStatic, e.name.length < 256 ∧ e.value.length < 256 := by
  decide +kernel

lemma packStatic_name (h : e.name.length < 256) (A rest : Bytes) :
    ((A ++ (packStatic e ++ rest)).getD A.length 0).toNat = e.name.length := by
  have h0 := getD_append_add A (packStatic e ++ rest) 0
  rw [Nat.add_zero] at h0
  rw [h0]
  simp only [packStatic, List.cons_append, List.getD_cons_zero, UInt8.toNat_ofNat']
  omega

lemma packStatic_value (h : e.value.length < 256) (A rest : Bytes) :
    ((A ++ (packStatic e ++ rest)).getD (A.length + 1 + e.name.length) 0).toNat =
      e.value.length := by
  have hsplit : A ++ (packStatic e ++ rest) = (A ++ UInt8.ofNat e.name.length :: e.name) ++
      (UInt8.ofNat e.value.length :: (e.value ++ rest)) := by
    simp [packStatic]
  have hlen : A.length + 1 + e.name.length =
      (A ++ UInt8.ofNat e.name.length :: e.name).length + 0 := by
    simp only [List.length_append, List.length_cons]
    omega
  rw [hsplit, hlen, getD_append_add, List.getD_cons_zero, UInt8.toNat_ofNat']
  omega

lemma packStatic_length (e : HpackEntry) :
    (packStatic e).length = 2 + e.name.length + e.value.length := by
  simp only [packStatic, List.length_append, List.length_cons]
  omega

lemma staticWalk_eq : ∀ (i : ℕ) (A : Bytes) (l : List HpackEntry), i ≤ l.length →
    (∀ e ∈ l, e.name.length < 256 ∧ e.value.length < 256) → kStatic = A ++ l.flatMap packStatic →
    staticWalk i A.length = (A ++ (l.take i).flatMap packStatic).length := by
  intro i
  induction i with
  | zero =>
    intro A l _ _ _
    simp [staticWalk]
  | succ i ih =>
    intro A l hi hshort hbytes
    cases l with
    | nil => cases hi
    | cons e l =>
      obtain ⟨hn, hv⟩ := hshort e (by simp)
      rw [List.flatMap_cons] at hbytes
      have hname := packStatic_name hn A (l.flatMap packStatic)
      have hvalue := packStatic_value hv A (l.flatMap packStatic)
      rw [← hbytes] at hname hvalue
      have hnext : A.length + 1 + e.name.length + 1 + e.value.length = (A ++ packStatic e).length := by
        rw [List.length_append, packStatic_length]
        omega
      rw [staticWalk, hname, hvalue, hnext, ih (A ++ packStatic e) l (by simpa using hi)
        (fun e' h' => hshort e' (by simp [h'])) (by rw [hbytes, List.append_assoc])]
      simp

lemma eq_take_append {α : Type} {l : List α} {j : ℕ} {e : α} (h : l[j]? = some e) :
    l = l.take j ++ e :: l.drop (j + 1) := by
  obtain ⟨hlt, rfl⟩ := List.getElem?_eq_some_iff.mp h
  rw [List.getElem_cons_drop, List.take_append_drop]

lemma static_lookup {idx : ℕ} (hpos : idx ≠ 0) (hle : idx ≤ hpackStaticLen) :
    some (⟨bytesAt kStatic (staticEntry idx + 1) (kStatic.getD (staticEntry idx) 0).toNat,
      bytesAt kStatic (staticEntry idx + 2 + (kStatic.getD (staticEntry idx) 0).toNat)
        (kStatic.getD (staticEntry idx + 1 + (kStatic.getD (staticEntry idx) 0).toNat) 0).toNat⟩ :
        HpackEntry) = hpackStatic[idx - 1]? := by
  have hlen : hpackStatic.length = hpackStaticLen := rfl
  obtain ⟨e, he⟩ : ∃ e, hpackStatic[idx - 1]? = some e :=
    ⟨_, List.getElem?_eq_getElem (by omega)⟩
  obtain ⟨A, hA⟩ : ∃ A, (hpackStatic.take (idx - 1)).flatMap packStatic = A := ⟨_, rfl⟩
  obtain ⟨rest, hrest⟩ : ∃ rest, (hpackStatic.drop (idx - 1 + 1)).flatMap packStatic = rest :=
    ⟨_, rfl⟩
  have hbytes : kStatic = A ++ (packStatic e ++ rest) := by
    rw [kStatic_packed.1, eq_take_append he, List.flatMap_append, List.flatMap_cons, hA, hrest]
  have hoff : staticEntry idx = A.length := by
    have hwalk := staticWalk_eq (idx - 1) [] hpackStatic (by omega) kStatic_packed.2
      (by rw [kStatic_packed.1]; rfl)
    rw [List.nil_append, hA] at hwalk
    exact hwalk
  have hmem : e ∈ hpackStatic := List.mem_of_getElem? he
  obtain ⟨hn, hv⟩ := kStatic_packed.2 e hmem
  have hname := packStatic_name hn A rest
  have hvalue := packStatic_value hv A rest
  rw [← hbytes] at hname hvalue
  rw [he, hoff, hname, hvalue]
  have hn' : bytesAt kStatic (A.length + 1) e.name.length = e.name := by
    refine bytesAt_eq (A ++ [UInt8.ofNat e.name.length])
      (UInt8.ofNat e.value.length :: (e.value ++ rest)) ?_ ?_
    · rw [hbytes]
      simp [packStatic]
    · simp
  have hv' : bytesAt kStatic (A.length + 2 + e.name.length) e.value.length = e.value := by
    refine bytesAt_eq (A ++ UInt8.ofNat e.name.length :: e.name ++ [UInt8.ofNat e.value.length])
      rest ?_ ?_
    · rw [hbytes]
      simp [packStatic]
    · simp only [List.length_append, List.length_cons, List.length_nil]
      omega
  rw [hn', hv']

lemma Packs.entry (h : Packs M d) (idx : ℕ) : HpackTable.entry? M.tab idx = HpackTable.entry? d.tab idx := by
  change HpackStore.entry? M.tab idx = if idx = 0 then none else
    if idx ≤ hpackStaticLen then hpackStatic[idx - 1]? else d.tab[idx - hpackStaticLen - 1]?
  unfold HpackStore.entry?
  split
  · rfl
  · next hpos =>
    split
    · next hle => exact static_lookup hpos hle
    · dsimp only
      rw [h.count]
      generalize idx - hpackStaticLen - 1 = j
      by_cases hj : j ≥ d.tab.length
      · rw [if_pos hj, List.getElem?_eq_none hj]
      · rw [if_neg hj]
        obtain ⟨rest, hbytes⟩ := h.bytes
        obtain ⟨e, he⟩ : ∃ e, d.tab[j]? = some e := ⟨_, List.getElem?_eq_getElem (by omega)⟩
        have hshort := h.short e (List.mem_of_getElem? he)
        obtain ⟨A, hA⟩ : ∃ A, packAll (d.tab.take j) = A := ⟨_, rfl⟩
        have hsplit : M.tab.bytes = A ++ (packEntry e ++ (packAll (d.tab.drop (j + 1)) ++ rest)) := by
          rw [hbytes, ← hA]
          conv_lhs => rw [eq_take_append he]
          simp [packAll]
        have hoff : dynEntry M.tab.bytes j 0 = A.length := by
          have hwalk := dynEntry_walk j [] d.tab rest (by omega) h.short
          rw [List.nil_append, List.nil_append, ← hbytes, hA] at hwalk
          exact hwalk
        have hn : be16 M.tab.bytes A.length = e.name.length := hsplit ▸ be16_name hshort A _
        have hv : be16 M.tab.bytes (A.length + 2) = e.value.length := hsplit ▸ be16_value hshort A _
        have hn' : bytesAt M.tab.bytes (A.length + 4) e.name.length = e.name := by
          refine bytesAt_eq (A ++ (packEntry e).take 4)
            (e.value ++ (packAll (d.tab.drop (j + 1)) ++ rest)) ?_ ?_
          · rw [hsplit]
            simp [packEntry]
          · simp only [List.length_append, List.length_take, packEntry_length]
            omega
        have hv' : bytesAt M.tab.bytes (A.length + 4 + e.name.length) e.value.length = e.value := by
          refine bytesAt_eq (A ++ (packEntry e).take 4 ++ e.name)
            (packAll (d.tab.drop (j + 1)) ++ rest) ?_ ?_
          · rw [hsplit]
            simp [packEntry]
          · simp only [List.length_append, List.length_take, packEntry_length]
            omega
        rw [hoff, hn, hv, hn', hv', he]

end TinyLink.Proofs
