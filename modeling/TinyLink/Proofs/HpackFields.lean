import TinyLink.HpackReference
import Mathlib.Data.List.Induction
import Mathlib.Tactic.SplitIfs

/-!
# Fields and tables of the HPACK decoder

What `put_char` has captured of a name and a value once both are complete, and the dynamic table of
the decoder against that of RFC 7541.
-/

namespace TinyLink.Proofs

variable {d : HpackListDec} {t : RfcTable} {m n : ℕ}
    (rep : HpackRep) (never : Bool) (name xs : Bytes) (c : UInt8)

lemma plainName_append_singleton : plainName (xs ++ [c]) =
      if xs = [] then (if c = 0x3a then [] else [c]) else plainName xs ++ [c] := by
  cases xs with
  | nil =>
    by_cases hc : c = 0x3a
    · simp [plainName, hc]
    · simp [plainName, hc]
  | cons =>
    simp only [plainName, List.cons_append, List.head?_cons, Option.some.injEq, List.tail_cons,
      reduceCtorEq, if_false]
    split_ifs <;> rfl

def litOf (rep : HpackRep) (never : Bool) : HpackLit :=
  ⟨rep, { HpackFlags.none with neverIndex := never }⟩

def badNameChar (c : UInt8) : Bool := !isUpper c && !nameCharOk c

def namePut (rep : HpackRep) (never : Bool) (name : Bytes) : HpackName :=
  { rep := rep
    fflags :=
      { nameCut := hpackNameCap < name.length
        valueCut := false
        nameBad := (plainName name).any badNameChar
        nameUpper := name.any isUpper
        valueBad := false
        neverIndex := never }
    total := name.length
    name := name.take hpackNameCap }

lemma take_append_singleton (n : ℕ) (xs : Bytes) (c : UInt8) :
    (xs ++ [c]).take n = if xs.length < n then xs.take n ++ [c] else xs.take n := by
  by_cases h : xs.length < n
  · rw [if_pos h, List.take_append, List.take_of_length_le (by simp; omega : [c].length ≤ n - xs.length)]
  · rw [if_neg h, List.take_append_of_le_length (by omega)]

lemma namePut_putChar : (namePut rep never xs).putChar c = namePut rep never (xs ++ [c]) := by
  have htake := take_append_singleton hpackNameCap xs c
  have hlen : (xs.take hpackNameCap).length < hpackNameCap ↔ xs.length < hpackNameCap := by
    rw [List.length_take]
    omega
  have hcut : (hpackNameCap < xs.length + 1) ↔ ¬ xs.length < hpackNameCap := by omega
  have hbad : (plainName (xs ++ [c])).any badNameChar =
      ((plainName xs).any badNameChar || !(decide (xs.length = 0) && c = 0x3a) && badNameChar c) := by
    rw [plainName_append_singleton]
    by_cases hnil : xs = []
    · by_cases hc : c = 0x3a
      · simp [hnil, hc, plainName]
      · simp [hnil, hc, plainName]
    · simp [hnil]
  have hup : (decide (0x41 ≤ c) && decide (c ≤ 0x5a)) = isUpper c := rfl
  unfold namePut HpackName.putChar
  simp only [hlen, htake, List.length_append, List.length_singleton, hcut, List.any_append,
    List.any_cons, List.any_nil, Bool.or_false, hbad, hup, badNameChar]
  rcases Nat.lt_or_ge xs.length hpackNameCap with hcap | hcap
  · have hle := Nat.le_of_lt hcap
    cases hu : isUpper c with
    | true => simp [hcap, hle]
    | false =>
      cases hc : (decide (xs.length = 0) && decide (c = 0x3a)) with
      | true => simp [hcap, hle]
      | false => cases hok : nameCharOk c <;> simp [hcap, hle]
  · have hnot := Nat.not_lt.mpr hcap
    cases hu : isUpper c with
    | true => simp [hnot]
    | false =>
      cases hc : (decide (xs.length = 0) && decide (c = 0x3a)) with
      | true => simp [hnot]
      | false => cases hok : nameCharOk c <;> simp [hnot]

lemma foldl_putChar_name :
    name.foldl HpackName.putChar (litOf rep never).beginName = namePut rep never name := by
  induction name using List.reverseRecOn with
  | nil => rfl
  | append_singleton xs c ih =>
    rw [List.foldl_append, ih]
    exact namePut_putChar rep never xs c

def valuePut (rep : HpackRep) (never : Bool) (name value : Bytes) : HpackValue :=
  { rep := rep
    fflags :=
      { nameCut := hpackNameCap < name.length
        valueCut := hpackValueCap < value.length
        nameBad := (plainName name).isEmpty || (plainName name).any badNameChar
        nameUpper := name.any isUpper
        valueBad := value.any (!valueCharOk ·) || value.head?.any isBlank
        neverIndex := never }
    nameTotal := name.length
    name := name.take hpackNameCap
    total := value.length
    value := value.take hpackValueCap
    lastVbyte := value.getLast?.getD 0 }

lemma namePut_beginValue : (namePut rep never name).beginValue = valuePut rep never name [] := by
  have hbad : (decide (name.length = 0) ||
      (decide (name.length = 1) && decide ((name.take hpackNameCap).head? = some 0x3a))) =
      (plainName name).isEmpty := by
    cases name with
    | nil => rfl
    | cons c cs =>
      cases cs with
      | nil =>
        by_cases hc : c = 0x3a
        · simp [plainName, hc, hpackNameCap]
        · simp [plainName, hc, hpackNameCap]
      | cons =>
        simp only [plainName, List.length_cons]
        split_ifs <;> simp
  unfold namePut HpackName.beginValue valuePut
  simp only [hbad]
  cases (plainName name).isEmpty <;> simp

lemma valuePut_putChar :
    (valuePut rep never name xs).putChar c = valuePut rep never name (xs ++ [c]) := by
  have htake := take_append_singleton hpackValueCap xs c
  have hlen : (xs.take hpackValueCap).length < hpackValueCap ↔ xs.length < hpackValueCap := by
    rw [List.length_take]
    omega
  have hcut : (hpackValueCap < xs.length + 1) ↔ ¬ xs.length < hpackValueCap := by omega
  have hhead : (xs ++ [c]).head?.any isBlank =
      (xs.head?.any isBlank || (decide (xs.length = 0) && isBlank c)) := by
    cases xs <;> simp
  have hblank : (decide (c = 0x20) || decide (c = 0x09)) = isBlank c := rfl
  unfold valuePut HpackValue.putChar
  simp only [hlen, htake, List.length_append, List.length_singleton, hcut, List.any_append,
    List.any_cons, List.any_nil, Bool.or_false, hhead, hblank, List.getLast?_append,
    List.getLast?_singleton, Option.some_or, Option.getD_some]
  rcases Nat.lt_or_ge xs.length hpackValueCap with hcap | hcap
  · have hle := Nat.le_of_lt hcap
    cases hok : valueCharOk c with
    | false => simp [hcap, hle]
    | true =>
      cases hc : (decide (xs.length = 0) && isBlank c) <;> simp [hcap, hle]
  · have hnot := Nat.not_lt.mpr hcap
    cases hok : valueCharOk c with
    | false => simp [hnot]
    | true =>
      cases hc : (decide (xs.length = 0) && isBlank c) <;> simp [hnot]

lemma foldl_putChar_value (value : Bytes) :
    value.foldl HpackValue.putChar (valuePut rep never name []) = valuePut rep never name value := by
  induction value using List.reverseRecOn with
  | nil => rfl
  | append_singleton xs c ih =>
    rw [List.foldl_append, ih]
    exact valuePut_putChar rep never name xs c

@[simp] lemma hpackTabSize_nil : hpackTabSize [] = 0 := rfl

@[simp] lemma hpackTabSize_cons (e : HpackEntry) (l : List HpackEntry) :
    hpackTabSize (e :: l) = e.rfcSize + hpackTabSize l := by
  simp only [hpackTabSize, HpackEntry.rfcSize, List.map_cons, List.sum_cons]
  omega

lemma hpackTabUsed_le_size (l : List HpackEntry) : hpackTabUsed l ≤ hpackTabSize l := by
  induction l with
  | nil => exact Nat.le_refl _
  | cons e l ih =>
    simp only [hpackTabUsed, hpackTabSize, List.map_cons, List.sum_cons] at ih ⊢
    omega

lemma rfcKeep_of_le {l : List HpackEntry} (h : hpackTabSize l ≤ n) : rfcKeep n l = l := by
  induction l generalizing n with
  | nil => rfl
  | cons e l ih =>
    rw [hpackTabSize_cons] at h
    rw [rfcKeep, if_pos (by omega), ih (by omega)]

lemma rfcKeep_dropLast {l : List HpackEntry} (h : n < hpackTabSize l) :
    rfcKeep n l = rfcKeep n l.dropLast := by
  induction l generalizing n with
  | nil => rfl
  | cons e l ih =>
    rw [hpackTabSize_cons] at h
    cases l with
    | nil => rw [rfcKeep, if_neg (by simpa using h)]; rfl
    | cons e' l =>
      change (if e.rfcSize ≤ n then e :: rfcKeep (n - e.rfcSize) (e' :: l) else []) =
        if e.rfcSize ≤ n then e :: rfcKeep (n - e.rfcSize) (e' :: l).dropLast else []
      split
      · rw [ih (by omega)]
      · rfl

lemma rfcKeep_size (n : ℕ) (l : List HpackEntry) : hpackTabSize (rfcKeep n l) ≤ n := by
  induction l generalizing n with
  | nil => exact Nat.zero_le n
  | cons e l ih =>
    rw [rfcKeep]
    split
    · have hrest := ih (n - e.rfcSize)
      rw [hpackTabSize_cons]
      omega
    · exact Nat.zero_le n

lemma dynEvictLoop_eq (limit : ℕ) : ∀ (fuel : ℕ) (l : List HpackEntry), l.length ≤ fuel →
    dynEvictLoop limit fuel l = rfcKeep limit l := by
  intro fuel
  induction fuel with
  | zero =>
    intro l hl
    obtain rfl := List.eq_nil_of_length_eq_zero (Nat.le_zero.mp hl)
    rfl
  | succ _ ih =>
    intro l hl
    rw [dynEvictLoop]
    split
    · next hc =>
      simp only [gt_iff_lt, Bool.and_eq_true, decide_eq_true_eq] at hc
      rw [ih _ (by rw [List.length_dropLast]; omega), ← rfcKeep_dropLast hc.2]
    · next hc =>
      simp only [gt_iff_lt, Bool.and_eq_true, decide_eq_true_eq, not_and, Nat.not_lt] at hc
      cases l with
      | nil => rfl
      | cons => exact (rfcKeep_of_le (hc (by simp))).symm

lemma dynEvictTo_eq (d : HpackListDec) (limit : ℕ) :
    d.dynEvictTo limit = { d with tab := rfcKeep limit d.tab } := by
  exact congrArg (fun tab => { d with tab := tab }) (dynEvictLoop_eq limit _ _ (Nat.le_refl _))

lemma rfcKeep_zero (l : List HpackEntry) : rfcKeep 0 l = [] := by
  cases l with
  | nil => rfl
  | cons => exact if_neg (by simp [HpackEntry.rfcSize])

/-- The decoder holds the table `t`, within the limits it was set up with. -/
structure Holds (maxSize : ℕ) (d : HpackListDec) (t : RfcTable) : Prop where
  tab : d.tab = t.entries
  limit : d.sizeLimit = t.limit
  maxSize : d.maxSize = maxSize
  size : hpackTabSize d.tab ≤ d.sizeLimit
  le : d.sizeLimit ≤ d.maxSize
  cap : d.maxSize ≤ d.tabCap

lemma Holds.withSt (h : Holds m d t) (st : HpackSt)
    (start : Bool) : Holds m { d with st := st, blockStart := start } t :=
  ⟨h.tab, h.limit, h.maxSize, h.size, h.le, h.cap⟩

lemma Holds.resize (h : Holds m d t) (hn : n ≤ m) :
    Holds m ({ d with sizeLimit := n }.dynEvictTo n) (t.resize n) := by
  rw [dynEvictTo_eq]
  refine ⟨?_, rfl, h.maxSize, rfcKeep_size n d.tab, ?_, h.cap⟩
  · change rfcKeep n d.tab = rfcKeep n t.entries
    rw [h.tab]
  · change n ≤ d.maxSize
    rw [h.maxSize]
    exact hn

def Overlong (t : RfcTable) (e : HpackEntry) : Prop :=
  e.rfcSize ≤ t.limit ∧ (hpackNameCap < e.name.length ∨ hpackValueCap < e.value.length)

lemma dynInsert_holds (h : Holds m d t) {v : HpackValue}
    {e : HpackEntry} (hname : v.name = e.name.take hpackNameCap) (hnt : v.nameTotal = e.name.length)
    (hvalue : v.value = e.value.take hpackValueCap) (hvt : v.total = e.value.length)
    (hncut : v.fflags.nameCut = decide (hpackNameCap < e.name.length))
    (hvcut : v.fflags.valueCut = decide (hpackValueCap < e.value.length)) :
    (Overlong t e ∧ (d.dynInsert v).2 ≠ .ok) ∨
      (d.dynInsert v = ({ d with tab := (t.insert e).entries }, .ok) ∧
        Holds m { d with tab := (t.insert e).entries } (t.insert e)) := by
  have hsize : 32 + v.nameTotal + v.total = e.rfcSize := by
    rw [hnt, hvt, HpackEntry.rfcSize]
    omega
  have hlimit := h.limit
  unfold HpackDec.dynInsert
  rw [hsize]
  by_cases hbig : e.rfcSize > d.sizeLimit
  · have hins : t.insert e = ⟨[], t.limit⟩ := by rw [RfcTable.insert, if_neg (by omega)]
    rw [if_pos hbig, hins, dynEvictTo_eq, rfcKeep_zero]
    exact .inr ⟨rfl, rfl, h.limit, h.maxSize, Nat.zero_le _, h.le, h.cap⟩
  · have hfits : e.rfcSize ≤ t.limit := by omega
    rw [if_neg hbig, hncut, hvcut]
    by_cases hcut : hpackNameCap < e.name.length ∨ hpackValueCap < e.value.length
    · rw [if_pos (by simpa using hcut)]
      exact .inl ⟨⟨hfits, hcut⟩, nofun⟩
    · rw [if_neg (by simpa using hcut)]
      right
      have hins : t.insert e = ⟨e :: rfcKeep (d.sizeLimit - e.rfcSize) d.tab, t.limit⟩ := by
        rw [RfcTable.insert, if_pos hfits, h.tab, hlimit]
      have hkeep := rfcKeep_size (d.sizeLimit - e.rfcSize) d.tab
      have hused := hpackTabUsed_le_size (rfcKeep (d.sizeLimit - e.rfcSize) d.tab)
      have hle := Nat.le_trans h.le h.cap
      have hentry : (⟨v.name, v.value⟩ : HpackEntry) = e := by
        rw [hname, hvalue, List.take_of_length_le (by omega), List.take_of_length_le (by omega)]
      have hpush : HpackTable.push (rfcKeep (d.sizeLimit - e.rfcSize) d.tab) v =
          e :: rfcKeep (d.sizeLimit - e.rfcSize) d.tab := congrArg (· :: _) hentry
      rw [dynEvictTo_eq, if_neg (by dsimp only [HpackTable.used]; omega), hins, hpush]
      refine ⟨rfl, rfl, h.limit, h.maxSize, ?_, h.le, h.cap⟩
      change hpackTabSize (e :: _) ≤ d.sizeLimit
      rw [hpackTabSize_cons]
      omega

section Emit
variable {σ : Type} {fn : σ → HpackField → σ × Bool}

/-- What the callback has made of the fields reported so far. -/
def reports (fn : σ → HpackField → σ × Bool) (ctx : σ) (fs : List RfcField) : σ :=
  fs.foldl (fun ctx f => (fn ctx f.report).1) ctx

/-- No field was reported, and the block is in error or breaks off inside a field. -/
def Stuck (d : HpackListDec) (ctx : σ) (r : HpackListRes σ) : Prop :=
  r.ctx = ctx ∧ (r.rc = .ok → r.dec.st ≠ .first ∧ r.dec.tab = d.tab ∧ r.dec.sizeLimit = d.sizeLimit)

lemma Stuck.of_rc {ctx : σ} {r : HpackListRes σ} (hctx : r.ctx = ctx)
    (hrc : r.rc ≠ .ok) : Stuck d ctx r := ⟨hctx, fun h => absurd h hrc⟩

lemma valuePut_trailing (value : Bytes) : (decide ((valuePut rep never name value).total > 0) &&
      (decide ((valuePut rep never name value).lastVbyte = 0x20) ||
        decide ((valuePut rep never name value).lastVbyte = 0x09))) =
      value.getLast?.any isBlank := by
  cases h : value.getLast? with
  | none =>
    obtain rfl := List.getLast?_eq_none_iff.mp h
    rfl
  | some =>
    have hpos : 0 < value.length := by
      cases value with
      | nil => cases h
      | cons => simp
    simp [valuePut, h, hpos, isBlank]

lemma emit_reports (hfn : ∀ ctx f, (fn ctx f).2 = true)
    (h : Holds m d t) (ctx : σ) (rep : HpackRep) (never : Bool) (name value : Bytes) :
    (rep = .incr ∧ Overlong t ⟨name, value⟩ ∧
        (d.emit fn ctx (valuePut rep never name value)).ctx = ctx ∧
        (d.emit fn ctx (valuePut rep never name value)).rc ≠ .ok) ∨
      ∃ d', d.emit fn ctx (valuePut rep never name value) =
          ⟨d', reports fn ctx [⟨name, value, never⟩], .ok⟩ ∧
        d'.st = .first ∧ d'.blockStart = d.blockStart ∧
        Holds m d' (if rep = .incr then t.insert ⟨name, value⟩ else t) := by
  have hflags : (if value.getLast?.any isBlank then
      { (valuePut rep never name value).fflags with valueBad := true }
      else (valuePut rep never name value).fflags) = (RfcField.report ⟨name, value, never⟩).flags := by
    have hbad : badNameChar = fun c => !isUpper c && !nameCharOk c := rfl
    simp only [RfcField.report, valuePut, hbad]
    cases value.getLast?.any isBlank <;> simp
  unfold HpackDec.emit
  simp only [valuePut_trailing, hflags]
  by_cases hrep : rep = .incr
  · subst hrep
    have hins := dynInsert_holds (e := ⟨name, value⟩) h
      (v := { valuePut .incr never name value with
        fflags := (RfcField.report ⟨name, value, never⟩).flags }) rfl rfl rfl rfl rfl rfl
    rw [if_pos (show (valuePut .incr never name value).rep = .incr from rfl)]
    rcases hins with ⟨hover, hne⟩ | ⟨heq, hholds⟩
    · rw [if_pos hne]
      exact .inl ⟨rfl, hover, rfl, hne⟩
    · rw [heq, if_neg (by simp)]
      right
      simp only [hfn, if_true]
      exact ⟨_, rfl, rfl, rfl, hholds.withSt .first d.blockStart⟩
  · rw [if_neg (show ¬ (valuePut rep never name value).rep = .incr from hrep), if_neg (by simp),
      if_neg hrep]
    right
    simp only [hfn, if_true]
    exact ⟨_, rfl, rfl, rfl, h.withSt .first d.blockStart⟩

end Emit

end TinyLink.Proofs
