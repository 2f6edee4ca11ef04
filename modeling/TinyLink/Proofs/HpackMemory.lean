import TinyLink.Proofs.HpackPacked

/-!
# The decoder in memory and the list decoder

They return the same code, call back with the same fields, and the memory packs the list.
-/

namespace TinyLink.Proofs

variable {what : HpackIntFor} {n : HpackName} {s : HpackStr} {v : HpackValue}

lemma NameCap.putChar (h : NameCap n) (c : UInt8) : NameCap (n.putChar c) := by
  have hlen := h.length
  unfold HpackName.putChar
  dsimp only
  by_cases hcap : n.name.length < hpackNameCap
  · rw [if_pos hcap]
    have htotal : n.total < hpackNameCap := by omega
    split_ifs
    all_goals
      refine ⟨?_, fun _ => htotal⟩
      simp only [List.length_append, List.length_singleton]
      omega
  · rw [if_neg hcap]
    split_ifs
    all_goals
      refine ⟨?_, nofun⟩
      dsimp only
      omega

lemma ValueCap.putChar (h : ValueCap v) (c : UInt8) : ValueCap (v.putChar c) := by
  have hlen := h.length
  unfold HpackValue.putChar
  dsimp only
  by_cases hcap : v.value.length < hpackValueCap
  · rw [if_pos hcap]
    have htotal : v.total < hpackValueCap := by omega
    split_ifs
    all_goals
      refine ⟨h.nameLength, h.nameUncut, ?_, fun _ => htotal⟩
      simp only [List.length_append, List.length_singleton]
      omega
  · rw [if_neg hcap]
    split_ifs
    all_goals
      refine ⟨h.nameLength, h.nameUncut, ?_, nofun⟩
      dsimp only
      omega

lemma NameCap.foldl (h : NameCap n) (bs : Bytes) : NameCap (bs.foldl HpackName.putChar n) := by
  induction bs generalizing n with
  | nil => exact h
  | cons c _ ih => exact ih (h.putChar c)

lemma ValueCap.foldl (h : ValueCap v) (bs : Bytes) : ValueCap (bs.foldl HpackValue.putChar v) := by
  induction bs generalizing v with
  | nil => exact h
  | cons c _ ih => exact ih (h.putChar c)

lemma nameCap_begin (lit : HpackLit) : NameCap lit.beginName := ⟨rfl, fun _ => Nat.zero_le _⟩

lemma NameCap.beginValue (h : NameCap n) : ValueCap n.beginValue := by
  unfold HpackName.beginValue
  dsimp only
  split_ifs
  all_goals exact ⟨h.length, h.uncut, rfl, fun _ => Nat.zero_le _⟩

def StrCap : HpackStr → Prop
  | .name n => NameCap n
  | .value v => ValueCap v

def StCap : HpackSt → Prop
  | .first => True
  | .int (.strlen s _) _ _ => StrCap s
  | .int _ _ _ => True
  | .strHdr s => StrCap s
  | .str s _ _ => StrCap s

lemma StrCap.foldl (h : StrCap s) (bs : Bytes) : StrCap (bs.foldl HpackStr.putChar s) := by
  induction bs generalizing s with
  | nil => exact h
  | cons c _ ih =>
    refine ih ?_
    cases s with
    | name => exact NameCap.putChar h c
    | value => exact ValueCap.putChar h c

lemma StrCap.strBytes {s' : HpackStr} {u u' : Option HpackHuff} {bs : Bytes} (h : StrCap s)
    (hb : strBytes s u bs = some (s', u')) : StrCap s' := by
  cases u with
  | none =>
    simp only [TinyLink.strBytes, Option.some.injEq, Prod.mk.injEq] at hb
    rw [← hb.1]
    exact h.foldl bs
  | some =>
    simp only [TinyLink.strBytes, foldlM_huffByte, foldlM_huffBit, Option.map_map] at hb
    obtain ⟨r, _, heq⟩ := Option.map_eq_some_iff.mp hb
    rw [← (Prod.mk.inj heq).1]
    exact h.foldl r.1

lemma tableField_cap {d : HpackListDec} {lit : HpackLit} {idx : ℕ} {withValue : Bool}
    (h : d.tableField lit idx withValue = some v) : ValueCap v := by
  obtain ⟨e, _, rfl⟩ := Option.map_eq_some_iff.mp h
  have hname := ((nameCap_begin lit).foldl e.name).beginValue
  split
  · exact hname.foldl e.value
  · exact hname

section Decoder
variable {σ : Type} {fn : σ → HpackField → σ × Bool} {M : HpackMem} {d : HpackListDec}

structure SameMem (M : HpackMem) (d : HpackListDec) : Prop where
  packs : Packs M d
  cap : StCap d.st

structure SameMemRes (R : HpackRes HpackStore σ) (r : HpackListRes σ) : Prop where
  rc : R.rc = r.rc
  ctx : R.ctx = r.ctx
  dec : r.rc = .ok → SameMem R.dec r.dec

lemma SameMemRes.error {ctx : σ} {rc : HpackRc} (hrc : rc ≠ .ok) :
    SameMemRes ⟨M, ctx, rc⟩ ⟨d, ctx, rc⟩ := ⟨rfl, rfl, fun h => absurd h hrc⟩

lemma SameMemRes.ok {ctx : σ} (h : Packs M d) (st : HpackSt) (hst : StCap st) :
    SameMemRes ⟨{ M with st := st }, ctx, .ok⟩ ⟨{ d with st := st }, ctx, .ok⟩ :=
  ⟨rfl, rfl, fun _ => ⟨h.withSt st, hst⟩⟩

lemma emit_alike (h : Packs M d) (hv : ValueCap v) (ctx : σ) :
    SameMemRes (M.emit fn ctx v) (d.emit fn ctx v) := by
  unfold HpackDec.emit
  generalize hflags : (if v.total > 0 && _ then _ else v.fflags) = fflags
  have hv' : ValueCap { v with fflags := fflags } := by
    have hsame : fflags.nameCut = v.fflags.nameCut ∧ fflags.valueCut = v.fflags.valueCut := by
      rw [← hflags]
      split <;> exact ⟨rfl, rfl⟩
    exact ⟨hv.nameLength, hsame.1 ▸ hv.nameUncut, hv.length, hsame.2 ▸ hv.uncut⟩
  by_cases hrep : v.rep = .incr
  · obtain ⟨hrc, hins⟩ := h.insert hv'
    simp only [if_pos hrep, hrc]
    split
    · next hne => exact ⟨rfl, rfl, fun hok => absurd hok hne⟩
    · next hok => exact ⟨rfl, rfl, fun _ => ⟨(hins (not_not.mp hok)).withSt .first, trivial⟩⟩
  · simp only [if_neg hrep, ne_eq, not_true_eq_false, if_false]
    exact ⟨rfl, rfl, fun _ => ⟨h.withSt .first, trivial⟩⟩

lemma strDone_alike (h : Packs M d) (hs : StrCap s) (u : Option HpackHuff) (ctx : σ) :
    SameMemRes (M.strDone fn ctx s u) (d.strDone fn ctx s u) := by
  unfold HpackDec.strDone
  split
  · exact .error nofun
  · cases s with
    | name n => exact .ok h (.strHdr (.value n.beginValue)) (NameCap.beginValue hs)
    | value => exact emit_alike h hs ctx

lemma Packs.field (h : Packs M d) (lit : HpackLit) (idx : ℕ) (withValue : Bool) :
    M.tableField lit idx withValue = d.tableField lit idx withValue := by
  unfold HpackDec.tableField
  rw [h.entry]

def ForCap : HpackIntFor → Prop
  | .strlen s _ => StrCap s
  | _ => True

lemma intDone_alike (h : Packs M d) (hwhat : ForCap what) (ctx : σ) (v : ℕ) :
    SameMemRes (M.intDone fn ctx what v) (d.intDone fn ctx what v) := by
  have hfirst := h.withSt .first
  unfold HpackDec.intDone
  cases what with
  | indexed lit =>
    dsimp only
    rw [hfirst.field]
    cases hv : ({ d with st := .first } : HpackListDec).tableField lit v true with
    | none => exact .error nofun
    | some => exact emit_alike hfirst (tableField_cap hv) ctx
  | name lit =>
    dsimp only
    split
    · exact .ok hfirst (.strHdr (.name lit.beginName)) (nameCap_begin lit)
    · rw [hfirst.field]
      cases hv : ({ d with st := .first } : HpackListDec).tableField lit v false with
      | none => exact .error nofun
      | some fld => exact .ok hfirst (.strHdr (.value fld)) (tableField_cap hv)
  | size =>
    have hmax := h.same.2.1
    dsimp only
    by_cases hbig : v > d.maxSize
    · rw [if_pos (by omega), if_pos hbig]
      exact .error nofun
    · rw [if_neg (by omega), if_neg hbig]
      exact ⟨rfl, rfl, fun _ => ⟨hfirst.resize (Nat.le_of_not_lt hbig), trivial⟩⟩
  | strlen s =>
    dsimp only
    split
    · exact .error nofun
    · split
      · exact strDone_alike hfirst hwhat _ ctx
      · exact .ok hfirst (.str s _ v) hwhat

lemma stCap_int (h : ForCap what) (v shift : ℕ) : StCap (.int what v shift) := by
  cases what with
  | strlen => exact h
  | _ => trivial

lemma forCap_int {v shift : ℕ} (h : StCap (.int what v shift)) : ForCap what := by
  cases what with
  | strlen => exact h
  | _ => trivial

lemma intStart_alike (h : Packs M d) (hwhat : ForCap what) (ctx : σ)
    (v mask : ℕ) : SameMemRes (M.intStart fn ctx what v mask) (d.intStart fn ctx what v mask) := by
  unfold HpackDec.intStart
  split
  · exact intDone_alike h hwhat ctx v
  · exact .ok h _ (stCap_int hwhat mask 0)

lemma firstByte_alike (h : Packs M d) (ctx : σ) (b : UInt8) :
    SameMemRes (M.firstByte fn ctx b) (d.firstByte fn ctx b) := by
  unfold HpackDec.firstByte
  split
  · rw [h.same.2.2.2.2]
    split
    · exact .error nofun
    · refine intStart_alike h ?_ ctx _ _
      trivial
  · have hstart := h.withStart false
    split_ifs
    all_goals
      refine intStart_alike hstart ?_ ctx _ _
      trivial

lemma pass_alike (fn : σ → HpackField → σ × Bool) (h : SameMem M d) (ctx : σ) (b : UInt8)
    (rest : Bytes) : SameMemRes (M.pass fn ctx b rest).1 (d.pass fn ctx b rest).1 ∧
      (M.pass fn ctx b rest).2 = (d.pass fn ctx b rest).2 := by
  have hcap := h.cap
  unfold HpackDec.pass
  rw [h.packs.same.2.2.2.1]
  cases hst : d.st with
  | first => exact ⟨firstByte_alike h.packs ctx b, rfl⟩
  | int =>
    rw [hst] at hcap
    refine ⟨?_, rfl⟩
    unfold HpackDec.intByte
    dsimp only
    split_ifs
    · exact .error nofun
    · exact .error nofun
    · exact .ok h.packs _ (stCap_int (forCap_int hcap) _ _)
    · exact intDone_alike h.packs (forCap_int hcap) ctx _
  | strHdr =>
    rw [hst] at hcap
    refine ⟨intStart_alike h.packs ?_ ctx _ _, rfl⟩
    exact hcap
  | str s u left =>
    rw [hst] at hcap
    refine ⟨?_, rfl⟩
    unfold HpackDec.strChunk
    dsimp only
    cases hb : strBytes s u ((b :: rest).take left) with
    | none => exact .error nofun
    | some r =>
      have hs : StrCap r.1 := StrCap.strBytes hcap hb
      split_ifs
      · exact strDone_alike h.packs hs _ ctx
      · exact .ok h.packs (.str r.1 r.2 _) hs

lemma feed_alike (input : Bytes) (h : SameMem M d) (ctx : σ) :
    SameMemRes (hpackDecFeed fn M ctx input) (hpackDecFeed fn d ctx input) := by
  unfold hpackDecFeed
  generalize input.length = fuel
  induction fuel generalizing M d ctx input with
  | zero => cases input <;> exact ⟨rfl, rfl, fun _ => h⟩
  | succ _ ih =>
    cases input with
    | nil => exact ⟨rfl, rfl, fun _ => h⟩
    | cons b rest =>
      obtain ⟨hres, hrest⟩ := pass_alike fn h ctx b rest
      simp only [hpackFeedLoop, hres.rc, hres.ctx, hrest]
      split
      · next hok => exact ih _ (hres.dec hok) _
      · exact hres

end Decoder

end TinyLink.Proofs
