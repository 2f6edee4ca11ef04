import TinyLink.H2Response
import TinyLink.Proofs.H2Windows

/-!
# Response heads

What came of the header blocks of a stream gives its head fields, until a part is malformed.
-/

namespace TinyLink.Proofs

variable {s t : H2Stream} {evs log : List H2Event} {ps : List HeadPart}

section Log
variable (sid : ℕ) (l m : List H2Event) (e : H2Event)

@[simp] lemma headParts_append : headParts sid (l ++ m) = headParts sid l ++ headParts sid m :=
  List.filterMap_append

@[simp] lemma delivered_append : delivered sid (l ++ m) = delivered sid l ++ delivered sid m :=
  List.flatMap_append

@[simp] lemma delivered_single : delivered sid [e] = e.bytesOn sid := by simp [delivered]

variable {sid} {l m} {e}

/-- The event reports nothing about stream `sid`, unless a part of its header blocks. -/
def Aside (sid : ℕ) (e : H2Event) : Prop := e.about = some sid → (e.part sid).isSome = true

lemma aside_of_about (he : e.about ≠ some sid) : Aside sid e := fun hab => absurd hab he

lemma bytesOn_other (he : Aside sid e) : e.bytesOn sid = [] := by
  cases e with
  | onData => exact if_neg fun hs => by cases he (congrArg some hs)
  | _ => rfl

lemma part_other (he : e.about ≠ some sid) : e.part sid = none := by
  cases e with
  | note n =>
    cases n with
    | field | head => exact if_neg fun hs => he (congrArg some hs)
    | _ => rfl
  | _ => rfl

lemma delivered_others (hm : ∀ e ∈ m, Aside sid e) :
    delivered sid (l ++ m) = delivered sid l := by
  rw [delivered_append, List.append_right_eq_self]
  exact List.flatMap_eq_nil_iff.mpr fun e he => bytesOn_other (hm e he)

lemma ended_append (he : Ended sid l) (m : List H2Event) : Ended sid (l ++ m) := by
  obtain ⟨e, hmem, hends⟩ := he
  exact ⟨e, List.mem_append_left m hmem, hends⟩

lemma headParts_none (hm : ∀ e ∈ m, e.part sid = none) : headParts sid m = [] :=
  List.filterMap_eq_nil_iff.mpr hm

end Log

/-- A field leaves the response as it was, or gives its status, or its length. -/
lemma streamField_cases (s : H2Stream) (trailer : Bool) (f : HpackField) :
    (∃ p, (streamField s trailer f).1 = { s with pseudoDone := p } ∧
      (s.pseudoDone = true → p = true) ∧ (streamField s trailer f).2 ≠ .status ∧
      ((streamField s trailer f).2 = .header → nameIs f "content-length" = false)) ∨
    (∃ st, s.pseudoDone = false ∧ s.haveStatus = false ∧
      streamField s trailer f = ({ s with haveStatus := true, status := st }, .status)) ∨
    (s.contentLength = -1 ∧ ∃ cl,
      (streamField s trailer f).1 = { s with pseudoDone := true, contentLength := cl } ∧
      (streamField s trailer f).2 ≠ .status ∧
      ((streamField s trailer f).2 = .header →
        cl = parseUint f ∧ 0 ≤ cl ∧ s.status ≠ 204 ∧ s.status / 100 ≠ 1)) := by
  have hpseudo : (∃ p, (pseudoField s trailer f).1 = { s with pseudoDone := p } ∧
      (s.pseudoDone = true → p = true) ∧ (pseudoField s trailer f).2 = .bad) ∨
      ∃ st, s.pseudoDone = false ∧ s.haveStatus = false ∧
        pseudoField s trailer f = ({ s with haveStatus := true, status := st }, .status) := by
    unfold pseudoField
    split
    · exact .inl ⟨s.pseudoDone, rfl, id, rfl⟩
    case isFalse hfirst =>
      simp only [Bool.or_eq_true, not_or, Bool.not_eq_true] at hfirst
      split
      · exact .inl ⟨s.pseudoDone, rfl, id, rfl⟩
      · dsimp only
        split
        · exact .inl ⟨s.pseudoDone, rfl, id, rfl⟩
        · exact .inr ⟨_, hfirst.1.1.2, hfirst.2, rfl⟩
  unfold streamField
  dsimp only
  split
  · split
    · exact .inl ⟨s.pseudoDone, rfl, id, by simp, by simp⟩
    · exact .inl ⟨true, rfl, fun _ => rfl, by simp, by simp⟩
  · split
    · split
      · exact .inl ⟨s.pseudoDone, rfl, id, by simp, by simp⟩
      · exact .inl ⟨true, rfl, fun _ => rfl, by simp, by simp⟩
    · split
      · rcases hpseudo with ⟨p, hs, hp, hv⟩ | hst
        · exact .inl ⟨p, hs, hp, by simp [hv], by simp [hv]⟩
        · exact .inr (.inl hst)
      · unfold regularField
        dsimp only
        split
        case isTrue hname =>
          split
          · split
            · exact .inl ⟨true, rfl, fun _ => rfl, by simp, by simp⟩
            case isFalse hzero =>
              simp only [Bool.or_eq_true, decide_eq_true_eq, not_or, not_not] at hzero
              exact .inr (.inr ⟨hzero.1, 0, rfl, by simp, by simp⟩)
          case isFalse h204 =>
            split
            · exact .inl ⟨true, rfl, fun _ => rfl, by simp, by simp⟩
            case isFalse hnew =>
              simp only [Bool.or_eq_true, decide_eq_true_eq, not_or, not_not] at hnew
              refine .inr (.inr ⟨hnew.2, parseUint f, ?_⟩)
              split
              · exact ⟨rfl, by simp, by simp⟩
              case isFalse hpos => exact ⟨rfl, by simp, fun _ => ⟨rfl, by omega, h204, hnew.1⟩⟩
        case isFalse hname =>
          have hname : nameIs f "content-length" = false := by simpa using hname
          split
          · exact .inl ⟨true, rfl, fun _ => rfl, by simp, by simp⟩
          · split
            · exact .inl ⟨true, rfl, fun _ => rfl, by simp, by simp⟩
            · exact .inl ⟨true, rfl, fun _ => rfl, by simp, fun _ => hname⟩

lemma responseBlock_cases (s : H2Stream) (e : Bool) :
    ((responseBlock s e).1 = s ∧ (responseBlock s e).2 ≠ .final) ∨
    (s.status / 100 = 1 ∧ (responseBlock s e).2 ≠ .final ∧ (responseBlock s e).1 =
        { s with haveStatus := false, pseudoDone := false, contentLength := -1 }) ∨
    (s.haveStatus = true ∧ s.status / 100 ≠ 1 ∧ (responseBlock s e).2 = .final ∧ ∃ cl,
      (responseBlock s e).1 = { s with final := true, contentLength := cl } ∧
      (cl = s.contentLength ∨ (s.status = 204 ∨ s.status = 304) ∧ cl = 0)) := by
  unfold responseBlock
  split
  · exact .inl ⟨rfl, by simp⟩
  case isFalse hhave =>
    split
    case isTrue hinfo => exact .inr (.inl ⟨hinfo, by dsimp only; split <;> simp, rfl⟩)
    case isFalse hfinal =>
      refine .inr (.inr ⟨by simpa using hhave, hfinal, rfl, ?_⟩)
      dsimp only
      split
      case isTrue hempty => exact ⟨0, rfl, .inr ⟨by simpa using hempty, rfl⟩⟩
      case isFalse => exact ⟨s.contentLength, rfl, .inl rfl⟩

/-- A stream takes a part of its header blocks; `none` if it is malformed. -/
def takePart (s : H2Stream) : HeadPart → Option H2Stream
  | .field f =>
    if s.final then some s
    else if (streamField s false f).2 = .bad then none else some (streamField s false f).1
  | .whole e =>
    if s.final then some s
    else if (responseBlock s e).2 = .bad then none else some (responseBlock s e).1

def takeParts (ps : List HeadPart) : Option H2Stream := ps.foldlM takePart (.fresh 0 0 [])

lemma takeParts_concat {p : HeadPart} (ht : takeParts (ps ++ [p]) = some t) :
    ∃ s, takeParts ps = some s ∧ takePart s p = some t := by
  rw [takeParts, List.foldlM_append] at ht
  obtain ⟨s, hs, ht⟩ := Option.bind_eq_some_iff.mp ht
  exact ⟨s, hs, by simpa using ht⟩

/-- The head fields of two streams agree; behind a final response only its status does. -/
structure SameHead (t s : H2Stream) : Prop where
  final : t.final = s.final
  status : t.status = s.status
  rest : s.final = false → 0 < s.id → t.haveStatus = s.haveStatus ∧
    t.pseudoDone = s.pseudoDone ∧ t.contentLength = s.contentLength

/-- Stream `s` with the head fields of `t`. -/
def graft (s t : H2Stream) : H2Stream :=
  { s with
    haveStatus := t.haveStatus
    status := t.status
    pseudoDone := t.pseudoDone
    contentLength := t.contentLength
    final := t.final }

lemma sameHead_graft (s t : H2Stream) : SameHead t (graft s t) :=
  ⟨rfl, rfl, fun _ _ => ⟨rfl, rfl, rfl⟩⟩

lemma SameHead.graft (hs : SameHead t s) (hf : s.final = false) (hpos : 0 < s.id) :
    s = graft s t := by
  obtain ⟨hhave, hdone, hlen⟩ := hs.rest hf hpos
  rw [Proofs.graft, hhave, hs.status, hdone, hlen, hs.final]

lemma streamField_graft (s t : H2Stream) (trailer : Bool) (f : HpackField) :
    streamField (graft s t) trailer f =
      (graft s (streamField t trailer f).1, (streamField t trailer f).2) := by
  unfold streamField pseudoField regularField graft
  grind

lemma responseBlock_graft (s t : H2Stream) (e : Bool) :
    responseBlock (graft s t) e = (graft s (responseBlock t e).1, (responseBlock t e).2) := by
  unfold responseBlock graft
  grind

/-- The head fields of stream `s` are the ones that the parts noted for it give. -/
def HeadRead (log : List H2Event) (s : H2Stream) : Prop :=
  ∀ t, takeParts (headParts s.id log) = some t → SameHead t s

def headOf (s : H2Stream) : ℕ × Bool × ℕ × Bool × Bool × ℤ :=
  (s.id, s.final, s.status, s.haveStatus, s.pseudoDone, s.contentLength)

lemma HeadRead.quiet (hk : HeadRead log s) (hevs : ∀ e ∈ evs, e.part s.id = none)
    (hs : headOf t = headOf s) : HeadRead (log ++ evs) t := by
  simp only [headOf, Prod.mk.injEq] at hs
  obtain ⟨hid, hfinal, hstatus, hhave, hdone, hlen⟩ := hs
  intro u hu
  rw [headParts_append, hid, headParts_none hevs, List.append_nil] at hu
  have hsame := hk u hu
  refine ⟨hsame.final.trans hfinal.symm, hsame.status.trans hstatus.symm, ?_⟩
  rw [hfinal, hid, hhave, hdone, hlen]
  exact hsame.rest

lemma reads_new (hnone : ∀ e ∈ log, e.about ≠ some s.id) (hfinal : s.final = false)
    (hst : s.status = 0) (hrest : 0 < s.id → false = s.haveStatus ∧ false = s.pseudoDone ∧
      -1 = s.contentLength) : HeadRead log s := by
  intro t ht
  rw [headParts_none fun e he => part_other (hnone e he)] at ht
  cases ht
  exact ⟨hfinal.symm, hst.symm, fun _ => hrest⟩

/-- A stream takes the part that is noted next. -/
lemma HeadRead.part (hk : HeadRead log s) {e : H2Event} {p : HeadPart} (he : e.part s.id = some p)
    (hevs : ∀ e ∈ evs, e.part s.id = none) {t : H2Stream}
    (ht : takeParts (headParts s.id (log ++ e :: evs)) = some t) :
    ∃ t₀, SameHead t₀ s ∧ takePart t₀ p = some t := by
  have hpart : headParts s.id (e :: evs) = [p] := by
    rw [← List.singleton_append, headParts_append, headParts_none hevs]
    simp [headParts, he]
  rw [headParts_append, hpart] at ht
  obtain ⟨t₀, ht₀, ht⟩ := takeParts_concat ht
  exact ⟨t₀, hk t₀ ht₀, ht⟩

lemma HeadRead.field (hk : HeadRead log s) (hpos : 0 < s.id)
    (hh : s.final = true → s.haveStatus = true) {trailer : Bool}
    (htrail : trailer = true → s.final = true) (f : HpackField)
    (hevs : ∀ e ∈ evs, e.part s.id = none) :
    HeadRead (log ++ .note (.field s.id f) :: evs) (streamField s trailer f).1 := by
  obtain ⟨p, hs, st, cl, he⟩ := streamField_eq s trailer f
  have hid : (streamField s trailer f).1.id = s.id := by rw [he]
  intro t ht
  rw [hid] at ht
  obtain ⟨t₀, hsame, ht⟩ := hk.part (p := .field f) (by simp [H2Event.part]) hevs ht
  simp only [takePart] at ht
  cases hf : s.final with
  | true =>
    rw [if_pos (hsame.final.trans hf)] at ht
    cases ht
    have hrest {P : Prop} (hfin : s.final = false) : P := absurd (hf.symm.trans hfin) (by simp)
    rcases streamField_cases s trailer f with ⟨_, hr, -⟩ | ⟨_, -, hno, -⟩ | ⟨-, _, hr, -⟩
    · rw [hr]
      exact ⟨hsame.final, hsame.status, hrest⟩
    · exact absurd ((hh hf).symm.trans hno) (by simp)
    · rw [hr]
      exact ⟨hsame.final, hsame.status, hrest⟩
  | false =>
    obtain rfl : trailer = false := by
      by_contra hne
      exact absurd ((htrail (by simpa using hne)).symm.trans hf) (by simp)
    rw [if_neg (by simp [hsame.final, hf])] at ht
    split_ifs at ht
    cases ht
    rw [hsame.graft hf hpos, streamField_graft]
    exact sameHead_graft _ _

lemma HeadRead.block (hk : HeadRead log s) (hpos : 0 < s.id)
    (hh : s.final = true → s.status / 100 ≠ 1) (e : Bool) (hevs : ∀ e ∈ evs, e.part s.id = none) :
    HeadRead (log ++ .note (.head s.id e) :: evs) (responseBlock s e).1 := by
  obtain ⟨p, hs, fin, cl, he⟩ := responseBlock_eq s e
  have hid : (responseBlock s e).1.id = s.id := by rw [he]
  intro t ht
  rw [hid] at ht
  obtain ⟨t₀, hsame, ht⟩ := hk.part (p := .whole e) (by simp [H2Event.part]) hevs ht
  simp only [takePart] at ht
  cases hf : s.final with
  | true =>
    rw [if_pos (hsame.final.trans hf)] at ht
    cases ht
    have hlast (u : H2Stream) (hfin : u.final = true) (hst : u.status = s.status) : SameHead t u :=
      ⟨hsame.final.trans (hf.trans hfin.symm), hsame.status.trans hst.symm, fun hno =>
        absurd (hfin.symm.trans hno) (by simp)⟩
    rcases responseBlock_cases s e with ⟨hr, -⟩ | ⟨hno, -⟩ | ⟨-, -, -, _, hr, -⟩
    · rw [hr]
      exact hlast s hf rfl
    · exact absurd hno (hh hf)
    · rw [hr]
      exact hlast _ rfl rfl
  | false =>
    rw [if_neg (by simp [hsame.final, hf])] at ht
    split_ifs at ht
    cases ht
    rw [hsame.graft hf hpos, responseBlock_graft]
    exact sameHead_graft _ _

section Heads
variable {st : ℕ} {f : HpackField} {fs : List HpackField}

lemma nameIs_pseudo (hn : nameIs f ":status") : f.name.head? = some 0x3a := by
  have hhead : (asciiBytes ":status").head? = some 0x3a := by decide
  simp only [nameIs, Bool.and_eq_true, decide_eq_true_eq] at hn
  rwa [← hn.2, List.head?_take, if_neg (by decide)] at hhead

lemma streamField_status (hf : StatusField st f) (hh : s.haveStatus = false)
    (hp : s.pseudoDone = false) :
    streamField s false f = ({ s with haveStatus := true, status := st }, .status) := by
  obtain ⟨hname, hupper, hvalue⟩ := hf.clean
  have hknown : (st : ℤ) ≠ 101 := by exact_mod_cast hf.known
  simp [streamField, pseudoField, hname, hupper, hvalue, nameIs_pseudo hf.name, hf.name, hh, hp,
    hf.digits.1, hf.digits.2, hknown]

lemma streamField_regular (hf : RegularField s.status f)
    (hlen : nameIs f "content-length" = true → s.contentLength = -1) :
    (streamField s false f).2 ≠ .bad ∧ ∃ cl, (streamField s false f).1 =
      { s with pseudoDone := true, contentLength := cl } ∧
      (nameIs f "content-length" = false → cl = s.contentLength) := by
  obtain ⟨hname, hupper, hvalue⟩ := hf.clean
  simp only [streamField, hname, hupper, hvalue, hf.regular, Bool.or_self, Bool.false_eq_true,
    decide_false, if_false]
  unfold regularField
  cases hcl : nameIs f "content-length" with
  | true =>
    obtain ⟨hinfo, hval⟩ := hf.length hcl
    have hnew := hlen hcl
    by_cases h204 : s.status = 204
    · rw [if_pos h204] at hval
      simp [h204, hnew, hval]
    · rw [if_neg h204] at hval
      simp [h204, hinfo, hnew, Int.not_lt.mpr hval]
  | false =>
    by_cases hte : nameIs f "te" = true
    · simp [hf.connection, hte, hf.te hte]
    · simp [hf.connection, hte]

lemma takeFields_regular (hs : s.final = false ∧ s.haveStatus = true)
    (hfs : ∀ g ∈ fs, RegularField s.status g)
    (hlen : (fs.filter fun g => nameIs g "content-length").length ≤
      if s.contentLength = -1 then 1 else 0) :
    ∃ t, (fs.map HeadPart.field).foldlM takePart s = some t ∧ t.final = false ∧
      t.haveStatus = true ∧ t.status = s.status := by
  induction fs generalizing s with
  | nil => exact ⟨s, rfl, hs.1, hs.2, rfl⟩
  | cons f fs ih =>
    have hnew : nameIs f "content-length" = true → s.contentLength = -1 := by
      intro hcl
      by_contra hne
      simp [hcl, hne] at hlen
    obtain ⟨hok, cl, hr, hcl⟩ := streamField_regular (hfs f (by simp)) hnew
    have hstep : takePart s (.field f) = some { s with pseudoDone := true, contentLength := cl } := by
      simp [takePart, hs.1, hok, hr]
    obtain ⟨t, ht, hrest⟩ := ih (s := { s with pseudoDone := true, contentLength := cl }) hs
      (fun g hg => hfs g (by simp [hg])) (by
        cases hn : nameIs f "content-length" with
        | true =>
          simp only [List.filter_cons, hn, if_true, hnew hn, List.length_cons] at hlen
          omega
        | false =>
          simp only [List.filter_cons, hn, Bool.false_eq_true, if_false] at hlen
          rwa [hcl hn])
    exact ⟨t, by rw [List.map_cons, List.foldlM_cons, hstep]; exact ht, hrest⟩

/-- A stream that awaits a response head. -/
def Blank (s : H2Stream) : Prop :=
  s.final = false ∧ s.haveStatus = false ∧ s.pseudoDone = false ∧ s.contentLength = -1

lemma takeHead (hs : Blank s) (hh : ResponseHead st fs) (ps : List HeadPart) :
    ∃ t, t.final = false ∧ t.haveStatus = true ∧ t.status = st ∧
      (fs.map HeadPart.field ++ ps).foldlM takePart s = ps.foldlM takePart t := by
  obtain ⟨hfin, hhave, hdone, hlen⟩ := hs
  cases hh with
  | fields f fs hf hfs hone =>
    have hstep : takePart s (.field f) = some { s with haveStatus := true, status := st } := by
      simp [takePart, hfin, streamField_status hf hhave hdone]
    obtain ⟨t, ht, hfin', hhave', hst⟩ := takeFields_regular
      (s := { s with haveStatus := true, status := st }) ⟨hfin, rfl⟩ hfs (by simpa [hlen] using hone)
    refine ⟨t, hfin', hhave', hst, ?_⟩
    rw [List.foldlM_append, List.map_cons, List.foldlM_cons, hstep]
    exact congrArg (fun o => o.bind fun u => ps.foldlM takePart u) ht

theorem finallyAnswered_takes (hp : FinallyAnswered ps) (hs : Blank s) :
    ∃ t, ps.foldlM takePart s = some t ∧ t.final = true ∧ 200 ≤ t.status := by
  have hstay {t : H2Stream} (ht : t.final = true) (qs : List HeadPart) :
      qs.foldlM takePart t = some t := by
    induction qs with
    | nil => rfl
    | cons q _ ih =>
      have hq : takePart t q = some t := by cases q <;> simp [takePart, ht]
      rw [List.foldlM_cons, hq]
      exact ih
  induction hp generalizing s with
  | @informational st fs rest hst hh _ ih =>
    obtain ⟨t, hfin, hhave, hstatus, ht⟩ := takeHead hs hh (.whole false :: rest)
    have hstep : takePart t (.whole false) =
        some { t with haveStatus := false, pseudoDone := false, contentLength := -1 } := by
      simp [takePart, responseBlock, hfin, hhave, hstatus, hst]
    rw [ht, List.foldlM_cons, hstep]
    exact ih ⟨hfin, rfl, rfl, rfl⟩
  | @final st fs e rest hst hh =>
    obtain ⟨t, hfin, hhave, hstatus, ht⟩ := takeHead hs hh (.whole e :: rest)
    have hinfo : ¬ st / 100 = 1 := by omega
    obtain ⟨u, hu, hfin', hst'⟩ : ∃ u, takePart t (.whole e) = some u ∧ u.final = true ∧
        u.status = st := by
      unfold takePart
      rcases responseBlock_cases t e with ⟨hr, hno⟩ | ⟨hno, -⟩ | ⟨-, -, hv, cl, hr, -⟩
      · exact absurd hno (by simp [responseBlock, hhave, hstatus, hinfo])
      · exact absurd (hstatus ▸ hno) hinfo
      · exact ⟨{ t with final := true, contentLength := cl }, by simp [hfin, hv, hr], rfl, hstatus⟩
    rw [ht, List.foldlM_cons, hu]
    exact ⟨u, hstay hfin' rest, hfin', hst'.symm ▸ hst⟩

/-- The status of a stream on which a final response came whole, or nothing of one. -/
lemma HeadRead.answered (hk : HeadRead log s) (ha : Answered s.id log) :
    s.status = 0 ∨ (s.final = true ∧ 200 ≤ s.status) := by
  rcases ha with hnone | ha
  · have hsame := hk _ (by rw [hnone]; rfl)
    exact .inl hsame.status.symm
  · obtain ⟨t, ht, hfin, hst⟩ := finallyAnswered_takes ha (s := .fresh 0 0 []) ⟨rfl, rfl, rfl, rfl⟩
    have hsame := hk t ht
    exact .inr ⟨hsame.final.symm.trans hfin, hsame.status ▸ hst⟩

end Heads

end TinyLink.Proofs
