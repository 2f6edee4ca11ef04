import Mathlib.Data.List.TakeWhile
import TinyLink.MapResponse
import TinyLink.Proofs.MapElements

/-!
# Feeding a MapResponse body

`mapresp_json_feed` equals feeding the bytes one at a time, whatever the element buffer and the token
table hold.
-/

namespace TinyLink

def MapJson.feedEach [MapConfig] (m : MapJson) (data : Bytes) : MapJson :=
  data.foldl (fun m c => if m.err || m.done then m else m.feedByte c) m

/-- The parser with another content of the element buffer and of the token table. -/
def MapJson.restale (m : MapJson) (elem : ℕ → UInt8) (toks : JsmnTable) : MapJson :=
  { m with elem := elem, out := { m.out with toks := toks } }

namespace Proofs
open MapJson

variable {m q : MapJson} {ls : List MapLevel} {c : UInt8}

lemma feedEach_append [MapConfig] (m : MapJson) (a b : Bytes) : m.feedEach (a ++ b) =
    (m.feedEach a).feedEach b :=
  List.foldl_append

lemma feedEach_cons [MapConfig] (m : MapJson) (c : UInt8) (data : Bytes) :
    m.feedEach (c :: data) = (if m.err || m.done then m else m.feedByte c).feedEach data := rfl

lemma feedEach_stopped [MapConfig] (h : (m.err || m.done)) (data : Bytes) : m.feedEach data = m := by
  induction data with
  | nil => rfl
  | cons _ _ ih => rw [feedEach_cons, if_pos h, ih]

lemma scan_inert {s : JsplitScan} (hm : s.mode ≠ .esc)
    (hc : special c = false ∨ s.mode = .str ∧ c ≠ 34 ∧ c ≠ 92) : tlJsplitScanByte s c = .more s := by
  unfold tlJsplitScanByte
  cases hs : s.mode with
  | esc => exact absurd hs hm
  | str =>
    obtain ⟨h34, h92⟩ : c ≠ 34 ∧ c ≠ 92 := by
      obtain hc | hc := hc
      · simp only [special, Bool.or_eq_false_iff, decide_eq_false_iff_not] at hc
        tauto
      · exact hc.2
    simp only [h34, h92, if_false]
  | text | scalar =>
    obtain hc | hc := hc
    · simp only [special, Bool.or_eq_false_iff, decide_eq_false_iff_not] at hc
      have h9 : c ≠ 9 := by rintro rfl; exact absurd hc (by decide)
      have h10 : c ≠ 10 := by rintro rfl; exact absurd hc (by decide)
      have h13 : c ≠ 13 := by rintro rfl; exact absurd hc (by decide)
      simp [isOpening, isClosing, isScalarEnd, tlJsplitIsWs, hc, h9, h10, h13]
    · exact absurd (hs.symm.trans hc.1) (by decide)

lemma feedExts_inert (h : ∀ l ∈ ls.dropLast, tlJsplitScanByte l.ext c = .more l.ext) :
    feedExts c ls = some (ls.map fun l => (l, false)) := by
  induction ls with
  | nil => rfl
  | cons l ls ih =>
    cases ls with
    | nil => rfl
    | cons p ls =>
      rw [List.dropLast_cons_of_ne_nil (List.cons_ne_nil p ls), List.forall_mem_cons] at h
      rw [feedExts, ih h.2, h.1]
      · rfl
      · exact List.cons_ne_nil p ls

lemma popClosed_of_open {ended : List Bool} (h : ended.head? ≠ some true) :
    popClosed ls ended = (ls, ended) := by
  unfold popClosed
  split
  · exact absurd rfl h
  · rfl

lemma byte_inert [MapConfig] {l : MapLevel} (hl : m.lvl = l :: ls)
    (hg : l.g = .value) (hv : tlJsplitScanByte m.val c = .more m.val)
    (he : ∀ l ∈ m.lvl.dropLast, tlJsplitScanByte l.ext c = .more l.ext) : m.byte c = m.store c := by
  have hgr : m.grammar c = m.store c := by
    unfold grammar
    split
    · rename_i h
      cases hl.symm.trans h
    · rename_i h
      cases hl.symm.trans h
      simp only [hg, if_true, hv]
      rfl
  have hfst : (m.lvl.map fun l => (l, false)).map Prod.fst = m.lvl := by
    rw [List.map_map]
    exact List.map_id _
  have hsnd : ((m.lvl.map fun l => (l, false)).map Prod.snd).any id = false := by simp
  have hopen : ((m.lvl.map fun l => (l, false)).map Prod.snd).head? ≠ some true := by simp [hl]
  have hpop : (m.store c).popLevels m.lvl.length ((m.lvl.map fun l => (l, false)).map Prod.snd) = m.store c := by
    unfold popLevels
    rw [popClosed_of_open hopen, ite_self]
    dsimp only
    rw [hsnd, if_neg Bool.false_ne_true]
    rfl
  unfold byte
  rw [feedExts_inert he]
  dsimp only
  rw [hfst, show m.setLvl m.lvl = m from rfl, hgr, hpop, ite_self]

lemma inert_level {p : UInt8 → Bool} (h : m.inert = some p) :
    ∃ l ls, m.lvl = l :: ls ∧ l.g = .value ∧ ∀ c, p c = true →
      tlJsplitScanByte m.val c = .more m.val ∧
      ∀ l ∈ m.lvl.dropLast, tlJsplitScanByte l.ext c = .more l.ext := by
  unfold inert at h
  cases hl : m.lvl with
  | nil => rw [hl] at h; cases h
  | cons l ls =>
    rw [hl] at h
    dsimp only at h
    split at h
    · cases h
    rename_i hg
    simp only [Bool.or_eq_true, decide_eq_true_eq, not_or, not_not] at hg
    split at h
    · cases h
    rename_i he
    simp only [List.any_eq_true, decide_eq_true_eq, not_exists, not_and] at he
    refine ⟨l, ls, rfl, hg.1, fun c hc => ?_⟩
    split at h
    · rename_i hstr
      simp only [Bool.and_eq_true, decide_eq_true_eq, List.all_eq_true] at hstr
      cases h
      simp only [Bool.and_eq_true, decide_eq_true_eq] at hc
      exact ⟨scan_inert hg.2 (.inr ⟨hstr.1, hc⟩),
        fun k hk => scan_inert (he k hk) (.inr ⟨hstr.2 k hk, hc⟩)⟩
    · cases h
      rw [Bool.not_eq_true'] at hc
      exact ⟨scan_inert hg.2 (.inl hc), fun k hk => scan_inert (he k hk) (.inl hc)⟩

lemma copyRun_cons (m : MapJson) (c : UInt8) (run : Bytes) :
    m.copyRun (c :: run) = { m.store c with pos := m.pos + 1 }.copyRun run := by
  unfold copyRun store
  dsimp only
  rw [List.length_cons, Nat.add_right_comm m.vlen, ← Nat.add_assoc, Nat.add_right_comm m.pos, ← Nat.add_assoc]
  congr 1
  by_cases hroom : m.vlen < m.vlim
  · rw [if_pos hroom, if_pos hroom]
    funext i
    split
    · unfold copyElem
      by_cases hi : i = m.vlen
      · subst hi
        rw [if_pos (by simp; omega), if_neg (by omega)]
        simp
      · rw [Function.update_of_ne hi]
        by_cases hin : m.vlen ≤ i ∧ i < m.vlen + min (c :: run).length (m.vlim - m.vlen)
        · rw [List.length_cons] at hin
          obtain ⟨k, rfl⟩ : ∃ k, i = m.vlen + 1 + k := ⟨i - m.vlen - 1, by omega⟩
          rw [if_pos (by rw [List.length_cons]; exact hin), if_pos (by omega)]
          rw [show m.vlen + 1 + k - m.vlen = k + 1 by omega, Nat.add_sub_cancel_left]
          rfl
        · rw [if_neg hin, if_neg]
          rw [List.length_cons] at hin
          omega
    · have hlim : m.vlim - m.vlen = 1 := by omega
      unfold copyElem
      rw [hlim]
      by_cases hi : i = m.vlen
      · subst hi
        rw [if_pos (by simp), Function.update_self]
        simp
      · rw [Function.update_of_ne hi, if_neg]
        rw [List.length_cons]
        omega
  · rw [if_neg hroom, if_neg hroom, if_neg (by omega)]

lemma feedEach_inert [MapConfig] {p : UInt8 → Bool} {run : Bytes} (hp : m.inert = some p)
    (hrun : ∀ c ∈ run, p c = true)
    (hgo : (m.err || m.done) = false) : m.feedEach run = m.copyRun run := by
  induction run generalizing m with
  | nil =>
    have hcopy : ∀ room, copyElem m.elem m.vlen room [] = m.elem := by
      intro room
      funext i
      exact if_neg (by simp)
    unfold copyRun
    rw [hcopy, ite_self]
    rfl
  | cons c _ ih =>
    obtain ⟨l, ls, hl, hg, hscan⟩ := inert_level hp
    obtain ⟨hv, he⟩ := hscan c (hrun c List.mem_cons_self)
    have hbyte : m.feedByte c = { m.store c with pos := m.pos + 1 } := by
      unfold feedByte
      rw [byte_inert hl hg hv he]
      rfl
    rw [feedEach_cons, hgo, if_neg Bool.false_ne_true, hbyte, copyRun_cons]
    exact ih hp (fun b hb => hrun b (List.mem_cons_of_mem c hb)) hgo

lemma feedLoop_eq [MapConfig] {fuel : ℕ} {data : Bytes} (hf : data.length ≤ fuel) :
    MapJson.feedLoop fuel m data = m.feedEach data := by
  induction fuel generalizing m data with
  | zero =>
    rw [List.eq_nil_of_length_eq_zero (Nat.le_zero.mp hf)]
    rfl
  | succ _ ih =>
    cases data with
    | nil => rfl
    | cons c data =>
      rw [List.length_cons] at hf
      unfold MapJson.feedLoop
      by_cases hstop : (m.err || m.done) = true
      · rw [if_pos hstop, feedEach_stopped hstop]
      · rw [if_neg hstop]
        rw [Bool.not_eq_true] at hstop
        by_cases hrun : m.inertRun (c :: data) > 0
        · rw [if_pos hrun, ih (by rw [List.length_drop, List.length_cons]; omega)]
          unfold inertRun at hrun ⊢
          cases hp : m.inert with
          | none => rw [hp] at hrun; cases hrun
          | some p =>
            have htake : (c :: data).take ((c :: data).takeWhile p).length = (c :: data).takeWhile p :=
              List.prefix_iff_eq_take.mp (List.takeWhile_prefix p) |>.symm
            rw [htake, ← feedEach_inert hp (fun b hb => List.mem_takeWhile_imp hb) hstop,
              ← feedEach_append]
            nth_rewrite 1 [← htake]
            rw [List.take_append_drop]
        · rw [if_neg hrun, ih (by omega), feedEach_cons, hstop, if_neg Bool.false_ne_true]

lemma jsonFeed_eq [MapConfig] (m : MapJson) (data : Bytes) : maprespJsonFeed m data = m.feedEach data :=
  feedLoop_eq le_rfl

/-- The states differ in the token table and in bytes of the element buffer that are not stored. -/
def Same (m q : MapJson) : Prop :=
  ∃ elem toks, q = m.restale elem toks ∧ ∀ i < m.vlen, i < m.vlim → m.elem i = elem i

section
variable (h : Same m q)
include h

lemma Same.map {F : MapJson → MapJson}
    (hF : ∀ elem toks, F (m.restale elem toks) = (F m).restale elem toks)
    (hk : (F m).elem = m.elem ∧ (F m).vlen = m.vlen ∧ (F m).vlim = m.vlim) : Same (F m) (F q) := by
  obtain ⟨elem, toks, rfl, h⟩ := h
  refine ⟨elem, toks, hF elem toks, ?_⟩
  rw [hk.1, hk.2.1, hk.2.2]
  exact h

lemma Same.fail : Same m.fail q.fail := by
  refine h.map (F := MapJson.fail) (fun elem toks => ?_) ?_
  · unfold MapJson.fail restale
    by_cases he : m.err = true
    · rw [if_pos he, if_pos he]
    · rw [if_neg he, if_neg he]
  · unfold MapJson.fail
    split <;> exact ⟨rfl, rfl, rfl⟩

lemma Same.setG (g : MapGrammar) : Same (m.setG g) (q.setG g) := by
  refine h.map (F := (MapJson.setG · g)) (fun elem toks => ?_) ?_
  · cases hl : m.lvl <;> simp [MapJson.setG, restale, hl]
  · cases hl : m.lvl <;> simp [MapJson.setG, hl]

lemma Same.keyAdd (c : UInt8) : Same (m.keyAdd c) (q.keyAdd c) :=
  h.map (F := (MapJson.keyAdd · c)) (fun _ _ => rfl) ⟨rfl, rfl, rfl⟩

lemma Same.store (c : UInt8) : Same (m.store c) (q.store c) := by
  obtain ⟨elem, toks, rfl, h⟩ := h
  refine ⟨((m.restale elem toks).store c).elem, toks, rfl, fun i hi hlim => ?_⟩
  change i < m.vlen + 1 at hi
  change i < m.vlim at hlim
  unfold MapJson.store restale
  dsimp only
  by_cases him : i = m.vlen
  · subst him
    rw [if_pos hlim, if_pos hlim, Function.update_self, Function.update_self]
  · have hlt : i < m.vlen := by omega
    split
    · rw [Function.update_of_ne him, Function.update_of_ne him]
      exact h i hlt hlim
    · exact h i hlt hlim

lemma Same.stored (hfit : m.vlen ≤ m.vlim) : q.stored = m.stored := by
  obtain ⟨elem, toks, rfl, h⟩ := h
  refine List.map_congr_left fun i hi => ?_
  have hi : i < m.vlen := List.mem_range.mp hi
  exact (h i hi (by omega)).symm

lemma Same.setOut {o o' : MapOut} (ho : o.bare = o'.bare) :
    Same { m with out := o } { q with out := o' } := by
  obtain ⟨elem, toks, rfl, h⟩ := h
  refine ⟨elem, o'.toks, ?_, h⟩
  have hout : { o with toks := o'.toks } = o' :=
    (congrArg (fun b : MapOut => { b with toks := o'.toks }) ho :
      { o.bare with toks := o'.toks } = { o'.bare with toks := o'.toks })
  unfold restale
  rw [hout]

lemma Same.bare : m.out.bare = q.out.bare := by
  obtain ⟨elem, toks, rfl, -⟩ := h
  rfl

lemma Same.done : m.done = q.done := by
  obtain ⟨elem, toks, rfl, -⟩ := h
  rfl

lemma Same.element [MapConfig] (act : MapAct) : Same (m.element act) (q.element act) := by
  have hlen : q.vlen = m.vlen ∧ q.vlim = m.vlim := by
    obtain ⟨elem, toks, rfl, -⟩ := h
    exact ⟨rfl, rfl⟩
  unfold MapJson.element
  by_cases hlim : m.vlen > m.vlim
  · rw [if_pos hlim, if_pos (hlen.1 ▸ hlen.2 ▸ hlim)]
    have hover : Same { m with nOversized := m.nOversized + 1 } { q with nOversized := q.nOversized + 1 } :=
      h.map (F := fun m => { m with nOversized := m.nOversized + 1 }) (fun _ _ => rfl) ⟨rfl, rfl, rfl⟩
    cases act with
    | removed => exact h
    | patch =>
      rw [← nm_of_bare h.bare]
      exact hover.setOut (setNm_bare h.bare _)
    | _ => exact hover
  · rw [if_neg hlim, if_neg (hlen.1 ▸ hlen.2 ▸ hlim), h.stored (by omega)]
    exact h.setOut (elemParse_bare act _ h.bare)

lemma Same.valueEnd [MapConfig] (r : MapRole) : Same (m.valueEnd r) (q.valueEnd r) := by
  have hg := h.setG (msAfterVal r)
  unfold MapJson.valueEnd
  dsimp only
  have hact : (q.setG (msAfterVal r)).vact = (m.setG (msAfterVal r)).vact := by
    obtain ⟨elem, toks, hq, -⟩ := hg
    rw [hq]
    rfl
  rw [hact]
  cases (m.setG (msAfterVal r)).vact with
  | none => exact hg
  | some act =>
    refine Same.element ?_ act
    refine hg.map (F := (notePeak · act)) (fun elem toks => ?_) ?_
    · unfold notePeak restale
      split <;> rfl
    · unfold notePeak
      split <;> exact ⟨rfl, rfl, rfl⟩

lemma Same.descend (sub : MapRole) (c : UInt8) : Same (m.descend sub c)
    (q.descend sub c) := by
  have hlvl : q.lvl = m.lvl := by
    obtain ⟨elem, toks, rfl, -⟩ := h
    rfl
  unfold MapJson.descend
  by_cases hdeep : m.lvl.length ≥ maprespLevels
  · have hdeep' : q.lvl.length ≥ maprespLevels := hlvl ▸ hdeep
    rw [if_pos hdeep, if_pos hdeep']
    exact h.fail
  · have hdeep' : ¬q.lvl.length ≥ maprespLevels := hlvl ▸ hdeep
    rw [if_neg hdeep, if_neg hdeep']
    refine h.map (F := fun m => { m with
      lvl := ⟨sub, if c = 123 then .objFirst else .arrFirst, ⟨1, .text⟩⟩ :: m.lvl
      out := enterOut sub m.out
      regionsSeen := if sub = .regions then 0 else m.regionsSeen }) (fun elem toks => ?_) ⟨rfl, rfl, rfl⟩
    cases sub <;> rfl

lemma Same.valueNote (r : MapRole) : Same (m.valueNote r) (q.valueNote r) := by
  refine h.map (F := (MapJson.valueNote · r)) (fun elem toks => ?_) ?_
  · cases r with
    | removed =>
      unfold MapJson.valueNote restale
      dsimp only
      split <;> rfl
    | _ => rfl
  · cases r with
    | removed =>
      unfold MapJson.valueNote
      dsimp only
      split <;> exact ⟨rfl, rfl, rfl⟩
    | _ => exact ⟨rfl, rfl, rfl⟩

lemma Same.beginValue (act : Option MapAct) (s : JsplitScan) :
    Same (m.beginValue act s) (q.beginValue act s) := by
  obtain ⟨elem, toks, rfl, -⟩ := h
  exact ⟨elem, toks, rfl, fun i hi => absurd hi (Nat.not_lt_zero i)⟩

lemma Same.valueStart (r : MapRole) (c : UInt8) : Same (m.valueStart r c)
    (q.valueStart r c) := by
  have heq : q.valueSub r c = m.valueSub r c ∧ q.valueAct r c = m.valueAct r c := by
    obtain ⟨elem, toks, rfl, -⟩ := h
    exact ⟨rfl, rfl⟩
  unfold MapJson.valueStart
  rw [heq.1]
  cases m.valueSub r c with
  | some sub => exact h.descend sub c
  | none =>
    cases tlJsplitScanBegin c with
    | more s =>
      rw [heq.2]
      exact (((h.valueNote r).setG .value).beginValue _ s).store c
    | _ => exact (h.valueNote r).fail

lemma Same.close (r : MapRole) : Same (m.close r) (q.close r) := by
  have hlvl : q.lvl = m.lvl := by
    obtain ⟨elem, toks, rfl, -⟩ := h
    rfl
  unfold MapJson.close
  by_cases hone : m.lvl.length = 1
  · rw [if_pos hone, if_pos (hlvl ▸ hone)]
    exact h.map (F := fun m => { m with done := true }) (fun _ _ => rfl) ⟨rfl, rfl, rfl⟩
  · rw [if_neg hone, if_neg (hlvl ▸ hone)]
    refine Same.setG (h.map (F := fun m => { m with out := closeOut r m.out }) (fun elem toks => ?_)
      ⟨rfl, rfl, rfl⟩) _
    cases r <;> rfl

lemma Same.objMember (r : MapRole) (c : UInt8) : Same (m.objMember r c)
    (q.objMember r c) := by
  unfold MapJson.objMember
  split_ifs
  · exact h
  · exact h.close r
  · exact Same.setG (h.map (F := fun m => { m with keyLen := 0, key := [] }) (fun _ _ => rfl)
      ⟨rfl, rfl, rfl⟩) _
  · exact h.fail

lemma Same.arrMember (r : MapRole) (c : UInt8) : Same (m.arrMember r c)
    (q.arrMember r c) := by
  unfold MapJson.arrMember
  split_ifs
  · exact h
  · exact h.close r
  · exact h.valueStart r c

lemma Same.member (r : MapRole) (g : MapGrammar) (c : UInt8) :
    Same (m.member r g c) (q.member r g c) := by
  cases g with
  | pre | colon =>
    unfold MapJson.member
    dsimp only
    split_ifs
    exacts [h, h.setG _, h.fail]
  | objAfterVal =>
    unfold MapJson.member
    dsimp only
    split_ifs
    exacts [h.setG _, h.objMember r c]
  | arrAfterVal =>
    unfold MapJson.member
    dsimp only
    split_ifs
    exacts [h.setG _, h.arrMember r c]
  | key =>
    unfold MapJson.member
    dsimp only
    split_ifs
    exacts [h.setG _, (h.setG _).keyAdd c, h.keyAdd c]
  | objVal =>
    unfold MapJson.member
    dsimp only
    split_ifs
    exacts [h, h.valueStart r c]
  | keyEsc => exact (h.setG _).keyAdd c
  | objFirst | objAfterComma => exact h.objMember r c
  | arrFirst | arrAfterComma => exact h.arrMember r c
  | value | closed => exact h

lemma Same.grammar [MapConfig] (c : UInt8) : Same (m.grammar c) (q.grammar c) := by
  have heq : q.lvl = m.lvl ∧ q.val = m.val := by
    obtain ⟨elem, toks, rfl, -⟩ := h
    exact ⟨rfl, rfl⟩
  unfold MapJson.grammar
  rw [heq.1, heq.2]
  cases m.lvl with
  | nil => exact h
  | cons l =>
    dsimp only
    split
    · cases tlJsplitScanByte m.val c with
      | err => exact h.fail
      | doneBefore => exact (h.valueEnd l.role).member _ _ c
      | done => exact (h.store c).valueEnd l.role
      | more s =>
        exact Same.store (h.map (F := (setVal · s)) (fun _ _ => rfl) ⟨rfl, rfl, rfl⟩) c
    · exact h.member _ _ c

lemma Same.setLvl (lvl : List MapLevel) : Same (m.setLvl lvl) (q.setLvl lvl) :=
  h.map (F := (MapJson.setLvl · lvl)) (fun _ _ => rfl) ⟨rfl, rfl, rfl⟩

lemma Same.popLevels (before : ℕ) (ended : List Bool) :
    Same (m.popLevels before ended) (q.popLevels before ended) := by
  have hlvl : q.lvl = m.lvl := by
    obtain ⟨elem, toks, rfl, -⟩ := h
    rfl
  unfold MapJson.popLevels
  rw [hlvl]
  generalize (if m.lvl.length > before then (m.lvl, ended) else popClosed m.lvl ended) = r
  dsimp only
  split
  · exact (h.setLvl _).fail
  · exact h.setLvl _

lemma Same.byte [MapConfig] (c : UInt8) : Same (m.byte c) (q.byte c) := by
  have hlvl : q.lvl = m.lvl := by
    obtain ⟨elem, toks, rfl, -⟩ := h
    rfl
  unfold MapJson.byte
  rw [hlvl]
  cases feedExts c m.lvl with
  | none => exact h.fail
  | some ls =>
    dsimp only
    have hg := (h.setLvl (ls.map Prod.fst)).grammar c
    have herr : ((q.setLvl (ls.map Prod.fst)).grammar c).err =
        ((m.setLvl (ls.map Prod.fst)).grammar c).err := by
      obtain ⟨elem, toks, hq, -⟩ := hg
      rw [hq]
      rfl
    rw [herr]
    split
    · exact hg
    · exact hg.popLevels _ _

lemma Same.feedEach [MapConfig] (data : Bytes) : Same (m.feedEach data) (q.feedEach data) := by
  induction data generalizing m q with
  | nil => exact h
  | cons c _ ih =>
    rw [feedEach_cons, feedEach_cons]
    refine ih ?_
    have heq : (q.err || q.done) = (m.err || m.done) := by
      obtain ⟨elem, toks, rfl, -⟩ := h
      rfl
    rw [heq]
    split
    · exact h
    · exact (h.byte c).map (F := fun m => { m with pos := m.pos + 1 }) (fun _ _ => rfl) ⟨rfl, rfl, rfl⟩

end

end Proofs

end TinyLink
