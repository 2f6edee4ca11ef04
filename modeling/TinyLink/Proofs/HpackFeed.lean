import TinyLink.Hpack
import Mathlib.Tactic.SplitIfs

/-!
# Feeding the HPACK decoder

What one pass of the decoder can do to the callback's state and to its table, and that a block may
be fed in any pieces.
-/

namespace TinyLink.Proofs

/-- The decoder of a session that advertises no table: it keeps none, and a string in progress has
bytes to come. -/
structure Bare (d : HpackListDec) : Prop where
  tab : d.tab = []
  maxSize : d.maxSize = 0
  sizeLimit : d.sizeLimit = 0
  left : ∀ s u n, d.st = .str s u n → 0 < n

lemma Bare.withSt {d : HpackListDec} (hd : Bare d) {st : HpackSt}
    (hst : ∀ s u n, st = .str s u n → 0 < n) : Bare { d with st := st } :=
  ⟨hd.tab, hd.maxSize, hd.sizeLimit, hst⟩

lemma bare_begin {d : HpackListDec} (hd : Bare d) : Bare (hpackDecBegin d) :=
  ⟨hd.tab, hd.maxSize, hd.sizeLimit, fun _ _ _ h => by cases h⟩

section Decoder
variable {σ : Type} {fn : σ → HpackField → σ × Bool}

/-- One step of the decoder calls back at most once, and keeps no table. -/
structure Fed (fn : σ → HpackField → σ × Bool) (d : HpackListDec) (ctx : σ) (r : HpackListRes σ) : Prop where
  calls : r.ctx = ctx ∨ ∃ f, r.ctx = (fn ctx f).1
  bare : Bare d → Bare r.dec

lemma Fed.silent {d d' : HpackListDec} {ctx : σ} {rc : HpackRc} (hb : Bare d → Bare d') :
    Fed fn d ctx ⟨d', ctx, rc⟩ := ⟨.inl rfl, hb⟩

lemma bare_evict {d : HpackListDec} (limit : ℕ) (hd : Bare d) : d.dynEvictTo limit = d := by
  cases d
  obtain rfl := hd.tab
  rfl

lemma bare_insert {d : HpackListDec} (v : HpackValue) (hd : Bare d) : Bare (d.dynInsert v).1 := by
  have hbig : 32 + v.nameTotal + v.total > d.sizeLimit := by rw [hd.sizeLimit]; omega
  have hins : (d.dynInsert v).1 = d.dynEvictTo 0 := by
    simp only [HpackDec.dynInsert, if_pos hbig]
  rwa [hins, bare_evict 0 hd]

variable (d : HpackListDec) (ctx : σ) (what : HpackIntFor)

lemma emit_fed (v : HpackValue) : Fed fn d ctx (d.emit fn ctx v) := by
  unfold HpackDec.emit
  dsimp only
  generalize hi : (if v.rep = .incr then d.dynInsert _ else (d, .ok)) = ins
  have hb : Bare d → Bare ins.1 := by
    rw [← hi]
    intro hd
    split
    · exact bare_insert _ hd
    · exact hd
  split
  · exact .silent hb
  · exact ⟨.inr ⟨_, rfl⟩, fun hd => (hb hd).withSt fun _ _ _ h => by cases h⟩

lemma strDone_fed (s : HpackStr) (u : Option HpackHuff) : Fed fn d ctx (d.strDone fn ctx s u) := by
  unfold HpackDec.strDone
  split
  · exact .silent id
  · cases s with
    | name => exact .silent fun hd => hd.withSt fun _ _ _ h => by cases h
    | value v => exact emit_fed d ctx v

lemma Fed.ofSt {d : HpackListDec} {ctx : σ} {r : HpackListRes σ} (st : HpackSt)
    (hst : ∀ s u n, st = .str s u n → 0 < n) (hr : Fed fn { d with st := st } ctx r) :
    Fed fn d ctx r := ⟨hr.calls, fun hd => hr.bare (hd.withSt hst)⟩

lemma intDone_fed (v : ℕ) : Fed fn d ctx (d.intDone fn ctx what v) := by
  refine Fed.ofSt .first (fun _ _ _ h => by cases h) ?_
  unfold HpackDec.intDone
  cases what with
  | indexed =>
    dsimp only
    split
    · exact .silent id
    · exact emit_fed _ ctx _
  | name =>
    dsimp only
    split
    · exact .silent fun hd => hd.withSt fun _ _ _ h => by cases h
    · split
      · exact .silent id
      · exact .silent fun hd => hd.withSt fun _ _ _ h => by cases h
  | size =>
    dsimp only
    split
    · exact .silent id
    case isFalse hv =>
      refine .silent fun hd => ?_
      have hmax : d.maxSize = 0 := hd.maxSize
      have hz : v = 0 := by omega
      have hd' : Bare { d with sizeLimit := v, st := .first } := ⟨hd.tab, hd.maxSize, hz, hd.left⟩
      exact (bare_evict v hd').symm ▸ hd'
  | strlen s =>
    dsimp only
    split
    · exact .silent id
    · split
      · exact strDone_fed _ ctx s _
      case isFalse hv =>
        refine .silent fun hd => hd.withSt ?_
        rintro s' u n ⟨⟩
        omega

lemma intStart_fed (v mask : ℕ) : Fed fn d ctx (d.intStart fn ctx what v mask) := by
  unfold HpackDec.intStart
  split
  · exact intDone_fed d ctx what v
  · exact .silent fun hd => hd.withSt fun _ _ _ h => by cases h

lemma firstByte_fed (b : UInt8) : Fed fn d ctx (d.firstByte fn ctx b) := by
  unfold HpackDec.firstByte
  split
  · split
    · exact .silent id
    · exact intStart_fed d ctx _ _ _
  · have hstart : ∀ what v mask,
        Fed fn d ctx (({ d with blockStart := false } : HpackListDec).intStart fn ctx what v mask) :=
      fun what v mask => ⟨(intStart_fed _ ctx what v mask).calls, fun hd =>
        (intStart_fed _ ctx what v mask).bare ⟨hd.tab, hd.maxSize, hd.sizeLimit, hd.left⟩⟩
    split_ifs <;> apply hstart

lemma intByte_fed (val shift : ℕ) (b : UInt8) :
    Fed fn d ctx (d.intByte fn ctx what val shift b) := by
  unfold HpackDec.intByte
  dsimp only
  split_ifs
  · exact .silent id
  · exact .silent id
  · exact .silent fun hd => hd.withSt fun _ _ _ h => by cases h
  · exact intDone_fed d ctx what _

lemma strChunk_fed (s : HpackStr) (u : Option HpackHuff) (left : ℕ)
    (bs : Bytes) : Fed fn d ctx (d.strChunk fn ctx s u left bs) := by
  unfold HpackDec.strChunk
  split
  · exact .silent id
  · split
    · exact strDone_fed d ctx _ _
    case isFalse hl =>
      refine .silent fun hd => hd.withSt ?_
      rintro s' u' n ⟨⟩
      omega

lemma pass_fed (b : UInt8) (rest : Bytes) : Fed fn d ctx (d.pass fn ctx b rest).1 := by
  unfold HpackDec.pass
  split
  · exact firstByte_fed d ctx b
  · exact intByte_fed d ctx _ _ _ b
  · exact intStart_fed d ctx _ _ _
  · exact strChunk_fed d ctx _ _ _ _

theorem hpackDecFeed_ctx {P : σ → Prop} (hfn : ∀ ctx f, P ctx → P (fn ctx f).1) (d : HpackListDec)
    (ctx : σ) (input : Bytes) (hp : P ctx) : P (hpackDecFeed fn d ctx input).ctx := by
  unfold hpackDecFeed
  generalize input.length = fuel
  induction fuel generalizing d ctx input with
  | zero => cases input <;> exact hp
  | succ _ ih =>
    cases input with
    | nil => exact hp
    | cons b rest =>
      have hpass : P (d.pass fn ctx b rest).1.ctx := by
        have hfed : Fed fn d ctx (d.pass fn ctx b rest).1 := pass_fed d ctx b rest
        rcases hfed.calls with hc | ⟨f, hc⟩
        · rw [hc]
          exact hp
        · rw [hc]
          exact hfn ctx f hp
      unfold hpackFeedLoop
      dsimp only
      split
      · exact ih _ _ _ hpass
      · exact hpass

theorem hpackDecFeed_bare (fn : σ → HpackField → σ × Bool) (d : HpackListDec) (ctx : σ) (input : Bytes)
    (hd : Bare d) : Bare (hpackDecFeed fn d ctx input).dec := by
  unfold hpackDecFeed
  generalize input.length = fuel
  induction fuel generalizing d ctx input with
  | zero => cases input <;> exact hd
  | succ _ ih =>
    cases input with
    | nil => exact hd
    | cons b rest =>
      have hpass := (pass_fed d ctx b rest : Fed fn d ctx _).bare hd
      unfold hpackFeedLoop
      dsimp only
      split
      · exact ih _ _ _ hpass
      · exact hpass

end Decoder

end TinyLink.Proofs
