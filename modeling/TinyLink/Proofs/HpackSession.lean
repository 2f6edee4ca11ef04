import TinyLink.Proofs.HpackRefines
import TinyLink.Proofs.HpackMemory

/-!
# Header blocks of a session

Blocks one after another, each cut in any way: the decoder in memory reports the fields of RFC 7541
and stores its table.
-/

namespace TinyLink.Proofs

section Session
variable {σ : Type} {fn : σ → HpackField → σ × Bool} {M : HpackMem} {d : HpackListDec} {m : ℕ}
  {t : RfcTable}

def wholeBlock (fn : σ → HpackField → σ × Bool) (d : HpackListDec) (ctx : σ) (xs : Bytes) :
    HpackListRes σ :=
  let r := hpackDecFeed fn (hpackDecBegin d) ctx xs
  if r.rc = .ok ∧ r.dec.st ≠ .first then { r with rc := .err } else r

def wholeBlocks (fn : σ → HpackField → σ × Bool) (d : HpackListDec) (ctx : σ) :
    List Bytes → HpackListRes σ
  | [] => ⟨d, ctx, .ok⟩
  | xs :: rest =>
    let r := wholeBlock fn d ctx xs
    if r.rc = .ok then wholeBlocks fn r.dec r.ctx rest else r

lemma feedChunks_alike : ∀ (chunks : List Bytes) {M : HpackMem} {d : HpackListDec} (ctx : σ),
    SameMem M d → SameMemRes (M.feedChunks fn ctx chunks) (d.feedChunks fn ctx chunks) := by
  intro chunks
  induction chunks with
  | nil => exact fun ctx h => ⟨rfl, rfl, fun _ => h⟩
  | cons xs _ ih =>
    intro M d ctx h
    have hres : SameMemRes (hpackDecFeed fn M ctx xs) (hpackDecFeed fn d ctx xs) := feed_alike xs h ctx
    simp only [HpackDec.feedChunks, hres.rc, hres.ctx]
    split
    · next hok => exact ih _ (hres.dec hok)
    · exact hres

lemma SameMemRes.same {R : HpackRes HpackStore σ} {r r' : HpackListRes σ} (h : SameMemRes R r)
    (hs : SameRes r r') : SameMemRes R r' := by
  rcases hs with rfl | ⟨hne, hrc, hctx, _⟩
  · exact h
  · exact ⟨h.rc.trans hrc, h.ctx.trans hctx, fun hok => absurd (hrc.trans hok) hne⟩

lemma SameMem.begin (h : SameMem M d) : SameMem (hpackDecBegin M) (hpackDecBegin d) :=
  ⟨(h.packs.withSt .first).withStart true, trivial⟩

lemma leftOk_begin (d : HpackListDec) : LeftOk (hpackDecBegin d) := by
  rintro s u n ⟨⟩

lemma pieces_alike (h : SameMem M d) (ctx : σ) (chunks : List Bytes) :
    SameMemRes ((hpackDecBegin M).feedChunks fn ctx chunks)
      (hpackDecFeed fn (hpackDecBegin d) ctx chunks.flatten) :=
  (feedChunks_alike chunks ctx h.begin).same (feedChunks_eq chunks ctx (leftOk_begin d))

lemma block_alike (h : SameMem M d) (ctx : σ) (chunks : List Bytes) :
    SameMemRes (M.block fn ctx chunks) (wholeBlock fn d ctx chunks.flatten) := by
  have hres : SameMemRes ((hpackDecBegin M).feedChunks fn ctx chunks) _ := pieces_alike h ctx chunks
  have hcond : (((hpackDecBegin M).feedChunks fn ctx chunks).rc = .ok ∧
      ((hpackDecBegin M).feedChunks fn ctx chunks).dec.st ≠ .first) ↔
      ((hpackDecFeed fn (hpackDecBegin d) ctx chunks.flatten).rc = .ok ∧
        (hpackDecFeed fn (hpackDecBegin d) ctx chunks.flatten).dec.st ≠ .first) := by
    rw [hres.rc]
    refine and_congr_right fun hok => ?_
    rw [(hres.dec hok).packs.same.2.2.2.1]
  simp only [HpackDec.block, wholeBlock, hcond]
  split
  · exact ⟨rfl, hres.ctx, nofun⟩
  · exact hres

lemma blocks_alike : ∀ (blocks : List (List Bytes)) {M : HpackMem} {d : HpackListDec} (ctx : σ),
    SameMem M d →
    SameMemRes (M.blocks fn ctx blocks) (wholeBlocks fn d ctx (blocks.map List.flatten)) := by
  intro blocks
  induction blocks with
  | nil => exact fun ctx h => ⟨rfl, rfl, fun _ => h⟩
  | cons chunks blocks ih =>
    intro M d ctx h
    have hres : SameMemRes (M.block fn ctx chunks) _ := block_alike h ctx chunks
    simp only [HpackDec.blocks, List.map_cons, wholeBlocks, hres.rc, hres.ctx]
    split
    · next hok => exact ih _ (hres.dec hok)
    · exact hres

lemma Holds.begin (h : Holds m d t) : Holds m (hpackDecBegin d) t := h.withSt .first true

lemma wholeBlock_follows (hfn : ∀ ctx f, (fn ctx f).2 = true) (h : Holds m d t) (ctx : σ)
    (xs : Bytes) : ∃ n fs s, rfcRun m n ⟨t, true, xs⟩ = some (fs, s) ∧
      (wholeBlock fn d ctx xs).ctx = reports fn ctx fs ∧
      ((s.rest = [] ∧ (wholeBlock fn d ctx xs).rc = .ok ∧
          Holds m (wholeBlock fn d ctx xs).dec s.table) ∨
        ((wholeBlock fn d ctx xs).rc ≠ .ok ∧ ∃ b bs, s.rest = b :: bs ∧
          (rfcStep m s = none ∨ HitsLimit s.table b bs))) := by
  obtain ⟨n, fs, s, hrun, hfol⟩ :=
    feed_follows hfn xs.length xs (hpackDecBegin d) ctx t (Nat.le_refl _) h.begin rfl
  refine ⟨n, fs, s, hrun, ?_⟩
  unfold wholeBlock
  dsimp only
  cases hrest : s.rest with
  | nil =>
    obtain ⟨hok, hst, hholds⟩ := hfol.whole hrest
    rw [if_neg (fun hc => hc.2 hst)]
    exact ⟨hfol.reported, .inl ⟨rfl, hok, hholds⟩⟩
  | cons b bs =>
    obtain ⟨hwhy, hmid⟩ := hfol.stuck b bs hrest
    split
    · exact ⟨hfol.reported, .inr ⟨nofun, b, bs, rfl, hwhy⟩⟩
    · next hc =>
      exact ⟨hfol.reported, .inr ⟨fun hok => hc ⟨hok, (hmid hok).1⟩, b, bs, rfl, hwhy⟩⟩

/-- All blocks accepted, or those before one in which the reference stops at the same representation
or a limit is met. -/
def BlocksFollow (m : ℕ) (t : RfcTable) (fn : σ → HpackField → σ × Bool) (ctx : σ)
    (blocks : List Bytes) (r : HpackListRes σ) : Prop :=
  (r.rc = .ok ∧ ∃ fs t', RfcBlocks m t blocks fs t' ∧ r.ctx = reports fn ctx fs ∧
      Holds m r.dec t') ∨
    (r.rc ≠ .ok ∧ ∃ done block rest fs t' n fs' s b bs, blocks = done ++ block :: rest ∧
      RfcBlocks m t done fs t' ∧ rfcRun m n ⟨t', true, block⟩ = some (fs', s) ∧
      r.ctx = reports fn ctx (fs ++ fs') ∧ s.rest = b :: bs ∧
      (rfcStep m s = none ∨ HitsLimit s.table b bs))

lemma wholeBlocks_follow (hfn : ∀ ctx f, (fn ctx f).2 = true) : ∀ (blocks : List Bytes)
    {d : HpackListDec} {t : RfcTable} (ctx : σ), Holds m d t →
    BlocksFollow m t fn ctx blocks (wholeBlocks fn d ctx blocks) := by
  intro blocks
  induction blocks with
  | nil => exact fun ctx h => .inl ⟨rfl, [], _, .nil _, rfl, h⟩
  | cons xs blocks ih =>
    intro d t ctx h
    obtain ⟨n, fs, s, hrun, hctx, ⟨hrest, hok, hholds⟩ | ⟨hne, b, bs, hrest, hwhy⟩⟩ :=
      wholeBlock_follows hfn h ctx xs
    · simp only [wholeBlocks, if_pos hok]
      rcases ih (wholeBlock fn d ctx xs).ctx hholds with
        ⟨hok', fs', t', hblocks, hctx', hholds'⟩ |
        ⟨hne, done, block, rest, fs', t', n', fs'', s', b, bs, hsplit, hblocks, hrun', hctx', hstop⟩
      · left
        refine ⟨hok', fs ++ fs', t', .cons hrun hrest hblocks, ?_, hholds'⟩
        rw [hctx', hctx, reports_append]
      · right
        refine ⟨hne, xs :: done, block, rest, fs ++ fs', t', n', fs'', s', b, bs, ?_,
          .cons hrun hrest hblocks, hrun', ?_, hstop⟩
        · rw [hsplit, List.cons_append]
        · rw [hctx', hctx, List.append_assoc, reports_append fs]
    · simp only [wholeBlocks, if_neg hne]
      exact .inr ⟨hne, [], xs, blocks, [], t, n, fs, s, b, bs, rfl, .nil t, hrun, hctx, hrest,
        hwhy⟩

lemma filterMap_range_getElem? {α : Type} (l : List α) :
    ((List.range l.length).filterMap fun j => l[j]?) = l := by
  induction l with
  | nil => rfl
  | cons a l ih =>
    rw [List.length_cons, List.range_succ_eq_map, List.filterMap_cons, List.filterMap_map]
    simp only [List.getElem?_cons_zero, Function.comp_def, List.getElem?_cons_succ, ih]

lemma Packs.stored (h : Packs M d) : M.tab.stored = d.tab := by
  unfold HpackStore.stored
  rw [h.count]
  refine Eq.trans ?_ (filterMap_range_getElem? d.tab)
  congr 1
  funext j
  refine (h.entry _).trans ?_
  dsimp only [HpackTable.entry?]
  rw [if_neg (by omega), if_neg (by omega)]
  congr 1
  omega

lemma sameMem_init (tab : Bytes) {maxSize : ℕ} (hmax : maxSize < 2 ^ 21) :
    SameMem (HpackMem.init tab maxSize) (hpackDecInit tab.length maxSize) := by
  refine ⟨⟨⟨tab, rfl⟩, rfl, rfl, rfl, rfl, ?_, Nat.zero_le _, Nat.le_refl _, hmax, rfl, rfl, rfl,
    rfl, rfl⟩, trivial⟩
  intro e he
  cases he

lemma holds_init {tabCap maxSize : ℕ} (hcap : maxSize ≤ tabCap) :
    Holds maxSize (hpackDecInit tabCap maxSize) ⟨[], maxSize⟩ :=
  ⟨rfl, rfl, rfl, Nat.zero_le _, Nat.le_refl _, hcap⟩

lemma midBlock_follows (hfn : ∀ ctx f, (fn ctx f).2 = true) (h : SameMem M d) (hholds : Holds m d t)
    (ctx : σ) (chunks : List Bytes) (hok : ((hpackDecBegin M).feedChunks fn ctx chunks).rc = .ok) :
    ∃ n fs s, rfcRun m n ⟨⟨M.tab.stored, M.sizeLimit⟩, true, chunks.flatten⟩ = some (fs, s) ∧
      ((hpackDecBegin M).feedChunks fn ctx chunks).ctx = reports fn ctx fs ∧
      ((hpackDecBegin M).feedChunks fn ctx chunks).dec.tab.stored = s.table.entries ∧
      ((hpackDecBegin M).feedChunks fn ctx chunks).dec.sizeLimit = s.table.limit := by
  have ht : (⟨M.tab.stored, M.sizeLimit⟩ : RfcTable) = t := by
    rw [h.packs.stored, h.packs.same.2.2.1, hholds.tab, hholds.limit]
  have hres : SameMemRes _ (hpackDecFeed fn _ ctx _) := pieces_alike h ctx chunks
  have hokd := hres.rc ▸ hok
  have hpacks := (hres.dec hokd).packs
  obtain ⟨n, fs, s, hrun, hfol⟩ := feed_follows hfn chunks.flatten.length chunks.flatten
    (hpackDecBegin d) ctx t (Nat.le_refl _) hholds.begin rfl
  refine ⟨n, fs, s, ht ▸ hrun, hres.ctx.trans hfol.reported, ?_⟩
  rw [hpacks.stored, hpacks.same.2.2.1]
  cases hrest : s.rest with
  | nil =>
    obtain ⟨_, _, hholds'⟩ := hfol.whole hrest
    exact ⟨hholds'.tab, hholds'.limit⟩
  | cons b bs => exact ((hfol.stuck b bs hrest).2 hokd).2

end Session

/-- How header blocks are cut makes no difference; the decoder accepts them with the fields and the
table of RFC 7541, or has reported its fields up to a representation where that stops too or that
meets a documented limit; inside a block it has those of the complete representations. -/
theorem hpack_refines_rfc7541 {σ : Type} (fn : σ → HpackField → σ × Bool)
    (hfn : ∀ ctx f, (fn ctx f).2 = true) (tab : Bytes) {maxSize : ℕ} (hmax : maxSize < 2 ^ 21)
    (hcap : maxSize ≤ tab.length) (ctx : σ) (blocks : List (List Bytes)) (R : HpackRes HpackStore σ)
    (hR : R = (HpackMem.init tab maxSize).blocks fn ctx blocks) :
    (∀ blocks' R', blocks'.map List.flatten = blocks.map List.flatten →
      R' = (HpackMem.init tab maxSize).blocks fn ctx blocks' → R'.rc = R.rc ∧ R'.ctx = R.ctx ∧
        (R.rc = .ok → R'.dec.tab.stored = R.dec.tab.stored ∧ R'.dec.sizeLimit = R.dec.sizeLimit)) ∧
    ((R.rc = .ok ∧ ∃ fs t, RfcBlocks maxSize ⟨[], maxSize⟩ (blocks.map List.flatten) fs t ∧
        R.ctx = reports fn ctx fs ∧ R.dec.tab.stored = t.entries ∧ R.dec.sizeLimit = t.limit) ∨
      (R.rc ≠ .ok ∧ ∃ done block rest fs t n fs' s b bs,
        blocks.map List.flatten = done ++ block :: rest ∧
        RfcBlocks maxSize ⟨[], maxSize⟩ done fs t ∧
        rfcRun maxSize n ⟨t, true, block⟩ = some (fs', s) ∧ R.ctx = reports fn ctx (fs ++ fs') ∧
        s.rest = b :: bs ∧ (rfcStep maxSize s = none ∨ HitsLimit s.table b bs))) ∧
    (R.rc = .ok → ∀ chunks R', R' = (hpackDecBegin R.dec).feedChunks fn R.ctx chunks → R'.rc = .ok → ∃ n fs s,
        rfcRun maxSize n ⟨⟨R.dec.tab.stored, R.dec.sizeLimit⟩, true, chunks.flatten⟩ = some (fs, s) ∧
        R'.ctx = reports fn R.ctx fs ∧ R'.dec.tab.stored = s.table.entries ∧
        R'.dec.sizeLimit = s.table.limit) := by
  subst hR
  have hinit := sameMem_init tab hmax
  have hres : SameMemRes _ (wholeBlocks fn _ ctx _) := blocks_alike blocks ctx hinit
  have hfollow := wholeBlocks_follow hfn (blocks.map List.flatten) ctx (holds_init hcap)
  refine ⟨?_, ?_, ?_⟩
  · rintro blocks' R' hsame rfl
    have hres' : SameMemRes _ (wholeBlocks fn _ ctx _) := blocks_alike blocks' ctx hinit
    rw [hsame] at hres'
    refine ⟨hres'.rc.trans hres.rc.symm, hres'.ctx.trans hres.ctx.symm, fun hok => ?_⟩
    have hd := (hres.dec (hres.rc ▸ hok)).packs
    have hd' := (hres'.dec (hres.rc ▸ hok)).packs
    exact ⟨hd'.stored.trans hd.stored.symm, hd'.same.2.2.1.trans hd.same.2.2.1.symm⟩
  · rcases hfollow with ⟨hok, fs, t, hblocks, hctx, hholds⟩ | ⟨hne, hstop⟩
    · have hd := (hres.dec hok).packs
      exact .inl ⟨hres.rc.trans hok, fs, t, hblocks, hres.ctx.trans hctx,
        hd.stored.trans hholds.tab, hd.same.2.2.1.trans hholds.limit⟩
    · refine .inr ⟨hres.rc ▸ hne, ?_⟩
      rw [hres.ctx]
      exact hstop
  · rintro hok chunks R' rfl hok'
    have hokd := hres.rc ▸ hok
    have halike := hres.dec hokd
    rcases hfollow with ⟨_, fs, t, _, _, hholds⟩ | ⟨hne, _⟩
    · exact midBlock_follows hfn halike hholds _ chunks hok'
    · exact absurd hokd hne

/-- Whatever the callback does, the table lies packed at the start of its buffer, and the counters are
those of its entries. -/
theorem hpack_table_packed {σ : Type} (fn : σ → HpackField → σ × Bool) (tab : Bytes) {maxSize : ℕ}
    (hmax : maxSize < 2 ^ 21) (ctx : σ) (blocks : List (List Bytes)) (R : HpackRes HpackStore σ)
    (hR : R = (HpackMem.init tab maxSize).blocks fn ctx blocks) (hok : R.rc = .ok) :
    R.dec.tab.bytes.length = R.dec.tabCap ∧
      (∃ rest, R.dec.tab.bytes = packAll R.dec.tab.stored ++ rest) ∧
      R.dec.tab.used = hpackTabUsed R.dec.tab.stored ∧ R.dec.tab.count = R.dec.tab.stored.length ∧
      R.dec.tab.size = hpackTabSize R.dec.tab.stored ∧ R.dec.tab.size ≤ R.dec.maxSize := by
  subst hR
  have hres : SameMemRes _ (wholeBlocks fn _ ctx _) := blocks_alike blocks ctx (sameMem_init tab hmax)
  have h := (hres.dec (hres.rc ▸ hok)).packs
  rw [h.stored, h.size, h.same.2.1]
  exact ⟨h.length, h.bytes, h.used, h.count, rfl, h.small⟩

section Sample

def collect (fs : List HpackField) (f : HpackField) : List HpackField × Bool := (fs ++ [f], true)

def indexedTwice : List (List Bytes) := [[[0x40, 0x01, 0x61, 0x01], [0x62]], [[0xbe]]]

theorem indexed_field_twice :
    ∃ fs t, RfcBlocks 128 ⟨[], 128⟩ [[0x40, 0x01, 0x61, 0x01, 0x62], [0xbe]] fs t ∧
      ((HpackMem.init (List.replicate 128 0) 128).blocks collect [] indexedTwice).ctx =
        reports collect [] fs ∧
      ((HpackMem.init (List.replicate 128 0) 128).blocks collect [] indexedTwice).dec.tab.stored =
        t.entries := by
  have h := hpack_refines_rfc7541 collect (fun _ _ => rfl) (List.replicate 128 0)
    (by decide : 128 < 2 ^ 21) (by simp) [] indexedTwice _ rfl
  rcases h.2.1 with ⟨_, fs, t, hblocks, hctx, hstored, _⟩ | ⟨hne, _⟩
  · exact ⟨fs, t, hblocks, hctx, hstored⟩
  · exact absurd (by decide +kernel) hne

theorem indexed_field_packed : ∃ R rest,
    R = (HpackMem.init (List.replicate 128 0) 128).blocks collect [] indexedTwice ∧
      R.dec.tab.bytes = packAll R.dec.tab.stored ++ rest := by
  obtain ⟨_, ⟨rest, hrest⟩, _⟩ := hpack_table_packed collect (List.replicate 128 0)
    (by decide : 128 < 2 ^ 21) [] indexedTwice _ rfl (by decide +kernel)
  exact ⟨_, rest, rfl, hrest⟩

end Sample

end TinyLink.Proofs
