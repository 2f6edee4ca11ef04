import TinyLink.Proofs.HpackFeed

/-!
# A header block in pieces

`hpack_dec_feed` on the pieces of a block does what it does on the block.
-/

namespace TinyLink.Proofs

section Decoder
variable {σ : Type} {fn : σ → HpackField → σ × Bool} {d : HpackListDec} {r r' : HpackListRes σ}

def LeftOk (d : HpackListDec) : Prop := ∀ s u n, d.st = .str s u n → 0 < n

lemma leftOk_of_st {st : HpackSt} (h : ∀ s u n, st ≠ .str s u n) :
    LeftOk { d with st := st } := fun s u n hst => absurd hst (h s u n)

@[simp] lemma dynInsert_st (d : HpackListDec) (v : HpackValue) : (d.dynInsert v).1.st = d.st := by
  unfold HpackDec.dynInsert
  dsimp only
  split_ifs <;> rfl

lemma emit_leftOk (h : LeftOk d) (ctx : σ) (v : HpackValue) : LeftOk (d.emit fn ctx v).dec := by
  unfold HpackDec.emit
  dsimp only
  generalize hi : (if v.rep = .incr then d.dynInsert _ else (d, .ok)) = ins
  have hst : ins.1.st = d.st := by
    rw [← hi]
    split
    · exact dynInsert_st d _
    · rfl
  split
  · intro s u n hs
    exact h s u n (hst.symm.trans hs)
  · exact leftOk_of_st fun _ _ _ h => nomatch h

lemma strDone_leftOk (h : LeftOk d) (ctx : σ) (s : HpackStr)
    (u : Option HpackHuff) : LeftOk (d.strDone fn ctx s u).dec := by
  unfold HpackDec.strDone
  split
  · exact h
  · cases s with
    | name => exact leftOk_of_st fun _ _ _ h => nomatch h
    | value v => exact emit_leftOk h ctx v

lemma intDone_leftOk (d : HpackListDec) (ctx : σ) (what : HpackIntFor) (v : ℕ) :
    LeftOk (d.intDone fn ctx what v).dec := by
  have hfirst : LeftOk { d with st := .first } := leftOk_of_st fun _ _ _ h => nomatch h
  unfold HpackDec.intDone
  cases what with
  | indexed =>
    dsimp only
    split
    · exact hfirst
    · exact emit_leftOk hfirst ctx _
  | name =>
    dsimp only
    split
    · rintro s u n ⟨⟩
    · split
      · exact hfirst
      · rintro s u n ⟨⟩
  | size =>
    dsimp only
    split
    · exact hfirst
    · rintro s u n ⟨⟩
  | strlen s =>
    dsimp only
    split
    · exact hfirst
    · split
      · exact strDone_leftOk hfirst ctx s _
      case isFalse hv =>
        rintro s' u n ⟨⟩
        omega

lemma intStart_leftOk (d : HpackListDec) (ctx : σ) (what : HpackIntFor) (v mask : ℕ) :
    LeftOk (d.intStart fn ctx what v mask).dec := by
  unfold HpackDec.intStart
  split
  · exact intDone_leftOk d ctx what v
  · exact leftOk_of_st fun _ _ _ h => nomatch h

lemma firstByte_leftOk (h : LeftOk d) (ctx : σ) (b : UInt8) :
    LeftOk (d.firstByte fn ctx b).dec := by
  unfold HpackDec.firstByte
  split
  · split
    · exact h
    · exact intStart_leftOk d ctx _ _ _
  · split_ifs <;> exact intStart_leftOk _ ctx _ _ _

lemma pass_leftOk (h : LeftOk d) (ctx : σ) (b : UInt8) (rest : Bytes) :
    LeftOk (d.pass fn ctx b rest).1.dec := by
  unfold HpackDec.pass
  split
  · exact firstByte_leftOk h ctx b
  · unfold HpackDec.intByte
    dsimp only
    split_ifs
    · exact h
    · exact h
    · exact leftOk_of_st fun _ _ _ h => nomatch h
    · exact intDone_leftOk d ctx _ _
  · exact intStart_leftOk d ctx _ _ _
  · unfold HpackDec.strChunk
    split
    · exact h
    · split
      · exact strDone_leftOk h ctx _ _
      case isFalse hl =>
        rintro s' u' n ⟨⟩
        omega

lemma pass_rest_length (fn : σ → HpackField → σ × Bool) (h : LeftOk d) (ctx : σ) (b : UInt8)
    (rest : Bytes) : (d.pass fn ctx b rest).2.length ≤ rest.length := by
  unfold HpackDec.pass
  split
  · exact Nat.le_refl _
  · exact Nat.le_refl _
  · exact Nat.le_refl _
  · next s u left hst =>
    have hpos := h s u left hst
    rw [List.length_drop, List.length_cons]
    omega

lemma hpackFeedLoop_fuel : ∀ (n fuel : ℕ) (d : HpackListDec) (ctx : σ) (input : Bytes), LeftOk d →
    input.length ≤ n → input.length ≤ fuel →
    hpackFeedLoop fn fuel d ctx input = hpackFeedLoop fn n d ctx input := by
  intro n
  induction n with
  | zero =>
    intro fuel d ctx input _ hn _
    obtain rfl := List.eq_nil_of_length_eq_zero (Nat.le_zero.mp hn)
    cases fuel <;> rfl
  | succ n ih =>
    intro fuel d ctx input hd hn hfuel
    cases input with
    | nil => cases fuel <;> rfl
    | cons b rest =>
      rw [List.length_cons] at hn hfuel
      obtain ⟨fuel, rfl⟩ : ∃ k, fuel = k + 1 := ⟨fuel - 1, by omega⟩
      have hlen := pass_rest_length fn hd ctx b rest
      simp only [hpackFeedLoop]
      split
      · exact ih fuel _ _ _ (pass_leftOk hd ctx b rest) (by omega) (by omega)
      · rfl

def resume (fn : σ → HpackField → σ × Bool) (r : HpackListRes σ) (rest : Bytes) : HpackListRes σ :=
  if r.rc = .ok then hpackDecFeed fn r.dec r.ctx rest else r

@[simp] lemma hpackDecFeed_nil (d : HpackListDec) (ctx : σ) :
    hpackDecFeed fn d ctx [] = ⟨d, ctx, .ok⟩ := rfl

lemma hpackDecFeed_cons (h : LeftOk d) (ctx : σ) (b : UInt8) (rest : Bytes) :
    hpackDecFeed fn d ctx (b :: rest) =
      resume fn (d.pass fn ctx b rest).1 (d.pass fn ctx b rest).2 := by
  have hlen := pass_rest_length fn h ctx b rest
  unfold resume hpackDecFeed
  rw [List.length_cons, hpackFeedLoop]
  split
  · exact hpackFeedLoop_fuel _ _ _ _ _ (pass_leftOk h ctx b rest) (Nat.le_refl _) hlen
  · rfl

lemma hpackDecFeed_leftOk : ∀ (n : ℕ) {d : HpackListDec} (ctx : σ) (input : Bytes),
    input.length ≤ n → LeftOk d → LeftOk (hpackDecFeed fn d ctx input).dec := by
  intro n
  induction n with
  | zero =>
    intro d ctx input hn hd
    obtain rfl := List.eq_nil_of_length_eq_zero (Nat.le_zero.mp hn)
    exact hd
  | succ n ih =>
    intro d ctx input hn hd
    cases input with
    | nil => exact hd
    | cons b rest =>
      have hlen := pass_rest_length fn hd ctx b rest
      rw [List.length_cons] at hn
      rw [hpackDecFeed_cons hd, resume]
      split
      · exact ih _ _ (by omega) (pass_leftOk hd ctx b rest)
      · exact pass_leftOk hd ctx b rest

/-- The same result, up to where in the field in progress an error was met. -/
def SameRes (r r' : HpackListRes σ) : Prop :=
  r = r' ∨ (r.rc ≠ .ok ∧ r.rc = r'.rc ∧ r.ctx = r'.ctx ∧
    ({ r.dec with st := .first } : HpackListDec) = { r'.dec with st := .first })

lemma SameRes.rfl : SameRes r r := .inl (Eq.refl _)

lemma SameRes.symm (h : SameRes r r') : SameRes r' r := by
  rcases h with rfl | ⟨hne, hrc, hctx, hdec⟩
  · exact .rfl
  · exact .inr ⟨hrc ▸ hne, hrc.symm, hctx.symm, hdec.symm⟩

lemma SameRes.resume (h : SameRes r r') (rest : Bytes) :
    SameRes (resume fn r rest) (resume fn r' rest) := by
  rcases h with rfl | ⟨hne, hrc, hctx, hdec⟩
  · exact .rfl
  · unfold Proofs.resume
    rw [if_neg hne, if_neg (hrc ▸ hne)]
    exact .inr ⟨hne, hrc, hctx, hdec⟩

lemma dynInsert_withSt (d : HpackListDec) (st : HpackSt) (v : HpackValue) :
    ({ d with st := st } : HpackListDec).dynInsert v =
      ({ (d.dynInsert v).1 with st := st }, (d.dynInsert v).2) := by
  unfold HpackDec.dynInsert HpackDec.dynEvictTo
  dsimp only
  split_ifs <;> rfl

lemma emit_withSt (d : HpackListDec) (st : HpackSt) (ctx : σ) (v : HpackValue) :
    SameRes (({ d with st := st } : HpackListDec).emit fn ctx v) (d.emit fn ctx v) := by
  unfold HpackDec.emit
  generalize (if v.total > 0 && _ then _ else v.fflags) = fflags
  by_cases hrep : v.rep = .incr
  · simp only [if_pos hrep, dynInsert_withSt]
    split
    case isTrue hne => exact .inr ⟨hne, rfl, rfl, rfl⟩
    case isFalse => exact .rfl
  · simp only [if_neg hrep]
    exact .rfl

lemma strDone_withSt (d : HpackListDec) (st : HpackSt) (ctx : σ) (s : HpackStr) (u : Option HpackHuff) :
    SameRes (({ d with st := st } : HpackListDec).strDone fn ctx s u) (d.strDone fn ctx s u) := by
  unfold HpackDec.strDone
  split
  · exact .inr ⟨nofun, rfl, rfl, rfl⟩
  · cases s with
    | name => exact .rfl
    | value v => exact emit_withSt d st ctx v

lemma strBytes_append (s : HpackStr) (u : Option HpackHuff) (xs ys : Bytes) :
    strBytes s u (xs ++ ys) = (strBytes s u xs).bind fun r => strBytes r.1 r.2 ys := by
  cases u with
  | none => simp [strBytes, List.foldl_append]
  | some u =>
    simp only [strBytes, List.foldlM_append, Option.bind_eq_bind]
    cases xs.foldlM huffByte (s, u) with
    | none | some => rfl

lemma strChunk_append {ctx : σ} {s s' : HpackStr} {u u' : Option HpackHuff}
    {left : ℕ} {xs ys : Bytes} (hxs : strBytes s u xs = some (s', u')) :
    SameRes (d.strChunk fn ctx s u left (xs ++ ys))
      (({ d with st := .str s' u' (left - xs.length) } : HpackListDec).strChunk fn ctx s' u'
        (left - xs.length) ys) := by
  unfold HpackDec.strChunk
  rw [strBytes_append, hxs, Option.bind_some, List.length_append, Nat.sub_add_eq]
  cases strBytes s' u' ys with
  | none => exact .inr ⟨nofun, rfl, rfl, rfl⟩
  | some r =>
    dsimp only
    split
    · exact (strDone_withSt d _ ctx r.1 r.2).symm
    · exact .rfl

lemma strChunk_cut (d : HpackListDec) (ctx : σ) (s : HpackStr) (u : Option HpackHuff) {left : ℕ}
    {xs : Bytes} (ys : Bytes) (hlt : xs.length < left) : SameRes
      (resume fn (d.strChunk fn ctx s u left (xs ++ ys.take (left - xs.length)))
        (ys.drop (left - xs.length)))
      (resume fn (resume fn (d.strChunk fn ctx s u left xs) []) ys) := by
  cases hxs : strBytes s u xs with
  | none =>
    have hone : d.strChunk fn ctx s u left xs = ⟨d, ctx, .err⟩ := by
      simp only [HpackDec.strChunk, hxs]
    have htwo : d.strChunk fn ctx s u left (xs ++ ys.take (left - xs.length)) = ⟨d, ctx, .err⟩ := by
      simp only [HpackDec.strChunk, strBytes_append, hxs, Option.bind_none]
    rw [hone, htwo]
    exact .rfl
  | some r =>
    obtain ⟨s', u'⟩ := r
    have hone : d.strChunk fn ctx s u left xs =
        ⟨{ d with st := .str s' u' (left - xs.length) }, ctx, .ok⟩ := by
      simp only [HpackDec.strChunk, hxs]
      rw [if_neg (by omega)]
    rw [hone]
    change SameRes _ (hpackDecFeed fn { d with st := .str s' u' (left - xs.length) } ctx ys)
    cases ys with
    | nil =>
      rw [List.take_nil, List.append_nil, List.drop_nil, hone]
      exact .rfl
    | cons =>
      have hleft : LeftOk { d with st := .str s' u' (left - xs.length) } := by
        rintro _ _ _ ⟨⟩
        omega
      rw [hpackDecFeed_cons hleft]
      exact (strChunk_append hxs).resume _

lemma hpackDecFeed_append : ∀ (n : ℕ) {d : HpackListDec} (ctx : σ) (xs ys : Bytes), xs.length ≤ n →
    LeftOk d → SameRes (hpackDecFeed fn d ctx (xs ++ ys))
      (resume fn (hpackDecFeed fn d ctx xs) ys) := by
  intro n
  induction n with
  | zero =>
    intro d ctx xs ys hn _
    obtain rfl := List.eq_nil_of_length_eq_zero (Nat.le_zero.mp hn)
    exact .rfl
  | succ n ih =>
    intro d ctx xs ys hn hd
    cases xs with
    | nil => exact .rfl
    | cons b xs =>
      rw [List.length_cons] at hn
      have hpass : LeftOk (d.pass fn ctx b xs).1.dec := pass_leftOk hd ctx b xs
      have hlen := pass_rest_length fn hd ctx b xs
      rw [List.cons_append, hpackDecFeed_cons hd, hpackDecFeed_cons hd]
      -- as long as the pass stays inside the first piece, it is the same one
      have hsame : (d.pass fn ctx b (xs ++ ys)) =
          ((d.pass fn ctx b xs).1, (d.pass fn ctx b xs).2 ++ ys) →
          SameRes (resume fn (d.pass fn ctx b (xs ++ ys)).1 (d.pass fn ctx b (xs ++ ys)).2)
            (resume fn (resume fn (d.pass fn ctx b xs).1 (d.pass fn ctx b xs).2) ys) := by
        intro heq
        rw [heq]
        by_cases hrc : (d.pass fn ctx b xs).1.rc = .ok
        · simp only [Proofs.resume, if_pos hrc]
          exact ih _ _ _ (by omega) hpass
        · simp only [Proofs.resume, if_neg hrc]
          exact .rfl
      cases hst : d.st with
      | first | int | strHdr => exact hsame (by simp only [HpackDec.pass, hst])
      | str s u left =>
        by_cases hleft : left ≤ (b :: xs).length
        · refine hsame ?_
          simp only [HpackDec.pass, hst, ← List.cons_append]
          rw [List.take_append_of_le_length hleft, List.drop_append_of_le_length hleft]
        · have hlt : (b :: xs).length < left := Nat.lt_of_not_le hleft
          have hone : d.pass fn ctx b xs = (d.strChunk fn ctx s u left (b :: xs), []) := by
            simp only [HpackDec.pass, hst]
            rw [List.take_of_length_le (Nat.le_of_lt hlt), List.drop_of_length_le (Nat.le_of_lt hlt)]
          have htwo : d.pass fn ctx b (xs ++ ys) =
              (d.strChunk fn ctx s u left ((b :: xs) ++ ys.take (left - (b :: xs).length)),
                ys.drop (left - (b :: xs).length)) := by
            simp only [HpackDec.pass, hst, ← List.cons_append]
            rw [List.take_append, List.drop_append, List.take_of_length_le (Nat.le_of_lt hlt),
              List.drop_of_length_le (Nat.le_of_lt hlt), List.nil_append]
          rw [hone, htwo]
          exact strChunk_cut d ctx s u ys hlt

lemma SameRes.trans {r'' : HpackListRes σ} (h : SameRes r r') (h' : SameRes r' r'') :
    SameRes r r'' := by
  rcases h with rfl | ⟨hne, hrc, hctx, hdec⟩
  · exact h'
  · rcases h' with rfl | ⟨_, hrc', hctx', hdec'⟩
    · exact .inr ⟨hne, hrc, hctx, hdec⟩
    · exact .inr ⟨hne, hrc.trans hrc', hctx.trans hctx', hdec.trans hdec'⟩

lemma feedChunks_eq : ∀ (chunks : List Bytes) {d : HpackListDec} (ctx : σ), LeftOk d →
    SameRes (d.feedChunks fn ctx chunks) (hpackDecFeed fn d ctx chunks.flatten) := by
  intro chunks
  induction chunks with
  | nil => exact fun ctx _ => .rfl
  | cons xs _ ih =>
    intro d ctx hd
    rw [List.flatten_cons]
    refine SameRes.trans ?_ (hpackDecFeed_append xs.length ctx xs _ (Nat.le_refl _) hd).symm
    unfold Proofs.resume HpackDec.feedChunks
    dsimp only
    split
    · exact ih _ (hpackDecFeed_leftOk xs.length ctx xs (Nat.le_refl _) hd)
    · exact .rfl

end Decoder

end TinyLink.Proofs
