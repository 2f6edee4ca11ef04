import TinyLink.Proofs.MapFeed

/-!
# The frames of a MapResponse stream

What `on_frame` is called with is a function of the bodies of the frames.
-/

namespace TinyLink
open ByteOrder

section Frames
variable [MapConfig]

/-- What `on_frame` reads of a frame, computed from its body alone. -/
def frameOutcome (elemCap : ℕ) (body : Bytes) : FrameCall :=
  let m := maprespJsonBegin (fun _ => 0) elemCap fun _ => ⟨.undefined, 0, 0, 0⟩
  frameCall body.length (maprespJsonEnd (m.feedEach body))

/-- The calls for the frames of a byte stream, one after the other; `fuel` bounds their number. -/
def callLoop {κ : Type*} (onFrame : OnFrame κ) (elemCap : ℕ) : ℕ → κ → Bytes → κ × Bool
  | 0, ctx, _ => (ctx, false)
  | fuel + 1, ctx, bs =>
    let size := leNat (bs.take 4)
    if bs.length < 4 then (ctx, false)
    else if size > maprespFrameMax then (ctx, true)
    else if (bs.drop 4).length < size then (ctx, false)
    else
      match onFrame ctx (frameOutcome elemCap ((bs.drop 4).take size)) with
      | (ctx, true) => (ctx, true)
      | (ctx, false) => callLoop onFrame elemCap fuel ctx ((bs.drop 4).drop size)

def callStream {κ : Type*} (onFrame : OnFrame κ) (elemCap : ℕ) (ctx : κ) (bs : Bytes) : κ × Bool :=
  callLoop onFrame elemCap bs.length ctx bs

namespace Proofs

section Calls
variable {κ : Type*} (onFrame : OnFrame κ) (elemCap : ℕ)

lemma callLoop_fuel {fuel fuel' : ℕ} {ctx : κ} {bs : Bytes} (h : bs.length ≤ fuel)
    (h' : bs.length ≤ fuel') :
    callLoop onFrame elemCap fuel ctx bs = callLoop onFrame elemCap fuel' ctx bs := by
  induction fuel generalizing fuel' ctx bs with
  | zero =>
    rw [List.eq_nil_of_length_eq_zero (Nat.le_zero.mp h)]
    cases fuel' <;> rfl
  | succ _ ih =>
    cases fuel' with
    | zero =>
      rw [List.eq_nil_of_length_eq_zero (Nat.le_zero.mp h')]
      rfl
    | succ =>
      unfold callLoop
      dsimp only
      split_ifs with hshort
      · rfl
      · rfl
      · rfl
      · cases onFrame ctx _ with
        | mk _ stop =>
          cases stop with
          | true => rfl
          | false =>
            apply ih
            · simp only [List.length_drop]
              omega
            · simp only [List.length_drop]
              omega

lemma callStream_short {ctx : κ} {bs : Bytes} (h : bs.length < 4) :
    callStream onFrame elemCap ctx bs = (ctx, false) := by
  unfold callStream
  cases hb : bs.length with
  | zero => rfl
  | succ =>
    unfold callLoop
    rw [if_pos h]

lemma callStream_header {ctx : κ} {hdr bs : Bytes} (h : hdr.length = 4) :
    callStream onFrame elemCap ctx (hdr ++ bs) = if leNat hdr > maprespFrameMax then (ctx, true)
      else if bs.length < leNat hdr then (ctx, false) else
        match onFrame ctx (frameOutcome elemCap (bs.take (leNat hdr))) with
        | (ctx, true) => (ctx, true)
        | (ctx, false) => callStream onFrame elemCap ctx (bs.drop (leNat hdr)) := by
  have hlen : (hdr ++ bs).length = (bs.length + 3) + 1 := by
    rw [List.length_append, h]
    omega
  have htake : (hdr ++ bs).take 4 = hdr := by rw [← h, List.take_left]
  have hdrop : (hdr ++ bs).drop 4 = bs := by rw [← h, List.drop_left]
  unfold callStream
  rw [hlen, callLoop]
  rw [htake, hdrop, if_neg (by omega)]
  split_ifs
  · rfl
  · rfl
  · cases onFrame ctx _ with
    | mk _ stop =>
      cases stop with
      | true => rfl
      | false =>
        apply callLoop_fuel
        · rw [List.length_drop]
          omega
        · rfl

end Calls

structure InMapFrame (ms : MapStream) (hdr part : Bytes) : Prop where
  inBody : ms.inBody = true
  hdrLen : hdr.length = 4
  noHdr : ms.hdr = []
  size : ms.bodySize = leNat hdr
  max : leNat hdr ≤ maprespFrameMax
  have_ : ms.bodyHave = part.length
  le : part.length ≤ leNat hdr
  json : ∃ elem toks, ms.json = (maprespJsonBegin elem ms.elemCap toks).feedEach part

/-- The bytes of the frame that has begun: `pend` was received since the last frame. -/
inductive Pend (ms : MapStream) : Bytes → Prop
  | header {hdr : Bytes} (hin : ms.inBody = false) (hhdr : ms.hdr = hdr) (hlen : hdr.length < 4) : Pend ms hdr
  | body {hdr part : Bytes} (h : InMapFrame ms hdr part) (hlt : part.length < leNat hdr) : Pend ms (hdr ++ part)

lemma frameCall_eq (elem : ℕ → UInt8) (cap : ℕ) (toks : JsmnTable) (body : Bytes) :
    frameCall body.length (maprespJsonEnd ((maprespJsonBegin elem cap toks).feedEach body)) =
      frameOutcome cap body := by
  have hstart : Same (maprespJsonBegin (fun _ => 0) cap fun _ => ⟨.undefined, 0, 0, 0⟩)
      (maprespJsonBegin elem cap toks) :=
    ⟨elem, toks, rfl, fun i hi => absurd hi (Nat.not_lt_zero i)⟩
  have hend : Same (maprespJsonEnd
      ((maprespJsonBegin (fun _ => 0) cap fun _ => ⟨.undefined, 0, 0, 0⟩).feedEach body))
      (maprespJsonEnd ((maprespJsonBegin elem cap toks).feedEach body)) := by
    have hfed := hstart.feedEach body
    have hdone := hfed.done
    unfold maprespJsonEnd
    rw [← hdone]
    split
    · exact hfed
    · exact hfed.fail
  obtain ⟨elem', toks', hq, -⟩ := hend
  rw [hq]
  rfl

section Run
variable {κ : Type*} (onFrame : OnFrame κ) {ms : MapStream} {hdr part : Bytes}

/-- A result of feeding some bytes agrees with `target`, what all calls come to when `rest` follows.
-/
def Reaches (cap : ℕ) (target : κ × Bool) (rest : Bytes) : MapStream × κ × Bool → Prop
  | (_, ctx, true) => target = (ctx, true)
  | (ms, ctx, false) => ms.elemCap = cap ∧ ∃ pend, Pend ms pend ∧
      target = callStream onFrame cap ctx (pend ++ rest)

lemma frameDone_open (h : InMapFrame ms hdr part)
    (hlt : part.length < leNat hdr) (ctx : κ) : mapFrameDone onFrame ms ctx = (ms, ctx, false) := by
  have hne : ms.bodyHave ≠ ms.bodySize := by
    rw [h.have_, h.size]
    omega
  unfold mapFrameDone
  simp [hne]

lemma frameDone_full (h : InMapFrame ms hdr part)
    (hfull : part.length = leNat hdr) (ctx : κ) :
    mapFrameDone onFrame ms ctx = ({ ms with inBody := false, json := maprespJsonEnd ms.json },
      onFrame ctx (frameOutcome ms.elemCap part)) := by
  obtain ⟨elem, toks, hjson⟩ := h.json
  have heq : ms.bodyHave = ms.bodySize := by rw [h.have_, h.size, hfull]
  have hsize : ms.bodySize = part.length := by rw [h.size, hfull]
  have hcall := frameCall_eq elem ms.elemCap toks part
  rw [← hjson, ← hsize] at hcall
  unfold mapFrameDone
  rw [if_pos (by simp [h.inBody, heq])]
  dsimp only
  rw [hcall]

lemma round_reaches (h : InMapFrame ms hdr part) (ctx : κ)
    (data rest : Bytes) {k : MapStream → κ → MapStream × κ × Bool}
    (hk : ∀ ms' ctx' pend, ms'.elemCap = ms.elemCap → Pend ms' pend → Reaches onFrame ms.elemCap
      (callStream onFrame ms.elemCap ctx' (pend ++ (data ++ rest))) rest (k ms' ctx')) :
    Reaches onFrame ms.elemCap (callStream onFrame ms.elemCap ctx (hdr ++ part ++ (data ++ rest))) rest
      (match mapFrameDone onFrame ms ctx with
      | (ms, ctx, true) => (ms, ctx, true)
      | (ms, ctx, false) => k ms ctx) := by
  by_cases hlt : part.length < leNat hdr
  · rw [frameDone_open onFrame h hlt]
    exact hk ms ctx _ rfl (.body h hlt)
  · have hfull : part.length = leNat hdr := le_antisymm h.le (by omega)
    rw [frameDone_full onFrame h hfull, List.append_assoc, callStream_header onFrame _ h.hdrLen,
      if_neg (by have := h.max; omega), if_neg (by rw [List.length_append]; omega), ← hfull,
      List.take_left, List.drop_left]
    cases onFrame ctx (frameOutcome ms.elemCap part) with
    | mk ctx' stop =>
      cases stop with
      | true => rfl
      | false =>
        exact hk { ms with inBody := false, json := maprespJsonEnd ms.json } ctx' [] rfl
          (.header rfl h.noHdr (Nat.zero_lt_succ 3))

lemma streamLoop_reaches {fuel : ℕ} {pend data : Bytes} (hf : data.length ≤ fuel)
    (hp : Pend ms pend) (ctx : κ) (rest : Bytes) :
    Reaches onFrame ms.elemCap (callStream onFrame ms.elemCap ctx (pend ++ (data ++ rest))) rest
      (streamLoop onFrame fuel ms ctx data) := by
  induction fuel generalizing ms pend data ctx with
  | zero =>
    rw [List.eq_nil_of_length_eq_zero (Nat.le_zero.mp hf)]
    exact ⟨rfl, pend, hp, rfl⟩
  | succ fuel ih =>
    cases data with
    | nil => exact ⟨rfl, pend, hp, rfl⟩
    | cons b data =>
      rw [List.length_cons] at hf
      unfold streamLoop
      cases hp with
      | header hin hhdr =>
        subst hhdr
        rw [if_pos (by rw [hin]; rfl)]
        have happ : ms.hdr ++ (b :: data ++ rest) = (ms.hdr ++ [b]) ++ (data ++ rest) := by simp
        rw [happ]
        unfold headerByte
        by_cases hshort : (ms.hdr ++ [b]).length < 4
        · simp only [if_pos hshort]
          have hdone : mapFrameDone onFrame { ms with hdr := ms.hdr ++ [b] } ctx =
              ({ ms with hdr := ms.hdr ++ [b] }, ctx, false) := by
            unfold mapFrameDone
            simp [hin]
          rw [hdone]
          have hp : Pend { ms with hdr := ms.hdr ++ [b] } (ms.hdr ++ [b]) := .header hin rfl hshort
          exact ih (Nat.le_of_succ_le_succ hf) hp ctx
        · have hfour : (ms.hdr ++ [b]).length = 4 := by
            rw [List.length_append, List.length_singleton] at hshort ⊢
            omega
          simp only [if_neg hshort]
          by_cases hbig : leNat (ms.hdr ++ [b]) > maprespFrameMax
          · simp only [if_pos hbig]
            change callStream onFrame ms.elemCap ctx _ = (ctx, true)
            rw [callStream_header onFrame _ hfour, if_pos hbig]
          · simp only [if_neg hbig]
            have hframe : InMapFrame { ms with
                hdr := [], bodySize := leNat (ms.hdr ++ [b]), bodyHave := 0, inBody := true
                json := maprespJsonBegin ms.json.elem ms.elemCap ms.json.out.toks } (ms.hdr ++ [b]) [] :=
              ⟨rfl, hfour, rfl, rfl, by omega, rfl, Nat.zero_le _, _, _, rfl⟩
            have hround := round_reaches onFrame hframe ctx data rest
              (k := fun ms ctx => streamLoop onFrame fuel ms ctx data)
            rw [List.append_nil] at hround
            refine hround ?_
            intro ms' ctx' pend' hcap hpend
            rw [← hcap]
            exact ih (by omega) hpend ctx'
      | @body hdr part h =>
        rw [if_neg (by rw [h.inBody]; decide)]
        have hhave := h.have_
        have hsize := h.size
        obtain ⟨elem, toks, hjson⟩ := h.json
        generalize htake : min (data.length + 1) (ms.bodySize - ms.bodyHave) = n
        have hn : n ≤ (b :: data).length := by
          rw [List.length_cons]
          omega
        have happ : hdr ++ part ++ (b :: data ++ rest) =
            hdr ++ (part ++ (b :: data).take n) ++ ((b :: data).drop n ++ rest) := by
          rw [List.append_assoc, List.append_assoc, List.append_assoc, ← List.append_assoc (List.take n _),
            List.take_append_drop]
        rw [happ]
        have hframe : InMapFrame { ms with
            json := maprespJsonFeed ms.json ((b :: data).take n), bodyHave := ms.bodyHave + n }
            hdr (part ++ (b :: data).take n) := by
          refine { h with have_ := ?_, le := ?_, json := ⟨elem, toks, ?_⟩ }
          · rw [List.length_append, List.length_take, min_eq_left hn, ← hhave]
          · rw [List.length_append, List.length_take, min_eq_left hn]
            omega
          · rw [jsonFeed_eq, hjson, ← feedEach_append]
        refine round_reaches onFrame hframe ctx _ _ ?_
        intro ms' ctx' pend' hcap hpend
        rw [← hcap]
        refine ih ?_ hpend ctx'
        rw [List.length_drop, List.length_cons]
        omega

/-- The pieces of a stream come to the calls for the frames of their concatenation. -/
lemma feedPieces_calls {ctx : κ} {pend : Bytes} (hp : Pend ms pend)
    (pieces : List Bytes) :
    (feedPieces onFrame ms ctx pieces).2 = callStream onFrame ms.elemCap ctx (pend ++ pieces.flatten) := by
  induction pieces generalizing ms ctx pend with
  | nil =>
    rw [List.flatten_nil, List.append_nil]
    cases hp with
    | header _ _ hlen => exact (callStream_short onFrame _ hlen).symm
    | @body _ _ h hlt =>
      rw [callStream_header onFrame _ h.hdrLen, if_neg (by have := h.max; omega), if_pos hlt]
      rfl
  | cons piece pieces ih =>
    have h := streamLoop_reaches onFrame (Nat.le_refl piece.length) hp ctx pieces.flatten
    rw [List.flatten_cons]
    unfold feedPieces
    unfold maprespStreamFeed
    revert h
    cases streamLoop onFrame piece.length ms ctx piece with
    | mk _ r =>
      cases r with
      | mk _ stop =>
        intro h
        cases stop with
        | true => exact h.symm
        | false =>
          obtain ⟨hcap, pend', hpend, htarget⟩ := h
          rw [htarget, ← hcap]
          exact ih hpend

end Run

end Proofs

end Frames

namespace Proofs

def frameBytes (body : Bytes) : Bytes := leBytes 4 body.length ++ body

/-- Two ways of cutting a stream come to the same calls of `on_frame`, those for the frames of the
stream, each with an outcome that its body determines; and the copy of inert runs equals feeding
their bytes one at a time. -/
theorem frames_parse_independently [MapConfig] {κ : Type*} (onFrame : OnFrame κ) (ctx : κ) (cap : ℕ) :
    (∀ elem toks pieces, (feedPieces onFrame (maprespStreamInit elem cap toks) ctx pieces).2 =
      callStream onFrame cap ctx pieces.flatten) ∧
    (∀ elem toks elem' toks' pieces pieces', pieces.flatten = pieces'.flatten →
      (feedPieces onFrame (maprespStreamInit elem cap toks) ctx pieces).2 =
        (feedPieces onFrame (maprespStreamInit elem' cap toks') ctx pieces').2) ∧
    (∀ body rest, body.length ≤ maprespFrameMax →
      callStream onFrame cap ctx (frameBytes body ++ rest) =
        match onFrame ctx (frameOutcome cap body) with
        | (ctx, true) => (ctx, true)
        | (ctx, false) => callStream onFrame cap ctx rest) ∧
    ∀ m data, maprespJsonFeed m data = m.feedEach data := by
  have hpieces : ∀ elem toks pieces, (feedPieces onFrame (maprespStreamInit elem cap toks) ctx pieces).2 =
      callStream onFrame cap ctx pieces.flatten := by
    intro elem toks pieces
    have hp : Pend (maprespStreamInit elem cap toks) [] := .header rfl rfl (Nat.zero_lt_succ 3)
    exact feedPieces_calls onFrame hp pieces
  refine ⟨hpieces, ?_, ?_, jsonFeed_eq⟩
  · intro elem toks elem' toks' pieces pieces' hflat
    rw [hpieces, hpieces, hflat]
  · intro body rest hmax
    have hsize : leNat (leBytes 4 body.length) = body.length := by
      rw [leNat_leBytes]
      refine Nat.mod_eq_of_lt (hmax.trans_lt ?_)
      unfold maprespFrameMax
      norm_num
    unfold frameBytes
    rw [List.append_assoc, callStream_header onFrame cap (length_leBytes 4 _), hsize,
      if_neg (by omega), if_neg (by rw [List.length_append]; omega), List.take_left, List.drop_left]

instance kconfigDefault : MapConfig := ⟨16⟩

theorem malformed_frame_is_passed :
    (feedPieces (fun ctx call => (ctx ++ [call], false)) (maprespStreamInit (fun _ => 7) 8192
        fun _ => ⟨.object, 0, 5, 3⟩) [] [[2, 0, 0], [0, 123], [44, 2, 0], [0, 0, 123, 125]]).2 =
      (feedPieces (fun ctx call => (ctx ++ [call], false)) (maprespStreamInit (fun _ => 0) 8192
        fun _ => ⟨.array, 1, 2, 9⟩) [] [[2, 0, 0, 0, 123, 44, 2, 0, 0, 0, 123, 125]]).2 ∧
    callStream (fun ctx call => (ctx ++ [call], false)) 8192 [] (frameBytes [123, 44] ++ frameBytes [123, 125])
      = callStream (fun ctx call => (ctx ++ [call], false)) 8192 [frameOutcome 8192 [123, 44]]
        (frameBytes [123, 125]) ∧
    (frameOutcome 8192 [123, 44]).parseErr = true ∧ (frameOutcome 8192 [123, 125]).parseErr = false :=
  ⟨(frames_parse_independently _ [] 8192).2.1 _ _ _ _ _ _ rfl,
    (frames_parse_independently _ [] 8192).2.2.1 [123, 44] _ (by decide), by decide +kernel, by decide +kernel⟩

end Proofs

end TinyLink
