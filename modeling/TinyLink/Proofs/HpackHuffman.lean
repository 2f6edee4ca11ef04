import TinyLink.HpackReference

/-!
# The Huffman decoder

The canonical decoder of `hpack.c`, bit by bit, against Appendix B.
-/

namespace TinyLink.Proofs

def bitVal (b : Bool) : UInt32 := if b then 1 else 0

def huffStep (u : HpackHuff) (bit : UInt32) : Option (Option UInt8 × HpackHuff) :=
  let code := u.hcode ||| bit
  let cnt := if u.hlen ≥ 5 then kHuffCount.getD (u.hlen - 5) 0 else 0
  if code - u.hfirst < cnt then
    let si := u.hindex + (code - u.hfirst)
    if si ≥ 256 then none else some (some (kHuffSym.getD si.toNat 0), .reset)
  else if u.hlen ≥ 30 then none
  else some (none, ⟨u.hlen + 1, code <<< 1, (u.hfirst + cnt) <<< 1, u.hindex + cnt⟩)

def huffRun : HpackHuff → List Bool → Option (Bytes × HpackHuff)
  | u, [] => some ([], u)
  | u, b :: bits =>
    (huffStep u (bitVal b)).bind fun r =>
      (huffRun r.2 bits).map fun r' => (r.1.toList ++ r'.1, r'.2)

lemma huffBit_eq (s : HpackStr) (u : HpackHuff) (bit : UInt32) : huffBit (s, u) bit =
      (huffStep u bit).map fun r => (r.1.toList.foldl HpackStr.putChar s, r.2) := by
  unfold huffBit huffStep
  dsimp only
  generalize (if u.hlen ≥ 5 then kHuffCount.getD (u.hlen - 5) 0 else 0) = cnt
  split
  · split
    · rfl
    · rfl
  · split
    · rfl
    · rfl

/-- `huff_byte` reaches its last error: the longest codes are exhausted. -/
def huffExhausted (u : HpackHuff) (bit : UInt32) : Bool :=
  30 ≤ u.hlen && !((u.hcode ||| bit) - u.hfirst < kHuffCount.getD (u.hlen - 5) 0)

/-- From `u`, reached by `path`, every bit completes or begins a code of Appendix B, and the state
is one to stop at exactly if the path is padding. -/
def explore : ℕ → HpackHuff → List Bool → Bool
  | 0, _, _ => false
  | fuel + 1, u, path =>
    u.padOk == (path.length ≤ 7 && path.all id) &&
      [false, true].all fun b =>
        !huffExhausted u (bitVal b) && match huffStep u (bitVal b) with
        | none => rfcCodeBits rfcEos == path ++ [b]
        | some (some c, _) => rfcCodeBits c.toNat == path ++ [b]
        | some (none, u') => explore fuel u' (path ++ [b])

/-- Each code of Appendix B decodes to its symbol, EOS is refused, and nothing else is accepted. -/
lemma huffman_tables : explore 30 .reset [] = true ∧
    rfcHuffCode.zipIdx.all (fun p => huffRun .reset (msbBits p.1.1 p.1.2) ==
      if p.2 < 256 then some ([UInt8.ofNat p.2], .reset) else none) = true ∧
    rfcHuffCode.length = 257 := by
  decide +kernel

variable {sym : ℕ}

lemma huffRun_code (h : sym ≤ rfcEos) : huffRun .reset (rfcCodeBits sym) =
    if sym < 256 then some ([UInt8.ofNat sym], .reset) else none := by
  have hlt : sym < rfcHuffCode.length := by
    rw [huffman_tables.2.2]
    exact Nat.lt_succ_of_le h
  have hmem : (rfcHuffCode.get ⟨sym, hlt⟩, sym) ∈ rfcHuffCode.zipIdx :=
    List.mk_mem_zipIdx_iff_getElem?.mpr (List.getElem?_eq_getElem hlt)
  have hrun := List.all_eq_true.mp huffman_tables.2.1 _ hmem
  unfold rfcCodeBits
  rw [List.getElem?_eq_getElem hlt]
  exact eq_of_beq hrun

lemma huffRun_append (u : HpackHuff) (xs ys : List Bool) : huffRun u (xs ++ ys) =
    (huffRun u xs).bind fun r => (huffRun r.2 ys).map fun r' => (r.1 ++ r'.1, r'.2) := by
  induction xs generalizing u with
  | nil =>
    simp only [List.nil_append, huffRun, Option.bind_some, List.nil_append]
    cases huffRun u ys <;> rfl
  | cons b xs ih =>
    simp only [List.cons_append, huffRun]
    cases huffStep u (bitVal b) with
    | none => rfl
    | some r =>
      simp only [Option.bind_some, ih]
      cases huffRun r.2 xs with
      | none => rfl
      | some => simp [Function.comp_def, List.append_assoc]

lemma huffRun_of_no_code : ∀ (bits : List Bool) (fuel : ℕ) (u : HpackHuff) (path : List Bool),
    explore fuel u path = true → (∀ sym ≤ rfcEos, ¬ (rfcCodeBits sym).isPrefixOf (path ++ bits)) →
    ∃ u', huffRun u bits = some ([], u') ∧
      u'.padOk = ((path ++ bits).length ≤ 7 && (path ++ bits).all id) := by
  intro bits
  induction bits with
  | nil =>
    intro fuel u path hex _
    cases fuel with
    | zero => cases hex
    | succ =>
      simp only [explore, Bool.and_eq_true, beq_iff_eq] at hex
      exact ⟨u, rfl, by simpa using hex.1⟩
  | cons b bits ih =>
    intro fuel u path hex hno
    cases fuel with
    | zero => cases hex
    | succ fuel =>
      have hbit := hex
      simp only [explore, Bool.and_eq_true, List.all_eq_true] at hbit
      have hpath : path ++ b :: bits = (path ++ [b]) ++ bits := by simp
      have hb := (hbit.2 b (by cases b <;> simp)).2
      simp only [huffRun]
      cases hstep : huffStep u (bitVal b) with
      | none =>
        rw [hstep, beq_iff_eq] at hb
        exact absurd (by rw [hb, hpath]; simp) (hno rfcEos (Nat.le_refl _))
      | some r =>
        obtain ⟨c, u'⟩ := r
        rw [hstep] at hb
        cases c with
        | some c =>
          rw [beq_iff_eq] at hb
          have hc : c.toNat ≤ rfcEos := Nat.le_of_lt c.toNat_lt
          exact absurd (by rw [hb, hpath]; simp) (hno c.toNat hc)
        | none =>
          obtain ⟨u'', hrun, hpad⟩ := ih fuel u' (path ++ [b]) hb (hpath ▸ hno)
          exact ⟨u'', by simp [hrun], hpath ▸ hpad⟩

lemma rfcSymbol_eq_some {bits : List Bool} (h : rfcSymbol bits = some sym) :
    sym ≤ rfcEos ∧ ∃ rest, bits = rfcCodeBits sym ++ rest := by
  have hmem := List.mem_of_find?_eq_some h
  have hpre := List.find?_some h
  obtain ⟨rest, hrest⟩ := List.isPrefixOf_iff_prefix.mp hpre
  exact ⟨Nat.le_of_lt_succ (List.mem_range.mp hmem), rest, hrest.symm⟩

lemma rfcSymbol_eq_none {bits : List Bool} (h : rfcSymbol bits = none) :
    ∀ sym ≤ rfcEos, ¬ (rfcCodeBits sym).isPrefixOf bits := by
  intro sym hsym
  exact List.find?_eq_none.mp h sym (List.mem_range.mpr (Nat.lt_succ_of_le hsym))

lemma rfcCodeBits_ne_nil (h : sym ≤ rfcEos) : rfcCodeBits sym ≠ [] := by
  intro hnil
  have hrun := huffRun_code h
  rw [hnil, huffRun] at hrun
  split_ifs at hrun
  cases hrun

lemma rfcHuffman_eq : ∀ (fuel : ℕ) (bits : List Bool), bits.length < fuel → rfcHuffman fuel bits =
      (huffRun .reset bits).bind fun r => if r.2.padOk then some r.1 else none := by
  intro fuel
  induction fuel with
  | zero => exact fun bits h => absurd h (Nat.not_lt_zero _)
  | succ _ ih =>
    intro bits hlen
    unfold rfcHuffman
    cases hsym : rfcSymbol bits with
    | none =>
      obtain ⟨u, hrun, hpad⟩ :=
        huffRun_of_no_code bits 30 .reset [] huffman_tables.1 (rfcSymbol_eq_none hsym)
      rw [hrun, Option.bind_some, hpad]
      simp only [List.nil_append, Bool.and_eq_true, decide_eq_true_eq]
    | some sym =>
      obtain ⟨hle, rest, rfl⟩ := rfcSymbol_eq_some hsym
      have hpos := List.length_pos_iff.mpr (rfcCodeBits_ne_nil hle)
      rw [List.length_append] at hlen
      dsimp only
      rw [huffRun_append, huffRun_code hle, List.drop_left]
      by_cases heos : sym = rfcEos
      · rw [if_pos heos, if_neg (by rw [heos, rfcEos]; omega)]
        rfl
      · have hlt : sym < 256 := Nat.lt_of_le_of_ne hle heos
        rw [if_neg heos, if_pos hlt, ih rest (by omega), Option.bind_some]
        cases huffRun .reset rest with
        | none => rfl
        | some =>
          simp only [Option.bind_some, Option.map_some]
          split
          · rfl
          · rfl

lemma bit_eq_bitVal (b i : UInt8) (hi : i < 8) :
    ((b >>> i) &&& 1).toUInt32 = bitVal (b.toNat.testBit i.toNat) := by
  have h8 : i.toNat % 8 = i.toNat := Nat.mod_eq_of_lt (UInt8.lt_iff_toNat_lt.mp hi)
  apply UInt32.toNat_inj.mp
  have hand : b.toNat >>> i.toNat &&& 1 = (b.toNat >>> i.toNat) % 2 := Nat.and_one_is_mod _
  simp only [UInt8.toNat_toUInt32, UInt8.toNat_and, UInt8.toNat_shiftRight, h8]
  rw [show (1 : UInt8).toNat = 1 from rfl, hand, bitVal, Nat.testBit_eq_decide_div_mod_eq,
    Nat.shiftRight_eq_div_pow]
  rcases Nat.mod_two_eq_zero_or_one (b.toNat / 2 ^ i.toNat) with h | h
  · simp [h]
  · simp [h]

lemma foldlM_huffBit (bits : List Bool) (s : HpackStr) (u : HpackHuff) :
    bits.foldlM (fun su b => huffBit su (bitVal b)) (s, u) =
      (huffRun u bits).map fun r => (r.1.foldl HpackStr.putChar s, r.2) := by
  induction bits generalizing s u with
  | nil => rfl
  | cons b bits ih =>
    rw [List.foldlM_cons, huffBit_eq, huffRun]
    cases huffStep u (bitVal b) with
    | none => rfl
    | some r =>
      simp only [Option.map_some, Option.bind_some, Option.bind_eq_bind, ih]
      cases huffRun r.2 bits with
      | none => rfl
      | some => simp [List.foldl_append]

lemma huffByte_eq (su : HpackStr × HpackHuff) (b : UInt8) :
    huffByte su b = (msbBits 8 b.toNat).foldlM (fun su b => huffBit su (bitVal b)) su := by
  have hbits : msbBits 8 b.toNat =
      ([7, 6, 5, 4, 3, 2, 1, 0] : List UInt8).map fun i => b.toNat.testBit i.toNat := rfl
  rw [hbits, List.foldlM_map, huffByte]
  simp only [List.foldlM_cons, List.foldlM_nil]
  rw [bit_eq_bitVal b 7 (by decide), bit_eq_bitVal b 6 (by decide), bit_eq_bitVal b 5 (by decide),
    bit_eq_bitVal b 4 (by decide), bit_eq_bitVal b 3 (by decide), bit_eq_bitVal b 2 (by decide),
    bit_eq_bitVal b 1 (by decide), bit_eq_bitVal b 0 (by decide)]

lemma foldlM_huffByte (bs : Bytes) (su : HpackStr × HpackHuff) :
    bs.foldlM huffByte su = (bitsOf bs).foldlM (fun su b => huffBit su (bitVal b)) su := by
  induction bs generalizing su with
  | nil => rfl
  | cons _ _ ih =>
    rw [List.foldlM_cons, huffByte_eq, bitsOf, List.flatMap_cons, List.foldlM_append]
    congr 1
    funext su'
    exact ih su'

def plainString (coded : Bool) (raw : Bytes) : Option Bytes :=
  if coded then rfcHuffmanDecode raw else some raw

lemma strBytes_whole (s : HpackStr) (coded : Bool) (raw : Bytes) :
    ((strBytes s (if coded then some .reset else none) raw).bind fun r =>
        if r.2.any (!·.padOk) then none else some r.1) =
      (plainString coded raw).map fun str => str.foldl HpackStr.putChar s := by
  cases coded with
  | false => rfl
  | true =>
    simp only [strBytes, plainString, rfcHuffmanDecode, if_true, foldlM_huffByte, foldlM_huffBit,
      rfcHuffman_eq _ _ (Nat.lt_succ_self _)]
    cases huffRun .reset (bitsOf raw) with
    | none => rfl
    | some r =>
      simp only [Option.map_some, Option.bind_some, Option.any_some]
      cases hpad : r.2.padOk with
      | false | true => rfl

end TinyLink.Proofs
