import TinyLink.Proofs.HpackChunks
import TinyLink.Proofs.HpackHuffman

/-!
# What the Huffman decoder accepts

The strings it accepts are those of the canonical code of its two tables, padded with ones, and
each has one reading.
-/

namespace TinyLink.Proofs

lemma explore_step {fuel : ℕ} {u : HpackHuff} {path : List Bool} (h : explore fuel u path)
    (b : Bool) : huffExhausted u (bitVal b) = false ∧
      ∀ c u', huffStep u (bitVal b) = some (c, u') → ∃ fuel' path', explore fuel' u' path' = true := by
  cases fuel with
  | zero => cases h
  | succ fuel =>
    simp only [explore, Bool.and_eq_true, List.all_eq_true] at h
    obtain ⟨hlive, hb⟩ := h.2 b (by cases b <;> simp)
    refine ⟨by simpa using hlive, fun c u' hstep => ?_⟩
    rw [hstep] at hb
    cases c with
    | some c =>
      have hreset : u' = .reset := by
        unfold huffStep at hstep
        dsimp only at hstep
        split_ifs at hstep <;> cases hstep <;> rfl
      rw [hreset]
      exact ⟨30, [], huffman_tables.1⟩
    | none => exact ⟨fuel, path ++ [b], hb⟩

lemma huffRun_explored : ∀ (bits : List Bool) {u u' : HpackHuff} {w : Bytes},
    (∃ fuel path, explore fuel u path = true) → huffRun u bits = some (w, u') →
    ∃ fuel path, explore fuel u' path = true := by
  intro bits
  induction bits with
  | nil =>
    rintro u u' w h ⟨⟩
    exact h
  | cons b bits ih =>
    rintro u u' w ⟨fuel, path, h⟩ hrun
    obtain ⟨⟨c, v⟩, hstep, hrest⟩ := Option.bind_eq_some_iff.mp hrun
    obtain ⟨⟨w', v'⟩, hbits, heq⟩ := Option.map_eq_some_iff.mp hrest
    cases heq
    exact ih ((explore_step h b).2 c v hstep) hbits

/-- What the tables of `huff_byte` hold, computed. -/
lemma huffCodes_tables : (kHuffSym.length = 256 ∧ huffCodes.length = 257) ∧
    (huffCodes.zip kHuffSym).all (fun p => p.1 == rfcCodeBits p.2.toNat) = true ∧
    (List.range 256).all (fun n => (kHuffSym.map UInt8.toNat).contains n) = true ∧
    huffCodes.all (fun code => decide (5 ≤ code.length ∧ code.length ≤ 30)) = true ∧
    (List.range 8).all (fun n => (huffRun .reset (List.replicate n true)).any fun r =>
      r.1.isEmpty && r.2.padOk) = true := by
  decide +kernel

lemma mem_kHuffSym (c : UInt8) : c ∈ kHuffSym := by
  have hc := List.all_eq_true.mp huffCodes_tables.2.2.1 c.toNat (List.mem_range.mpr c.toNat_lt)
  obtain ⟨c', hmem, heq⟩ := List.mem_map.mp (List.contains_iff_mem.mp hc)
  rwa [← UInt8.toNat_inj.mp heq]

lemma idxOf_kHuffSym (c : UInt8) : kHuffSym.idxOf c < 256 := by
  rw [← huffCodes_tables.1.1]
  exact List.idxOf_lt_length_of_mem (mem_kHuffSym c)

lemma huffCode_eq (c : UInt8) : huffCode c = rfcCodeBits c.toNat := by
  have hi := idxOf_kHuffSym c
  have hsym : kHuffSym.idxOf c < kHuffSym.length := huffCodes_tables.1.1 ▸ hi
  have hcode : kHuffSym.idxOf c < huffCodes.length := by
    rw [huffCodes_tables.1.2]
    omega
  have hzip : kHuffSym.idxOf c < (huffCodes.zip kHuffSym).length := by
    rw [List.length_zip]
    omega
  have h := List.all_eq_true.mp huffCodes_tables.2.1 _ (List.getElem_mem hzip)
  rw [List.getElem_zip, List.getElem_idxOf hsym] at h
  rw [huffCode, List.getD_eq_getElem?_getD, List.getElem?_eq_getElem hcode]
  exact eq_of_beq h

def huffOutput (bs : Bytes) : Option Bytes :=
  (huffRun .reset (bitsOf bs)).bind fun r => if r.2.padOk then some r.1 else none

lemma huffRun_codes_append (w : Bytes) (pad : List Bool) :
    huffRun .reset (w.flatMap huffCode ++ pad) =
      (huffRun .reset pad).map fun r => (w ++ r.1, r.2) := by
  induction w with
  | nil =>
    rw [List.flatMap_nil, List.nil_append]
    cases huffRun .reset pad <;> rfl
  | cons c w ih =>
    have hle : c.toNat ≤ rfcEos := Nat.le_of_lt c.toNat_lt
    rw [List.flatMap_cons, List.append_assoc, huffRun_append, huffCode_eq, huffRun_code hle,
      if_pos c.toNat_lt, Option.bind_some, ih, UInt8.ofNat_toNat]
    cases huffRun .reset pad <;> rfl

lemma huffRun_pad {pad : List Bool} (hlen : pad.length < 8) (hones : pad.all id) :
    ∃ u, huffRun .reset pad = some ([], u) ∧ u.padOk = true := by
  have hpad : pad = List.replicate pad.length true :=
    List.eq_replicate_iff.mpr ⟨rfl, by simpa using hones⟩
  have hrun := List.all_eq_true.mp huffCodes_tables.2.2.2.2 _ (List.mem_range.mpr hlen)
  rw [← hpad] at hrun
  cases hr : huffRun .reset pad with
  | none =>
    rw [hr] at hrun
    cases hrun
  | some r =>
    rw [hr, Option.any_some, Bool.and_eq_true, List.isEmpty_iff] at hrun
    exact ⟨r.2, by rw [← hrun.1], hrun.2⟩

lemma rfcHuffman_coded : ∀ (fuel : ℕ) (bits : List Bool) (w : Bytes),
    rfcHuffman fuel bits = some w →
    ∃ pad, bits = w.flatMap huffCode ++ pad ∧ pad.length < 8 ∧ pad.all id = true := by
  intro fuel
  induction fuel with
  | zero => rintro bits w ⟨⟩
  | succ fuel ih =>
    intro bits w h
    unfold rfcHuffman at h
    cases hsym : rfcSymbol bits with
    | none =>
      rw [hsym] at h
      dsimp only at h
      split_ifs at h with hpad
      cases h
      exact ⟨bits, rfl, Nat.lt_succ_of_le hpad.1, hpad.2⟩
    | some sym =>
      rw [hsym] at h
      dsimp only at h
      split_ifs at h with hne
      obtain ⟨hle, rest, rfl⟩ := rfcSymbol_eq_some hsym
      have hlt : sym < 256 := Nat.lt_of_le_of_ne hle hne
      rw [List.drop_left] at h
      obtain ⟨w', hw, rfl⟩ := Option.map_eq_some_iff.mp h
      obtain ⟨pad, hrest, hpad⟩ := ih rest w' hw
      refine ⟨pad, ?_, hpad⟩
      rw [List.flatMap_cons, huffCode_eq, UInt8.toNat_ofNat_of_lt' hlt, hrest, List.append_assoc]

lemma huffOutput_iff (bs w : Bytes) : huffOutput bs = some w ↔ HuffCoded bs w := by
  constructor
  · intro h
    rw [huffOutput, ← rfcHuffman_eq _ _ (Nat.lt_succ_self _)] at h
    exact rfcHuffman_coded _ _ w h
  · rintro ⟨pad, hbits, hlen, hones⟩
    obtain ⟨u, hrun, hpad⟩ := huffRun_pad hlen hones
    rw [huffOutput, hbits, huffRun_codes_append, hrun]
    simp [hpad]

lemma strBytes_coded (s : HpackStr) (u : HpackHuff) (bs : Bytes) : strBytes s (some u) bs =
    (huffRun u (bitsOf bs)).map fun r => (r.1.foldl HpackStr.putChar s, some r.2) := by
  simp only [strBytes, foldlM_huffByte, foldlM_huffBit]
  cases huffRun u (bitsOf bs) <;> rfl

/-- The Huffman decoder accepts exactly the strings of the canonical code of its tables. No string
has two readings, the codes have 5 to 30 bits, and the feeds may be cut anywhere. -/
theorem huffman_accepts_exactly {σ : Type} (fn : σ → HpackField → σ × Bool) :
    (∀ s u bs, strBytes s (some u) bs =
        (huffRun u (bitsOf bs)).map fun r => (r.1.foldl HpackStr.putChar s, some r.2)) ∧
      (∀ (d : HpackListDec) ctx s bs, d.strChunk fn ctx s (some .reset) bs.length bs =
        (huffOutput bs).elim ⟨d, ctx, .err⟩
          fun w => d.strDone fn ctx (w.foldl HpackStr.putChar s) none) ∧
      (∀ bs w, huffOutput bs = some w ↔ HuffCoded bs w) ∧
      (∀ bs w w', HuffCoded bs w → HuffCoded bs w' → w = w') ∧
      (huffCodes.length = 257 ∧ (∀ c, kHuffSym.idxOf c < 256) ∧
        ∀ code ∈ huffCodes, 5 ≤ code.length ∧ code.length ≤ 30) ∧
      (∀ bits w u b, huffRun .reset bits = some (w, u) → huffExhausted u (bitVal b) = false) ∧
      (∀ (d : HpackListDec) ctx s u left chunks,
        SameRes (HpackDec.feedChunks fn { d with st := .str s u (left + 1) } ctx chunks)
          (hpackDecFeed fn { d with st := .str s u (left + 1) } ctx chunks.flatten)) := by
  refine ⟨strBytes_coded, fun d ctx s bs => ?_, huffOutput_iff, fun bs w w' h h' => ?_,
    ⟨huffCodes_tables.1.2, idxOf_kHuffSym, fun code hcode => ?_⟩, fun bits w u b hrun => ?_,
    fun d ctx s u left chunks => feedChunks_eq chunks ctx ?_⟩
  · unfold HpackDec.strChunk huffOutput HpackDec.strDone
    rw [strBytes_coded, Nat.sub_self]
    cases huffRun .reset (bitsOf bs) with
    | none => rfl
    | some r =>
      obtain ⟨w, u⟩ := r
      cases hpad : u.padOk <;> simp [hpad]
  · rw [← huffOutput_iff] at h h'
    exact Option.some.inj (h.symm.trans h')
  · simpa using List.all_eq_true.mp huffCodes_tables.2.2.2.1 code hcode
  · obtain ⟨_, _, h⟩ := huffRun_explored bits ⟨30, [], huffman_tables.1⟩ hrun
    exact (explore_step h b).1
  · rintro _ _ _ ⟨⟩
    exact Nat.succ_pos left

theorem coded_status_read_once : ∀ w, HuffCoded [0x64, 0x02] w → w = [0x33, 0x30, 0x32] := by
  have hcoded : HuffCoded [0x64, 0x02] [0x33, 0x30, 0x32] :=
    (huffOutput_iff _ _).mp (by decide +kernel)
  have hone := (huffman_accepts_exactly fun (ctx : Unit) _ => (ctx, true)).2.2.2.1
  exact fun w hw => hone _ _ _ hw hcoded

end TinyLink.Proofs
