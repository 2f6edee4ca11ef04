import TinyLink.Disco

/-!
# Fields of byte strings

Reading a field at an offset of a concatenation, and putting the fields that were read together again.
-/

namespace TinyLink.Proofs

lemma readVec_append {n : ℕ} (v : Vector UInt8 n) (rest : Bytes) :
    readVec n (v.toList ++ rest) = v := by
  apply Vector.ext
  intro i hi
  have hlen : i < v.toList.length := by simpa using hi
  simp only [readVec, Vector.getElem_ofFn, List.getD_eq_getElem?_getD]
  rw [List.getElem?_append_left hlen, List.getElem?_eq_getElem hlen]
  simp

lemma readVec_toList {n : ℕ} {b : Bytes} (h : n ≤ b.length) : (readVec n b).toList = b.take n := by
  apply List.ext_getElem
  · simp [h]
  · intro i hi hi'
    rw [List.length_take] at hi'
    have hib : i < b.length := by omega
    simp [readVec, List.getD_eq_getElem?_getD, List.getElem?_eq_getElem hib]

lemma drop_field {b xs ys : Bytes} {k n : ℕ} (h : b.drop k = xs ++ ys) (hn : xs.length = n) :
    b.drop (k + n) = ys := by
  rw [← List.drop_drop, h, List.drop_left' hn]

lemma getD_drop (b : Bytes) (k i : ℕ) (d : UInt8) : (b.drop k).getD i d = b.getD (k + i) d := by
  rw [List.getD_eq_getElem?_getD, List.getD_eq_getElem?_getD, List.getElem?_drop]

lemma take_drop_append (b : Bytes) (k m n : ℕ) :
    (b.drop k).take m ++ (b.drop (k + m)).take n = (b.drop k).take (m + n) := by
  rw [List.take_add, List.drop_drop]

lemma field_append (b : Bytes) (k m : ℕ) : (b.drop k).take m ++ b.drop (k + m) = b.drop k := by
  rw [← List.drop_drop, List.take_append_drop]

lemma getD_field {b : Bytes} {k : ℕ} (h : k < b.length) : [b.getD k 0] = (b.drop k).take 1 := by
  rw [List.getD_eq_getElem?_getD, List.getElem?_eq_getElem h, List.drop_eq_getElem_cons h]
  rfl

end TinyLink.Proofs
