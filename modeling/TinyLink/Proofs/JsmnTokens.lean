import TinyLink.MapElements

/-!
# What a tokenizer run reads of the table

A parse starts with the tokens of earlier parses in the table. It only reads tokens it has written.
-/

namespace TinyLink.Proofs

def Agree (n : ℕ) (t u : JsmnTable) : Prop := ∀ i < n, t i = u i

variable {t u : JsmnTable} (n : ℕ)

lemma Agree.update {n : ℕ} (h : Agree n t u) (i : ℕ) (x : JsmnTok) :
    Agree n (Function.update t i x) (Function.update u i x) := by
  intro j hj
  by_cases hji : j = i
  · simp [hji]
  · simp [hji, h j hj]

lemma Agree.push {n : ℕ} (h : Agree n t u) (x : JsmnTok) :
    Agree (n + 1) (Function.update t n x) (Function.update u n x) := by
  intro j hj
  by_cases hjn : j = n
  · simp [hjn]
  · simp [hjn, h j (by omega)]

lemma lastTok_lt {t : JsmnTable} {p : JsmnTok → Bool} {n i : ℕ} (h : lastTok t p n = some i) :
    i < n := by
  induction n with
  | zero => cases h
  | succ n ih =>
    unfold lastTok at h
    split at h
    · cases h
      omega
    · exact (ih h).trans (by omega)

lemma Agree.lastTok {n m : ℕ} (h : Agree n t u) (hm : m ≤ n)
    (p : JsmnTok → Bool) : lastTok t p m = lastTok u p m := by
  induction m with
  | zero => rfl
  | succ m ih => rw [TinyLink.lastTok, TinyLink.lastTok, h m hm, ih (by omega)]

structure Alike (p q : JsmnParser) : Prop where
  pos : p.pos = q.pos
  toknext : p.toknext = q.toknext
  toksuper : p.toksuper = q.toksuper
  count : p.count = q.count
  toks : Agree p.toknext p.toks q.toks
  super : ∀ i, p.toksuper = some i → i < p.toknext
  counted : p.count = p.toknext

lemma alike_init (t u : JsmnTable) : Alike (jsmnInit t) (jsmnInit u) :=
  ⟨rfl, rfl, rfl, rfl, fun _ h => absurd h (Nat.not_lt_zero _), nofun, rfl⟩

namespace Alike
variable {p q : JsmnParser} (h : Alike p q) (type : JsmnType)
include h

lemma advance : Alike { p with pos := p.pos + 1 } { q with pos := q.pos + 1 } :=
  { h with pos := congrArg (· + 1) h.pos }

lemma last (f : JsmnTok → Bool) : lastTok p.toks f p.toknext = lastTok q.toks f q.toknext := by
  rw [← h.toknext]
  exact h.toks.lastTok le_rfl f

lemma added (x : JsmnTok) (s : Option ℕ) (hs : ∀ i, s = some i → i < p.toknext + 1) :
    Option.Rel Alike
      ((p.addTok n x).map fun r => { r.growSuper with toksuper := s, count := p.count + 1 })
      ((q.addTok n x).map fun r => { r.growSuper with toksuper := s, count := q.count + 1 }) := by
  obtain ⟨pos, next, sup, count, toks⟩ := p
  obtain ⟨_, _, _, _, toks'⟩ := q
  obtain ⟨rfl, rfl, rfl, rfl, hagree, hsuper, hcount⟩ := h
  by_cases hn : next ≥ n
  · simp only [JsmnParser.addTok, if_pos hn]
    exact .none
  · simp only [JsmnParser.addTok, if_neg hn]
    refine .some ?_
    have hpush := hagree.push x
    cases sup with
    | none => exact ⟨rfl, rfl, rfl, rfl, hpush, hs, congrArg (· + 1) hcount⟩
    | some i =>
      have hi : i < next + 1 := (hsuper i rfl).trans (Nat.lt_succ_self _)
      refine ⟨rfl, rfl, rfl, rfl, ?_, hs, congrArg (· + 1) hcount⟩
      simp only [JsmnParser.growSuper, JsmnParser.setTok]
      rw [hpush i hi]
      exact hpush.update i _

lemma opened :
    Option.Rel Alike (p.openTok n type) (q.openTok n type) := by
  unfold JsmnParser.openTok
  rw [← h.pos, ← h.toknext]
  exact h.added n _ _ fun i hi => by cases hi; omega

lemma leaf (start stop : ℕ) :
    Option.Rel Alike (p.leafTok n type start stop) (q.leafTok n type start stop) := by
  have key : ∀ r : JsmnParser, r.leafTok n type start stop = (r.addTok n ⟨type, start, stop, 0⟩).map
      fun x => { x.growSuper with toksuper := r.toksuper, count := r.count + 1 } := by
    intro r
    unfold JsmnParser.leafTok JsmnParser.addTok
    split
    · rfl
    · cases hr : r.toksuper <;> simp [JsmnParser.growSuper, JsmnParser.setTok, hr]
  rw [key p, key q, ← h.toksuper]
  exact h.added n _ _ fun i hi => (h.super i hi).trans (Nat.lt_succ_self _)

lemma closedTok : Option.Rel Alike (p.closeTok type) (q.closeTok type) := by
  unfold JsmnParser.closeTok
  rw [← h.last isOpenTok]
  cases hi : lastTok p.toks isOpenTok p.toknext with
  | none => exact .none
  | some i =>
    have hlt := lastTok_lt hi
    dsimp only
    rw [← h.toks i hlt]
    by_cases ht : (p.toks i).type ≠ type
    · rw [if_pos ht, if_pos ht]
      exact .none
    · rw [if_neg ht, if_neg ht, ← h.pos]
      have hu := h.toks.update i { p.toks i with stop := p.pos + 1 }
      refine .some ⟨h.pos, h.toknext, hu.lastTok hlt _, h.count, hu, fun j hj => ?_, h.counted⟩
      exact (lastTok_lt hj).trans_le hlt

lemma comma : Alike p.comma q.comma := by
  unfold JsmnParser.comma
  rw [← h.toksuper]
  cases hs : p.toksuper with
  | none => exact h
  | some i =>
    dsimp only
    rw [← h.toks i (h.super i hs)]
    split
    · exact h
    · rw [← h.last]
      refine { h with toksuper := rfl, super := fun j hj => ?_ }
      obtain hj | ⟨-, hj⟩ := Option.or_eq_some_iff.mp hj
      · exact lastTok_lt hj
      · exact h.super j (hs.trans hj)

lemma colon : Alike { p with toksuper := if p.toknext = 0 then none else some (p.toknext - 1) }
    { q with toksuper := if q.toknext = 0 then none else some (q.toknext - 1) } := by
  refine { h with toksuper := by rw [h.toknext], super := fun i hi => ?_ }
  dsimp only at hi ⊢
  split_ifs at hi
  cases hi
  omega

end Alike

def AlikeResult (a b : Except JsmnError (JsmnParser × ℕ)) : Prop :=
  (∃ e, a = .error e ∧ b = .error e) ∨ ∃ p q k, a = .ok (p, k) ∧ b = .ok (q, k) ∧ Alike p q

lemma alikeResult_elim {a b : Option JsmnParser} (h : Option.Rel Alike a b) (e : JsmnError)
    (k : ℕ) :
    AlikeResult (a.elim (.error e) fun q => .ok (q, k)) (b.elim (.error e) fun q => .ok (q, k)) := by
  cases h with
  | none => exact .inl ⟨e, rfl, rfl⟩
  | some hpq => exact .inr ⟨_, _, k, rfl, rfl, hpq⟩

lemma alikeResult_ite {P : Prop} [Decidable P] {a b a' b' : Except JsmnError (JsmnParser × ℕ)}
    (ha : AlikeResult a a') (hb : AlikeResult b b') :
    AlikeResult (if P then a else b) (if P then a' else b') := by
  split
  · exact ha
  · exact hb

variable {p q : JsmnParser}

lemma Alike.byte (h : Alike p q) (n : ℕ) (c : UInt8) (cs : Bytes) :
    AlikeResult (jsmnByte n p c cs) (jsmnByte n q c cs) := by
  refine alikeResult_ite (alikeResult_elim (h.opened n _) _ _) ?_
  refine alikeResult_ite (alikeResult_elim (h.opened n _) _ _) ?_
  refine alikeResult_ite (alikeResult_elim (h.closedTok _) _ _) ?_
  refine alikeResult_ite (alikeResult_elim (h.closedTok _) _ _) ?_
  refine alikeResult_ite ?_ ?_
  · cases stringLen 0 cs with
    | error e => exact .inl ⟨e, rfl, rfl⟩
    | ok =>
      rw [h.pos]
      exact alikeResult_elim (h.leaf n _ _ _) _ _
  refine alikeResult_ite (.inr ⟨_, _, _, rfl, rfl, h⟩) ?_
  refine alikeResult_ite (.inr ⟨_, _, _, rfl, rfl, h.colon⟩) ?_
  refine alikeResult_ite (.inr ⟨_, _, _, rfl, rfl, h.comma⟩) ?_
  cases primitiveLen (c :: cs) with
  | none => exact .inl ⟨_, rfl, rfl⟩
  | some =>
    rw [h.pos]
    exact alikeResult_elim (h.leaf n _ _ _) _ _

/-- Both runs return the same, and a count is that of tokens the tables agree on. -/
def SameTokens (a b : Except JsmnError ℕ × JsmnTable) : Prop :=
  a.1 = b.1 ∧ ∀ n, a.1 = .ok n → Agree n a.2 b.2

lemma Alike.finish (h : Alike p q) :
    SameTokens (jsmnLoop.finish p) (jsmnLoop.finish q) := by
  unfold jsmnLoop.finish
  rw [← h.last, ← h.count]
  split
  · exact ⟨rfl, nofun⟩
  · refine ⟨rfl, fun n hn => ?_⟩
    cases hn
    rw [h.counted]
    exact h.toks

lemma Alike.loop (cs : Bytes) (skip : ℕ) (h : Alike p q) :
    SameTokens (jsmnLoop n skip cs p) (jsmnLoop n skip cs q) := by
  induction cs generalizing skip p q with
  | nil =>
    exact h.finish
  | cons c cs ih =>
    cases skip with
    | succ skip => exact ih skip h.advance
    | zero =>
      unfold jsmnLoop
      split
      · exact h.finish
      · obtain ⟨e, hp, hq⟩ | ⟨p', q', k, hp, hq, hpq⟩ := h.byte n c cs
        · rw [hp, hq]
          exact ⟨rfl, nofun⟩
        · rw [hp, hq]
          exact ih k hpq.advance

lemma jsmnParse_same (js : Bytes) (t u : JsmnTable) :
    SameTokens (jsmnParse n js t) (jsmnParse n js u) :=
  (alike_init t u).loop n js 0

end TinyLink.Proofs
