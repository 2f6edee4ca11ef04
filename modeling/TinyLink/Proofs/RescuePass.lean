import TinyLink.RekeySystem

/-!
# The pass of a flush

`wg_rescue_flush` and the memory of re-sent keypairs, slot by slot from the ring at its start.
-/

namespace TinyLink.Proofs

variable {i : ℕ}

section Slots
variable (r : WgRescueRing)

lemma ten_ne_zero : NeZero 10 := ⟨by decide⟩

lemma head_lt : r.head.val < 10 := r.head.isLt

def setNth (i : ℕ) (v : WgRescue) : WgRescueRing :=
  { r with slot := r.slot.set (r.head + @Fin.ofNat 10 ten_ne_zero i : Fin 10) v (Fin.isLt _) }

/-- `wg_rescue_keep` of a frame that is not too long. -/
def pushed (v : WgRescue) : WgRescueRing :=
  { r with slot := r.slot.set r.head v (head_lt r), head := r.head + @Fin.ofNat 10 ten_ne_zero 1 }

def Full (r : WgRescueRing) (i : ℕ) : Prop := i < 10 ∧ (r.nth i).atUs ≠ 0

lemma mem_oldestFirst {s : WgRescue} : s ∈ r.oldestFirst ↔ ∃ i, i < 10 ∧ r.nth i = s := by
  simp [WgRescueRing.oldestFirst, wgRescueSlots]

lemma nth_eq (i : ℕ) (h : (r.head.val + i) % 10 < 10) :
    r.nth i = r.slot[(r.head.val + i) % 10] := by
  have hval : (r.head + Fin.ofNat 10 i).val = (r.head.val + i) % 10 := by
    simp [Fin.val_add]
  change r.slot[(r.head + Fin.ofNat 10 i).val] = _
  simp only [hval]

lemma nth_setNth (v : WgRescue) {j : ℕ} (hi : i < 10) (hj : j < 10) :
    (setNth r i v).nth j = if i = j then v else r.nth j := by
  have hval : (r.head + Fin.ofNat 10 i).val = (r.head.val + i) % 10 := by
    simp [Fin.val_add]
  have hinj : (r.head.val + i) % 10 = (r.head.val + j) % 10 ↔ i = j := by omega
  rw [nth_eq _ j (Nat.mod_lt _ (by decide)), nth_eq r j (Nat.mod_lt _ (by decide))]
  simp only [setNth, hval, Vector.getElem_set, hinj]

lemma nth_pushed_last (v : WgRescue) : (pushed r v).nth 9 = v := by
  have hval : (r.head + @Fin.ofNat 10 ten_ne_zero 1).val = (r.head.val + 1) % 10 := rfl
  have hidx : ((r.head.val + 1) % 10 + 9) % 10 = r.head.val := by omega
  rw [nth_eq _ 9 (Nat.mod_lt _ (by decide))]
  simp only [pushed, hval, hidx, Vector.getElem_set_self]

lemma nth_pushed (v : WgRescue) (hi : i < 9) : (pushed r v).nth i = r.nth (i + 1) := by
  have hval : (r.head + @Fin.ofNat 10 ten_ne_zero 1).val = (r.head.val + 1) % 10 := rfl
  have hidx : ((r.head.val + 1) % 10 + i) % 10 = (r.head.val + (i + 1)) % 10 := by omega
  have hne : r.head.val ≠ (r.head.val + (i + 1)) % 10 := by omega
  rw [nth_eq _ i (Nat.mod_lt _ (by decide)), nth_eq r (i + 1) (Nat.mod_lt _ (by decide))]
  simp only [pushed, hval, hidx, Vector.getElem_set, if_neg hne]

lemma nth_markSent (gen : UInt32) (now : ℤ) (i : ℕ) : (r.markSent gen now).nth i = r.nth i := by
  unfold WgRescueRing.markSent
  split <;> rfl

end Slots

section Pass
variable (now fromUs maxAgeUs : ℤ) (accepts : ℕ → Bool)

lemma flushSlot_cases (f : FlushState) (i : ℕ) :
    ((f.ring.nth i).atUs = 0 ∧ wgRescueFlushSlot now fromUs maxAgeUs accepts f i = f) ∨
      (wgRescuePending (f.ring.nth i) now fromUs maxAgeUs = false ∧
        wgRescueFlushSlot now fromUs maxAgeUs accepts f i =
          { f with ring := setNth f.ring i { f.ring.nth i with atUs := 0 } }) ∨
      (wgRescuePending (f.ring.nth i) now fromUs maxAgeUs = true ∧ (f.left = 0 ∧ accepts i = true) ∧
        wgRescueFlushSlot now fromUs maxAgeUs accepts f i =
          { f with
            sent := f.sent ++ [(f.ring.nth i).buf]
            ring := (setNth f.ring i { f.ring.nth i with atUs := 0 }).markSent (f.ring.nth i).gen now }) ∨
      (wgRescuePending (f.ring.nth i) now fromUs maxAgeUs = true ∧
        ¬ (f.left = 0 ∧ accepts i = true) ∧
        wgRescueFlushSlot now fromUs maxAgeUs accepts f i =
          { f with
            left := f.left + 1
            ring := setNth f.ring i { f.ring.nth i with owed := true } }) := by
  by_cases h0 : (f.ring.nth i).atUs = 0
  · exact .inl ⟨h0, if_pos h0⟩
  · right
    cases hp : wgRescuePending (f.ring.nth i) now fromUs maxAgeUs with
    | false =>
      exact .inl ⟨rfl, (if_neg h0).trans (if_pos (by rw [WgRescueRing.nth] at hp; simp only [hp, Bool.not_false]))⟩
    | true =>
      right
      have hnot : ¬ (!wgRescuePending (f.ring.nth i) now fromUs maxAgeUs) = true := by simp [hp]
      have hiff : (f.left = 0 && accepts i) = true ↔ f.left = 0 ∧ accepts i = true := by
        simp only [Bool.and_eq_true, decide_eq_true_eq]
      by_cases hs : f.left = 0 ∧ accepts i = true
      · exact .inl ⟨rfl, hs, (if_neg h0).trans ((if_neg hnot).trans (if_pos (hiff.mpr hs)))⟩
      · exact .inr ⟨rfl, hs, (if_neg h0).trans ((if_neg hnot).trans (if_neg (mt hiff.mp hs)))⟩

end Pass

/-- A call of `wg_rescue_flush`. -/
structure FlushCall where
  ring : WgRescueRing
  now : ℤ
  fromUs : ℤ
  maxAgeUs : ℤ
  accepts : ℕ → Bool

namespace FlushCall
variable (c : FlushCall)

def result : FlushState := wgRescueFlush c.ring c.now c.fromUs c.maxAgeUs c.accepts

def pends (q : ℕ) : Bool := wgRescuePending (c.ring.nth q) c.now c.fromUs c.maxAgeUs

/-- The relay takes every pending frame of the first `k` slots. -/
def takes (k : ℕ) : Bool := (List.range k).all fun q => !c.pends q || c.accepts q

def after (q : ℕ) : WgRescue :=
  if c.pends q = true ∧ c.takes (q + 1) = false then { c.ring.nth q with owed := true }
  else { c.ring.nth q with atUs := 0 }

/-- The slots among the first `k` whose frames the relay takes. -/
def taken (k : ℕ) : List ℕ := (List.range k).filter fun q => c.pends q && c.takes (q + 1)

end FlushCall

/-- The memory of re-sent keypairs behind frames of the generations `gs`. -/
def remembered (r : WgRescueRing) (now : ℤ) (gs : List UInt32) : WgRescueRing :=
  gs.foldl (fun r g => r.markSent g now) r

/-- The pass over the first `k` slots. -/
structure FlushPass (c : FlushCall) (k : ℕ) (f : FlushState) : Prop where
  head : f.ring.head = c.ring.head
  slots : ∀ q, q < 10 → f.ring.nth q = if q < k then c.after q else c.ring.nth q
  left : f.left = 0 ↔ c.takes k = true
  sent : f.sent = (c.taken k).map fun q => (c.ring.nth q).buf
  memory : ∀ m, m = remembered c.ring c.now ((c.taken k).map fun q => (c.ring.nth q).gen) →
    f.ring.sent0 = m.sent0 ∧ f.ring.sent1 = m.sent1

lemma markSent_head (r : WgRescueRing) (gen : UInt32) (t : ℤ) :
    (r.markSent gen t).head = r.head := by
  unfold WgRescueRing.markSent
  split <;> rfl

lemma markSent_sent (r : WgRescueRing) (gen : UInt32) (t : ℤ) :
    (r.markSent gen t).sent0 = ⟨gen, t⟩ ∧
      (r.markSent gen t).sent1 = if gen = r.sent0.gen then r.sent1 else r.sent0 := by
  unfold WgRescueRing.markSent
  by_cases hg : gen = r.sent0.gen
  · rw [if_neg (not_not.mpr hg), if_pos hg]
    exact ⟨rfl, rfl⟩
  · rw [if_pos hg, if_neg hg]
    exact ⟨rfl, rfl⟩

section Flush
variable {c : FlushCall} {k q : ℕ} {f : FlushState}

lemma pends_full (h : c.pends q) : (c.ring.nth q).atUs ≠ 0 := by
  intro h0
  simp [FlushCall.pends, wgRescuePending, h0] at h

lemma takes_iff : c.takes k = true ↔ ∀ q, q < k → c.pends q = true → c.accepts q = true := by
  simp [FlushCall.takes, imp_iff_not_or]

lemma takes_succ : c.takes (k + 1) = true ↔
    c.takes k = true ∧ (c.pends k = true → c.accepts k = true) := by
  simp [FlushCall.takes, List.range_succ, imp_iff_not_or]

lemma after_of_empty (h : (c.ring.nth q).atUs = 0) : c.after q = c.ring.nth q := by
  rw [FlushCall.after, if_neg fun hp => pends_full hp.1 h, ← h]

lemma taken_succ : c.taken (k + 1) =
    c.taken k ++ if c.pends k && c.takes (k + 1) then [k] else [] := by
  rw [FlushCall.taken, List.range_succ, List.filter_append, List.filter_cons, List.filter_nil]
  rfl

lemma FlushPass.slots_succ (h : FlushPass c k f) (hk : k < 10) {v : WgRescue} (hv : v = c.after k)
    (q : ℕ) (hq : q < 10) :
    (setNth f.ring k v).nth q = if q < k + 1 then c.after q else c.ring.nth q := by
  rw [nth_setNth _ _ hk hq, h.slots q hq]
  rcases Nat.lt_trichotomy q k with hlt | rfl | hgt
  · rw [if_neg (by omega), if_pos hlt, if_pos (by omega)]
  · rw [if_pos rfl, if_pos (by omega), hv]
  · rw [if_neg (by omega), if_neg (by omega), if_neg (by omega)]

lemma FlushPass.step (h : FlushPass c k f) (hk : k < 10) :
    FlushPass c (k + 1) (wgRescueFlushSlot c.now c.fromUs c.maxAgeUs c.accepts f k) := by
  have hnth : f.ring.nth k = c.ring.nth k := by rw [h.slots k hk, if_neg (by omega)]
  have hpend : wgRescuePending (f.ring.nth k) c.now c.fromUs c.maxAgeUs = c.pends k := by
    rw [hnth, FlushCall.pends]
  -- a slot whose frame is not taken
  have hskip : (c.pends k && c.takes (k + 1)) = false → c.taken (k + 1) = c.taken k := by
    intro hno
    rw [taken_succ, hno]
    exact List.append_nil _
  have hthrough : c.pends k = false → (f.left = 0 ↔ c.takes (k + 1) = true) := by
    intro hp
    rw [takes_succ, h.left]
    simp [hp]
  rcases flushSlot_cases c.now c.fromUs c.maxAgeUs c.accepts f k with
    ⟨h0, he⟩ | ⟨hp, he⟩ | ⟨hp, ⟨hl, ha⟩, he⟩ | ⟨hp, hno, he⟩
  · rw [hnth] at h0
    have hp : c.pends k = false := Bool.eq_false_iff.mpr fun hp => pends_full hp h0
    rw [he]
    refine ⟨h.head, ?_, hthrough hp, ?_, ?_⟩
    · intro q hq
      rw [h.slots q hq]
      rcases Nat.lt_trichotomy q k with hlt | rfl | hgt
      · rw [if_pos hlt, if_pos (by omega)]
      · rw [if_neg (by omega), if_pos (by omega), after_of_empty h0]
      · rw [if_neg (by omega), if_neg (by omega)]
    all_goals rw [hskip (by simp [hp])]
    · exact h.sent
    · exact h.memory
  · rw [hpend] at hp
    rw [he]
    refine ⟨h.head, h.slots_succ hk ?_, hthrough hp, ?_, ?_⟩
    · rw [FlushCall.after, if_neg (by simp [hp]), hnth]
    all_goals rw [hskip (by simp [hp])]
    · exact h.sent
    · exact h.memory
  · rw [hpend] at hp
    have htaken : c.takes (k + 1) = true := takes_succ.mpr ⟨h.left.mp hl, fun _ => ha⟩
    have hsucc := taken_succ (c := c) (k := k)
    rw [hp, htaken, Bool.and_self, if_pos rfl] at hsucc
    rw [he]
    refine ⟨(markSent_head _ _ _).trans h.head, ?_, by simp [hl, htaken], ?_, ?_⟩
    · intro q hq
      rw [nth_markSent]
      refine h.slots_succ hk ?_ q hq
      rw [FlushCall.after, if_neg (by simp [htaken]), hnth]
    · rw [hsucc, List.map_append, h.sent, hnth]
      rfl
    · rintro _ rfl
      obtain ⟨h0, h1⟩ := h.memory _ rfl
      rw [hsucc, List.map_append, remembered, List.foldl_append]
      change _ = (WgRescueRing.markSent (remembered c.ring c.now _) (c.ring.nth k).gen c.now).sent0 ∧
        _ = (WgRescueRing.markSent (remembered c.ring c.now _) (c.ring.nth k).gen c.now).sent1
      rw [(markSent_sent _ _ _).1, (markSent_sent _ _ _).2, (markSent_sent _ _ _).1,
        (markSent_sent _ _ _).2, ← h0, ← h1, hnth]
      exact ⟨rfl, rfl⟩
  · rw [hpend] at hp
    have hrefused : c.takes (k + 1) = false := by
      rw [Bool.eq_false_iff, ne_eq, takes_succ, ← h.left]
      exact fun hc => hno ⟨hc.1, hc.2 hp⟩
    rw [he]
    refine ⟨h.head, h.slots_succ hk ?_, by simp [hrefused], ?_, ?_⟩
    · rw [FlushCall.after, if_pos ⟨hp, hrefused⟩, hnth]
    all_goals rw [hskip (by simp [hrefused])]
    · exact h.sent
    · exact h.memory

variable (c)

lemma flushPass : ∀ k, k ≤ 10 → FlushPass c k ((List.range k).foldl
    (wgRescueFlushSlot c.now c.fromUs c.maxAgeUs c.accepts) ⟨c.ring, [], 0⟩) := by
  intro k
  induction k with
  | zero =>
    intro _
    refine ⟨rfl, fun q _ => by simp, by simp [FlushCall.takes], rfl, ?_⟩
    rintro _ rfl
    exact ⟨rfl, rfl⟩
  | succ k ih =>
    intro hk
    rw [List.range_succ, List.foldl_append, List.foldl_cons, List.foldl_nil]
    exact (ih (by omega)).step hk

lemma flush_pass : FlushPass c wgRescueSlots c.result := by
  exact flushPass c wgRescueSlots le_rfl

lemma flush_head : c.result.ring.head = c.ring.head := (flush_pass c).head

lemma flush_nth (hq : q < 10) : c.result.ring.nth q = c.after q :=
  ((flush_pass c).slots q hq).trans (if_pos hq)

lemma after_atUs (h : c.pends q) : (c.after q).atUs = 0 ↔ c.takes (q + 1) = true := by
  have hne := pends_full h
  unfold FlushCall.after
  cases c.takes (q + 1) with
  | false => simp [h, hne]
  | true => simp

lemma resentGens_eq : resentGens c.ring c.result.ring c.now c.fromUs c.maxAgeUs =
    (c.taken wgRescueSlots).map fun q => (c.ring.nth q).gen := by
  have hfilter : resentGens c.ring c.result.ring c.now c.fromUs c.maxAgeUs =
      ((List.range wgRescueSlots).filter fun q =>
        c.pends q && (c.result.ring.nth q).atUs = 0).map fun q => (c.ring.nth q).gen := by
    rw [← List.filterMap_eq_map, List.filterMap_filter]
    rfl
  rw [hfilter, FlushCall.taken]
  refine congrArg (List.map _) (List.filter_congr ?_)
  intro q hq
  rw [flush_nth c (List.mem_range.mp hq)]
  cases hp : c.pends q with
  | false => rfl
  | true => simp [after_atUs c hp]

end Flush

end TinyLink.Proofs
