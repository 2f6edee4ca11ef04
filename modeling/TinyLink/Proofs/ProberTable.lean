import Mathlib.Data.Fintype.Card
import Mathlib.Tactic.IntervalCases
import TinyLink.DiscoProber

/-!
# The prober table over any sequence of calls

A probe that has not expired leaves its slot only when it is taken, or as the oldest of a full table.
-/

namespace TinyLink.Proofs

def Replaceable (table : ProberTable) (threshold : Int) (r : Fin discoProberTableSize) : Prop :=
  (table.get r).valid = false ∨ (table.get r).sentUs < threshold ∨
    ∀ i, (table.get i).valid = true ∧ (table.get r).sentUs ≤ (table.get i).sentUs

lemma proberTarget_loop (table : ProberTable) (threshold : Int)
    (is : List (Fin discoProberTableSize)) (oldest : Fin discoProberTableSize) :
    let r := proberTarget table threshold is oldest
    (table.get r).valid = false ∨ (table.get r).sentUs < threshold ∨
      ((table.get r).sentUs ≤ (table.get oldest).sentUs ∧
        ∀ i ∈ is, (table.get i).valid = true ∧ (table.get r).sentUs ≤ (table.get i).sentUs) := by
  induction is generalizing oldest with
  | nil => exact .inr (.inr ⟨Int.le_refl _, fun i hi => absurd hi List.not_mem_nil⟩)
  | cons j _ ih =>
    have hget : ∀ i : Fin discoProberTableSize, table[i] = table.get i := fun _ => rfl
    unfold proberTarget
    simp only [hget]
    split
    · next hv => exact .inl (by simpa using hv)
    · next hv =>
      split
      · next hexp => exact .inr (.inl hexp)
      · have hvalid : (table.get j).valid = true := by simpa using hv
        rcases ih (if (table.get j).sentUs < (table.get oldest).sentUs then j else oldest) with
          hfree | hexp | ⟨hmin, hall⟩
        · exact .inl hfree
        · exact .inr (.inl hexp)
        · refine .inr (.inr ?_)
          have hle : (table.get (if (table.get j).sentUs < (table.get oldest).sentUs then j
              else oldest)).sentUs ≤ (table.get oldest).sentUs ∧
              (table.get (if (table.get j).sentUs < (table.get oldest).sentUs then j
                else oldest)).sentUs ≤ (table.get j).sentUs := by
            split
            · next hlt => exact ⟨Int.le_of_lt hlt, Int.le_refl _⟩
            · next hge => exact ⟨Int.le_refl _, Int.not_lt.mp hge⟩
          refine ⟨Int.le_trans hmin hle.1, ?_⟩
          intro i hi
          rcases List.mem_cons.mp hi with rfl | hi
          · exact ⟨hvalid, Int.le_trans hmin hle.2⟩
          · exact hall i hi

lemma proberTarget_replaceable (table : ProberTable) (threshold : Int) : Replaceable table threshold
      (proberTarget table threshold (List.finRange discoProberTableSize) 0) := by
  rcases proberTarget_loop table threshold (List.finRange discoProberTableSize) 0 with
    hfree | hexp | ⟨-, hall⟩
  · exact .inl hfree
  · exact .inr (.inl hexp)
  · exact .inr (.inr fun i => hall i (List.mem_finRange i))

lemma discoProberRecord_get (table : ProberTable) (txid : Txid) (v4 : UInt32) (port : UInt16)
    (now : Int) : ∃ r, Replaceable table (expiryThresholdUs now) r ∧
      ∀ i, (discoProberRecord table txid v4 port now).get i =
        if i = r then ⟨txid, v4, port, now, true⟩ else table.get i := by
  refine ⟨_, proberTarget_replaceable table (expiryThresholdUs now), ?_⟩
  intro i
  refine (Vector.getElem_set (Fin.isLt _) i.isLt).trans ?_
  simp only [← Fin.ext_iff, eq_comm (a := i)]
  rfl

variable {table : ProberTable} {is : List (Fin discoProberTableSize)}

lemma proberFind_some {txid : Txid}
    {i : Fin discoProberTableSize} (h : proberFind table txid is = some i) :
    (table.get i).valid = true ∧ (table.get i).txid = txid := by
  change table[i].valid = true ∧ table[i].txid = txid
  induction is with
  | nil => cases h
  | cons _ _ ih =>
    unfold proberFind at h
    split at h
    · exact ih h
    · rename_i hv
      split at h
      · exact ih h
      · rename_i ht
        cases h
        exact ⟨by simpa using hv, by simpa using ht⟩

lemma proberFind_none {txid : Txid}
    (h : proberFind table txid is = none) :
    ∀ i ∈ is, (table.get i).valid = true → (table.get i).txid ≠ txid := by
  induction is with
  | nil => exact fun i hi => absurd hi List.not_mem_nil
  | cons _ _ ih =>
    have hget : ∀ i : Fin discoProberTableSize, table[i] = table.get i := fun _ => rfl
    unfold proberFind at h
    simp only [hget] at h
    intro i hi hvalid
    split at h
    · next hv =>
      rcases List.mem_cons.mp hi with rfl | hi
      · simp [hvalid] at hv
      · exact ih h i hi hvalid
    · split_ifs at h with ht
      rcases List.mem_cons.mp hi with rfl | hi
      · exact ht
      · exact ih h i hi hvalid

inductive TakeMove (table : ProberTable) (txid : Txid) (v4 : UInt32) (port : UInt16) (now : Int) :
    Option Int × ProberTable → Prop
  | missing (hmiss : ∀ i, (table.get i).valid = true → (table.get i).txid ≠ txid) :
      TakeMove table txid v4 port now (none, table)
  | foreign {i : Fin discoProberTableSize} (hv : (table.get i).valid = true)
      (ht : (table.get i).txid = txid)
      (hsrc : ¬ ((table.get i).dstV4Be = v4 ∧ (table.get i).dstPort = port)) :
      TakeMove table txid v4 port now (none, table)
  | consumed {i : Fin discoProberTableSize} {table' : ProberTable} (hv : (table.get i).valid = true)
      (ht : (table.get i).txid = txid) (hv4 : (table.get i).dstV4Be = v4)
      (hport : (table.get i).dstPort = port)
      (hget : ∀ k, table'.get k = if k = i then .zero else table.get k) :
      TakeMove table txid v4 port now
        (if (table.get i).sentUs ≥ expiryThresholdUs now then some (table.get i).sentUs else none,
          table')

lemma take_move (table : ProberTable) (txid : Txid) (v4 : UInt32) (port : UInt16) (now : Int) :
    TakeMove table txid v4 port now (discoProberTake table txid v4 port now) := by
  unfold discoProberTake
  cases hfind : proberFind table txid (List.finRange discoProberTableSize) with
  | none => exact .missing fun i => proberFind_none hfind i (List.mem_finRange i)
  | some =>
    obtain ⟨hv, ht⟩ := proberFind_some hfind
    dsimp only
    split
    · next hsrc =>
      refine .foreign hv ht ?_
      rintro ⟨hv4, hport⟩
      exact hsrc.elim (fun h => h hv4) (fun h => h hport)
    · next hsrc =>
      rw [not_or, not_not, not_not] at hsrc
      refine .consumed hv ht hsrc.1 hsrc.2 fun k => ?_
      refine (Vector.getElem_set (Fin.isLt _) k.isLt).trans ?_
      simp only [← Fin.ext_iff, eq_comm (a := k)]
      rfl

section Runs

open ProberRun

variable {E : ProberRun} {i j k : ℕ} {txid : Txid} {v4 : UInt32} {port : UInt16} {now s : Int}

lemma state_record (h : E.RecordsAt k txid v4 port s) :
    E.state (k + 1) = discoProberRecord (E.state k) txid v4 port s := by
  have hstep := E.steps k h.1
  rw [h.2] at hstep
  exact (Option.some.inj hstep).symm

lemma state_take (h : E.TakesAt k txid v4 port now) :
    E.state (k + 1) = (discoProberTake (E.state k) txid v4 port now).2 := by
  have hstep := E.steps k h.1
  rw [h.2] at hstep
  exact (Option.some.inj hstep).symm

lemma call_cases (hk : k < E.length) :
    (∃ txid v4 port s, E.RecordsAt k txid v4 port s) ∨ ∃ txid v4 port s, E.TakesAt k txid v4 port s := by
  cases hact : E.act k with
  | record txid v4 port s => exact .inl ⟨txid, v4, port, s, hk, hact⟩
  | take txid v4 port s => exact .inr ⟨txid, v4, port, s, hk, hact⟩

lemma not_record_and_take {txid' : Txid} {v4' : UInt32} {port' : UInt16} {s' : Int}
    (hr : E.RecordsAt k txid v4 port s) (ht : E.TakesAt k txid' v4' port' s') : False := by
  have hact := hr.2.symm.trans ht.2
  cases hact

/-- The probe was recorded before call `k`, as the slot has it. -/
def ProbeRecorded (E : ProberRun) (k : ℕ) (slot : ProberSlot) : Prop :=
  ∃ j, j < k ∧ E.RecordsAt j slot.txid slot.dstV4Be slot.dstPort slot.sentUs

lemma ProbeRecorded.succ {slot : ProberSlot} (h : ProbeRecorded E k slot) : ProbeRecorded E
    (k + 1) slot := by
  obtain ⟨j, hj, hrec⟩ := h
  exact ⟨j, Nat.lt_succ_of_lt hj, hrec⟩

/-- Slots in use hold recorded probes, each its own. -/
structure TableOk (E : ProberRun) (k : ℕ) : Prop where
  recorded : ∀ i, ((E.state k).get i).valid = true → ProbeRecorded E k ((E.state k).get i)
  unique : ∀ i j, ((E.state k).get i).valid = true → ((E.state k).get j).valid = true →
    ((E.state k).get i).txid = ((E.state k).get j).txid → i = j

lemma tableOk_zero : TableOk E 0 := by
  have hzero : ∀ i, (E.state 0).get i = .zero := by
    intro i
    rw [E.starts]
    exact Vector.getElem_replicate i.isLt
  constructor
  · intro i hv
    rw [hzero] at hv
    cases hv
  · intro i j hv
    rw [hzero] at hv
    cases hv

lemma TableOk.record (ho : E.Orderly) (h : TableOk E k) (hrec : E.RecordsAt k txid v4 port s) :
    TableOk E (k + 1) := by
  obtain ⟨r, -, hget⟩ := discoProberRecord_get (E.state k) txid v4 port s
  rw [← state_record hrec] at hget
  -- the transaction id is in no slot yet
  have hfresh : ∀ i, ((E.state k).get i).valid = true → ((E.state k).get i).txid ≠ txid := by
    intro i hv heq
    obtain ⟨j, hj, hold⟩ := h.recorded i hv
    rw [heq] at hold
    exact Nat.ne_of_lt hj (ho.distinct j k txid _ _ _ v4 port s hold hrec)
  constructor
  · intro i hv
    rw [hget] at hv ⊢
    split
    · exact ⟨k, Nat.lt_succ_self k, hrec⟩
    · next hi =>
      rw [if_neg hi] at hv
      exact (h.recorded i hv).succ
  · intro i j hvi hvj heq
    rw [hget] at hvi hvj heq
    rw [hget] at heq
    by_cases hi : i = r
    · by_cases hj : j = r
      · rw [hi, hj]
      · rw [if_neg hj] at hvj heq
        rw [if_pos hi] at heq
        exact absurd heq.symm (hfresh j hvj)
    · rw [if_neg hi] at hvi heq
      by_cases hj : j = r
      · rw [if_pos hj] at heq
        exact absurd heq (hfresh i hvi)
      · rw [if_neg hj] at hvj heq
        exact h.unique i j hvi hvj heq

lemma take_keeps {r : Option Int × ProberTable}
    (h : TakeMove table txid v4 port now r) {i : Fin discoProberTableSize}
    (hv : (r.2.get i).valid) : r.2.get i = table.get i := by
  cases h with
  | missing | foreign => rfl
  | consumed _ _ _ _ hget =>
    rw [hget] at hv ⊢
    split at hv
    · cases hv
    · next hi => rw [if_neg hi]

lemma TableOk.take (h : TableOk E k) (htake : E.TakesAt k txid v4 port now) :
    TableOk E (k + 1) := by
  have hkeep : ∀ i, ((E.state (k + 1)).get i).valid = true →
      (E.state (k + 1)).get i = (E.state k).get i := by
    rw [state_take htake]
    exact fun i hv => take_keeps (take_move _ _ _ _ _) hv
  constructor
  · intro i hv
    have hi := hkeep i hv
    rw [hi] at hv ⊢
    exact (h.recorded i hv).succ
  · intro i j hvi hvj heq
    have hi := hkeep i hvi
    have hj := hkeep j hvj
    rw [hi] at hvi
    rw [hj] at hvj
    rw [hi, hj] at heq
    exact h.unique i j hvi hvj heq

lemma tableOk (ho : E.Orderly) : ∀ k, k ≤ E.length → TableOk E k := by
  refine E.along tableOk_zero fun k hk h => ?_
  rcases call_cases hk with ⟨txid, v4, port, s, hrec⟩ | ⟨txid, v4, port, s, htake⟩
  · exact h.record ho hrec
  · exact h.take htake

lemma spent_slot (htake : E.TakesAt k txid v4 port now)
    (h : (E.returnAt k txid v4 port now).isSome = true ∨ E.state (k + 1) ≠ E.state k) :
    ∃ i, ((E.state k).get i).valid = true ∧ ((E.state k).get i).txid = txid ∧
      ((E.state (k + 1)).get i).valid = false := by
  rw [state_take htake] at h ⊢
  unfold returnAt at h
  generalize hr : discoProberTake (E.state k) txid v4 port now = r at h
  have hmove := take_move (E.state k) txid v4 port now
  rw [hr] at hmove
  cases hmove with
  | missing | foreign => exact (h.elim (fun hs => by cases hs) fun hne => hne rfl).elim
  | @consumed i _ hv ht _ _ hget =>
    refine ⟨i, hv, ht, ?_⟩
    rw [hget, if_pos rfl]
    rfl

lemma slot_cases (hk : k < E.length) {i : Fin discoProberTableSize}
    (hv : ((E.state (k + 1)).get i).valid) : (E.state (k + 1)).get i = (E.state k).get i ∨
      E.RecordsAt k ((E.state (k + 1)).get i).txid ((E.state (k + 1)).get i).dstV4Be
        ((E.state (k + 1)).get i).dstPort ((E.state (k + 1)).get i).sentUs := by
  rcases call_cases hk with ⟨txid, v4, port, s, hrec⟩ | ⟨txid, v4, port, s, htake⟩
  · obtain ⟨r, -, hget⟩ := discoProberRecord_get (E.state k) txid v4 port s
    rw [state_record hrec, hget]
    split
    · exact .inr hrec
    · exact .inl rfl
  · rw [state_take htake] at hv ⊢
    exact .inl (take_keeps (take_move _ _ _ _ _) hv)

lemma unspent (ho : E.Orderly) : ∀ k, k ≤ E.length → ∀ i,
    ((E.state k).get i).valid = true → ¬ E.SpentBefore k ((E.state k).get i).txid := by
  refine E.along ?_ fun k hk ih i hv => ?_
  · rintro i - ⟨j, v4, port, now, hj, -⟩
    exact Nat.not_lt_zero j hj
  · rintro ⟨j, v4, port, now, hj, htake, hspent⟩
    obtain ⟨m, hvm, htm, hgone⟩ := spent_slot htake hspent
    rcases slot_cases hk hv with hsame | hrec
    · rw [hsame] at hv htm htake hspent
      rcases Nat.lt_succ_iff_lt_or_eq.mp hj with hlt | rfl
      · exact ih i hv ⟨j, v4, port, now, hlt, htake, hspent⟩
      · have hmi := (tableOk ho j (Nat.le_of_lt hk)).unique m i hvm hv htm
        rw [hmi, hsame, hv] at hgone
        cases hgone
    · rcases Nat.lt_succ_iff_lt_or_eq.mp hj with hlt | rfl
      · obtain ⟨l, hl, hold⟩ := (tableOk ho j (Nat.le_of_lt htake.1)).recorded m hvm
        rw [htm] at hold
        have heq := ho.distinct _ _ _ _ _ _ _ _ _ hold hrec
        omega
      · exact not_record_and_take hrec htake

lemma recordsBetween_succ (hik : i < k) (hrec : E.RecordsAt k txid v4 port s) :
    E.recordsBetween i (k + 1) = E.recordsBetween i k + 1 := by
  have hset : Finset.Ioo i (k + 1) = insert k (Finset.Ioo i k) := by
    ext m
    simp only [Finset.mem_Ioo, Finset.mem_insert]
    omega
  have hmark : (E.act k).isRecord = true := by
    rw [hrec.2]
    rfl
  unfold recordsBetween
  rw [hset, Finset.filter_insert, if_pos hmark, Finset.card_insert_of_notMem]
  simp

lemma recordsBetween_le (hik : k ≤ j) : E.recordsBetween i k ≤ E.recordsBetween i j := by
  refine Finset.card_le_card fun m hm => ?_
  simp only [Finset.mem_filter, Finset.mem_Ioo] at hm ⊢
  exact ⟨⟨hm.1.1, Nat.lt_of_lt_of_le hm.1.2 hik⟩, hm.2⟩

lemma oldest_outnumbered (ho : E.Orderly) (hk : k ≤ E.length) (hrec : E.RecordsAt i txid v4 port s)
    (hfull : ∀ r, ((E.state k).get r).valid = true ∧ s ≤ ((E.state k).get r).sentUs) :
    discoProberTableSize ≤ E.recordsBetween i k + 1 := by
  have hok := tableOk ho k hk
  choose f hf hfrec using fun r => hok.recorded r (hfull r).1
  have hinj : Function.Injective f := by
    intro r r' heq
    have hact := (hfrec r).2.symm.trans ((congrArg E.act heq).trans (hfrec r').2)
    injection hact with htx
    exact hok.unique r r' (hfull r).1 (hfull r').1 htx
  have hsub : Finset.univ.image f ⊆
      insert i ((Finset.Ioo i k).filter fun m => (E.act m).isRecord = true) := by
    intro m hm
    obtain ⟨r, -, rfl⟩ := Finset.mem_image.mp hm
    rw [Finset.mem_insert, Finset.mem_filter, Finset.mem_Ioo]
    rcases Nat.lt_trichotomy (f r) i with hlt | heq | hgt
    · have hless := ho.increasing _ _ _ _ _ _ _ _ _ _ hlt (hfrec r) hrec
      exact absurd (hfull r).2 (Int.not_le.mpr hless)
    · exact .inl heq
    · refine .inr ⟨⟨hgt, hf r⟩, ?_⟩
      rw [(hfrec r).2]
      rfl
  calc discoProberTableSize = (Finset.univ.image f).card := by
        rw [Finset.card_image_of_injective _ hinj, Finset.card_univ, Fintype.card_fin]
    _ ≤ _ := Finset.card_le_card hsub
    _ ≤ E.recordsBetween i k + 1 := Finset.card_insert_le _ _

lemma held (ho : E.Orderly) (hrec : E.RecordsAt i txid v4 port s) : ∀ k, k ≤ E.length → i < k →
    ¬ E.SpentBefore k txid → E.recordsBetween i k < discoProberTableSize →
    (∀ m, i < m → m < k → expiryThresholdUs (E.act m).timeUs ≤ s) →
    ∃ r, (E.state k).get r = ⟨txid, v4, port, s, true⟩ := by
  refine E.along (fun h => absurd h (Nat.not_lt_zero i)) ?_
  intro k hk ih hik hunspent hfew hfresh
  rcases Nat.lt_succ_iff_lt_or_eq.mp hik with hlt | rfl
  swap
  · obtain ⟨r, -, hget⟩ := discoProberRecord_get (E.state i) txid v4 port s
    refine ⟨r, ?_⟩
    rw [state_record hrec, hget, if_pos rfl]
  have hunspent' : ¬ E.SpentBefore k txid := by
    rintro ⟨j, v4, port, now, hj, hspent⟩
    exact hunspent ⟨j, v4, port, now, Nat.lt_succ_of_lt hj, hspent⟩
  have hmono : E.recordsBetween i k ≤ E.recordsBetween i (k + 1) := recordsBetween_le (Nat.le_succ k)
  obtain ⟨r, hr⟩ := ih hlt hunspent' (Nat.lt_of_le_of_lt hmono hfew)
    fun m him hmk => hfresh m him (Nat.lt_succ_of_lt hmk)
  refine ⟨r, ?_⟩
  rcases call_cases hk with ⟨txid', v4', port', s', hrec'⟩ | ⟨txid', v4', port', s', htake⟩
  · obtain ⟨r', hrep, hget⟩ := discoProberRecord_get (E.state k) txid' v4' port' s'
    rw [state_record hrec', hget]
    split
    · next heq =>
      -- a full table of younger probes would be too many
      exfalso
      have hthr := hfresh k hlt (Nat.lt_succ_self k)
      rw [hrec'.2] at hthr
      rw [← heq, Replaceable, hr] at hrep
      rcases hrep with hfree | hexp | hfull
      · cases hfree
      · exact absurd hthr (Int.not_le.mpr hexp)
      · have hmany := oldest_outnumbered ho (Nat.le_of_lt hk) hrec hfull
        rw [recordsBetween_succ hlt hrec'] at hfew
        omega
    · exact hr
  · by_cases hv : ((E.state (k + 1)).get r).valid = true
    · rw [state_take htake] at hv ⊢
      rw [take_keeps (take_move _ _ _ _ _) hv, hr]
    · exfalso
      have hmove := take_move (E.state k) txid' v4' port' s'
      rw [state_take htake] at hv
      generalize hres : discoProberTake (E.state k) txid' v4' port' s' = res at hmove hv
      cases hmove with
      | missing | foreign => exact hv (by rw [hr])
      | @consumed _ table' _ ht _ _ hget =>
        rw [hget] at hv
        split at hv
        · next heq =>
          rw [← heq, hr] at ht
          refine hunspent ⟨k, v4', port', s', Nat.lt_succ_self k, ?_, .inr fun hsame => ?_⟩
          · rw [show txid = txid' from ht]
            exact htake
          · have hgone := hget r
            rw [if_pos heq] at hgone
            rw [state_take htake, hres] at hsame
            rw [show (E.state k).get r = table'.get r from congrArg (Vector.get · r) hsame.symm,
              hgone] at hr
            cases hr
        · exact hv (by rw [hr])

lemma return_of_slot (ho : E.Orderly) (hk : k ≤ E.length) {r : Fin discoProberTableSize}
    (hr : (E.state k).get r = ⟨txid, v4, port, s, true⟩) (hfresh : expiryThresholdUs now ≤ s) :
    E.returnAt k txid v4 port now = some s := by
  have hok := tableOk ho k hk
  have hv : ((E.state k).get r).valid = true := by rw [hr]
  have ht : ((E.state k).get r).txid = txid := by rw [hr]
  have hmove := take_move (E.state k) txid v4 port now
  unfold returnAt
  generalize discoProberTake (E.state k) txid v4 port now = res at hmove
  cases hmove with
  | missing hmiss => exact absurd ht (hmiss r hv)
  | @foreign r' hv' ht' hsrc =>
    rw [hok.unique r' r hv' hv (ht'.trans ht.symm), hr] at hsrc
    exact absurd ⟨rfl, rfl⟩ hsrc
  | @consumed r' _ hv' ht' =>
    rw [hok.unique r' r hv' hv (ht'.trans ht.symm), hr]
    exact if_pos hfresh

/-- A take returns the send time of a probe to that source that is neither too old nor spent, unless
a full table of probes was recorded since. For another source it does nothing. -/
theorem prober_take_spec (E : ProberRun) (ho : E.Orderly) {k : ℕ} {txid : Txid} {v4 : UInt32}
    {port : UInt16} {now : Int} (htake : E.TakesAt k txid v4 port now) :
    (∀ s, E.returnAt k txid v4 port now = some s →
      ∃ i, i < k ∧ E.RecordsAt i txid v4 port s ∧ now - s ≤ discoProberTimeoutMs * 1000 ∧
        ¬ E.SpentBefore k txid) ∧
    (∀ i s, i < k → E.RecordsAt i txid v4 port s → now - s ≤ discoProberTimeoutMs * 1000 →
      ¬ E.SpentBefore k txid → E.recordsBetween i k < discoProberTableSize →
      E.returnAt k txid v4 port now = some s) ∧ ((∀ i s, i < k → ¬ E.RecordsAt i txid v4 port s) →
      E.returnAt k txid v4 port now = none ∧ E.state (k + 1) = E.state k) := by
  have hk := Nat.le_of_lt htake.1
  have hok := tableOk ho k hk
  have hmove := take_move (E.state k) txid v4 port now
  refine ⟨?_, ?_, ?_⟩
  · unfold returnAt
    generalize discoProberTake (E.state k) txid v4 port now = res at hmove
    intro s hs
    cases hmove with
    | missing | foreign => cases hs
    | @consumed r _ hv ht hv4 hport =>
      split_ifs at hs with hfresh
      have hsent := Option.some.inj hs
      obtain ⟨i, hi, hrec⟩ := hok.recorded r hv
      rw [ht, hv4, hport, hsent] at hrec
      have hun := unspent ho k hk r hv
      rw [ht] at hun
      refine ⟨i, hi, hrec, ?_, hun⟩
      rw [hsent, expiryThresholdUs] at hfresh
      omega
  · intro i s hi hrec hage hun hfew
    have hlast : ∀ m, i < m → m < k → expiryThresholdUs (E.act m).timeUs ≤ s := by
      intro m _ hmk
      have hle := ho.ordered m k (Nat.le_of_lt hmk) htake.1
      rw [htake.2] at hle
      change (E.act m).timeUs ≤ now at hle
      rw [expiryThresholdUs]
      omega
    obtain ⟨r, hr⟩ := held ho hrec k hk hi hun hfew hlast
    refine return_of_slot ho hk hr ?_
    rw [expiryThresholdUs]
    omega
  · intro hnone
    unfold returnAt
    rw [state_take htake]
    generalize discoProberTake (E.state k) txid v4 port now = res at hmove
    cases hmove with
    | missing | foreign => exact ⟨rfl, rfl⟩
    | @consumed r _ hv ht hv4 hport =>
      obtain ⟨i, hi, hrec⟩ := hok.recorded r hv
      rw [ht, hv4, hport] at hrec
      exact absurd hrec (hnone i _ hi)

def spoofedPong : ProberRun :=
  StepSystem.runOf discoProberInit rfl (.take (Vector.replicate 12 1) 1 1 0)
    [.record (Vector.replicate 12 1) 1 1 1000, .take (Vector.replicate 12 1) 2 1 2000,
      .take (Vector.replicate 12 1) 1 1 3000] rfl

lemma spoofedPong_records (h : spoofedPong.RecordsAt i txid v4 port s) : i = 0 ∧ s = 1000 := by
  obtain ⟨hi, hact⟩ := h
  change i < 3 at hi
  interval_cases i
  · cases hact
    exact ⟨rfl, rfl⟩
  · cases hact
  · cases hact

lemma spoofedPong_orderly : spoofedPong.Orderly where
  distinct i j txid v4 port s v4' port' s' hi hj := by
    rw [(spoofedPong_records hi).1, (spoofedPong_records hj).1]
  increasing i j txid v4 port s txid' v4' port' s' hij hi hj := by
    rw [(spoofedPong_records hi).1, (spoofedPong_records hj).1] at hij
    exact absurd hij (Nat.lt_irrefl 0)
  ordered i j hij hj := by
    change j < 3 at hj
    interval_cases j <;> interval_cases i <;> decide

theorem spoofed_pong_changes_nothing :
    (spoofedPong.returnAt 1 (Vector.replicate 12 1) 2 1 2000 = none ∧
      spoofedPong.state 2 = spoofedPong.state 1) ∧
    spoofedPong.returnAt 2 (Vector.replicate 12 1) 1 1 3000 = some 1000 := by
  have hother : spoofedPong.TakesAt 1 (Vector.replicate 12 1) 2 1 2000 := ⟨by decide, rfl⟩
  have hown : spoofedPong.TakesAt 2 (Vector.replicate 12 1) 1 1 3000 := ⟨by decide, rfl⟩
  have hrec : spoofedPong.RecordsAt 0 (Vector.replicate 12 1) 1 1 1000 := ⟨by decide, rfl⟩
  have hnothing := (prober_take_spec spoofedPong spoofedPong_orderly hother).2.2 ?_
  · refine ⟨hnothing, (prober_take_spec spoofedPong spoofedPong_orderly hown).2.1 0 1000 (by decide)
      hrec (by decide) ?_ (by decide)⟩
    rintro ⟨j, v4, port, now, hj, htake, hspent⟩
    interval_cases j
    · exact not_record_and_take hrec htake
    · have hact := hother.2.symm.trans htake.2
      injection hact with _ hv4 hport hnow
      rw [← hv4, ← hport, ← hnow, hnothing.1] at hspent
      exact hspent.elim (fun h => by cases h) fun h => h hnothing.2
  · intro i s hi h
    interval_cases i
    cases h.2

end Runs

end TinyLink.Proofs
