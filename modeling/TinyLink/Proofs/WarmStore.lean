import TinyLink.Proofs.WarmCodec
import TinyLink.WarmStore

/-!
# What the stored record misses

`tl_warm_diff` against the encoded records, and the blob that a sequence of `tl_warm_store` calls leaves
in NVS.
-/

namespace TinyLink.Proofs
open ByteOrder

variable {past : List StoreCall} {s : StoreState} {α : Type} {a b : WarmRec} (r : WarmRec)

lemma warmDiffers_eq_false_iff [DecidableEq α] {as bs : List α}
    (h : as.length = bs.length) : warmDiffers as bs = false ↔ as = bs := by
  induction as generalizing bs with
  | nil =>
    cases bs with
    | nil => simp [warmDiffers]
    | cons => cases h
  | cons _ _ ih =>
    cases bs with
    | nil => cases h
    | cons =>
      have ih' := ih (Nat.succ.inj h)
      unfold warmDiffers at ih' ⊢
      rw [List.zip_cons_cons, List.any_cons, Bool.or_eq_false_iff, ih', List.cons.injEq]
      simp

lemma listDiff_eq_false_iff [DecidableEq α] {as bs : List α} :
    (decide (as.length ≠ bs.length) || warmDiffers as bs) = false ↔ as = bs := by
  rw [Bool.or_eq_false_iff, decide_eq_false_iff_not, not_not]
  constructor
  · rintro ⟨hlen, hd⟩
    exact (warmDiffers_eq_false_iff hlen).mp hd
  · rintro rfl
    exact ⟨rfl, (warmDiffers_eq_false_iff rfl).mpr rfl⟩

lemma selfDiff_eq_false_iff {as bs : List WarmCidr} :
    (decide (as.head? ≠ bs.head?) || decide (as.length ≠ bs.length) ||
      warmDiffers as.tail bs.tail) = false ↔ as = bs := by
  rw [Bool.or_eq_false_iff, Bool.or_eq_false_iff, decide_eq_false_iff_not, decide_eq_false_iff_not,
    not_not, not_not]
  constructor
  · rintro ⟨⟨hhead, hlen⟩, htail⟩
    have htail := (warmDiffers_eq_false_iff (by rw [List.length_tail, List.length_tail, hlen])).mp htail
    cases as with
    | nil => exact (List.length_eq_zero_iff.mp hlen.symm).symm
    | cons =>
      cases bs with
      | nil => cases hlen
      | cons =>
        injection hhead with hhead
        exact congrArg₂ List.cons hhead htail
  · rintro rfl
    exact ⟨⟨rfl, rfl⟩, (warmDiffers_eq_false_iff rfl).mpr rfl⟩

lemma discoDiff_eq_false_iff : (tlWarmDiff a b).disco = false ↔
      a.peer.hasDisco = b.peer.hasDisco ∧ warmDisco a = warmDisco b := by
  simp only [tlWarmDiff, warmDisco]
  cases a.peer.hasDisco <;> cases b.peer.hasDisco <;> simp

/-- What a record holds apart from the timestamp and the NodeID. -/
structure SameFields (a b : WarmRec) : Prop where
  selfTag : a.selfTag = b.selfTag
  ctlTag : a.ctlTag = b.ctlTag
  self : a.self = b.self
  nodePub : a.peer.nodePub = b.peer.nodePub
  hasDisco : a.peer.hasDisco = b.peer.hasDisco
  disco : warmDisco a = warmDisco b
  addr : a.peer.addr = b.peer.addr
  ep : a.peer.ep = b.peer.ep

lemma tlWarmDiff_eq_none_iff :
    tlWarmDiff a b = .none ↔ SameFields a b ∧ (a.peer.id ≠ 0 → a.peer.id = b.peer.id) := by
  constructor
  · intro h
    have hident : (tlWarmDiff a b).ident = false := congrArg WarmDiff.ident h
    have hself : (tlWarmDiff a b).self = false := congrArg WarmDiff.self h
    have hpeer : (tlWarmDiff a b).peer = false := congrArg WarmDiff.peer h
    have hkey : (tlWarmDiff a b).key = false := congrArg WarmDiff.key h
    have hdisco : (tlWarmDiff a b).disco = false := congrArg WarmDiff.disco h
    have haddr : (tlWarmDiff a b).addr = false := congrArg WarmDiff.addr h
    have hep : (tlWarmDiff a b).ep = false := congrArg WarmDiff.ep h
    obtain ⟨hflag, hdisco⟩ := discoDiff_eq_false_iff.mp hdisco
    simp only [tlWarmDiff, Bool.or_eq_false_iff, decide_eq_false_iff_not, not_not] at hident hkey
    refine ⟨⟨hident.1, hident.2, selfDiff_eq_false_iff.mp hself, hkey, hflag, hdisco,
      listDiff_eq_false_iff.mp haddr, listDiff_eq_false_iff.mp hep⟩, fun hid => ?_⟩
    simpa [tlWarmDiff, tlWarmSamePeer, hid] using hpeer
  · rintro ⟨h, hid⟩
    have hpeer : (tlWarmDiff a b).peer = false := by
      by_cases hz : a.peer.id = 0
      · simp [tlWarmDiff, tlWarmSamePeer, hz, h.nodePub]
      · simp [tlWarmDiff, tlWarmSamePeer, hz, ← hid hz]
    have hself0 : (tlWarmDiff a b).self0 = false := by
      simp [tlWarmDiff, h.self]
    have hkey : (tlWarmDiff a b).key = false := by
      simp [tlWarmDiff, h.nodePub]
    have hident : (tlWarmDiff a b).ident = false := by
      simp [tlWarmDiff, h.selfTag, h.ctlTag]
    exact (WarmDiff.mk.injEq ..).mpr ⟨hpeer, hkey, discoDiff_eq_false_iff.mpr ⟨h.hasDisco, h.disco⟩,
      listDiff_eq_false_iff.mpr h.ep, listDiff_eq_false_iff.mpr h.addr, hself0,
      selfDiff_eq_false_iff.mpr h.self, hident⟩

def warmHead (r : WarmRec) : Bytes :=
  r.selfTag.toList ++ (r.ctlTag.toList ++
    [UInt8.ofNat r.self.length, UInt8.ofNat r.peer.addr.length, UInt8.ofNat r.peer.ep.length,
      if r.peer.hasDisco then 1 else 0])

def warmTail (r : WarmRec) : Bytes :=
  r.peer.nodePub.toList ++ ((warmDisco r).toList ++ (r.self.flatMap tlWarmPutCidr ++
    (r.peer.addr.flatMap tlWarmPutCidr ++ r.peer.ep.flatMap warmPutEp)))

lemma warmBlob_eq : warmBlob r = [tlWarmRecV1] ++ (leBytes 4 r.written ++
    (warmHead r ++ (leBytes 8 r.peer.id ++ warmTail r))) := by
  simp only [warmBlob, warmHead, warmTail, List.append_assoc]

lemma length_warmHead : (warmHead r).length = 20 := by
  have htag : ∀ t : WarmTag, t.toList.length = 8 := fun t => t.length_toList
  simp [warmHead, htag]

lemma drop_warmBlob :
    (warmBlob r).drop 5 = warmHead r ++ (leBytes 8 r.peer.id ++ warmTail r) ∧
      (warmBlob r).drop 25 = leBytes 8 r.peer.id ++ warmTail r ∧
        (warmBlob r).drop 33 = warmTail r := by
  have h0 : (warmBlob r).drop 0 = [tlWarmRecV1] ++ _ := warmBlob_eq r
  have h1 : (warmBlob r).drop 1 = _ := drop_field h0 rfl
  have h5 : (warmBlob r).drop 5 = _ := drop_field h1 (length_leBytes 4 _)
  have h25 : (warmBlob r).drop 25 = _ := drop_field h5 (length_warmHead r)
  exact ⟨h5, h25, drop_field h25 (length_leBytes 8 _)⟩

lemma apartStamp_warmBlob : apartStamp (warmBlob r) =
    [tlWarmRecV1] ++ (warmHead r ++ (leBytes 8 r.peer.id ++ warmTail r)) := by
  rw [apartStamp, (drop_warmBlob r).1]
  rfl

lemma apartStampId_warmBlob :
    apartStampId (warmBlob r) = [tlWarmRecV1] ++ (warmHead r ++ warmTail r) := by
  rw [apartStampId, (drop_warmBlob r).1, (drop_warmBlob r).2.2, List.take_left' (length_warmHead r)]
  rfl

lemma apartStampId_eq_iff : apartStampId (warmBlob a) = apartStampId (warmBlob b) ↔
    warmHead a = warmHead b ∧ warmTail a = warmTail b := by
  rw [apartStampId_warmBlob, apartStampId_warmBlob, List.append_cancel_left_eq]
  constructor
  · exact fun h => List.append_inj h (by rw [length_warmHead, length_warmHead])
  · rintro ⟨hh, ht⟩
    rw [hh, ht]

lemma apartStamp_eq_iff : apartStamp (warmBlob a) = apartStamp (warmBlob b) ↔
    warmHead a = warmHead b ∧ leBytes 8 a.peer.id = leBytes 8 b.peer.id ∧ warmTail a = warmTail b := by
  rw [apartStamp_warmBlob, apartStamp_warmBlob, List.append_cancel_left_eq]
  constructor
  · intro h
    obtain ⟨hh, h⟩ := List.append_inj h (by rw [length_warmHead, length_warmHead])
    exact ⟨hh, List.append_inj h (by rw [length_leBytes, length_leBytes])⟩
  · rintro ⟨hh, hid, ht⟩
    rw [hh, hid, ht]

lemma warmHead_congr (h : SameFields a b) : warmHead a = warmHead b := by
  rw [warmHead, h.selfTag, h.ctlTag, h.self, h.hasDisco, h.addr, h.ep]
  rfl

lemma warmTail_congr (h : SameFields a b) : warmTail a = warmTail b := by
  rw [warmTail, h.self, h.nodePub, h.disco, h.addr, h.ep]
  rfl

lemma flatMap_put_inj {put : α → Bytes} {size : ℕ} (hlen : ∀ a, (put a).length = size)
    (hinj : Function.Injective put) {l m : List α} (hlm : l.length = m.length)
    (h : l.flatMap put = m.flatMap put) : l = m := by
  induction l generalizing m with
  | nil => exact (List.length_eq_zero_iff.mp hlm.symm).symm
  | cons a l ih =>
    cases m with
    | nil => cases hlm
    | cons =>
      rw [List.flatMap_cons, List.flatMap_cons] at h
      obtain ⟨hab, hl⟩ := List.append_inj h (by rw [hlen, hlen])
      rw [hinj hab, ih (Nat.succ.inj hlm) hl]

lemma putCidr_injective : Function.Injective tlWarmPutCidr := by
  rintro ⟨ip, bits⟩ ⟨ip', bits'⟩ h
  obtain ⟨hip, hbits⟩ := List.append_inj h (by rw [Vector.length_toList, Vector.length_toList])
  exact congrArg₂ WarmCidr.mk (Vector.toList_inj.mp hip) (List.cons.inj hbits).1

lemma putEp_injective : Function.Injective warmPutEp := by
  rintro ⟨ip, port⟩ ⟨ip', port'⟩ h
  obtain ⟨hip, hport⟩ := List.append_inj h (by rw [Vector.length_toList, Vector.length_toList])
  have hlt : ∀ p : UInt16, p.toNat < 256 ^ 2 := fun p => p.toNat_lt
  exact congrArg₂ WarmEp.mk (Vector.toList_inj.mp hip)
    (UInt16.toNat_inj.mp (leBytes_inj (hlt _) (hlt _) hport))

lemma sameFields_of_bytes (ha : tlWarmRecStorable a)
    (hb : tlWarmRecStorable b) (hh : warmHead a = warmHead b) (ht : warmTail a = warmTail b) :
    SameFields a b := by
  have htag : ∀ t t' : WarmTag, t.toList.length = t'.toList.length := fun t t' => by
    rw [Vector.length_toList, Vector.length_toList]
  have hkey : ∀ k k' : Key, k.toList.length = k'.toList.length := fun k k' => by
    rw [Vector.length_toList, Vector.length_toList]
  obtain ⟨⟨-, hself⟩, ⟨-, hep⟩, haddr⟩ := storable_iff.mp ha
  obtain ⟨⟨-, hself'⟩, ⟨-, hep'⟩, haddr'⟩ := storable_iff.mp hb
  have hbyte : ∀ m n : ℕ, m ≤ 4 → n ≤ 4 → UInt8.ofNat m = UInt8.ofNat n → m = n := by
    intro m n hm hn h
    have hv := congrArg UInt8.toNat h
    rwa [UInt8.toNat_ofNat', UInt8.toNat_ofNat', Nat.mod_eq_of_lt (by omega),
      Nat.mod_eq_of_lt (by omega)] at hv
  obtain ⟨hst, hh⟩ := List.append_inj hh (htag _ _)
  obtain ⟨hct, hh⟩ := List.append_inj hh (htag _ _)
  obtain ⟨hnode, ht⟩ := List.append_inj ht (hkey _ _)
  obtain ⟨hdisco, ht⟩ := List.append_inj ht (hkey _ _)
  simp only [List.cons.injEq, and_true] at hh
  obtain ⟨hns, hna, hne, hflag⟩ := hh
  have hns := hbyte _ _ (by omega) (by omega) hns
  have hna := hbyte _ _ (by omega) (by omega) hna
  have hne := hbyte _ _ (by omega) (by omega) hne
  obtain ⟨hs, ht⟩ := List.append_inj ht (by
    rw [length_flatMap_put length_putCidr, length_flatMap_put length_putCidr, hns])
  obtain ⟨had, hepb⟩ := List.append_inj ht (by
    rw [length_flatMap_put length_putCidr, length_flatMap_put length_putCidr, hna])
  exact
    { selfTag := Vector.toList_inj.mp hst
      ctlTag := Vector.toList_inj.mp hct
      self := flatMap_put_inj length_putCidr putCidr_injective hns hs
      nodePub := Vector.toList_inj.mp hnode
      hasDisco := by
        revert hflag
        cases a.peer.hasDisco <;> cases b.peer.hasDisco <;> decide
      disco := Vector.toList_inj.mp hdisco
      addr := flatMap_put_inj length_putCidr putCidr_injective hna had
      ep := flatMap_put_inj length_putEp putEp_injective hne hepb }

lemma sameStored_of_diff (h : tlWarmDiff a b = .none) : SameStored (warmBlob a) (warmBlob b) := by
  obtain ⟨hf, hid⟩ := tlWarmDiff_eq_none_iff.mp h
  have hids : (leBytes 8 a.peer.id ≠ List.replicate 8 0) → a.peer.id = b.peer.id := by
    intro hne
    apply hid
    intro hz
    rw [hz] at hne
    exact hne (by decide)
  unfold SameStored
  rw [(drop_warmBlob a).2.1, List.take_left' (length_leBytes 8 _)]
  split
  · exact apartStampId_eq_iff.mpr ⟨warmHead_congr hf, warmTail_congr hf⟩
  · next hne => exact apartStamp_eq_iff.mpr ⟨warmHead_congr hf, by rw [hids hne], warmTail_congr hf⟩

lemma diff_of_sameStored (ha : tlWarmRecStorable a)
    (hb : tlWarmRecStorable b) (hida : a.peer.id < 2 ^ 64) (hidb : b.peer.id < 2 ^ 64)
    (h : SameStored (warmBlob a) (warmBlob b)) : tlWarmDiff a b = .none := by
  have hida : a.peer.id < 256 ^ 8 := by simpa using hida
  have hidb : b.peer.id < 256 ^ 8 := by simpa using hidb
  unfold SameStored at h
  rw [(drop_warmBlob a).2.1, List.take_left' (length_leBytes 8 _)] at h
  apply tlWarmDiff_eq_none_iff.mpr
  split at h
  · next hz =>
    obtain ⟨hh, ht⟩ := apartStampId_eq_iff.mp h
    have hzero : a.peer.id = 0 := leBytes_inj hida (by decide) (hz.trans (by decide))
    exact ⟨sameFields_of_bytes ha hb hh ht, fun hne => absurd hzero hne⟩
  · obtain ⟨hh, hid, ht⟩ := apartStamp_eq_iff.mp h
    exact ⟨sameFields_of_bytes ha hb hh ht, fun _ => leBytes_inj hida hidb hid⟩

/-- What one call does: nothing is due, or the record is written. -/
inductive StoreMove (s : StoreState) (c : StoreCall) : StoreState → Prop
  | refused (h : tlWarmRecStorable c.next = false) : StoreMove s c s
  | same (hs : tlWarmRecStorable c.next = true) (hv : s.mirror.valid = true)
      (hd : tlWarmDiff s.mirror.record c.next = .none) : StoreMove s c s
  | held (hs : tlWarmRecStorable c.next = true) (hv : s.mirror.valid = true)
      (hw : s.mirror.wrote = true) (hsoft : softChange s.mirror.record c.next = true)
      (hlast : c.nowUs < s.mirror.lastUs + tlWarmSoftMinUs) : StoreMove s c s
  | wrote (hs : tlWarmRecStorable c.next = true) :
      StoreMove s c ⟨⟨true, true, c.nowUs, { c.next with written := c.nowUnix }⟩,
        some (warmBlob { c.next with written := c.nowUnix })⟩

lemma softChange_of_not_hard {was now : WarmRec} (hn : tlWarmDiff was now ≠ .none)
    (hh : (tlWarmDiff was now).hard = false) : softChange was now = true := by
  unfold softChange
  generalize tlWarmDiff was now = d at hn hh
  obtain ⟨peer, key, disco, ep, addr, self0, self, ident⟩ := d
  simp only [WarmDiff.hard, Bool.or_eq_false_iff] at hh
  obtain ⟨⟨⟨⟨⟨rfl, rfl⟩, rfl⟩, rfl⟩, rfl⟩, rfl⟩ := hh
  cases disco <;> cases ep <;> simp_all [WarmDiff.none]

lemma tlWarmStoreDue_eq_false {d : WarmDiff} {stored wrote : Bool} {nowUs lastUs : ℤ}
    (h : tlWarmStoreDue d stored wrote nowUs lastUs = false) : stored = true ∧
      (d = .none ∨ d ≠ .none ∧ d.hard = false ∧ wrote = true ∧ nowUs < lastUs + tlWarmSoftMinUs) := by
  unfold tlWarmStoreDue at h
  split at h
  · cases h
  next hstored =>
  refine ⟨by simpa using hstored, ?_⟩
  split at h
  · next hnone => exact .inl hnone
  next hnone =>
  split at h
  · cases h
  next hhard =>
  rw [Bool.or_eq_false_iff, Bool.not_eq_false', decide_eq_false_iff_not] at h
  exact .inr ⟨hnone, by simpa using hhard, h.1, by omega⟩

lemma store_move (s : StoreState) (c : StoreCall) : StoreMove s c (storeStep s c) := by
  unfold storeStep tlWarmStore
  dsimp only
  split
  · next h => exact .refused (by simpa using h)
  next h =>
  have hs : tlWarmRecStorable c.next = true := by simpa using h
  split
  · next hdue =>
    rw [Bool.and_eq_true, Bool.not_eq_true'] at hdue
    obtain ⟨hv, hd | ⟨hne, hhard, hw, hlast⟩⟩ := tlWarmStoreDue_eq_false hdue.1
    · exact .same hs hv hd
    · exact .held hs hv hw (softChange_of_not_hard hne hhard) hlast
  · have henc := tlWarmEncode_eq (r := { c.next with written := c.nowUnix }) hs
    simp only [henc, if_true]
    exact .wrote hs

/-- The mirror is what NVS holds, and a record this boot has written came with one of its calls. -/
structure StoreOk (past : List StoreCall) (s : StoreState) : Prop where
  holds : s.mirror.valid = true → s.nvs = some (warmBlob s.mirror.record)
  byCall : s.mirror.wrote = true → ∃ pre c post, past = pre ++ c :: post ∧
    s.mirror.lastUs = c.nowUs ∧ s.mirror.record = { c.next with written := c.nowUnix }

lemma eq_some_of_warmRead {stored : Option Bytes} {b : Bytes} (h : warmRead stored = .blob b) :
    stored = some b := by
  unfold warmRead at h
  split at h
  · cases h
  · split_ifs at h
    cases h
    rfl

lemma tlWarmLoad_nvs (rtc : WarmRtc) (resetReason : ℕ) (eraseOk : Bool) (read : WarmRead) :
    (tlWarmLoad rtc resetReason eraseOk read).nvs = .empty ∨
      ∃ b r, read = .blob b ∧ tlWarmDecode b = some r ∧
        (tlWarmLoad rtc resetReason eraseOk read).nvs =
          { WarmNvs.empty with valid := true, record := r } ∧
        (tlWarmLoad rtc resetReason eraseOk read).load = .ok := by
  unfold tlWarmLoad
  dsimp only
  split
  · exact .inl rfl
  cases read with
  | absent | tooLong => exact .inl rfl
  | blob b =>
    dsimp only
    cases hdec : tlWarmDecode b with
    | none => exact .inl rfl
    | some r => exact .inr ⟨b, r, rfl, hdec, rfl, rfl⟩

lemma storeOk_boot (rtc : WarmRtc) (resetReason : ℕ) (eraseOk : Bool) (stored : Option Bytes) :
    StoreOk [] (storeBoot rtc resetReason eraseOk stored) := by
  unfold storeBoot
  rcases tlWarmLoad_nvs rtc resetReason eraseOk (warmRead stored) with h | ⟨b, r, hb, hdec, h, hl⟩
  · dsimp only
    rw [h]
    constructor
    · rintro ⟨⟩
    · rintro ⟨⟩
  · have hblob := blob_of_reads (tlWarmDecode_eq_some_iff.mp hdec)
    dsimp only
    rw [h, hl, eq_some_of_warmRead hb, ← hblob]
    exact ⟨fun _ => rfl, by rintro ⟨⟩⟩

lemma StoreOk.step (h : StoreOk past s) (c : StoreCall) :
    StoreOk (past ++ [c]) (storeStep s c) := by
  have hkept : StoreOk (past ++ [c]) s := by
    refine ⟨h.holds, fun hw => ?_⟩
    obtain ⟨pre, d, post, rfl, hd⟩ := h.byCall hw
    exact ⟨pre, d, post ++ [c], by simp, hd⟩
  have hm := store_move s c
  generalize storeStep s c = s' at hm
  cases hm with
  | refused | same | held => exact hkept
  | wrote => exact ⟨fun _ => rfl, fun _ => ⟨past, c, [], rfl, rfl, rfl⟩⟩

lemma StoreOk.run (h : StoreOk past s)
    (calls : List StoreCall) : StoreOk (past ++ calls) (storeRun s calls) := by
  induction calls generalizing past s with
  | nil =>
    rw [List.append_nil]
    exact h
  | cons c _ ih =>
    have hc := ih (h.step c)
    rw [List.append_assoc] at hc
    exact hc

lemma softChange_eq_false_iff : softChange a b = false ↔
    (a.peer.hasDisco = b.peer.hasDisco ∧ warmDisco a = warmDisco b) ∧ a.peer.ep = b.peer.ep := by
  unfold softChange
  rw [Bool.or_eq_false_iff, discoDiff_eq_false_iff]
  exact and_congr_right fun _ => listDiff_eq_false_iff

lemma softChange_trans {c : WarmRec} (hab : softChange a b = false)
    (hbc : softChange b c = false) : softChange a c = false := by
  rw [softChange_eq_false_iff] at hab hbc ⊢
  exact ⟨⟨hab.1.1.trans hbc.1.1, hab.1.2.trans hbc.1.2⟩, hab.2.trans hbc.2⟩

lemma softSettled_last {calls : List StoreCall} {now : ℤ} (hq : SoftSettled calls now)
    (ht : calls.Pairwise fun a b => a.nowUs ≤ b.nowUs) {c : StoreCall} (post : List StoreCall) :
    ∀ {pre : List StoreCall} {a : StoreCall}, calls = pre ++ a :: (post ++ [c]) →
      now < a.nowUs + tlWarmSoftMinUs → softChange a.next c.next = false := by
  have hnext : ∀ {pre a b rest}, calls = pre ++ a :: b :: rest →
      now < a.nowUs + tlWarmSoftMinUs → a.nowUs ≤ b.nowUs ∧ softChange a.next b.next = false := by
    intro pre a b rest hcalls ha
    have hle : a.nowUs ≤ b.nowUs := by
      rw [hcalls, List.pairwise_append] at ht
      exact (List.pairwise_cons.mp ht.2.1).1 b List.mem_cons_self
    refine ⟨hle, Bool.eq_false_iff.mpr fun hsoft => ?_⟩
    have hold := hq pre a b rest hcalls hsoft
    omega
  induction post with
  | nil => exact fun hcalls ha => (hnext hcalls ha).2
  | cons b post ih =>
    intro pre a hcalls ha
    obtain ⟨hle, hab⟩ := hnext hcalls ha
    have hsplit : calls = (pre ++ [a]) ++ b :: (post ++ [c]) := by
      rw [hcalls, List.append_assoc]
      rfl
    exact softChange_trans hab (ih hsplit (by omega))

lemma sameStored_stamped (t : ℕ) :
    SameStored (warmBlob { r with written := t }) (warmBlob r) :=
  sameStored_of_diff (tlWarmDiff_eq_none_iff.mpr
    ⟨⟨rfl, rfl, rfl, rfl, rfl, rfl, rfl, rfl⟩, fun _ => rfl⟩)

lemma stored_after_call (h : StoreOk past s) {c : StoreCall}
    (ht : (past ++ [c]).Pairwise fun a b => a.nowUs ≤ b.nowUs) (hs : tlWarmRecStorable c.next)
    (hq : SoftSettled (past ++ [c]) c.nowUs) :
    ∃ b, (storeStep s c).nvs = some b ∧ SameStored b (warmBlob c.next) := by
  have hm := store_move s c
  generalize storeStep s c = s' at hm
  cases hm with
  | refused href =>
    rw [hs] at href
    cases href
  | same _ hv hd => exact ⟨_, h.holds hv, sameStored_of_diff hd⟩
  | held _ _ hw hsoft hlast =>
    -- the record that is held back was written within the hour, so nothing soft has changed since
    obtain ⟨pre, d, post, rfl, hus, hrec⟩ := h.byCall hw
    rw [hus] at hlast
    have hsame := softSettled_last hq ht post (List.append_assoc _ _ _) hlast
    rw [hrec] at hsoft
    exact absurd (hsame.symm.trans hsoft) Bool.false_ne_true
  | wrote => exact ⟨_, rfl, sameStored_stamped _ _⟩

/-- The diff is empty exactly when the encodings agree apart from the timestamp and a NodeID of 0 in
the earlier record; and once all soft changes are an hour old NVS holds the latest record in that
sense. -/
theorem warm_diff_misses_nothing :
    (∀ was now : WarmRec, tlWarmRecStorable was = true → tlWarmRecStorable now = true →
      was.peer.id < 2 ^ 64 → now.peer.id < 2 ^ 64 →
        ∃ b b', tlWarmEncode was tlWarmBlobMax = some b ∧ tlWarmEncode now tlWarmBlobMax = some b' ∧
          (tlWarmDiff was now = .none ↔ SameStored b b')) ∧
    ∀ (rtc : WarmRtc) (resetReason : ℕ) (eraseOk : Bool) (stored : Option Bytes)
      (calls : List StoreCall) (c : StoreCall),
      (calls ++ [c]).Pairwise (fun a b => a.nowUs ≤ b.nowUs) → tlWarmRecStorable c.next = true →
      SoftSettled (calls ++ [c]) c.nowUs →
        ∃ b b', (storeRun (storeBoot rtc resetReason eraseOk stored) (calls ++ [c])).nvs = some b ∧
          tlWarmEncode c.next tlWarmBlobMax = some b' ∧ SameStored b b' := by
  constructor
  · intro was now hwas hnow hidwas hidnow
    refine ⟨_, _, tlWarmEncode_eq hwas, tlWarmEncode_eq hnow, ?_⟩
    exact ⟨sameStored_of_diff, diff_of_sameStored hwas hnow hidwas hidnow⟩
  · intro rtc resetReason eraseOk stored calls c ht hs hq
    have hpast := (storeOk_boot rtc resetReason eraseOk stored).run calls
    rw [List.nil_append] at hpast
    obtain ⟨b, hb, hsame⟩ := stored_after_call hpast ht hs hq
    refine ⟨b, _, ?_, tlWarmEncode_eq hs, hsame⟩
    rw [storeRun, List.foldl_append]
    exact hb

def recordOf (id : ℕ) (port : UInt16) : WarmRec where
  written := 0
  selfTag := .replicate _ 0
  ctlTag := .replicate _ 0
  self := [⟨ipv4Of 100 64 0 1, 32⟩]
  peer := ⟨id, zeroKey, zeroKey, false, [], [⟨ipv4Of 203 0 113 5, port⟩]⟩

def minuteUs : ℤ := 60 * 1000000

def portCalls : List StoreCall :=
  [⟨recordOf 7 41641, 1700000000, 0, false⟩, ⟨recordOf 7 41642, 1700000060, minuteUs, false⟩]

def laterCall : StoreCall := ⟨recordOf 7 41642, 1700007200, 120 * minuteUs, false⟩

theorem changed_port_is_stored : (∃ b b', tlWarmEncode (recordOf 7 41641) tlWarmBlobMax = some b ∧
      tlWarmEncode (recordOf 7 41642) tlWarmBlobMax = some b' ∧
        (tlWarmDiff (recordOf 7 41641) (recordOf 7 41642) = .none ↔ SameStored b b')) ∧
    ∃ b b', (storeRun (storeBoot (tlWarmRtcSeal ⟨0, 0, 0, 0, 0, 0⟩) tlWarmRstPoweron true none)
        (portCalls ++ [laterCall])).nvs = some b ∧
      tlWarmEncode laterCall.next tlWarmBlobMax = some b' ∧ SameStored b b' := by
  refine ⟨warm_diff_misses_nothing.1 _ _ (by decide) (by decide) (by decide) (by decide),
    warm_diff_misses_nothing.2 _ _ _ _ _ _ (by decide) (by decide) ?_⟩
  intro pre a b post hcalls hsoft
  rcases pre with _ | ⟨x, _ | ⟨y, pre⟩⟩
  · cases hcalls
    decide
  · cases hcalls
    exact absurd hsoft (by decide)
  · have hlen := congrArg List.length hcalls
    simp only [portCalls, List.cons_append, List.nil_append, List.length_cons, List.length_append,
      List.length_nil] at hlen
    omega

theorem missing_id_is_kept :
    tlWarmRecStorable (recordOf 0 41641) = true ∧ tlWarmRecStorable (recordOf 7 41641) = true ∧
      tlWarmDiff (recordOf 0 41641) (recordOf 7 41641) = .none ∧
      (tlWarmEncode (recordOf 0 41641) tlWarmBlobMax).map apartStamp ≠
        (tlWarmEncode (recordOf 7 41641) tlWarmBlobMax).map apartStamp ∧
      (storeRun (storeBoot (tlWarmRtcSeal ⟨0, 0, 0, 0, 0, 0⟩) tlWarmRstPoweron true none)
        [⟨recordOf 0 41641, 1700000000, 0, false⟩,
          ⟨recordOf 7 41641, 1700007200, 120 * minuteUs, false⟩]).nvs.map apartStamp ≠
        (tlWarmEncode (recordOf 7 41641) tlWarmBlobMax).map apartStamp := by
  decide +kernel

end TinyLink.Proofs
