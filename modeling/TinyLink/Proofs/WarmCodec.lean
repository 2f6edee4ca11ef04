import TinyLink.Proofs.ByteFields
import TinyLink.Proofs.WarmText

/-!
# The stored record

`tl_warm_encode` and `tl_warm_decode` are inverse to each other, and so are the netmap's text and the
record's binary form of an address.
-/

namespace TinyLink.Proofs
open ByteOrder

variable {b : Bytes} {r : WarmRec} {n : ℕ}

/-- A record as `tl_warm_rec_build` makes it and `tl_warm_decode` accepts it; the C types bound the
two numbers. -/
structure StoredOk (r : WarmRec) : Prop where
  storable : tlWarmRecStorable r = true
  self : ∀ c ∈ r.self, CidrOk c
  addr : ∀ c ∈ r.peer.addr, CidrOk c
  ep : ∀ e ∈ r.peer.ep, EpOk e
  disco : r.peer.hasDisco = false → r.peer.discoPub = zeroKey
  written : r.written < 2 ^ 32
  id : r.peer.id < 2 ^ 64

lemma storable_iff : tlWarmRecStorable r = true ↔
    (1 ≤ r.self.length ∧ r.self.length ≤ 2) ∧ (1 ≤ r.peer.ep.length ∧ r.peer.ep.length ≤ 4) ∧
      r.peer.addr.length ≤ 2 := by
  simp only [tlWarmRecStorable, Bool.and_eq_true, decide_eq_true_eq, and_assoc]
  rfl

section Entries
variable {α : Type} {get : Bytes → Option α} {put : α → Bytes} {size : ℕ}

lemma warmGetAll_flatMap (hlen : ∀ a, (put a).length = size) {l : List α}
    (hget : ∀ a ∈ l, ∀ rest, get (put a ++ rest) = some a) (rest : Bytes) :
    warmGetAll get size l.length (l.flatMap put ++ rest) = some l := by
  induction l with
  | nil => rfl
  | cons a l ih =>
    have ha := hget a List.mem_cons_self (l.flatMap put ++ rest)
    have hl := ih (fun b hb => hget b (List.mem_cons_of_mem a hb))
    rw [List.length_cons, List.flatMap_cons, List.append_assoc, warmGetAll, ha,
      List.drop_left' (hlen a), hl]
    rfl

lemma length_flatMap_put (hlen : ∀ a, (put a).length = size) (l : List α) :
    (l.flatMap put).length = size * l.length := by
  induction l with
  | nil => simp
  | cons a l ih => rw [List.flatMap_cons, List.length_append, hlen, ih, List.length_cons, Nat.mul_succ,
      Nat.add_comm]

lemma warmGetAll_inv (hput : ∀ b a, size ≤ b.length → get b = some a → put a = b.take size)
    {l : List α} (hn : size * n ≤ b.length) (h : warmGetAll get size n b = some l) :
    l.length = n ∧ l.flatMap put = b.take (size * n) ∧ ∀ a ∈ l, ∃ b, get b = some a := by
  induction n generalizing b l with
  | zero =>
    cases h
    simp
  | succ n ih =>
    simp only [warmGetAll, Option.bind_eq_bind, Option.bind_eq_some_iff] at h
    obtain ⟨a, ha, l, hl, h⟩ := h
    cases h
    rw [Nat.mul_succ] at hn ⊢
    have hdrop : size * n ≤ (b.drop size).length := by
      rw [List.length_drop]
      omega
    obtain ⟨hlen, hflat, hall⟩ := ih hdrop hl
    refine ⟨by rw [List.length_cons, hlen], ?_, ?_⟩
    · rw [List.flatMap_cons, hflat, hput b a (by omega) ha, Nat.add_comm, List.take_add]
    · intro x hx
      rcases List.mem_cons.mp hx with rfl | hx
      · exact ⟨b, ha⟩
      · exact hall x hx

end Entries

lemma leBytes_field (k : ℕ) (h : k + n ≤ b.length) :
    leBytes n (leNat ((b.drop k).take n)) = (b.drop k).take n := by
  have hlen : ((b.drop k).take n).length = n := by
    rw [List.length_take, List.length_drop]
    omega
  have hle := leBytes_leNat ((b.drop k).take n)
  rwa [hlen] at hle

lemma leNat_field_lt (k : ℕ) (h : k + n ≤ b.length) : leNat ((b.drop k).take n) < 256 ^ n := by
  rw [← leBytes_field k h, leNat_leBytes]
  exact Nat.mod_lt _ (Nat.pow_pos (by decide))

lemma length_putCidr (c : WarmCidr) : (tlWarmPutCidr c).length = tlWarmCidrLen := by
  simp [tlWarmPutCidr, tlWarmCidrLen]

lemma length_putEp (e : WarmEp) : (warmPutEp e).length = tlWarmEpLen := by
  simp [warmPutEp, tlWarmEpLen]

lemma getCidr_putCidr {c : WarmCidr} (h : CidrOk c) (rest : Bytes) :
    tlWarmGetCidr (tlWarmPutCidr c ++ rest) = some c := by
  have hbits : (c.ip.toList ++ (c.bits :: rest)).getD 4 0 = c.bits := by
    rw [List.getD_eq_getElem?_getD, List.getElem?_append_right (by simp)]
    simp
  have hle : ¬ c.bits > 32 := UInt8.not_lt.mpr h.bits
  simp only [tlWarmGetCidr, tlWarmPutCidr, List.append_assoc, List.singleton_append, readVec_append,
    hbits, h.usable]
  simp [hle]

lemma getEp_putEp {e : WarmEp} (h : EpOk e) (rest : Bytes) :
    warmGetEp (warmPutEp e ++ rest) = some e := by
  have hport : UInt16.ofNat (leNat (leBytes 2 e.port.toNat)) = e.port := by
    rw [leNat_leBytes, Nat.mod_eq_of_lt (by simpa using e.port.toNat_lt), UInt16.ofNat_toNat]
  simp only [warmGetEp, warmPutEp, List.append_assoc, readVec_append, h.usable,
    List.drop_left' e.ip.length_toList, List.take_left' (length_leBytes 2 _), hport]
  simp [h.port]

lemma putCidr_getCidr (b : Bytes) (c : WarmCidr) (hb : tlWarmCidrLen ≤ b.length)
    (h : tlWarmGetCidr b = some c) : tlWarmPutCidr c = b.take tlWarmCidrLen := by
  unfold tlWarmGetCidr at h
  dsimp only at h
  split_ifs at h
  cases h
  change 5 ≤ b.length at hb
  rw [tlWarmPutCidr, readVec_toList (by omega), getD_field (by omega)]
  exact take_drop_append b 0 4 1

lemma putEp_getEp (b : Bytes) (e : WarmEp) (hb : tlWarmEpLen ≤ b.length)
    (h : warmGetEp b = some e) : warmPutEp e = b.take tlWarmEpLen := by
  unfold warmGetEp at h
  dsimp only at h
  split_ifs at h
  cases h
  change 6 ≤ b.length at hb
  have hlt : leNat ((b.drop 4).take 2) < 2 ^ 16 := leNat_field_lt 4 (by omega)
  have hport : leBytes 2 (UInt16.ofNat (leNat ((b.drop 4).take 2))).toNat = (b.drop 4).take 2 := by
    rw [UInt16.toNat_ofNat', Nat.mod_eq_of_lt hlt, leBytes_field 4 (by omega)]
  rw [warmPutEp, readVec_toList (by omega), hport]
  exact take_drop_append b 0 4 2

lemma getCidr_ok {c : WarmCidr} (h : tlWarmGetCidr b = some c) : CidrOk c := by
  unfold tlWarmGetCidr at h
  dsimp only at h
  split_ifs at h with hok
  cases h
  simp only [Bool.or_eq_true, Bool.not_eq_true', decide_eq_true_eq, not_or] at hok
  exact ⟨by simpa using hok.1, UInt8.not_lt.mp hok.2⟩

lemma getEp_ok {e : WarmEp} (h : warmGetEp b = some e) : EpOk e := by
  unfold warmGetEp at h
  dsimp only at h
  split_ifs at h with hok
  cases h
  simp only [Bool.or_eq_true, Bool.not_eq_true', decide_eq_true_eq, not_or] at hok
  exact ⟨by simpa using hok.1, hok.2⟩

def warmDisco (r : WarmRec) : Key := if r.peer.hasDisco then r.peer.discoPub else zeroKey

/-- What `tl_warm_encode` writes, field by field. -/
def warmBlob (r : WarmRec) : Bytes :=
  [tlWarmRecV1] ++ (leBytes 4 r.written ++ (r.selfTag.toList ++ (r.ctlTag.toList ++
    ([UInt8.ofNat r.self.length, UInt8.ofNat r.peer.addr.length, UInt8.ofNat r.peer.ep.length,
      if r.peer.hasDisco then 1 else 0] ++
    (leBytes 8 r.peer.id ++ (r.peer.nodePub.toList ++ ((warmDisco r).toList ++
    (r.self.flatMap tlWarmPutCidr ++ (r.peer.addr.flatMap tlWarmPutCidr ++
      r.peer.ep.flatMap warmPutEp)))))))))

lemma length_warmBlob (r : WarmRec) : (warmBlob r).length =
    tlWarmHdr + tlWarmCidrLen * (r.self.length + r.peer.addr.length) +
      tlWarmEpLen * r.peer.ep.length := by
  have htag : ∀ t : WarmTag, t.toList.length = 8 := fun t => t.length_toList
  have hkey : ∀ k : Key, k.toList.length = 32 := fun k => k.length_toList
  simp only [warmBlob, List.length_append, length_leBytes, htag, hkey,
    length_flatMap_put length_putCidr, length_flatMap_put length_putEp, List.length_cons,
    List.length_nil, tlWarmHdr, Nat.mul_add]
  omega

lemma tlWarmEncode_eq (h : tlWarmRecStorable r) :
    tlWarmEncode r tlWarmBlobMax = some (warmBlob r) := by
  obtain ⟨⟨-, hself⟩, ⟨-, hep⟩, haddr⟩ := storable_iff.mp h
  have hcap : ¬ tlWarmBlobMax < tlWarmHdr + tlWarmCidrLen * (r.self.length + r.peer.addr.length) +
      tlWarmEpLen * r.peer.ep.length := by
    change ¬ 141 < 97 + 5 * (r.self.length + r.peer.addr.length) + 6 * r.peer.ep.length
    omega
  unfold tlWarmEncode
  rw [h, if_neg (by decide), if_neg hcap]
  simp only [warmBlob, warmDisco, List.append_assoc]

/-- What `tl_warm_decode` checks, and where it finds the fields. -/
structure BlobReads (b : Bytes) (r : WarmRec) : Prop where
  bounds : tlWarmBlobMin ≤ b.length ∧ b.length ≤ tlWarmBlobMax
  version : b.getD 0 0 = tlWarmRecV1
  nSelf : 1 ≤ (b.getD 21 0).toNat ∧ (b.getD 21 0).toNat ≤ tlMaxPeerAddresses
  nAddr : (b.getD 22 0).toNat ≤ tlMaxPeerAddresses
  nEp : 1 ≤ (b.getD 23 0).toNat ∧ (b.getD 23 0).toNat ≤ tlMaxPeerEndpoints
  flag : b.getD 24 0 ≤ 1
  length : b.length = tlWarmHdr + tlWarmCidrLen * ((b.getD 21 0).toNat + (b.getD 22 0).toNat) +
    tlWarmEpLen * (b.getD 23 0).toNat
  zero : b.getD 24 0 ≠ 1 → (readVec 32 (b.drop 65) : Key) = zeroKey
  self : warmGetAll tlWarmGetCidr tlWarmCidrLen (b.getD 21 0).toNat (b.drop tlWarmHdr) = some r.self
  addr : warmGetAll tlWarmGetCidr tlWarmCidrLen (b.getD 22 0).toNat
    ((b.drop tlWarmHdr).drop (tlWarmCidrLen * (b.getD 21 0).toNat)) = some r.peer.addr
  ep : warmGetAll warmGetEp tlWarmEpLen (b.getD 23 0).toNat
    (((b.drop tlWarmHdr).drop (tlWarmCidrLen * (b.getD 21 0).toNat)).drop
      (tlWarmCidrLen * (b.getD 22 0).toNat)) = some r.peer.ep
  written : leNat ((b.drop 1).take 4) = r.written
  selfTag : readVec 8 (b.drop 5) = r.selfTag
  ctlTag : readVec 8 (b.drop 13) = r.ctlTag
  id : leNat ((b.drop 25).take 8) = r.peer.id
  nodePub : readVec 32 (b.drop 33) = r.peer.nodePub
  discoPub : readVec 32 (b.drop 65) = r.peer.discoPub
  hasDisco : decide (b.getD 24 0 = 1) = r.peer.hasDisco

lemma tlWarmDecode_eq_some_iff : tlWarmDecode b = some r ↔ BlobReads b r := by
  constructor
  · intro h
    unfold tlWarmDecode at h
    dsimp only at h
    split at h
    · cases h
    split at h
    · cases h
    split at h
    · cases h
    next h1 h2 h3 =>
    simp only [Option.bind_eq_bind, Option.bind_eq_some_iff] at h
    obtain ⟨self, hself, addr, haddr, ep, hep, h⟩ := h
    cases h
    simp only [Bool.or_eq_true, decide_eq_true_eq, not_or, Nat.not_lt, UInt8.not_lt, not_not] at h1 h2
    simp only [Bool.and_eq_true, Bool.not_eq_true', decide_eq_false_iff_not, decide_eq_true_eq,
      not_and, not_not] at h3
    obtain ⟨⟨hmin, hmax⟩, hv⟩ := h1
    obtain ⟨⟨⟨⟨⟨⟨hs1, hs2⟩, ha⟩, he1⟩, he2⟩, hf⟩, hl⟩ := h2
    exact ⟨⟨hmin, hmax⟩, hv, ⟨hs1, hs2⟩, ha, ⟨he1, he2⟩, hf, hl, h3, hself, haddr, hep, rfl, rfl, rfl,
      rfl, rfl, rfl, rfl⟩
  · intro h
    unfold tlWarmDecode
    rw [if_neg, if_neg, if_neg]
    · simp only [h.self, h.addr, h.ep, h.written, h.selfTag, h.ctlTag, h.id, h.nodePub, h.discoPub,
        h.hasDisco, Option.bind_eq_bind, Option.bind_some]
    · simp only [Bool.and_eq_true, Bool.not_eq_true', decide_eq_false_iff_not, decide_eq_true_eq,
        not_and, not_not]
      exact h.zero
    · simp only [Bool.or_eq_true, decide_eq_true_eq, not_or, Nat.not_lt, UInt8.not_lt, not_not]
      exact ⟨⟨⟨⟨⟨⟨h.nSelf.1, h.nSelf.2⟩, h.nAddr⟩, h.nEp.1⟩, h.nEp.2⟩, h.flag⟩, h.length⟩
    · simp only [Bool.or_eq_true, decide_eq_true_eq, not_or, Nat.not_lt, not_not]
      exact ⟨h.bounds, h.version⟩

lemma decode_blob (h : StoredOk r) : tlWarmDecode (warmBlob r) = some r := by
  obtain ⟨⟨hself1, hself⟩, ⟨hep1, hep⟩, haddr⟩ := storable_iff.mp h.storable
  have hlen := length_warmBlob r
  obtain ⟨b, hb⟩ : ∃ b, b = warmBlob r := ⟨_, rfl⟩
  rw [← hb] at hlen ⊢
  have h0 : b.drop 0 = [tlWarmRecV1] ++ _ := hb
  have h1 : b.drop 1 = _ := drop_field h0 rfl
  have h5 : b.drop 5 = _ := drop_field h1 (length_leBytes 4 _)
  have h13 : b.drop 13 = _ := drop_field h5 Vector.length_toList
  have h21 : b.drop 21 = _ := drop_field h13 Vector.length_toList
  have h25 : b.drop 25 = _ := drop_field h21 rfl
  have h33 : b.drop 33 = _ := drop_field h25 (length_leBytes 8 _)
  have h65 : b.drop 65 = _ := drop_field h33 Vector.length_toList
  have h97 : b.drop tlWarmHdr = _ := drop_field h65 Vector.length_toList
  have hbyte : ∀ n ≤ 4, (UInt8.ofNat n).toNat = n := by decide
  have hSelf : (b.getD 21 0).toNat = r.self.length := by
    rw [← getD_drop b 21 0 0, h21]
    exact hbyte _ (by omega)
  have hAddr : (b.getD 22 0).toNat = r.peer.addr.length := by
    rw [← getD_drop b 21 1 0, h21]
    exact hbyte _ (by omega)
  have hEp : (b.getD 23 0).toNat = r.peer.ep.length := by
    rw [← getD_drop b 21 2 0, h21]
    exact hbyte _ (by omega)
  have hFlag : b.getD 24 0 = if r.peer.hasDisco then 1 else 0 := by
    rw [← getD_drop b 21 3 0, h21]
    rfl
  have hDisco : readVec 32 (b.drop 65) = r.peer.discoPub := by
    rw [h65, readVec_append, warmDisco]
    cases hd : r.peer.hasDisco with
    | true => rfl
    | false => exact (h.disco hd).symm
  have gEp := warmGetAll_flatMap length_putEp (fun e he => getEp_putEp (h.ep e he)) []
  rw [List.append_nil] at gEp
  apply tlWarmDecode_eq_some_iff.mpr
  refine
    { bounds := ?_
      version := hb ▸ rfl
      nSelf := by rw [hSelf]; exact ⟨hself1, hself⟩
      nAddr := by rw [hAddr]; exact haddr
      nEp := by rw [hEp]; exact ⟨hep1, hep⟩
      flag := ?_
      length := by rw [hSelf, hAddr, hEp]; exact hlen
      zero := ?_
      self := ?_
      addr := ?_
      ep := ?_
      written := ?_
      selfTag := by rw [h5]; exact readVec_append _ _
      ctlTag := by rw [h13]; exact readVec_append _ _
      id := ?_
      nodePub := by rw [h33, readVec_append]
      discoPub := hDisco
      hasDisco := ?_ }
  · rw [hlen]
    change 108 ≤ 97 + 5 * (r.self.length + r.peer.addr.length) + 6 * r.peer.ep.length ∧
      97 + 5 * (r.self.length + r.peer.addr.length) + 6 * r.peer.ep.length ≤ 141
    omega
  · rw [hFlag]
    cases r.peer.hasDisco <;> decide
  · rw [hFlag, hDisco]
    cases hd : r.peer.hasDisco with
    | true => exact fun hne => absurd rfl hne
    | false => exact fun _ => h.disco hd
  · rw [hSelf, h97]
    exact warmGetAll_flatMap length_putCidr (fun c hc => getCidr_putCidr (h.self c hc)) _
  · rw [hSelf, hAddr, h97, List.drop_left' (length_flatMap_put length_putCidr _)]
    exact warmGetAll_flatMap length_putCidr (fun c hc => getCidr_putCidr (h.addr c hc)) _
  · rw [hSelf, hAddr, hEp, h97, List.drop_left' (length_flatMap_put length_putCidr _),
      List.drop_left' (length_flatMap_put length_putCidr _)]
    exact gEp
  · rw [h1, List.take_left' (length_leBytes 4 _), leNat_leBytes]
    exact Nat.mod_eq_of_lt (by simpa using h.written)
  · rw [h25, List.take_left' (length_leBytes 8 _), leNat_leBytes]
    exact Nat.mod_eq_of_lt (by simpa using h.id)
  · rw [hFlag]
    cases r.peer.hasDisco <;> decide

section Reads
variable {b : Bytes} {r : WarmRec}

section
variable (h : BlobReads b r)
include h

lemma BlobReads.length_ge : 97 ≤ b.length :=
  Nat.le_trans (by decide) h.bounds.1

lemma BlobReads.self_inv : r.self.length = (b.getD 21 0).toNat ∧
    r.self.flatMap tlWarmPutCidr = (b.drop 97).take (5 * (b.getD 21 0).toNat) ∧
      ∀ c ∈ r.self, ∃ b, tlWarmGetCidr b = some c := by
  refine warmGetAll_inv putCidr_getCidr ?_ h.self
  have hlen : b.length = 97 + 5 * (_ + _) + 6 * _ := h.length
  change 5 * _ ≤ (b.drop 97).length
  rw [List.length_drop]
  omega

lemma BlobReads.addr_inv : r.peer.addr.length = (b.getD 22 0).toNat ∧
    r.peer.addr.flatMap tlWarmPutCidr =
      (b.drop (97 + 5 * (b.getD 21 0).toNat)).take (5 * (b.getD 22 0).toNat) ∧
      ∀ c ∈ r.peer.addr, ∃ b, tlWarmGetCidr b = some c := by
  rw [← List.drop_drop]
  refine warmGetAll_inv putCidr_getCidr ?_ h.addr
  have hlen : b.length = 97 + 5 * (_ + _) + 6 * _ := h.length
  change 5 * _ ≤ ((b.drop 97).drop (5 * (b.getD 21 0).toNat)).length
  rw [List.length_drop, List.length_drop]
  omega

lemma BlobReads.ep_inv : r.peer.ep.length = (b.getD 23 0).toNat ∧
    r.peer.ep.flatMap warmPutEp = b.drop (97 + 5 * (b.getD 21 0).toNat + 5 * (b.getD 22 0).toNat) ∧
      ∀ e ∈ r.peer.ep, ∃ b, warmGetEp b = some e := by
  have hlen : b.length = 97 + 5 * (_ + _) + 6 * _ := h.length
  have hrest : (b.drop (97 + 5 * (b.getD 21 0).toNat + 5 * (b.getD 22 0).toNat)).length =
      6 * (b.getD 23 0).toNat := by
    rw [List.length_drop]
    omega
  have hget := h.ep
  rw [List.drop_drop, List.drop_drop, ← Nat.add_assoc] at hget
  obtain ⟨hn, hflat, hall⟩ := warmGetAll_inv putEp_getEp hrest.ge hget
  exact ⟨hn, by rw [hflat]; exact List.take_of_length_le hrest.le, hall⟩

lemma storedOk_of_reads : StoredOk r := by
  obtain ⟨hnSelf, -, hself⟩ := h.self_inv
  obtain ⟨hnAddr, -, haddr⟩ := h.addr_inv
  obtain ⟨hnEp, -, hep⟩ := h.ep_inv
  have hlen := h.length_ge
  refine
    { storable := ?_
      self := fun c hc => (hself c hc).elim fun _ => getCidr_ok
      addr := fun c hc => (haddr c hc).elim fun _ => getCidr_ok
      ep := fun e he => (hep e he).elim fun _ => getEp_ok
      disco := ?_
      written := h.written ▸ leNat_field_lt 1 (by omega)
      id := h.id ▸ leNat_field_lt 25 (by omega) }
  · rw [storable_iff, hnSelf, hnAddr, hnEp]
    exact ⟨h.nSelf, h.nEp, h.nAddr⟩
  · intro hd
    rw [← h.hasDisco, decide_eq_false_iff_not] at hd
    rw [← h.discoPub]
    exact h.zero hd

lemma blob_of_reads : warmBlob r = b := by
  obtain ⟨hnSelf, hself, -⟩ := h.self_inv
  obtain ⟨hnAddr, haddr, -⟩ := h.addr_inv
  obtain ⟨hnEp, hep, -⟩ := h.ep_inv
  have hlen := h.length_ge
  have hflag : (if r.peer.hasDisco then 1 else 0 : UInt8) = b.getD 24 0 := by
    have hle : ∀ c : UInt8, c ≤ 1 → (if decide (c = 1) then 1 else 0 : UInt8) = c := by
      intro c hc
      have hcases : c = 0 ∨ c = 1 := by
        rw [UInt8.le_iff_toNat_le, UInt8.toNat_one] at hc
        rw [← UInt8.toNat_inj, ← UInt8.toNat_inj, UInt8.toNat_zero, UInt8.toNat_one]
        omega
      rcases hcases with rfl | rfl
      · rfl
      · rfl
    rw [← h.hasDisco]
    exact hle _ h.flag
  have hdisco : warmDisco r = readVec 32 (b.drop 65) := by
    rw [warmDisco, h.discoPub]
    cases hd : r.peer.hasDisco with
    | true => rfl
    | false => exact ((storedOk_of_reads h).disco hd).symm
  have hcounts : [b.getD 21 0, b.getD 22 0, b.getD 23 0, b.getD 24 0] = (b.drop 21).take 4 := by
    calc
      [b.getD 21 0, b.getD 22 0, b.getD 23 0, b.getD 24 0]
        = [b.getD 21 0] ++ ([b.getD 22 0] ++ ([b.getD 23 0] ++ [b.getD 24 0])) := rfl
      _ = (b.drop 21).take 4 := by
        rw [getD_field (by omega), getD_field (by omega), getD_field (by omega), getD_field (by omega),
          take_drop_append b 23 1 1, take_drop_append b 22 1 2, take_drop_append b 21 1 3]
  have hsize : ∀ k n, k + n ≤ 97 → n ≤ (b.drop k).length := by
    intro k n hkn
    rw [List.length_drop]
    omega
  have hselfTag : r.selfTag.toList = (b.drop 5).take 8 := by
    rw [← h.selfTag]
    exact readVec_toList (hsize 5 8 (by decide))
  have hctlTag : r.ctlTag.toList = (b.drop 13).take 8 := by
    rw [← h.ctlTag]
    exact readVec_toList (hsize 13 8 (by decide))
  rw [warmBlob, ← h.written, hselfTag, hctlTag, ← h.id, ← h.nodePub, hdisco, hflag, hnSelf, hnAddr,
    hnEp, hself, haddr, hep, UInt8.ofNat_toNat, UInt8.ofNat_toNat, UInt8.ofNat_toNat, hcounts, ← h.version,
    getD_field (by omega), leBytes_field 1 (by omega), leBytes_field 25 (by omega),
    readVec_toList (hsize 33 32 (by decide)), readVec_toList (hsize 65 32 (by decide)),
    field_append, field_append b 97, field_append b 65 32, field_append b 33 32, field_append b 25 8,
    field_append b 21 4, field_append b 13 8, field_append b 5 8, field_append b 1 4]
  exact field_append b 0 1

end

end Reads

lemma tlWarmEncode_inv {cap : ℕ} (h : tlWarmEncode r cap = some b) : b = warmBlob r := by
  unfold tlWarmEncode at h
  split at h
  · cases h
  · split at h
    · cases h
    · cases h
      simp only [warmBlob, warmDisco, List.append_assoc]

lemma parse_of_mem_filterMap {α : Type} {parse : Bytes → Option α} {ok : α → Prop}
    (hok : ∀ s a, parse s = some a → ok a) {l : List Bytes} : ∀ a ∈ l.filterMap parse, ok a := by
  intro a ha
  obtain ⟨s, -, hs⟩ := List.mem_filterMap.mp ha
  exact hok s a hs

lemma filterMap_parse_map {α : Type} {parse : Bytes → Option α} {str : α → Bytes} {l : List α}
    (h : ∀ a ∈ l, parse (str a) = some a) : (l.map str).filterMap parse = l := by
  induction l with
  | nil => rfl
  | cons a l ih =>
    rw [List.map_cons, List.filterMap_cons_some (h a List.mem_cons_self),
      ih fun b hb => h b (List.mem_cons_of_mem a hb)]

lemma storedOk_build {self : List Bytes} {peer : Peer} {selfPub ctlPub : Key}
    (hid : peer.id < 2 ^ 64)
    (hs : tlWarmRecStorable (tlWarmRecBuild self peer selfPub ctlPub)) :
    StoredOk (tlWarmRecBuild self peer selfPub ctlPub) where
  storable := hs
  self := by
    intro c hc
    cases h0 : self.head?.bind tlWarmCidrParse with
    | none =>
      simp only [tlWarmRecBuild, h0] at hc
      cases hc
    | some =>
      simp only [tlWarmRecBuild, h0, List.mem_cons] at hc
      rcases hc with rfl | hc
      · obtain ⟨s, -, hs⟩ := Option.bind_eq_some_iff.mp h0
        exact tlWarmCidrParse_ok hs
      · exact parse_of_mem_filterMap (fun _ _ => tlWarmCidrParse_ok) c hc
  addr := parse_of_mem_filterMap fun _ _ => tlWarmCidrParse_ok
  ep := parse_of_mem_filterMap fun _ _ => tlWarmEpParse_ok
  disco := by
    intro hd
    change (if peer.hasDiscoPub then peer.discoPub else zeroKey) = zeroKey
    rw [show peer.hasDiscoPub = false from hd]
    rfl
  written := (by decide : 0 < 2 ^ 32)
  id := hid

lemma tlWarmPeerFrom_to (h : StoredOk r) : tlWarmPeerFrom (tlWarmPeerTo r.peer) = r.peer := by
  obtain ⟨-, ⟨-, hep⟩, haddr⟩ := storable_iff.mp h.storable
  have hdisco : (if r.peer.hasDisco then (if r.peer.hasDisco then r.peer.discoPub else zeroKey)
      else zeroKey) = r.peer.discoPub := by
    cases hd : r.peer.hasDisco with
    | true => rfl
    | false => exact (h.disco hd).symm
  unfold tlWarmPeerFrom tlWarmPeerTo
  rw [hdisco, List.take_of_length_le (by rw [List.length_map]; exact haddr),
    List.take_of_length_le (by rw [List.length_map]; exact hep),
    filterMap_parse_map fun c hc => tlWarmCidrParse_str (h.addr c hc),
    filterMap_parse_map fun e he => tlWarmEpParse_str (h.ep e he)]

lemma build_seed (h : StoredOk r) {selfPub ctlPub : Key}
    (hfor : tlWarmRecFor r selfPub ctlPub) :
    tlWarmRecBuild (tlWarmSeed r).self (tlWarmPeerTo r.peer) selfPub ctlPub =
      { r with written := 0 } := by
  obtain ⟨⟨hself1, hself⟩, -, -⟩ := storable_iff.mp h.storable
  simp only [tlWarmRecFor, Bool.and_eq_true, decide_eq_true_eq] at hfor
  obtain ⟨htag, hctl⟩ := hfor
  cases hl : r.self with
  | nil => simp [hl] at hself1
  | cons c l =>
    have hc := h.self c (by rw [hl]; exact List.mem_cons_self)
    have hrest : ∀ d ∈ l, tlWarmCidrParse (tlWarmCidrStr d) = some d := fun d hd =>
      tlWarmCidrParse_str (h.self d (by rw [hl]; exact List.mem_cons_of_mem c hd))
    have hlen : (l.map tlWarmCidrStr).length ≤ tlMaxPeerAddresses - 1 := by
      rw [hl, List.length_cons] at hself
      rw [List.length_map]
      exact Nat.le_of_succ_le_succ hself
    simp only [tlWarmRecBuild, tlWarmSeed, hl, List.map_cons, List.head?_cons, Option.bind_some,
      tlWarmCidrParse_str hc, List.tail_cons, List.take_of_length_le hlen, filterMap_parse_map hrest,
      tlWarmPeerFrom_to h, ← htag, ← hctl]

/-- The record is what is read back from NVS, and the tables a warm start seeds make the same record
again. -/
theorem warm_record_survives :
    (∀ (self : List Bytes) (peer : Peer) (selfPub ctlPub : Key), peer.id < 2 ^ 64 →
      let r := tlWarmRecBuild self peer selfPub ctlPub
      tlWarmRecStorable r = true →
        (∃ b, tlWarmEncode r tlWarmBlobMax = some b) ∧
        (∀ cap b, tlWarmEncode r cap = some b → tlWarmDecode b = some r) ∧
        ∃ p, (tlWarmSeed r).peers = [p] ∧
          tlWarmRecBuild (tlWarmSeed r).self p selfPub ctlPub = r) ∧
    ∀ (b : Bytes) (r : WarmRec), tlWarmDecode b = some r →
      tlWarmEncode r tlWarmBlobMax = some b ∧
      ∀ selfPub ctlPub, tlWarmRecFor r selfPub ctlPub = true →
        ∃ p, (tlWarmSeed r).peers = [p] ∧
          tlWarmRecBuild (tlWarmSeed r).self p selfPub ctlPub = { r with written := 0 } := by
  constructor
  · intro self peer selfPub ctlPub hid r hs
    have hok : StoredOk r := storedOk_build hid hs
    refine ⟨⟨_, tlWarmEncode_eq hs⟩, ?_, ⟨_, rfl, ?_⟩⟩
    · intro cap b hb
      rw [tlWarmEncode_inv hb]
      exact decode_blob hok
    · have hfor : tlWarmRecFor r selfPub ctlPub = true := by
        simp [tlWarmRecFor, r, tlWarmRecBuild]
      exact build_seed hok hfor
  · intro b r hb
    have hreads := tlWarmDecode_eq_some_iff.mp hb
    have hok := storedOk_of_reads hreads
    refine ⟨?_, fun selfPub ctlPub hfor => ⟨_, rfl, build_seed hok hfor⟩⟩
    rw [tlWarmEncode_eq hok.storable, blob_of_reads hreads]

def warmPeer : Peer where
  id := 7
  nodePub := zeroKey
  discoPub := zeroKey
  hasDiscoPub := false
  homeDerp := 0
  endpoints := [tlWarmEpStr ⟨ipv4Of 127 0 0 1, 41641⟩, tlWarmEpStr ⟨ipv4Of 203 0 113 5, 41641⟩]
  addresses := [tlWarmCidrStr ⟨ipv4Of 100 64 0 2, 32⟩]

def warmSelf : List Bytes := [tlWarmCidrStr ⟨ipv4Of 100 64 0 1, 32⟩]

theorem sample_record_survives :
    let r := tlWarmRecBuild warmSelf warmPeer zeroKey zeroKey
    r.peer.ep = [⟨ipv4Of 203 0 113 5, 41641⟩] ∧
      ∃ b, tlWarmDecode b = some r ∧ tlWarmEncode r tlWarmBlobMax = some b := by
  have hs : tlWarmRecStorable (tlWarmRecBuild warmSelf warmPeer zeroKey zeroKey) = true := by
    decide +kernel
  obtain ⟨⟨b, hb⟩, hdec, -⟩ :=
    warm_record_survives.1 warmSelf warmPeer zeroKey zeroKey (by decide) hs
  refine ⟨by decide +kernel, b, hdec _ b hb, ?_⟩
  exact (warm_record_survives.2 b _ (hdec _ b hb)).1

end TinyLink.Proofs
