import TinyLink.Proofs.WarmCodec
import TinyLink.WgDataplane

/-!
# What a warm start dials

`pick_peer_endpoint` over the endpoints of the netmap and over those that the record keeps.
-/

namespace TinyLink.Proofs

abbrev DialPair := Ipv4 × ℤ

def dialPairs (endpoints : List Bytes) : List DialPair :=
  (endpoints.take tlMaxPeerEndpoints).filterMap fun ep => (dialCand ep).map DialCand.pair

def firstPublic (xs : List DialPair) : Option DialPair := xs.find? fun x => ipv4IsPublic x.1

def firstPrivate (xs : List DialPair) : Option DialPair := xs.find? fun x => !ipv4IsPublic x.1

def behindNat (xs : List DialPair) (our : Option Ipv4) : Bool :=
  our.any fun a => xs.any fun x => ipv4IsPublic x.1 && x.1 = a

def choosePair (xs : List DialPair) (our : Option Ipv4) : Option DialPair :=
  if behindNat xs our then (firstPrivate xs).or (firstPublic xs)
  else (firstPublic xs).or (firstPrivate xs)

lemma dialCand_isPublic {ep : Bytes} {c : DialCand} (h : dialCand ep = some c) :
    c.isPublic = ipv4IsPublic c.ip := by
  simp only [dialCand, Option.bind_eq_bind, Option.bind_eq_some_iff] at h
  obtain ⟨⟨host, port⟩, -, ip, -, h⟩ := h
  cases h
  rfl

section Table
variable {q : DialCand → Bool} {p : DialPair → Bool}
    (hqp : ∀ ep c, dialCand ep = some c → q c = p c.pair) (endpoints : List Bytes)
include hqp

lemma any_dialCand (ep : Bytes) :
    (dialCand ep).any q = ((dialCand ep).map DialCand.pair).any p := by
  cases hc : dialCand ep with
  | none => rfl
  | some c => exact hqp ep c hc

lemma find_dialPairs :
    (((dialCands endpoints).findIdx? (·.any q)).bind fun i =>
      ((dialCands endpoints)[i]?).join.map DialCand.pair) = (dialPairs endpoints).find? p := by
  have hjoin : ∀ o : Option (Option DialCand),
      o.join.map DialCand.pair = o.bind fun c => c.map DialCand.pair := by
    rintro (_ | _) <;> rfl
  simp only [hjoin]
  rw [← Option.bind_assoc, ← List.find?_eq_bind_findIdx?_getElem?, dialCands, List.find?_map,
    dialPairs, List.find?_filterMap, Option.bind_map]
  simp only [← any_dialCand hqp]
  rfl

lemma any_dialPairs :
    (dialPairs endpoints).any p = (dialCands endpoints).any (·.any q) := by
  rw [dialPairs, dialCands, List.any_filterMap, List.any_map]
  congr 1
  funext ep
  cases hc : dialCand ep with
  | none => simp [hc]
  | some c => simp [hc, hqp ep c hc]

lemma isSome_findIdx_dialCands :
    ((dialCands endpoints).findIdx? (·.any q)).isSome = ((dialPairs endpoints).find? p).isSome := by
  rw [List.findIdx?_isSome, ← any_dialPairs hqp, Bool.eq_iff_iff, List.find?_isSome, List.any_eq_true]

end Table

lemma sameNat_dialCands (endpoints : List Bytes) (our : Option Ipv4) :
    sameNat (dialCands endpoints) our = behindNat (dialPairs endpoints) our := by
  cases our with
  | none => rfl
  | some =>
    refine (any_dialPairs (fun ep c hc => ?_) endpoints).symm
    rw [dialCand_isPublic hc]
    rfl

variable {xs : List DialPair} {s : Bytes}

lemma head_of_no_public (h : firstPublic xs = none) :
    xs.find? (fun _ => true) = firstPrivate xs := by
  cases xs with
  | nil => rfl
  | cons x =>
    have hx : ipv4IsPublic x.1 = false := by
      have hall := List.find?_eq_none.mp h x List.mem_cons_self
      simpa using hall
    simp [firstPrivate, hx]

def pairAt (endpoints : List Bytes) (i : ℕ) : Option DialPair :=
  ((dialCands endpoints)[i]?).join.map DialCand.pair

lemma dialled_eq_pairAt (endpoints : List Bytes) (our : Option Ipv4) :
    let ia := (dialCands endpoints).findIdx? (·.any fun _ => true)
    let ip := (dialCands endpoints).findIdx? (·.any (·.isPublic))
    let iv := (dialCands endpoints).findIdx? (·.any (!·.isPublic))
    dialled endpoints our = if ia.isNone then none else
      (if behindNat (dialPairs endpoints) our && iv.isSome then iv
        else if ip.isSome then ip else ia).bind (pairAt endpoints) := by
  have hget : ∀ pick : Option ℕ, (pick.bind fun i => ((dialCands endpoints)[i]?).join.bind fun c =>
      some (c, i)).map (fun r => r.1.pair) = pick.bind (pairAt endpoints) := by
    rintro (_ | i)
    · rfl
    · simp only [Option.bind_some, pairAt]
      cases ((dialCands endpoints)[i]?).join <;> rfl
  have hisSome : (fun o : Option DialCand => o.isSome) = fun o => o.any fun _ => true := by
    funext o
    rfl
  unfold dialled pickPeerEndpoint
  dsimp only
  rw [sameNat_dialCands, hisSome, if_neg (Nat.lt_irrefl _)]
  split
  · rfl
  · exact hget _

lemma dialled_eq (endpoints : List Bytes) (our : Option Ipv4) :
    dialled endpoints our = choosePair (dialPairs endpoints) our := by
  have hpub : ∀ ep c, dialCand ep = some c → c.isPublic = ipv4IsPublic c.pair.1 :=
    fun ep c hc => dialCand_isPublic hc
  have hpriv : ∀ ep c, dialCand ep = some c → (!c.isPublic) = !ipv4IsPublic c.pair.1 :=
    fun ep c hc => congrArg not (dialCand_isPublic hc)
  have fpub : _ = firstPublic _ := find_dialPairs hpub endpoints
  have fpriv : _ = firstPrivate _ := find_dialPairs hpriv endpoints
  have fany := find_dialPairs (q := fun _ => true) (p := fun _ => true) (fun _ _ _ => rfl) endpoints
  have spub : _ = (firstPublic _).isSome := isSome_findIdx_dialCands hpub endpoints
  have spriv : _ = (firstPrivate _).isSome := isSome_findIdx_dialCands hpriv endpoints
  rw [dialled_eq_pairAt, choosePair]
  rw [spub, spriv]
  cases hp : firstPublic (dialPairs endpoints) with
  | none =>
    rw [head_of_no_public hp] at fany
    have hsame : ∀ nat : Bool, (if nat then (firstPrivate (dialPairs endpoints)).or none
        else none.or (firstPrivate (dialPairs endpoints))) = firstPrivate (dialPairs endpoints) := by
      rintro (_ | _) <;> simp
    rw [hsame]
    split
    · next hnone =>
      rw [Option.isNone_iff_eq_none.mp hnone] at fany
      exact fany
    · split
      · exact fpriv
      · exact fany
  | some x =>
    have hne : ((dialCands endpoints).findIdx? (·.any fun _ => true)).isNone = false := by
      rw [Bool.eq_false_iff]
      intro hnone
      rw [Option.isNone_iff_eq_none.mp hnone] at fany
      exact List.find?_eq_none.mp fany.symm x (List.mem_of_find?_eq_some hp) rfl
    rw [hne, if_neg Bool.false_ne_true]
    rw [hp] at fpub
    cases behindNat (dialPairs endpoints) our with
    | false => exact fpub
    | true =>
      cases hv : firstPrivate (dialPairs endpoints) with
      | none => exact fpub
      | some => exact fpriv.trans hv

lemma firstPublic_public {x : DialPair} (h : firstPublic xs = some x) :
    x ∈ xs ∧ ipv4IsPublic x.1 = true :=
  ⟨List.mem_of_find?_eq_some h, List.find?_some (p := fun x : DialPair => ipv4IsPublic x.1) h⟩

lemma firstPrivate_private {x : DialPair} (h : firstPrivate xs = some x) :
    x ∈ xs ∧ ipv4IsPublic x.1 = false := by
  refine ⟨List.mem_of_find?_eq_some h, ?_⟩
  have hx := List.find?_some h
  simpa using hx

lemma behindNat_iff {a : Ipv4} :
    behindNat xs (some a) = true ↔ ∃ x ∈ xs, ipv4IsPublic x.1 = true ∧ x.1 = a := by
  simp only [behindNat, Option.any_some, List.any_eq_true, Bool.and_eq_true, decide_eq_true_eq]

/-- The first public and the first other candidate are kept, and with another candidate also every
public address. -/
structure SamePicks (cold kept : List DialPair) : Prop where
  pub : firstPublic cold = firstPublic kept
  priv : firstPrivate cold = firstPrivate kept
  addresses : (firstPrivate cold).isSome = true → ∀ x ∈ cold, ipv4IsPublic x.1 = true →
    ∃ k ∈ kept, k.1 = x.1

section Kept
variable {cold kept : List DialPair} (hsub : ∀ x ∈ kept, x ∈ cold)
include hsub

lemma behindNat_mono {our : Option Ipv4} (h : behindNat kept our) :
    behindNat cold our = true := by
  cases our with
  | none => cases h
  | some =>
    obtain ⟨x, hx, hp⟩ := behindNat_iff.mp h
    exact behindNat_iff.mpr ⟨x, hsub x hx, hp⟩

lemma choosePair_of_samePicks (h : SamePicks cold kept) (our : Option Ipv4) :
    choosePair cold our = choosePair kept our := by
  unfold choosePair
  rw [← h.pub, ← h.priv]
  by_cases hk : behindNat kept our = true
  · rw [hk, behindNat_mono hsub hk]
  · by_cases hc : behindNat cold our = true
    · -- only the endpoint that is not kept is behind our address, so there is no other kind
      cases our with
      | none => cases hc
      | some =>
        obtain ⟨x, hx, hpub, rfl⟩ := behindNat_iff.mp hc
        cases hv : firstPrivate cold with
        | none =>
          rw [if_pos hc, if_neg hk, Option.none_or, Option.or_none]
        | some =>
          obtain ⟨k, hkmem, hkx⟩ := h.addresses (by rw [hv]; rfl) x hx hpub
          exact absurd (behindNat_iff.mpr ⟨k, hkmem, hkx ▸ hpub, hkx⟩) hk
    · rw [if_neg hc, if_neg hk]

lemma samePicks_of_choosePair (h : ∀ our, choosePair cold our = choosePair kept our) :
    SamePicks cold kept := by
  have hne : ∀ {x y : DialPair}, ipv4IsPublic x.1 = true → ipv4IsPublic y.1 = false → x ≠ y := by
    rintro x y hx hy rfl
    rw [hx] at hy
    cases hy
  have hnone : (firstPublic cold).or (firstPrivate cold) = (firstPublic kept).or (firstPrivate kept) :=
    h none
  cases hp : firstPublic cold with
  | none =>
    have hall : ∀ x ∈ cold, ¬ ipv4IsPublic x.1 = true := List.find?_eq_none.mp hp
    have hk : firstPublic kept = none := List.find?_eq_none.mpr fun x hx => hall x (hsub x hx)
    rw [hp, hk, Option.none_or, Option.none_or] at hnone
    exact ⟨by rw [hp, hk], hnone, fun _ x hx hpub => absurd hpub (hall x hx)⟩
  | some a =>
    obtain ⟨ha, hapub⟩ := firstPublic_public hp
    rw [hp, Option.some_or] at hnone
    have hk : firstPublic kept = some a := by
      cases hk : firstPublic kept with
      | some =>
        rw [hk, Option.some_or] at hnone
        exact hnone.symm
      | none =>
        rw [hk, Option.none_or] at hnone
        exact absurd rfl (hne hapub (firstPrivate_private hnone.symm).2)
    obtain ⟨hak, -⟩ := firstPublic_public hk
    have hcold : ∀ {x}, x ∈ cold → ipv4IsPublic x.1 = true →
        choosePair cold (some x.1) = (firstPrivate cold).or (some a) := by
      intro x hx hpub
      rw [choosePair, if_pos (behindNat_iff.mpr ⟨x, hx, hpub, rfl⟩), hp]
    have hpriv : firstPrivate cold = firstPrivate kept := by
      have ha' := h (some a.1)
      rw [hcold ha hapub, choosePair, if_pos (behindNat_iff.mpr ⟨a, hak, hapub, rfl⟩), hk] at ha'
      cases hv : firstPrivate cold with
      | none =>
        have hall := List.find?_eq_none.mp hv
        exact (List.find?_eq_none.mpr fun x hx => hall x (hsub x hx)).symm
      | some =>
        rw [hv, Option.some_or] at ha'
        cases hw : firstPrivate kept with
        | some =>
          rw [hw, Option.some_or] at ha'
          exact ha'
        | none =>
          rw [hw, Option.none_or] at ha'
          injection ha' with ha'
          exact absurd ha'.symm (hne hapub (firstPrivate_private hv).2)
    refine ⟨by rw [hp, hk], hpriv, fun hsome x hx hpub => ?_⟩
    obtain ⟨v, hv⟩ := Option.isSome_iff_exists.mp hsome
    by_cases hnat : behindNat kept (some x.1) = true
    · obtain ⟨k, hkmem, -, hkx⟩ := behindNat_iff.mp hnat
      exact ⟨k, hkmem, hkx⟩
    · have hx' := h (some x.1)
      rw [hcold hx hpub, hv, Option.some_or, choosePair, if_neg hnat, hk, Option.some_or] at hx'
      injection hx' with hx'
      exact absurd hx'.symm (hne hapub (firstPrivate_private hv).2)

end Kept

def epPair (e : WarmEp) : DialPair := (e.ip, e.port.toNat)

def keptPairs (endpoints : List Bytes) : List DialPair :=
  ((endpoints.take tlMaxPeerEndpoints).filterMap tlWarmEpParse).map epPair

lemma cSpace_of_isDigit {c : UInt8} (h : isDigit c) : cSpace c = false := by
  simp only [isDigit, Bool.and_eq_true, decide_eq_true_eq, UInt8.le_iff_toNat_le] at h
  have h48 : (48 : UInt8).toNat = 48 := rfl
  have h13 : (13 : UInt8).toNat = 13 := rfl
  simp only [cSpace, Bool.or_eq_false_iff, Bool.and_eq_false_iff, decide_eq_false_iff_not,
    UInt8.le_iff_toNat_le]
  constructor
  · rintro rfl
    exact absurd h.1 (by decide)
  · right
    omega

lemma cNumber_of_digits (h : ∀ c ∈ s, isDigit c = true) : cNumber s =
    (false, decValue s) := by
  cases s with
  | nil => rfl
  | cons c =>
    have hc := h c List.mem_cons_self
    unfold cNumber
    rw [List.dropWhile_cons_of_neg (by rw [cSpace_of_isDigit hc]; decide)]
    split
    · next heq =>
      cases heq
      exact absurd hc (by decide)
    · next heq =>
      cases heq
      exact absurd hc (by decide)
    · rw [List.takeWhile_eq_self_iff.mpr h]

lemma atoi_of_tlWarmDec {n : ℕ} (h : tlWarmDec s 65535 = some n) : atoi s = n := by
  have hle := tlWarmDec_le h
  unfold tlWarmDec at h
  split at h
  · cases h
  split at h
  · cases h
  next hdigits =>
  injection h with h
  simp only [Bool.or_eq_true, Bool.not_eq_true', not_or, Bool.not_eq_false] at hdigits
  have hall : ∀ c ∈ s, isDigit c = true := List.all_eq_true.mp hdigits.1
  simp only [atoi, cNumber_of_digits hall, h, Bool.false_eq_true, if_false]
  omega

lemma splitAtByte_length {c : UInt8} {s a b : Bytes} (h : splitAtByte c s = some (a, b)) :
    a.length ≤ s.length := by
  unfold splitAtByte at h
  split at h
  · cases h
  · cases h
    exact (List.takeWhile_sublist _).length_le

lemma dialCand_of_tlWarmEpParse {e : WarmEp} (h : tlWarmEpParse s = some e) :
    (dialCand s).map DialCand.pair = some (epPair e) := by
  unfold tlWarmEpParse at h
  dsimp only at h
  split at h
  · cases h
  next hlen =>
  simp only [Option.bind_eq_bind, Option.bind_eq_some_iff] at h
  obtain ⟨⟨host, port⟩, hsplit, ip, hip, h⟩ := h
  split at h
  · cases h
  obtain ⟨p, hp, h⟩ := Option.bind_eq_some_iff.mp h
  split at h
  · cases h
  next hp0 =>
  cases h
  have hport : atoi port = p := atoi_of_tlWarmDec hp
  have hle := tlWarmDec_le hp
  have hhost : ¬ host.length + 1 > candHostLen := by
    have hshort := splitAtByte_length hsplit
    change ¬ 32 ≤ _ at hlen
    change ¬ 64 < _
    omega
  have hrange : ¬ (decide ((p : ℤ) ≤ 0) || decide ((p : ℤ) > 65535)) = true := by
    simp only [Bool.or_eq_true, decide_eq_true_eq]
    omega
  have hparse : parseEndpoint s candHostLen = some (host, (p : ℤ)) := by
    simp only [parseEndpoint, hsplit, Option.bind_eq_bind, Option.bind_some, hport]
    rw [if_neg hhost, if_neg hrange]
  have hmod : (UInt16.ofNat p).toNat = p := by
    rw [UInt16.toNat_ofNat', Nat.mod_eq_of_lt (by omega)]
  simp [dialCand, hparse, inetPton, hip, DialCand.pair, epPair, hmod]

lemma keptPairs_subset {endpoints : List Bytes} :
    ∀ x ∈ keptPairs endpoints, x ∈ dialPairs endpoints := by
  intro x hx
  obtain ⟨e, he, rfl⟩ := List.mem_map.mp hx
  obtain ⟨s, hs, hse⟩ := List.mem_filterMap.mp he
  exact List.mem_filterMap.mpr ⟨s, hs, dialCand_of_tlWarmEpParse hse⟩

lemma dialPairs_record (p : Peer) :
    dialPairs (tlWarmPeerTo (tlWarmPeerFrom p)).endpoints = keptPairs p.endpoints := by
  have hkept : ((tlWarmPeerFrom p).ep.map tlWarmEpStr).length ≤ tlMaxPeerEndpoints := by
    rw [List.length_map]
    exact (List.length_filterMap_le _ _).trans (List.length_take_le _ _)
  change List.filterMap _ (List.take _ (List.map tlWarmEpStr _)) = List.map epPair (tlWarmPeerFrom p).ep
  rw [List.take_of_length_le hkept, List.filterMap_map, List.filterMap_eq_map_iff_forall_eq_some]
  intro e he
  have hok : EpOk e := parse_of_mem_filterMap (fun _ _ => tlWarmEpParse_ok) e he
  exact dialCand_of_tlWarmEpParse (tlWarmEpParse_str hok)

/-- A warm start dials what a cold start would, whatever STUN found, exactly when the record keeps the
endpoints that decide. -/
theorem warm_dial_iff (p : Peer) :
    (∀ our, dialled (tlWarmPeerTo (tlWarmPeerFrom p)).endpoints our = dialled p.endpoints our) ↔
      SamePicks (dialPairs p.endpoints) (keptPairs p.endpoints) := by
  simp only [dialled_eq, dialPairs_record]
  constructor
  · exact fun h => samePicks_of_choosePair keptPairs_subset fun our => (h our).symm
  · exact fun h our => (choosePair_of_samePicks keptPairs_subset h our).symm

def loopbackPeer : Peer where
  id := 7
  nodePub := zeroKey
  discoPub := zeroKey
  hasDiscoPub := false
  homeDerp := 0
  endpoints := [tlWarmEpStr ⟨ipv4Of 127 0 0 1, 41641⟩, tlWarmEpStr ⟨ipv4Of 192 168 1 5, 41641⟩]
  addresses := [tlWarmCidrStr ⟨ipv4Of 100 64 0 2, 32⟩]

/-- The cold start dials the loopback address, which the record leaves out. -/
theorem loopback_endpoint_is_not_kept :
    tlWarmRecStorable (tlWarmRecBuild [tlWarmCidrStr ⟨ipv4Of 100 64 0 1, 32⟩] loopbackPeer zeroKey
      zeroKey) = true ∧ dialled loopbackPeer.endpoints none = some (ipv4Of 127 0 0 1, 41641) ∧
    dialled (tlWarmPeerTo (tlWarmPeerFrom loopbackPeer)).endpoints none =
      some (ipv4Of 192 168 1 5, 41641) := by
  decide +kernel

end TinyLink.Proofs
