import TinyLink.TransportLink
import TinyLink.Proofs.ReplayWindow

/-!
# Transport datagrams

Reading back the header fields, and the two single-owner entry points as case
distinctions.
-/

namespace TinyLink.Proofs
open ByteOrder

variable (ri : UInt32) (c : UInt64) (ct : Bytes)

lemma length_transportHeader : (transportHeader ri c).length = 16 := by
  simp [transportHeader, storeU32Le, storeU64Le]

lemma loadU64Le_storeU64Le (rest : Bytes) : loadU64Le (storeU64Le c ++ rest) = c := by
  have hlen : (storeU64Le c).length = 8 := length_leBytes 8 _
  unfold loadU64Le
  rw [List.take_append_of_le_length hlen.ge, List.take_of_length_le hlen.le, storeU64Le, leNat_leBytes]
  apply UInt64.toNat_inj.mp
  have := c.toNat_lt
  rw [UInt64.toNat_ofNat']
  omega

lemma loadU32Le_storeU32Le (v : UInt32) (rest : Bytes) : loadU32Le (storeU32Le v ++ rest) = v := by
  have hlen : (storeU32Le v).length = 4 := length_leBytes 4 _
  unfold loadU32Le
  rw [List.take_append_of_le_length hlen.ge, List.take_of_length_le hlen.le, storeU32Le, leNat_leBytes]
  apply UInt32.toNat_inj.mp
  have := v.toNat_lt
  rw [UInt32.toNat_ofNat']
  omega

lemma drop_four_transport :
    (transportHeader ri c ++ ct).drop 4 = storeU32Le ri ++ (storeU64Le c ++ ct) := by
  simp [transportHeader]

lemma drop_eight_transport : (transportHeader ri c ++ ct).drop 8 = storeU64Le c ++ ct := by
  have hlen : (storeU32Le ri).length = 4 := length_leBytes 4 _
  rw [← List.drop_drop (i := 4) (j := 4), drop_four_transport, List.drop_left' hlen]

lemma drop_header : (transportHeader ri c ++ ct).drop wgTransportHeaderLen = ct :=
  List.drop_left' (length_transportHeader ri c)

@[simp] lemma wireCounter_transport : wireCounter (transportHeader ri c ++ ct) = c := by
  rw [wireCounter, drop_eight_transport, loadU64Le_storeU64Le]

lemma counterToNonce_inj {c d : UInt64} (h : counterToNonce c = counterToNonce d) : c = d := by
  obtain ⟨hlo, hhi⟩ := List.append_inj h (by simp)
  obtain ⟨_, hlo⟩ := List.append_inj hlo (by simp)
  have h1 := leBytes_inj (UInt32.toNat_lt _) (UInt32.toNat_lt _) hlo
  have h2 := leBytes_inj (UInt32.toNat_lt _) (UInt32.toNat_lt _) hhi
  have hc := c.toNat_lt
  have hd := d.toNat_lt
  have hhigh : ∀ x : UInt64, (x >>> 32).toNat = x.toNat / 4294967296 := by
    intro x
    rw [UInt64.toNat_shiftRight]
    simp [Nat.shiftRight_eq_div_pow]
  apply UInt64.toNat_inj.mp
  simp only [UInt64.toNat_toUInt32, hhigh] at h1 h2
  omega

lemma wgTransportEncrypt_cases (aead : Aead) (s : WgTransportSession) (outSize : ObjSize)
    (m : Buf) :
    ((wgTransportEncrypt aead s outSize m).1 = none ∧ (wgTransportEncrypt aead s outSize m).2 = s) ∨
    (s.sendCounter ≠ wgCounterRejectAt ∧
      (wgTransportEncrypt aead s outSize m).1 = some (transportHeader s.remoteIndex s.sendCounter ++
        aead.encrypt s.sendKey (counterToNonce s.sendCounter) [] m.val) ∧
      (wgTransportEncrypt aead s outSize m).2 = { s with sendCounter := s.sendCounter + 1 }) := by
  unfold wgTransportEncrypt wgTransportTxReserve
  split_ifs with h1 h2 h3
  · exact .inl ⟨rfl, rfl⟩
  · exact .inl ⟨rfl, rfl⟩
  · exact .inl ⟨rfl, rfl⟩
  · refine .inr ⟨h3, ?_, rfl⟩
    simp only [wgTransportTxSeal]
    rw [if_pos (by omega)]

/-- The checks `wg_transport_decrypt` makes before it opens the text. -/
def Admits (s : WgTransportSession) (wire : Bytes) (outSize : ℕ) : Prop :=
  s.valid = true ∧ wgTransportOverhead ≤ wire.length ∧ wire.getD 0 0 = wgMsgTransport ∧
    wire.getD 1 0 = 0 ∧ wire.getD 2 0 = 0 ∧ wire.getD 3 0 = 0 ∧
    loadU32Le (wire.drop 4) = s.localIndex ∧ wgReplayCheck s.replay (wireCounter wire) = 0 ∧
    wire.length - wgTransportOverhead ≤ outSize

lemma wgTransportRxBegin_eq_some_iff (s : WgTransportSession) (wire : Bytes) (outSize : ℕ)
    (t : WgRxTicket) :
    wgTransportRxBegin s wire outSize = some t ↔ Admits s wire outSize ∧
      t = ⟨s.recvKey, wireCounter wire, s.gen, wire.length - wgTransportOverhead⟩ := by
  constructor
  · intro h
    simp only [wgTransportRxBegin] at h
    split_ifs at h with hv hl h0 hres hi hr hp
    cases h
    simp only [not_or, ne_eq, not_not] at hres h0 hi hr
    exact ⟨⟨by simpa using hv, by omega, h0, hres.1, hres.2.1, hres.2.2, hi, hr, by omega⟩, rfl⟩
  · rintro ⟨⟨hv, hl, h0, h1, h2, h3, hi, hr, hp⟩, rfl⟩
    rw [wireCounter] at hr
    simp only [wgTransportRxBegin, hv, h0, h1, h2, h3, hi, hr, Nat.not_lt.mpr hl, Nat.not_lt.mpr hp]
    simp [wireCounter]

lemma wgTransportRxCommit_begun {s : WgTransportSession} {wire : Bytes} {outSize : ℕ}
    (h : Admits s wire outSize) (key : Key) (plen : ℕ) :
    wgTransportRxCommit s ⟨key, wireCounter wire, s.gen, plen⟩ =
      (0, { s with replay := wgReplayUpdate s.replay (wireCounter wire) }) := by
  obtain ⟨hv, _, _, _, _, _, _, hr, _⟩ := h
  simp [wgTransportRxCommit, hv, hr]

lemma wgTransportDecrypt_cases (aead : Aead) (s : WgTransportSession) (wire : Bytes)
    (outSize : ℕ) :
    (∃ m, Admits s wire outSize ∧ aead.decrypt s.recvKey (counterToNonce (wireCounter wire)) []
        (wire.drop wgTransportHeaderLen) = some m ∧
      wgTransportDecrypt aead s wire outSize =
        (some (m, wire.length - wgTransportOverhead),
          { s with replay := wgReplayUpdate s.replay (wireCounter wire) })) ∨
    (¬(Admits s wire outSize ∧ (aead.decrypt s.recvKey (counterToNonce (wireCounter wire)) []
        (wire.drop wgTransportHeaderLen)).isSome) ∧
      wgTransportDecrypt aead s wire outSize = (none, s)) := by
  cases hb : wgTransportRxBegin s wire outSize with
  | none =>
    refine .inr ⟨fun h => ?_, by simp [wgTransportDecrypt, hb]⟩
    have := (wgTransportRxBegin_eq_some_iff s wire outSize _).mpr ⟨h.1, rfl⟩
    rw [hb] at this
    cases this
  | some t =>
    obtain ⟨hadm, rfl⟩ := (wgTransportRxBegin_eq_some_iff s wire outSize t).mp hb
    have hlen : wire.length = wire.length - wgTransportOverhead + wgTransportOverhead :=
      (Nat.sub_add_cancel hadm.2.1).symm
    cases ho : aead.decrypt s.recvKey (counterToNonce (wireCounter wire)) []
        (wire.drop wgTransportHeaderLen) with
    | none =>
      refine .inr ⟨by simp, ?_⟩
      simp only [wgTransportDecrypt, hb, wgTransportRxOpen, ho, if_pos hlen]
    | some m =>
      refine .inl ⟨m, hadm, rfl, ?_⟩
      simp only [wgTransportDecrypt, hb, wgTransportRxOpen, ho, if_pos hlen, WgRxTicket.wiped,
        wgTransportRxCommit_begun hadm]
      rfl

end TinyLink.Proofs
