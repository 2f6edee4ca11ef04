import TinyLink.Proofs.TransportWire

/-!
# End to end: what is delivered was sent, once, and what is sent can be delivered

With a key for each direction, a text that opens was sealed by the other peer.
-/

namespace TinyLink.Proofs
open StepSystem SlidingWindow LinkRun

variable {m m' wire wire' : Bytes} {side side' : Side} {c : UInt64} {i j k n : ℕ}

lemma idealAead_decrypt_some {aead : Aead} {log : List SealRecord} {k : Key}
    {nonce aad c : Bytes} (h : (idealAead aead log).decrypt k nonce aad c = some m) :
    ∃ r ∈ log, r.key = k ∧ r.nonce = nonce ∧ r.ciphertext = c ∧ r.plaintext = m := by
  obtain ⟨r, hfind, hm⟩ := Option.map_eq_some_iff.mp h
  have hopens := List.find?_some hfind
  simp only [SealRecord.opens, decide_eq_true_eq] at hopens
  exact ⟨r, List.mem_of_find?_eq_some hfind, hopens.1, hopens.2.1, hopens.2.2.2, hm⟩

lemma idealAead_decrypt_isSome (aead : Aead) {log : List SealRecord} {r : SealRecord}
    (h : r ∈ log) :
    ((idealAead aead log).decrypt r.key r.nonce r.aad r.ciphertext).isSome = true := by
  simp only [idealAead, Option.isSome_map, List.find?_isSome]
  exact ⟨r, h, by simp [SealRecord.opens]⟩

section Run

variable {aead : Aead} {p : LinkSetup} {E : LinkRun aead p}

lemma sends_unique {c' : UInt64} (h : Sends E k side c m wire) (h' : Sends E k side' c' m' wire') :
    side = side' ∧ c = c' ∧ m = m' := by
  obtain ⟨_, o, b, ha, rfl, rfl, _⟩ := h
  obtain ⟨_, o', b', ha', rfl, rfl, _⟩ := h'
  rw [ha] at ha'
  cases ha'
  exact ⟨rfl, rfl, rfl⟩

lemma delivers_unique {n' : ℕ}
    (h : Delivers E k side wire m n) (h' : Delivers E k side' wire' m' n') :
    side = side' ∧ wire = wire' := by
  obtain ⟨_, o, ha, _⟩ := h
  obtain ⟨_, o', ha', _⟩ := h'
  rw [ha] at ha'
  cases ha'
  exact ⟨rfl, rfl⟩

lemma not_sends_of_delivers (h : Delivers E k side wire m n) : ¬Sends E k side' c m' wire' := by
  obtain ⟨_, o, ha, _⟩ := h
  rintro ⟨_, o', b, ha', _⟩
  rw [ha] at ha'
  cases ha'

lemma link_step (hk : k < E.length) :
    (∃ (side : Side) (m : Buf) (wire : Bytes), Sends E k side ((E.state k).session side).sendCounter
        m.val wire ∧
      ((E.state k).session side).sendCounter ≠ wgCounterRejectAt ∧
      (E.state (k + 1)).session = Function.update (E.state k).session side
        { (E.state k).session side with
          sendCounter := ((E.state k).session side).sendCounter + 1 } ∧
      (E.state (k + 1)).log = (E.state k).log ++ [sealedBy aead ((E.state k).session side) m]) ∨
    (∃ (side : Side) (wire m : Bytes) (n : ℕ), Delivers E k side wire m n ∧
      (E.state (k + 1)).session = Function.update (E.state k).session side
        { (E.state k).session side with
          replay := wgReplayUpdate ((E.state k).session side).replay (wireCounter wire) } ∧
      (E.state (k + 1)).log = (E.state k).log) ∨
    ((∀ side c m wire, ¬Sends E k side c m wire) ∧ (∀ side wire m n, ¬Delivers E k side wire m n) ∧
      E.state (k + 1) = E.state k) := by
  have hs := E.steps k hk
  cases ha : E.act k with
  | encrypt side outSize m =>
    simp only [ha, linkStep, Option.some.injEq] at hs
    rcases wgTransportEncrypt_cases (idealAead aead (E.state k).log) ((E.state k).session side)
      outSize m with ⟨hn, heq⟩ | ⟨hne, hsome, heq⟩
    · right; right
      refine ⟨?_, ?_, ?_⟩
      · rintro side' c m' wire ⟨_, o, b, ha', _, _, hw⟩
        rw [ha] at ha'
        cases ha'
        rw [hn] at hw
        cases hw
      · rintro side' wire m' n ⟨_, o, ha', _⟩
        rw [ha] at ha'
        cases ha'
      · rw [← hs, hn, heq, Function.update_eq_self]
        rfl
    · left
      refine ⟨side, m, _, ⟨hk, outSize, m, ha, rfl, rfl, hsome⟩, hne, ?_, ?_⟩
      · rw [← hs, heq]
      · rw [← hs, hsome]
        rfl
  | decrypt side wire outSize =>
    simp only [ha, linkStep, Option.some.injEq] at hs
    rcases wgTransportDecrypt_cases (idealAead aead (E.state k).log) ((E.state k).session side)
      wire outSize with ⟨m, _, _, heq⟩ | ⟨_, heq⟩
    · right; left
      refine ⟨side, wire, m, _, ⟨hk, outSize, ha, by rw [heq]⟩, ?_, ?_⟩
      · rw [← hs, heq]
      · rw [← hs, heq]
    · right; right
      refine ⟨?_, ?_, ?_⟩
      · rintro side' c m' wire' ⟨_, o, b, ha', _⟩
        rw [ha] at ha'
        cases ha'
      · rintro side' wire' m' n ⟨_, o, ha', hw⟩
        rw [ha] at ha'
        cases ha'
        rw [heq] at hw
        cases hw
      · rw [← hs, heq, Function.update_eq_self]

structure SameSetup (s b : WgTransportSession) : Prop where
  sendKey : s.sendKey = b.sendKey
  recvKey : s.recvKey = b.recvKey
  localIndex : s.localIndex = b.localIndex
  remoteIndex : s.remoteIndex = b.remoteIndex
  valid : s.valid = b.valid

lemma SameSetup.update {f : Side → WgTransportSession} {b : WgTransportSession}
    (h : SameSetup (f side) b) (side' : Side) {s : WgTransportSession} (hs : SameSetup s (f side')) :
    SameSetup (Function.update f side' s side) b := by
  by_cases hside : side = side'
  · subst hside
    rw [Function.update_self]
    exact ⟨hs.sendKey.trans h.sendKey, hs.recvKey.trans h.recvKey, hs.localIndex.trans h.localIndex,
      hs.remoteIndex.trans h.remoteIndex, hs.valid.trans h.valid⟩
  · rw [Function.update_of_ne hside]
    exact h

lemma session_static (side : Side) :
    ∀ k, k ≤ E.length → SameSetup ((E.state k).session side) (p.boot.session side) := by
  refine E.along ?_ fun k hk ih => ?_
  · rw [E.starts]
    exact ⟨rfl, rfl, rfl, rfl, rfl⟩
  · rcases link_step hk with ⟨side', m, wire, _, _, hses, _⟩ | ⟨side', wire, m, n, _, hses, _⟩ |
      ⟨_, _, hst⟩
    · rw [hses]
      exact ih.update side' ⟨rfl, rfl, rfl, rfl, rfl⟩
    · rw [hses]
      exact ih.update side' ⟨rfl, rfl, rfl, rfl, rfl⟩
    · rw [hst]
      exact ih

def sendRecord (aead : Aead) (p : LinkSetup) (side : Side) (c : UInt64) (m : Bytes) : SealRecord :=
  let key := (p.boot.session side).sendKey
  ⟨key, counterToNonce c, [], aead.encrypt key (counterToNonce c) [] m, m⟩

lemma sends_wire (h : Sends E i side c m wire) :
    wire = transportHeader (p.boot.session side).remoteIndex c ++
      (sendRecord aead p side c m).ciphertext := by
  obtain ⟨hi, o, b, _, rfl, rfl, hw⟩ := h
  have hst := session_static (E := E) side i hi.le
  rcases wgTransportEncrypt_cases (idealAead aead (E.state i).log) ((E.state i).session side) o b
    with ⟨hn, _⟩ | ⟨_, hsome, _⟩
  · rw [hn] at hw
    cases hw
  · rw [hsome, Option.some.injEq] at hw
    rw [← hw, hst.remoteIndex, hst.sendKey]
    rfl

lemma mem_log_iff :
    ∀ k, k ≤ E.length → ∀ r, r ∈ (E.state k).log ↔
      ∃ i side c m wire, i < k ∧ Sends E i side c m wire ∧ r = sendRecord aead p side c m := by
  refine E.along ?_ fun k hk ih r => ?_
  · intro r
    rw [E.starts]
    simp [LinkSetup.boot]
  · have hold : r ∈ (E.state k).log → ∃ i side c m wire, i < k + 1 ∧ Sends E i side c m wire ∧
        r = sendRecord aead p side c m := by
      intro hr
      obtain ⟨i, side, c, m, wire, hi, hrest⟩ := (ih r).mp hr
      exact ⟨i, side, c, m, wire, by omega, hrest⟩
    rcases link_step hk with ⟨side, b, wire, hsend, _, _, hlog⟩ | ⟨side, wire, m, n, hdel, _, hlog⟩ |
      ⟨hno, _, hst⟩
    · have hrec : sealedBy aead ((E.state k).session side) b =
          sendRecord aead p side ((E.state k).session side).sendCounter b.val := by
        rw [sealedBy, (session_static side k hk.le).sendKey]
        rfl
      rw [hlog, List.mem_append, List.mem_singleton, hrec]
      constructor
      · rintro (hr | hr)
        · exact hold hr
        · exact ⟨k, side, _, _, wire, by omega, hsend, hr⟩
      · rintro ⟨i, side', c, m, wire', hi, hs, hr⟩
        rcases Nat.lt_succ_iff_lt_or_eq.mp hi with hi | rfl
        · exact .inl ((ih r).mpr ⟨i, side', c, m, wire', hi, hs, hr⟩)
        · obtain ⟨rfl, rfl, rfl⟩ := sends_unique hsend hs
          exact .inr hr
    · rw [hlog]
      refine ⟨hold, ?_⟩
      rintro ⟨i, side', c, m', wire', hi, hs, hr⟩
      rcases Nat.lt_succ_iff_lt_or_eq.mp hi with hi | rfl
      · exact (ih r).mpr ⟨i, side', c, m', wire', hi, hs, hr⟩
      · exact absurd hs (not_sends_of_delivers hdel)
    · rw [hst]
      refine ⟨hold, ?_⟩
      rintro ⟨i, side', c, m', wire', hi, hs, hr⟩
      rcases Nat.lt_succ_iff_lt_or_eq.mp hi with hi | rfl
      · exact (ih r).mpr ⟨i, side', c, m', wire', hi, hs, hr⟩
      · exact absurd hs (hno _ _ _ _)

lemma link_sendCounter_step (hk : k < E.length) (side : Side) :
    ((E.state k).session side).sendCounter.toNat ≤
      ((E.state (k + 1)).session side).sendCounter.toNat ∧
    ((∃ c m wire, Sends E k side c m wire) →
      ((E.state k).session side).sendCounter.toNat <
        ((E.state (k + 1)).session side).sendCounter.toNat) := by
  rcases link_step hk with ⟨side', b, wire, hsend, hne, hses, _⟩ | ⟨side', wire, m, n, hdel, hses, _⟩ |
    ⟨hno, _, hst⟩
  · by_cases hside : side = side'
    · subst hside
      have hlt := ((E.state k).session side).sendCounter.toNat_lt
      have hmax : ((E.state k).session side).sendCounter.toNat ≠ wgCounterRejectAt.toNat :=
        fun heq => hne (UInt64.toNat_inj.mp heq)
      have hval : wgCounterRejectAt.toNat = 2 ^ 64 - 1 := rfl
      rw [hses, Function.update_self, UInt64.toNat_add]
      have hone : UInt64.toNat 1 = 1 := rfl
      rw [hone, Nat.mod_eq_of_lt (by omega)]
      exact ⟨by omega, fun _ => by omega⟩
    · rw [hses, Function.update_of_ne hside]
      refine ⟨le_refl _, ?_⟩
      rintro ⟨c, m, wire', hs⟩
      exact absurd (sends_unique hs hsend).1 hside
  · have hsame : ((E.state (k + 1)).session side).sendCounter = ((E.state k).session side).sendCounter := by
      rw [hses]
      by_cases hside : side = side'
      · rw [hside, Function.update_self]
      · rw [Function.update_of_ne hside]
    rw [hsame]
    refine ⟨le_refl _, ?_⟩
    rintro ⟨c, m', wire', hs⟩
    exact absurd hs (not_sends_of_delivers hdel)
  · rw [hst]
    refine ⟨le_refl _, ?_⟩
    rintro ⟨c, m, wire, hs⟩
    exact absurd hs (hno _ _ _ _)

lemma link_sendCounter_mono (side : Side) : ∀ j, i ≤ j → j ≤ E.length →
      ((E.state i).session side).sendCounter.toNat ≤ ((E.state j).session side).sendCounter.toNat := by
  intro j hij hj
  apply E.mono (fun σ => (σ.session side).sendCounter.toNat) hij
  intro k _ hkj
  exact (link_sendCounter_step (by omega) side).1

lemma sends_counter_lt {d : UInt64} (hij : i < j)
    (hi : Sends E i side c m wire) (hj : Sends E j side d m' wire') : c.toNat < d.toNat := by
  have hstep := (link_sendCounter_step hi.1 side).2 ⟨c, m, wire, hi⟩
  have hmono := link_sendCounter_mono (E := E) side j (show i + 1 ≤ j by omega) hj.1.le
  obtain ⟨_, _, _, _, _, rfl, _⟩ := hi
  obtain ⟨_, _, _, _, _, rfl, _⟩ := hj
  omega

lemma sends_inj (hi : Sends E i side c m wire) (hj : Sends E j side c m' wire') : i = j := by
  rcases Nat.lt_trichotomy i j with hlt | heq | hgt
  · exact absurd (sends_counter_lt hlt hi hj) (lt_irrefl _)
  · exact heq
  · exact absurd (sends_counter_lt hgt hj hi) (lt_irrefl _)

lemma delivers_admits (h : Delivers E j side wire m n) :
    ∃ outSize, Admits ((E.state j).session side) wire outSize ∧
      (idealAead aead (E.state j).log).decrypt ((E.state j).session side).recvKey
        (counterToNonce (wireCounter wire)) [] (wire.drop wgTransportHeaderLen) = some m ∧
      n = wire.length - wgTransportOverhead := by
  obtain ⟨_, outSize, _, hd⟩ := h
  rcases wgTransportDecrypt_cases (idealAead aead (E.state j).log) ((E.state j).session side)
    wire outSize with ⟨m', hadm, ho, heq⟩ | ⟨_, heq⟩
  · rw [heq] at hd
    cases hd
    exact ⟨outSize, hadm, ho, rfl⟩
  · rw [heq] at hd
    cases hd

lemma accepted_succ_of_delivers (h : Delivers E k side wire m n) :
    accepted E (k + 1) side = insert (wireCounter wire).toNat (accepted E k side) := by
  ext c
  rw [Set.mem_insert_iff]
  constructor
  · rintro ⟨i, wire', m', n', hi, hd, hc⟩
    rcases Nat.lt_succ_iff_lt_or_eq.mp hi with hi | rfl
    · exact .inr ⟨i, wire', m', n', hi, hd, hc⟩
    · rw [← hc, (delivers_unique hd h).2]
      exact .inl rfl
  · rintro (rfl | ⟨i, wire', m', n', hi, hd, hc⟩)
    · exact ⟨k, wire, m, n, by omega, h, rfl⟩
    · exact ⟨i, wire', m', n', by omega, hd, hc⟩

lemma accepted_succ_of_not (h : ∀ wire m n, ¬Delivers E k side wire m n) :
    accepted E (k + 1) side = accepted E k side := by
  ext c
  constructor
  · rintro ⟨i, wire, m, n, hi, hd, hc⟩
    rcases Nat.lt_succ_iff_lt_or_eq.mp hi with hi | rfl
    · exact ⟨i, wire, m, n, hi, hd, hc⟩
    · exact absurd hd (h _ _ _)
  · rintro ⟨i, wire, m, n, hi, hd, hc⟩
    exact ⟨i, wire, m, n, by omega, hd, hc⟩

lemma link_tracks (side : Side) :
    ∀ k, k ≤ E.length →
      Tracks wgReplayWindowBits (windowOf ((E.state k).session side).replay) (accepted E k side) := by
  refine E.along ?_ fun k hk ih => ?_
  · have hempty : accepted E 0 side = ∅ := by
      ext c
      simp [accepted]
    rw [hempty, E.starts]
    cases side with
    | left | right => exact tracks_zero
  · rcases link_step hk with ⟨side', b, wire, hsend, _, hses, _⟩ | ⟨side', wire, m, n, hdel, hses, _⟩ |
      ⟨_, hno, hst⟩
    · have hreplay : ((E.state (k + 1)).session side).replay = ((E.state k).session side).replay := by
        rw [hses]
        by_cases hside : side = side'
        · rw [hside, Function.update_self]
        · rw [Function.update_of_ne hside]
      rw [hreplay, accepted_succ_of_not fun wire' m n hd => not_sends_of_delivers hd hsend]
      exact ih
    · by_cases hside : side = side'
      · subst hside
        obtain ⟨outSize, ⟨_, _, _, _, _, _, _, hr, _⟩, _, _⟩ := delivers_admits hdel
        rw [accepted_succ_of_delivers hdel, hses, Function.update_self]
        exact (tracks_update ih hr).2
      · rw [hses, Function.update_of_ne hside,
          accepted_succ_of_not fun wire' m' n' hd => hside (delivers_unique hd hdel).1]
        exact ih
    · rw [hst, accepted_succ_of_not (hno side)]
      exact ih

lemma boot_recvKey (side : Side) :
    (p.boot.session side).recvKey = (p.boot.session side.other).sendKey := by
  cases side <;> rfl

lemma boot_localIndex (side : Side) :
    (p.boot.session side).localIndex = (p.boot.session side.other).remoteIndex := by
  cases side <;> rfl

section
variable (hkeys : p.leftKey ≠ p.rightKey)
include hkeys

lemma boot_sendKey_inj
    (h : (p.boot.session side).sendKey = (p.boot.session side').sendKey) : side = side' := by
  cases side <;> cases side'
  · rfl
  · exact absurd h hkeys
  · exact absurd h.symm hkeys
  · rfl

lemma opened_was_sent (hj : j ≤ E.length) {ct : Bytes}
    (h : (idealAead aead (E.state j).log).decrypt ((E.state j).session side).recvKey
      (counterToNonce c) [] ct = some m) :
    ∃ i wire, i < j ∧ Sends E i side.other c m wire ∧
      ct = (sendRecord aead p side.other c m).ciphertext := by
  obtain ⟨r, hr, hkey, hnonce, hct, hm⟩ := idealAead_decrypt_some h
  obtain ⟨i, side', c', m', wire, hij, hs, rfl⟩ := (mem_log_iff j hj r).mp hr
  rw [(session_static side j hj).recvKey, boot_recvKey] at hkey
  obtain rfl := boot_sendKey_inj hkeys hkey
  obtain rfl := counterToNonce_inj hnonce
  obtain rfl : m' = m := hm
  exact ⟨i, wire, hij, hs, hct.symm⟩

lemma delivered_was_sent (h : Delivers E j side wire m n) :
    n = m.length ∧ ∃ i w, i < j ∧ Sends E i side.other (wireCounter wire) m w := by
  obtain ⟨outSize, hadm, hopen, rfl⟩ := delivers_admits h
  obtain ⟨i, w, hij, hs, hct⟩ := opened_was_sent hkeys h.1.le hopen
  refine ⟨?_, i, w, hij, hs⟩
  have hlen := congrArg List.length hct
  have hover := hadm.2.1
  simp only [List.length_drop, sendRecord, aead.length_encrypt, wgTransportOverhead,
    wgTransportHeaderLen] at hlen hover ⊢
  omega

end

lemma delivered_once {j' : ℕ} {n' : ℕ}
    (h : Delivers E j side wire m n) (h' : Delivers E j' side wire' m' n')
    (hc : wireCounter wire = wireCounter wire') : j = j' := by
  have key : ∀ {i k : ℕ} {w w' x x' : Bytes} {l l' : ℕ}, i < k → Delivers E i side w x l →
      Delivers E k side w' x' l' → wireCounter w ≠ wireCounter w' := by
    intro i k w w' x x' l l' hik hi hk heq
    obtain ⟨outSize, ⟨_, _, _, _, _, _, _, hr, _⟩, _, _⟩ := delivers_admits hk
    refine (tracks_update (link_tracks side k hk.1.le) hr).1 ⟨i, w, x, l, hik, hi, ?_⟩
    rw [heq]
  rcases Nat.lt_trichotomy j j' with hlt | heq | hgt
  · exact absurd hc (key hlt h h')
  · exact heq
  · exact absurd hc.symm (key hgt h' h)

lemma sent_is_admitted {outSize : ℕ}
    (hj : j ≤ E.length) (hs : Sends E i side.other c m wire) (hc : c.toNat < 2 ^ 63)
    (hroom : m.length ≤ outSize) (hnew : c.toNat ∉ accepted E j side)
    (hwin : ∀ d ∈ accepted E j side, d < c.toNat + wgReplayWindowBits) :
    Admits ((E.state j).session side) wire outSize := by
  have hst := session_static (E := E) side j hj
  have hw := sends_wire hs
  have hlen : wire.length = 16 + (m.length + 16) := by
    rw [hw, List.length_append, length_transportHeader]
    simp only [sendRecord, aead.length_encrypt, wgTagLen]
  have htr := link_tracks (E := E) side j hj
  have hfresh := (htr.fresh_iff (by norm_num) c.toNat).mpr
    ⟨hnew, htr.highest_lt (by norm_num) hwin⟩
  have hcheck := wgReplayCheck_complete (by omega) hfresh
  have hvalid : (p.boot.session side).valid = true := by cases side <;> rfl
  refine ⟨hst.valid.trans hvalid, ?_, ?_, ?_, ?_, ?_, ?_, ?_, ?_⟩
  · simp only [hlen, wgTransportOverhead, wgTransportHeaderLen, wgTagLen]
    omega
  · rw [hw]; rfl
  · rw [hw]; rfl
  · rw [hw]; rfl
  · rw [hw]; rfl
  · rw [hw, drop_four_transport, loadU32Le_storeU32Le, hst.localIndex, boot_localIndex]
  · rw [hw, wireCounter_transport]
    exact hcheck
  · simp only [hlen, wgTransportOverhead, wgTransportHeaderLen, wgTagLen]
    omega

lemma sent_is_delivered (hkeys : p.leftKey ≠ p.rightKey) {outSize : ℕ} (hij : i < j)
    (hj : j < E.length)
    (hs : Sends E i side.other c m wire) (hact : E.act j = .decrypt side wire outSize)
    (hadm : Admits ((E.state j).session side) wire outSize) :
    Delivers E j side wire m m.length := by
  have hmem : sendRecord aead p side.other c m ∈ (E.state j).log :=
    (mem_log_iff j hj.le _).mpr ⟨i, side.other, c, m, wire, hij, hs, rfl⟩
  have hcnt : wireCounter wire = c := by rw [sends_wire hs, wireCounter_transport]
  have hct : wire.drop wgTransportHeaderLen = (sendRecord aead p side.other c m).ciphertext := by
    rw [sends_wire hs, drop_header]
  have hkey : ((E.state j).session side).recvKey = (sendRecord aead p side.other c m).key := by
    rw [(session_static side j hj.le).recvKey, boot_recvKey]
    rfl
  have hopens := idealAead_decrypt_isSome aead hmem
  rcases wgTransportDecrypt_cases (idealAead aead (E.state j).log) ((E.state j).session side)
    wire outSize with ⟨m', _, hopen, heq⟩ | ⟨hnot, _⟩
  · have hdel : Delivers E j side wire m' (wire.length - wgTransportOverhead) :=
      ⟨hj, outSize, hact, by rw [heq]⟩
    obtain ⟨hn, i', w, _, hs'⟩ := delivered_was_sent hkeys hdel
    rw [hcnt] at hs'
    obtain rfl := sends_inj hs hs'
    obtain ⟨_, _, rfl⟩ := sends_unique hs hs'
    rwa [hn] at hdel
  · rw [hcnt, hct, hkey] at hnot
    exact absurd ⟨hadm, hopens⟩ hnot

end Run

theorem link_delivers_exactly_what_was_sent {aead : Aead} {p : LinkSetup} (E : LinkRun aead p)
    (hkeys : p.leftKey ≠ p.rightKey)
    (hcounters : ∀ i side c m wire, Sends E i side c m wire → c.toNat < 2 ^ 63) :
    (∀ j side wire m n, Delivers E j side wire m n →
      n = m.length ∧ ∃ i w, i < j ∧ Sends E i side.other (wireCounter wire) m w) ∧
    (∀ i i' side c m m' w w', Sends E i side c m w → Sends E i' side c m' w' → i = i') ∧
    (∀ j j' side wire wire' m m' n n', Delivers E j side wire m n → Delivers E j' side wire' m' n' →
      wireCounter wire = wireCounter wire' → j = j') ∧
    (∀ i j side c m wire outSize, i < j → j < E.length → Sends E i side.other c m wire →
      E.act j = .decrypt side wire outSize → m.length ≤ outSize →
      ((∀ d ∈ accepted E j side, d < c.toNat) ∨
        (c.toNat ∉ accepted E j side ∧
          ∀ d ∈ accepted E j side, d < c.toNat + wgReplayWindowBits)) →
      Delivers E j side wire m m.length) := by
  refine ⟨fun j side wire m n => delivered_was_sent hkeys,
    fun i i' side c m m' w w' => sends_inj,
    fun j j' side wire wire' m m' n n' => delivered_once, ?_⟩
  intro i j side c m wire outSize hij hj hs hact hroom hcase
  have hrecent : c.toNat ∉ accepted E j side ∧
      ∀ d ∈ accepted E j side, d < c.toNat + wgReplayWindowBits := by
    rcases hcase with habove | hwithin
    · exact ⟨fun hmem => lt_irrefl _ (habove _ hmem),
        fun d hd => Nat.lt_add_right _ (habove d hd)⟩
    · exact hwithin
  exact sent_is_delivered hkeys hij hj hs hact
    (sent_is_admitted hj.le hs (hcounters _ _ _ _ _ hs) hroom hrecent.1 hrecent.2)

def linkSetup (leftKey rightKey : Key) : LinkSetup := ⟨1, 2, 5, 9, leftKey, rightKey⟩

def oneDatagram (rightKey : Key) (side : Side) (index : UInt32) :
    LinkRun tagAead (linkSetup zeroKey rightKey) :=
  runOf _ rfl (.decrypt .left [] 0)
    [.encrypt .left 64 ⟨[7], by decide⟩,
      .decrypt side (transportHeader index 0 ++ tagAead.encrypt zeroKey [] [] [7]) 1] rfl

lemma oneDatagram_sends {rightKey : Key} {index : UInt32}
    (h : Sends (oneDatagram rightKey side index) i side' c m wire) :
    side' = .left ∧ c.toNat < 2 ^ 63 := by
  obtain ⟨hi, o, b, ha, _, rfl, _⟩ := h
  change i < 2 at hi
  interval_cases i
  · cases ha
    have hzero : (0 : UInt64).toNat < 2 ^ 63 := by decide
    exact ⟨rfl, hzero⟩
  · cases ha

/-- With one key for both directions a datagram can be reflected to its sender. -/
theorem reflected_datagram_is_delivered :
    let E := oneDatagram zeroKey .left 5
    (∀ i side c m wire, Sends E i side c m wire → c.toNat < 2 ^ 63) ∧
    (∃ wire, Delivers E 1 .left wire [7] 1) ∧ ∀ i c m w, ¬Sends E i Side.left.other c m w := by
  refine ⟨fun i side c m wire h => (oneDatagram_sends h).2, ⟨_, by decide, 1, rfl, ?_⟩, ?_⟩
  · decide +kernel
  · intro i c m w h
    exact absurd (oneDatagram_sends h).1 (by decide)

theorem sample_datagram_is_delivered :
    let key : Key := Vector.replicate 32 1
    let E := oneDatagram key .right 9
    zeroKey ≠ key ∧ ∃ wire, Sends E 0 .left 0 [7] wire ∧ Delivers E 1 .right wire [7] 1 := by
  have hkeys : zeroKey ≠ Vector.replicate 32 1 := by decide +kernel
  have hs : Sends (oneDatagram (Vector.replicate 32 1) .right 9) 0 .left 0 [7]
      (transportHeader 9 0 ++ tagAead.encrypt zeroKey [] [] [7]) :=
    ⟨by decide, 64, ⟨[7], by decide⟩, rfl, rfl, rfl, by decide +kernel⟩
  refine ⟨hkeys, _, hs, ?_⟩
  refine (link_delivers_exactly_what_was_sent _ hkeys
    (fun i side c m wire h => (oneDatagram_sends h).2)).2.2.2 0 1 .right 0 [7] _ 1 (by decide)
    (by decide) hs rfl (by decide) (.inl ?_)
  rintro d ⟨i, wire, m, n, hi, ⟨_, o, ha, _⟩, _⟩
  interval_cases i
  cases ha

end TinyLink.Proofs
