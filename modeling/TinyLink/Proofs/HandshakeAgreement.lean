import TinyLink.WgHandshake
import TinyLink.WgResponder

/-!
# Agreement with a responder

A responder that follows the protocol derives the keys of the initiator, whatever came before.
-/

namespace TinyLink.Proofs
open StepSystem

variable {c h₁ h₂ priv : Key} {P : Primitives} {st : WgHandshakeState}

/-- What the handshake needs of the primitives: a commutative DH that is defined on honest
keys, and an AEAD that opens what it sealed. -/
structure Honest (P : Primitives) : Prop where
  dh_comm : ∀ a b, ∃ k, P.dh a (P.derivePub b) = some k ∧ P.dh b (P.derivePub a) = some k
  aead_correct : ∀ k nonce aad m, P.aead.decrypt k nonce aad (P.aead.encrypt k nonce aad m) = some m

lemma foldl_or_eq_zero (l : Bytes) (d : UInt8) :
    l.foldl (· ||| ·) d = 0 ↔ d = 0 ∧ ∀ x ∈ l, x = 0 := by
  induction l generalizing d with
  | nil => simp
  | cons y l ih => rw [List.foldl_cons, ih, UInt8.or_eq_zero_iff, List.forall_mem_cons, and_assoc]

lemma diffBytes_eq_zero_iff {a b : Bytes} (h : a.length = b.length) :
    diffBytes a b = 0 ↔ a = b := by
  unfold diffBytes
  rw [foldl_or_eq_zero]
  induction a generalizing b with
  | nil =>
    cases b with
    | nil => simp
    | cons => simp at h
  | cons x a ih =>
    cases b with
    | nil => simp at h
    | cons y b =>
      have hrec := ih (b := b) (by simpa using h)
      simp only [List.zipWith_cons_cons, List.forall_mem_cons, List.cons.injEq,
        UInt8.xor_eq_zero_iff, true_and] at hrec ⊢
      rw [hrec]

lemma diffBytes_key_eq_zero_iff (a b : Key) : diffBytes a.toList b.toList = 0 ↔ a = b := by
  rw [diffBytes_eq_zero_iff (by simp), Vector.toList_inj]

lemma identityCached_iff (st : WgHandshakeState) (priv pub peer : Key) (psk : Option Key) :
    identityCached st priv pub peer psk = true ↔ st.identityValid = true ∧
      st.localStaticPriv = priv ∧ st.localStaticPub = pub ∧ st.peerStaticPub = peer ∧
      st.presharedKey = psk.getD zeroKey := by
  unfold identityCached
  by_cases hv : st.identityValid = true
  · simp [hv, UInt8.or_eq_zero_iff, diffBytes_key_eq_zero_iff, and_assoc]
  · simp [hv]

/-- The cached derivations are those of the identity they are stored with. -/
def CacheOk (P : Primitives) (st : WgHandshakeState) : Prop :=
  st.identityValid = true → st.mac1Key = wgMac1Key P st.peerStaticPub ∧
    st.mac1KeySelf = wgMac1Key P st.localStaticPub ∧
    P.dh st.localStaticPriv st.peerStaticPub = some st.staticStaticDh

lemma cacheOk_init (h : CacheOk P st)
    (priv pub peer : Key) (psk : Option Key) : CacheOk P (wgHandshakeInit P st priv pub peer psk).2 := by
  unfold wgHandshakeInit
  split
  · exact h
  · split
    · intro hv
      cases hv
    · rename_i dh hdh
      intro _
      exact ⟨rfl, rfl, hdh⟩

lemma cacheOk_createInitiation (h : CacheOk P st)
    (localIndex : UInt32) (random : Key) (timestamp : Tai64n) :
    CacheOk P (wgHandshakeCreateInitiation P st localIndex random timestamp).2 := by
  unfold wgHandshakeCreateInitiation
  dsimp only
  split
  · exact h
  · exact h

lemma run_cacheOk (E : HandshakeRun P) : ∀ k, k ≤ E.length → CacheOk P (E.state k) := by
  refine E.invariant ?_ ?_
  · rintro st rfl hv
    cases hv
  · intro st a st' h hs
    cases a with
    | init priv pub peer psk => cases hs; exact cacheOk_init h priv pub peer psk
    | createInitiation li random ts => cases hs; exact cacheOk_createInitiation h li random ts
    | processResponse | scrubLive => cases hs; exact h
    | scrub =>
      cases hs
      intro hv
      cases hv

/-- After `wg_handshake_init` nothing is left of what the state held before. -/
lemma wgHandshakeInit_eq_zero (h : CacheOk P st) (priv pub peer : Key) (psk : Option Key) :
    wgHandshakeInit P st priv pub peer psk = wgHandshakeInit P .zero priv pub peer psk := by
  have hz : identityCached .zero priv pub peer psk = false := rfl
  by_cases hc : identityCached st priv pub peer psk = true
  · obtain ⟨hv, rfl, rfl, rfl, hpsk⟩ := (identityCached_iff st priv pub peer psk).mp hc
    obtain ⟨hm, hms, hdh⟩ := h hv
    simp only [wgHandshakeInit, hc, hz, hdh, if_true, Bool.false_eq_true, if_false]
    rw [← hm, ← hms, ← hpsk]
    cases st
    cases hv
    rfl
  · simp only [wgHandshakeInit, hc, hz, Bool.false_eq_true, if_false]

def freshIdentity (P : Primitives) (priv pub peer : Key) (psk : Option Key) (dh : Key) :
    WgHandshakeState :=
  { WgHandshakeState.zero with
    localStaticPriv := priv
    localStaticPub := pub
    peerStaticPub := peer
    presharedKey := psk.getD zeroKey
    mac1Key := wgMac1Key P peer
    mac1KeySelf := wgMac1Key P pub
    staticStaticDh := dh
    identityValid := true }

lemma wgHandshakeInit_zero {peer dh : Key} (h : P.dh priv peer = some dh)
    (pub : Key) (psk : Option Key) :
    wgHandshakeInit P .zero priv pub peer psk = (0, freshIdentity P priv pub peer psk dh) := by
  have hz : identityCached .zero priv pub peer psk = false := rfl
  simp only [wgHandshakeInit, hz, h, Bool.false_eq_true, if_false]
  rfl

lemma noiseHkdf1_eq (P : Primitives) (ck : Key) (x : Bytes) :
    noiseHkdf1 P ck x = kdf P ck x 1 := rfl

lemma noiseHkdf2_eq (P : Primitives) (ck : Key) (x : Bytes) :
    noiseHkdf2 P ck x = (kdf P ck x 1, kdf P ck x 2) := rfl

lemma noiseHkdf3_eq (P : Primitives) (ck : Key) (x : Bytes) :
    noiseHkdf3 P ck x = (kdf P ck x 1, kdf P ck x 2, kdf P ck x 3) := rfl

lemma zeroNonce_eq : zeroNonce = counterToNonce 0 := rfl

lemma keyOfBytes_toList (k : Key) : keyOfBytes k.toList = some k := by
  unfold keyOfBytes
  rw [dif_pos (by simp)]
  congr

/-- The chaining key and the hash once the initiator's ephemeral key is mixed in. -/
def chainWithEphemeral (P : Primitives) (ephemeral : Key) : Key :=
  kdf P (wgInitialChainKey P) ephemeral.toList 1

def hashWithEphemeral (P : Primitives) (responderStatic ephemeral : Key) : Key :=
  wgMixHash P (wgMixHash P (wgInitialHash P) responderStatic.toList) ephemeral.toList

/-- The initiation with its `mac1` still to be filled in. -/
def initiationBody (localIndex : UInt32) (ephemeral : Key) (encStatic encTimestamp : Bytes) :
    WgMsgInitiation :=
  { messageType := wgMsgInitiationType
    reserved := Vector.replicate 3 0
    senderIndex := localIndex
    ephemeral := ephemeral
    encryptedStatic := encStatic
    encryptedTimestamp := encTimestamp
    mac1 := List.replicate 16 0
    mac2 := List.replicate 16 0 }

def responseBody (index initiatorIndex : UInt32) (ephemeral : Key) (encNothing : Bytes) :
    WgMsgResponse :=
  { messageType := wgMsgResponseType
    reserved := Vector.replicate 3 0
    senderIndex := index
    receiverIndex := initiatorIndex
    ephemeral := ephemeral
    encryptedNothing := encNothing
    mac1 := List.replicate 16 0
    mac2 := List.replicate 16 0 }

section Messages

variable {P : Primitives}

lemma wgHandshakeCreateInitiation_eq {localIndex : UInt32} {random : Key}
    {timestamp : Tai64n} {e es k₁ k₂ h₃ : Key} {encStatic encTimestamp : Bytes}
    (he : (curve25519Keypair P random).1 = e) (hes : P.dh e st.peerStaticPub = some es)
    (hh₁ : hashWithEphemeral P st.peerStaticPub (P.derivePub e) = h₁)
    (hc : kdf P (chainWithEphemeral P (P.derivePub e)) es.toList 1 = c)
    (hk₁ : kdf P (chainWithEphemeral P (P.derivePub e)) es.toList 2 = k₁)
    (hS : P.aead.encrypt k₁ zeroNonce h₁.toList st.localStaticPub.toList = encStatic)
    (hh₂ : wgMixHash P h₁ encStatic = h₂) (hk₂ : kdf P c st.staticStaticDh.toList 2 = k₂)
    (hT : P.aead.encrypt k₂ zeroNonce h₂.toList timestamp.toList = encTimestamp)
    (hh₃ : wgMixHash P h₂ encTimestamp = h₃) :
    wgHandshakeCreateInitiation P st localIndex random timestamp =
      (some { initiationBody localIndex (P.derivePub e) encStatic encTimestamp with
          mac1 := wgKeyedMac16 P st.mac1Key
            (initiationBody localIndex (P.derivePub e) encStatic encTimestamp).macd },
        { st with
          chainKey := kdf P c st.staticStaticDh.toList 1
          hash := h₃
          ephemeralPriv := e
          ephemeralPub := P.derivePub e
          localIndex := localIndex
          armed := true }) := by
  have hkp : curve25519Keypair P random = (e, P.derivePub e) := by
    rw [← he]
    rfl
  subst hh₁ hc hk₁ hS hh₂ hk₂ hT hh₃
  simp only [wgHandshakeCreateInitiation, hkp, hes]
  rfl

lemma consumeInitiation_eq {staticPriv es ss k₁ k₂ static : Key} {msg : WgMsgInitiation}
    {timestamp : Bytes} (htype : msg.messageType = 1) (hres : msg.reserved = Vector.replicate 3 0)
    (hmac : msg.mac1 = mac1Of P (P.derivePub staticPriv) msg.macd)
    (hes : P.dh staticPriv msg.ephemeral = some es)
    (hh₁ : hashWithEphemeral P (P.derivePub staticPriv) msg.ephemeral = h₁)
    (hc : kdf P (chainWithEphemeral P msg.ephemeral) es.toList 1 = c)
    (hk₁ : kdf P (chainWithEphemeral P msg.ephemeral) es.toList 2 = k₁)
    (hS : P.aead.decrypt k₁ zeroNonce h₁.toList msg.encryptedStatic = some static.toList)
    (hss : P.dh staticPriv static = some ss)
    (hh₂ : wgMixHash P h₁ msg.encryptedStatic = h₂) (hk₂ : kdf P c ss.toList 2 = k₂)
    (hT : P.aead.decrypt k₂ zeroNonce h₂.toList msg.encryptedTimestamp = some timestamp) :
    consumeInitiation P staticPriv msg = some
      { initiatorStatic := static
        initiatorEphemeral := msg.ephemeral
        initiatorIndex := msg.senderIndex
        timestamp := timestamp
        chainKey := kdf P c ss.toList 1
        hash := wgMixHash P h₂ msg.encryptedTimestamp } := by
  subst hh₁ hc hk₁ hh₂ hk₂
  unfold hashWithEphemeral chainWithEphemeral wgInitialHash wgInitialChainKey wgMixHash at *
  rw [zeroNonce_eq] at hS hT
  simp [consumeInitiation, htype, hres, ← hmac, hes, hS, hss, hT, keyOfBytes_toList]

lemma initiation_consumed (hP : Honest P) (st : WgHandshakeState) {responderPriv : Key}
    (hpeer : st.peerStaticPub = P.derivePub responderPriv)
    (hpub : st.localStaticPub = P.derivePub priv)
    (hmac : st.mac1Key = wgMac1Key P (P.derivePub responderPriv))
    (hss : P.dh priv (P.derivePub responderPriv) = some st.staticStaticDh)
    (localIndex : UInt32) (random : Key) (timestamp : Tai64n) :
    ∃ msg e c h, wgHandshakeCreateInitiation P st localIndex random timestamp = (some msg,
        { st with
          chainKey := c
          hash := h
          ephemeralPriv := e
          ephemeralPub := P.derivePub e
          localIndex := localIndex
          armed := true }) ∧
      consumeInitiation P responderPriv msg =
        some ⟨P.derivePub priv, P.derivePub e, localIndex, timestamp.toList, c, h⟩ := by
  obtain ⟨e, he⟩ : ∃ e, (curve25519Keypair P random).1 = e := ⟨_, rfl⟩
  obtain ⟨es, hes, hes'⟩ := hP.dh_comm e responderPriv
  obtain ⟨ss, hss₁, hss'⟩ := hP.dh_comm priv responderPriv
  obtain rfl : st.staticStaticDh = ss := Option.some.inj (hss.symm.trans hss₁)
  obtain ⟨h₁, hh₁⟩ : ∃ h, hashWithEphemeral P (P.derivePub responderPriv) (P.derivePub e) = h :=
    ⟨_, rfl⟩
  obtain ⟨k₁, hk₁⟩ : ∃ k, kdf P (chainWithEphemeral P (P.derivePub e)) es.toList 2 = k := ⟨_, rfl⟩
  obtain ⟨c, hc⟩ : ∃ c, kdf P (chainWithEphemeral P (P.derivePub e)) es.toList 1 = c := ⟨_, rfl⟩
  obtain ⟨s, hs⟩ : ∃ s, P.aead.encrypt k₁ zeroNonce h₁.toList (P.derivePub priv).toList = s :=
    ⟨_, rfl⟩
  obtain ⟨h₂, hh₂⟩ : ∃ h, wgMixHash P h₁ s = h := ⟨_, rfl⟩
  obtain ⟨k₂, hk₂⟩ : ∃ k, kdf P c st.staticStaticDh.toList 2 = k := ⟨_, rfl⟩
  obtain ⟨t, ht⟩ : ∃ t, P.aead.encrypt k₂ zeroNonce h₂.toList timestamp.toList = t := ⟨_, rfl⟩
  have hS : P.aead.decrypt k₁ zeroNonce h₁.toList s = some (P.derivePub priv).toList := by
    rw [← hs]
    exact hP.aead_correct _ _ _ _
  have hT : P.aead.decrypt k₂ zeroNonce h₂.toList t = some timestamp.toList := by
    rw [← ht]
    exact hP.aead_correct _ _ _ _
  rw [← hpeer] at hes hh₁
  rw [← hpub] at hs
  refine ⟨_, e, _, _, wgHandshakeCreateInitiation_eq he hes hh₁ hc hk₁ hs hh₂ hk₂ ht rfl, ?_⟩
  rw [hpeer] at hh₁
  refine consumeInitiation_eq rfl rfl ?_ hes' hh₁ hc hk₁ hS hss' hh₂ hk₂ hT
  rw [hmac]
  rfl

lemma createResponse_eq {psk ephemeralPriv ee se c' k tau : Key} {index : UInt32}
    {i : Consumed} {encNothing : Bytes} (hee : P.dh ephemeralPriv i.initiatorEphemeral = some ee)
    (hse : P.dh ephemeralPriv i.initiatorStatic = some se)
    (hc : kdf P (kdf P (kdf P i.chainKey (P.derivePub ephemeralPriv).toList 1) ee.toList 1)
      se.toList 1 = c)
    (hk : kdf P c psk.toList 3 = k) (htau : kdf P c psk.toList 2 = tau)
    (hc' : kdf P c psk.toList 1 = c')
    (hh₁ : wgMixHash P i.hash (P.derivePub ephemeralPriv).toList = h₁)
    (hh₂ : wgMixHash P h₁ tau.toList = h₂)
    (hn : P.aead.encrypt k zeroNonce h₂.toList [] = encNothing) :
    createResponse P psk index ephemeralPriv i =
      some ({ responseBody index i.initiatorIndex (P.derivePub ephemeralPriv) encNothing with
          mac1 := mac1Of P i.initiatorStatic
            (responseBody index i.initiatorIndex (P.derivePub ephemeralPriv) encNothing).macd },
        kdf P c' [] 2, kdf P c' [] 1) := by
  subst hc hk htau hc' hh₁ hh₂ hn
  simp only [createResponse, hee, hse, bind, Option.bind]
  rfl

lemma wgHandshakeProcessResponse_eq {msg : WgMsgResponse}
    {ee se c' k tau : Key} {m : Bytes} (harmed : st.armed)
    (htype : msg.messageType = wgMsgResponseType) (hres : msg.reserved = Vector.replicate 3 0)
    (hidx : msg.receiverIndex = st.localIndex)
    (hmac : wgKeyedMac16 P st.mac1KeySelf msg.macd = msg.mac1)
    (hee : P.dh st.ephemeralPriv msg.ephemeral = some ee)
    (hse : P.dh st.localStaticPriv msg.ephemeral = some se)
    (hc : kdf P (kdf P (kdf P st.chainKey msg.ephemeral.toList 1) ee.toList 1) se.toList 1 = c)
    (hk : kdf P c st.presharedKey.toList 3 = k) (htau : kdf P c st.presharedKey.toList 2 = tau)
    (hc' : kdf P c st.presharedKey.toList 1 = c')
    (hh₁ : wgMixHash P st.hash msg.ephemeral.toList = h₁) (hh₂ : wgMixHash P h₁ tau.toList = h₂)
    (hn : P.aead.decrypt k zeroNonce h₂.toList msg.encryptedNothing = some m) :
    wgHandshakeProcessResponse P st msg = some (kdf P c' [] 1, kdf P c' [] 2, msg.senderIndex) := by
  have hdiff : diffBytes msg.mac1 msg.mac1 = 0 := (diffBytes_eq_zero_iff rfl).mpr rfl
  have hzero : msg.reservedBits = 0 := by
    rw [WgMsgResponse.reservedBits, hres]
    rfl
  subst hc hk htau hc' hh₁ hh₂
  simp only [wgHandshakeProcessResponse, harmed, htype, hzero, hidx, hmac, hdiff, hee, hse,
    wgMixChainOnly, noiseHkdf1_eq, noiseHkdf2_eq, noiseHkdf3_eq, hn, ne_eq, not_true_eq_false,
    if_false, Bool.not_true, Bool.false_eq_true]

lemma response_accepted (hP : Honest P) (st : WgHandshakeState)
    (hpriv : st.localStaticPriv = priv) (hmac : st.mac1KeySelf = wgMac1Key P (P.derivePub priv))
    (harmed : st.armed) (index : UInt32) (ephemeralPriv : Key) (timestamp : Bytes) :
    ∃ msg send recv, createResponse P st.presharedKey index ephemeralPriv
        ⟨P.derivePub priv, P.derivePub st.ephemeralPriv, st.localIndex, timestamp, st.chainKey,
          st.hash⟩ = some (msg, send, recv) ∧
      wgHandshakeProcessResponse P st msg = some (recv, send, index) := by
  obtain ⟨ee, hee, hee'⟩ := hP.dh_comm st.ephemeralPriv ephemeralPriv
  obtain ⟨se, hse, hse'⟩ := hP.dh_comm priv ephemeralPriv
  obtain ⟨c, hc⟩ : ∃ c, kdf P (kdf P (kdf P st.chainKey (P.derivePub ephemeralPriv).toList 1)
    ee.toList 1) se.toList 1 = c := ⟨_, rfl⟩
  obtain ⟨k, hk⟩ : ∃ k, kdf P c st.presharedKey.toList 3 = k := ⟨_, rfl⟩
  obtain ⟨h₂, hh₂⟩ : ∃ h, wgMixHash P (wgMixHash P st.hash (P.derivePub ephemeralPriv).toList)
    (kdf P c st.presharedKey.toList 2).toList = h := ⟨_, rfl⟩
  obtain ⟨n, hn⟩ : ∃ n, P.aead.encrypt k zeroNonce h₂.toList [] = n := ⟨_, rfl⟩
  have hopen : P.aead.decrypt k zeroNonce h₂.toList n = some [] := by
    rw [← hn]
    exact hP.aead_correct _ _ _ _
  refine ⟨_, _, _, createResponse_eq hee' hse' hc hk rfl rfl rfl hh₂ hn, ?_⟩
  refine wgHandshakeProcessResponse_eq harmed rfl rfl rfl ?_ hee ?_ hc hk rfl rfl rfl hh₂ hopen
  · rw [hmac]
    rfl
  · rw [hpriv]
    exact hse

end Messages

theorem handshake_agrees {P : Primitives} (hP : Honest P) (E : HandshakeRun P) (k : ℕ)
    (hk : k ≤ E.length) :
    (∀ priv pub peer psk localIndex random timestamp,
      wgHandshakeCreateInitiation P (wgHandshakeInit P (E.state k) priv pub peer psk).2 localIndex
          random timestamp =
        wgHandshakeCreateInitiation P (wgHandshakeInit P .zero priv pub peer psk).2 localIndex random
          timestamp) ∧
    ∀ (priv responderPriv : Key) (psk : Option Key) (localIndex responderIndex : UInt32)
      (random responderEphemeral : Key) (timestamp : Tai64n),
      ∃ st msg st' c resp send recv,
        wgHandshakeInit P (E.state k) priv (P.derivePub priv) (P.derivePub responderPriv) psk =
          (0, st) ∧
        wgHandshakeCreateInitiation P st localIndex random timestamp = (some msg, st') ∧
        consumeInitiation P responderPriv msg = some c ∧
        c.initiatorStatic = P.derivePub priv ∧ c.timestamp = timestamp.toList ∧
        createResponse P (psk.getD zeroKey) responderIndex responderEphemeral c =
          some (resp, send, recv) ∧
        wgHandshakeProcessResponse P st' resp = some (recv, send, responderIndex) := by
  have hcache := run_cacheOk E k hk
  refine ⟨?_, ?_⟩
  · intro priv pub peer psk localIndex random timestamp
    rw [wgHandshakeInit_eq_zero hcache]
  · intro priv responderPriv psk localIndex responderIndex random responderEphemeral timestamp
    obtain ⟨ss, hss, _⟩ := hP.dh_comm priv responderPriv
    have hinit := wgHandshakeInit_zero hss (P.derivePub priv) psk
    rw [← wgHandshakeInit_eq_zero hcache] at hinit
    obtain ⟨msg, e, c, h, hcreate, hconsume⟩ :=
      initiation_consumed hP (freshIdentity P priv (P.derivePub priv) (P.derivePub responderPriv)
        psk ss) rfl rfl rfl hss localIndex random timestamp
    obtain ⟨resp, send, recv, hresp, hproc⟩ :=
      response_accepted hP { freshIdentity P priv (P.derivePub priv) (P.derivePub responderPriv)
        psk ss with
          chainKey := c
          hash := h
          ephemeralPriv := e
          ephemeralPub := P.derivePub e
          localIndex := localIndex
          armed := true } rfl rfl rfl responderIndex responderEphemeral timestamp.toList
    exact ⟨_, msg, _, _, resp, send, recv, hinit, hcreate, hconsume, rfl, rfl, hresp, hproc⟩

def toyPrimitives : Primitives where
  derivePub k := k
  dh a b := some (Vector.zipWith (· ^^^ ·) a b)
  blake2s b := Vector.replicate 32 (b.foldl (· + ·) 0)
  mac16 k b := List.replicate 16 (b.foldl (· + ·) (k.toList.headD 0))
  aead := tagAead

lemma toyPrimitives_honest : Honest toyPrimitives where
  dh_comm a b := by
    refine ⟨_, rfl, ?_⟩
    simp only [toyPrimitives, Option.some.injEq]
    apply Vector.ext
    intro i hi
    simp [UInt8.xor_comm]
  aead_correct k nonce aad m := by simp [toyPrimitives, tagAead]

def twoPeers : HandshakeRun toyPrimitives :=
  runOf .zero rfl .scrub
    [.init (Vector.replicate 32 1) (Vector.replicate 32 1) (Vector.replicate 32 2) none,
      .createInitiation 7 (Vector.replicate 32 3) (Vector.replicate 12 4),
      .init (Vector.replicate 32 1) (Vector.replicate 32 1) (Vector.replicate 32 5) none] rfl

theorem twoPeers_agrees :
    Honest toyPrimitives ∧ ∃ st msg st' c resp send recv,
      wgHandshakeInit toyPrimitives (twoPeers.state 3) (Vector.replicate 32 1)
        (Vector.replicate 32 1) (Vector.replicate 32 5) none = (0, st) ∧
      wgHandshakeCreateInitiation toyPrimitives st 8 (Vector.replicate 32 6)
        (Vector.replicate 12 9) = (some msg, st') ∧
      consumeInitiation toyPrimitives (Vector.replicate 32 5) msg = some c ∧
      c.initiatorStatic = Vector.replicate 32 1 ∧
      c.timestamp = (Vector.replicate 12 9 : Tai64n).toList ∧
      createResponse toyPrimitives zeroKey 10 (Vector.replicate 32 11) c = some (resp, send, recv) ∧
      wgHandshakeProcessResponse toyPrimitives st' resp = some (recv, send, 10) :=
  ⟨toyPrimitives_honest, (handshake_agrees toyPrimitives_honest twoPeers 3 (le_refl 3)).2
    (Vector.replicate 32 1) (Vector.replicate 32 5) none 8 10 (Vector.replicate 32 6)
    (Vector.replicate 32 11) (Vector.replicate 12 9)⟩

end TinyLink.Proofs
