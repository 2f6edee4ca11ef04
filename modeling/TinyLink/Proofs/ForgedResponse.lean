import TinyLink.HandshakeSystem
import TinyLink.Proofs.HandshakeAgreement

/-!
# Forged responses

A response is accepted only if it opens under the chain of the INIT in flight, and one that is
rejected changes nothing, so that the genuine one is still accepted after it.
-/

namespace TinyLink.Proofs
open StepSystem

variable {random : Key} {ts : Tai64n} {li : UInt32} {id : WgIdentity} {init : WgMsgInitiation}
  {j k : ℕ}

section Response
variable {P : Primitives} {c : ResponseCall} {msg : WgMsgResponse}

lemma run_get_bind (f : ResponseCall → ResponseM Unit) (c : ResponseCall) :
    (get >>= f : ResponseM Unit).run.run c = (f c).run.run c := rfl

lemma run_guard_bind (p : Prop) [Decidable p] (f : Unit → ResponseM Unit) (c : ResponseCall) :
    (guard p >>= f : ResponseM Unit).run.run c =
      if p then (f ()).run.run c else (none, c) := by
  by_cases h : p
  · rw [if_pos h, guard, if_pos h]
    rfl
  · rw [if_neg h, guard, if_neg h]
    rfl

lemma processResponseCall_eq (P : Primitives) (c : ResponseCall) (msg : WgMsgResponse) :
    wgHandshakeProcessResponseCall P c msg =
      match wgHandshakeProcessResponse P c.st msg with
      | none => (-1, { c with sendKey := zeroKey, recvKey := zeroKey })
      | some (sendKey, recvKey, index) => (0, ⟨c.st, sendKey, recvKey, index⟩) := by
  simp only [wgHandshakeProcessResponseCall, wgHandshakeProcessResponseBody,
    wgHandshakeProcessResponse, run_get_bind, run_guard_bind, ne_eq, ite_not, Bool.not_eq_true']
  by_cases harmed : c.st.armed = true
  swap
  · simp [harmed]
  by_cases htype : msg.messageType = wgMsgResponseType
  swap
  · simp [harmed, htype]
  by_cases hres : msg.reservedBits = 0
  swap
  · simp only [harmed, htype, hres, if_true, if_false, Bool.true_eq_false]
  by_cases hidx : msg.receiverIndex = c.st.localIndex
  swap
  · simp only [harmed, htype, hres, hidx, if_true, if_false, Bool.true_eq_false]
  by_cases hmac : diffBytes (wgKeyedMac16 P c.st.mac1KeySelf msg.macd) msg.mac1 = 0
  swap
  · simp only [harmed, htype, hres, hidx, hmac, if_true, if_false, Bool.true_eq_false]
  simp only [harmed, htype, hres, hidx, hmac, if_true, if_false, Bool.true_eq_false]
  cases hee : P.dh c.st.ephemeralPriv msg.ephemeral with
  | none => rfl
  | some =>
    cases hse : P.dh c.st.localStaticPriv msg.ephemeral with
    | none => rfl
    | some =>
      dsimp only
      cases hopen : P.aead.decrypt _ zeroNonce _ msg.encryptedNothing with
      | none | some => rfl

/-- The chaining key and the hash of the initiation that `id` sends with the ephemeral key `e`. -/
def initChain (P : Primitives) (id : WgIdentity) (e : Key) : Option Key := do
  let es ← P.dh e id.peerStaticPub
  let ss ← P.dh id.localStaticPriv id.peerStaticPub
  return kdf P (kdf P (chainWithEphemeral P (P.derivePub e)) es.toList 1) ss.toList 1

def initHash (P : Primitives) (id : WgIdentity) (init : WgMsgInitiation) : Key :=
  wgMixHash P (wgMixHash P (hashWithEphemeral P id.peerStaticPub init.ephemeral)
    init.encryptedStatic) init.encryptedTimestamp

def responseChain (P : Primitives) (ck ephemeral ee se : Key) : Key :=
  kdf P (kdf P (kdf P ck ephemeral.toList 1) ee.toList 1) se.toList 1

/-- The tag of the response verifies under the chain `ck` and the hash `h` of an initiation with
the ephemeral key `e`. -/
def TagVerifies (P : Primitives) (priv psk e ck h : Key) (msg : WgMsgResponse) : Prop :=
  ∃ ee se c, P.dh e msg.ephemeral = some ee ∧ P.dh priv msg.ephemeral = some se ∧
    responseChain P ck msg.ephemeral ee se = c ∧
    ∃ m, P.aead.decrypt (kdf P c psk.toList 3) (counterToNonce 0)
      (wgMixHash P (wgMixHash P h msg.ephemeral.toList) (kdf P c psk.toList 2).toList).toList
      msg.encryptedNothing = some m

lemma processResponse_accepted {st : WgHandshakeState} {r : Key × Key × UInt32}
    (h : wgHandshakeProcessResponse P st msg = some r) :
    st.armed = true ∧ msg.receiverIndex = st.localIndex ∧
      TagVerifies P st.localStaticPriv st.presharedKey st.ephemeralPriv st.chainKey st.hash msg := by
  simp only [wgHandshakeProcessResponse, ne_eq, ite_not, Bool.not_eq_true'] at h
  split at h
  · cases h
  next harmed =>
  split at h
  swap
  · cases h
  split at h
  swap
  · cases h
  split at h
  swap
  · cases h
  next hidx =>
  split at h
  swap
  · cases h
  split at h
  · cases h
  next ee hee =>
  split at h
  · cases h
  next se hse =>
  split at h
  · cases h
  next m hm =>
  exact ⟨Bool.not_eq_false _ ▸ harmed, hidx, ee, se, _, hee, hse, rfl, m, hm⟩

end Response

section Attempt
variable {P : Primitives} {st : WgHandshakeState}

/-- The state in which `init`, sent by `id` under `localIndex`, waits for its response. -/
structure InFlight (P : Primitives) (id : WgIdentity) (localIndex : UInt32) (e : Key)
    (init : WgMsgInitiation) (st : WgHandshakeState) : Prop where
  priv : st.localStaticPriv = id.localStaticPriv
  psk : st.presharedKey = id.presharedKey.getD zeroKey
  ephemeral : st.ephemeralPriv = e
  chain : initChain P id e = some st.chainKey
  hash : st.hash = initHash P id init
  index : st.localIndex = localIndex

lemma createInitiation_of_dh_none {localIndex : UInt32} {timestamp : Tai64n}
    (h : P.dh (curve25519Keypair P random).1 st.peerStaticPub = none) :
    (wgHandshakeCreateInitiation P st localIndex random timestamp).1 = none ∧
      (wgHandshakeCreateInitiation P st localIndex random timestamp).2.armed = st.armed := by
  simp only [wgHandshakeCreateInitiation, h, and_self]

lemma wgHandshakeInit_of_dh_none {priv peer : Key} (h : P.dh priv peer = none) (pub : Key)
    (psk : Option Key) : wgHandshakeInit P .zero priv pub peer psk = (-1, .zero) := by
  have hz : identityCached .zero priv pub peer psk = false := rfl
  simp only [wgHandshakeInit, hz, h, Bool.false_eq_true, if_false]

lemma handshakeAttempt_cases (hcache : CacheOk P st) (id : WgIdentity) (localIndex : UInt32)
    (random : Key) (timestamp : Tai64n) :
    ((handshakeAttempt P st id localIndex random timestamp).1 = none ∧
        (handshakeAttempt P st id localIndex random timestamp).2.armed = false) ∨
      ∃ init, (handshakeAttempt P st id localIndex random timestamp).1 = some init ∧
        InFlight P id localIndex (curve25519Keypair P random).1 init
          (handshakeAttempt P st id localIndex random timestamp).2 := by
  unfold handshakeAttempt
  rw [wgHandshakeInit_eq_zero hcache]
  cases hss : P.dh id.localStaticPriv id.peerStaticPub with
  | none =>
    left
    rw [wgHandshakeInit_of_dh_none hss]
    exact ⟨rfl, rfl⟩
  | some ss =>
    rw [wgHandshakeInit_zero hss]
    simp only [ne_eq, not_true_eq_false, if_false]
    cases hes : P.dh (curve25519Keypair P random).1 id.peerStaticPub with
    | none => exact .inl (createInitiation_of_dh_none hes)
    | some =>
      have hcreate : wgHandshakeCreateInitiation P (freshIdentity P id.localStaticPriv
          id.localStaticPub id.peerStaticPub id.presharedKey ss) localIndex random timestamp = _ :=
        wgHandshakeCreateInitiation_eq rfl hes rfl rfl rfl rfl rfl rfl rfl rfl
      rw [hcreate]
      refine .inr ⟨_, rfl, rfl, rfl, rfl, ?_, rfl, rfl⟩
      simp only [initChain, hes, hss]
      rfl

lemma cacheOk_attempt (h : CacheOk P st) (id : WgIdentity) (localIndex : UInt32) (random : Key)
    (timestamp : Tai64n) : CacheOk P (handshakeAttempt P st id localIndex random timestamp).2 := by
  have hinit := cacheOk_init h id.localStaticPriv id.localStaticPub id.peerStaticPub id.presharedKey
  unfold handshakeAttempt
  dsimp only
  split
  · exact hinit
  · exact cacheOk_createInitiation hinit localIndex random timestamp

end Attempt

section Run
variable {P : Primitives} {E : AttemptRun P}

lemma processResponseCall_cases (P : Primitives) (c : ResponseCall) (msg : WgMsgResponse) :
    (wgHandshakeProcessResponse P c.st msg = none ∧ wgHandshakeProcessResponseCall P c msg =
        (-1, { c with sendKey := zeroKey, recvKey := zeroKey })) ∨
      ∃ r, wgHandshakeProcessResponse P c.st msg = some r ∧
        wgHandshakeProcessResponseCall P c msg = (0, ⟨c.st, r.1, r.2.1, r.2.2⟩) := by
  rw [processResponseCall_eq]
  cases wgHandshakeProcessResponse P c.st msg with
  | none => exact .inl ⟨rfl, rfl⟩
  | some r => exact .inr ⟨r, rfl, rfl⟩

lemma attempt_run_cacheOk (E : AttemptRun P) : ∀ k, k ≤ E.length → CacheOk P (E.state k) := by
  refine E.invariant ?_ ?_
  · rintro st rfl hv
    cases hv
  · intro st a st' h hs
    cases a with
    | attempt id localIndex random timestamp =>
      cases hs
      exact cacheOk_attempt h id localIndex random timestamp
    | response msg sendKey recvKey out =>
      rw [handshakeCall] at hs
      cases hs
      rcases processResponseCall_cases P ⟨st, sendKey, recvKey, out⟩ msg with
        ⟨_, hr⟩ | ⟨r, _, hr⟩
      · rw [hr]
        exact h
      · rw [hr]
        exact h
    | scrub =>
      cases hs
      intro hv
      cases hv

lemma awaits_extend (h : E.Awaits j k id li random ts init)
    (hk : E.ResponseAt k (-1)) : E.Awaits j (k + 1) id li random ts init := by
  obtain ⟨hj, hact, hinit, hbetween⟩ := h
  refine ⟨by omega, hact, hinit, ?_⟩
  intro i hji hik
  rcases Nat.lt_succ_iff_lt_or_eq.mp hik with hlt | rfl
  · exact hbetween i hji hlt
  · exact hk

lemma armed_awaits (E : AttemptRun P) : ∀ k, k ≤ E.length → (E.state k).armed = true →
    ∃ j id li random ts init, E.Awaits j k id li random ts init ∧
      InFlight P id li (curve25519Keypair P random).1 init (E.state k) := by
  refine E.along ?_ ?_
  · intro harmed
    rw [E.starts] at harmed
    cases harmed
  · intro k hk ih harmed
    have hstep := E.steps k hk
    cases hact : E.act k with
    | attempt id li random ts =>
      rw [hact] at hstep
      have hst := Option.some.inj hstep
      rcases handshakeAttempt_cases (attempt_run_cacheOk E k hk.le) id li random ts with
        ⟨_, hoff⟩ | ⟨init, hinit, hfl⟩
      · rw [← hst, hoff] at harmed
        cases harmed
      · refine ⟨k, id, li, random, ts, init, ⟨k.lt_succ_self, hact, hinit, ?_⟩, hst ▸ hfl⟩
        intro i hki hik
        omega
    | response msg sendKey recvKey out =>
      rw [hact] at hstep
      have hst := Option.some.inj hstep
      rcases processResponseCall_cases P ⟨E.state k, sendKey, recvKey, out⟩ msg with
        ⟨_, hr⟩ | ⟨r, _, hr⟩
      · have hsame : E.state k = E.state (k + 1) := by simpa [hr] using hst
        rw [← hsame] at harmed ⊢
        obtain ⟨j, id, li, random, ts, init, haw, hfl⟩ := ih harmed
        exact ⟨j, id, li, random, ts, init,
          awaits_extend haw ⟨msg, sendKey, recvKey, out, hact, by rw [hr]⟩, hfl⟩
      · have hscrub : wgHandshakeScrubLive (E.state k) = E.state (k + 1) := by
          simpa [hr] using hst
        rw [← hscrub] at harmed
        cases harmed
    | scrub =>
      rw [hact] at hstep
      rw [← Option.some.inj hstep] at harmed
      cases harmed

lemma responseAt_unique {i : ℕ} {a b : Int} (ha : E.ResponseAt i a)
    (hb : E.ResponseAt i b) : a = b := by
  obtain ⟨msg, sendKey, recvKey, out, hact, hrc⟩ := ha
  obtain ⟨msg', sendKey', recvKey', out', hact', hrc'⟩ := hb
  obtain ⟨rfl, rfl, rfl, rfl⟩ := HandshakeCall.response.inj (hact.symm.trans hact')
  exact hrc.symm.trans hrc'

lemma not_awaits_of_idle (hidle : E.Idle k) :
    ¬ E.Awaits j k id li random ts init := by
  rintro ⟨hjk, hact, hinit, hbetween⟩
  rcases hidle with hnone | ⟨i, hik, hend, hnone⟩
  · exact hnone j hjk ⟨id, li, random, ts, hact⟩
  · have hji : j ≤ i := by
      by_contra hlt
      exact hnone j (by omega) hjk ⟨id, li, random, ts, hact⟩
    rcases hji.lt_or_eq with hlt | rfl
    · obtain ⟨msg, sendKey, recvKey, out, hresp, hrc⟩ := hbetween i hlt hik
      rcases hend with ⟨id', li', random', ts', hatt, _⟩ | hacc | hscrub
      · cases hresp.symm.trans hatt
      · cases responseAt_unique hacc (hbetween i hlt hik)
      · cases hresp.symm.trans hscrub
    · rcases hend with ⟨id', li', random', ts', hatt, hfail⟩ | ⟨msg, s, r, out, hresp, _⟩ | hscrub
      · obtain ⟨rfl, rfl, rfl, rfl⟩ := HandshakeCall.attempt.inj (hact.symm.trans hatt)
        cases hfail.symm.trans hinit
      · cases hact.symm.trans hresp
      · cases hact.symm.trans hscrub

lemma state_of_rejected (E : AttemptRun P) (hk : k < E.length)
    (h : E.ResponseAt k (-1)) : E.state (k + 1) = E.state k := by
  obtain ⟨msg, sendKey, recvKey, out, hact, hrc⟩ := h
  have hstep := E.steps k hk
  rw [hact] at hstep
  have hst := Option.some.inj hstep
  rcases processResponseCall_cases P ⟨E.state k, sendKey, recvKey, out⟩ msg with
    ⟨_, hr⟩ | ⟨r, _, hr⟩
  · rw [← hst, hr]
    rfl
  · rw [hr] at hrc
    cases hrc

lemma awaits_state (E : AttemptRun P) : ∀ k, k ≤ E.length → E.Awaits j k id li random ts init →
      E.state k = (handshakeAttempt P (E.state j) id li random ts).2 := by
  intro k
  induction k with
  | zero => exact fun _ h => absurd h.1 j.not_lt_zero
  | succ k ih =>
    rintro hk ⟨hjk, hact, hinit, hbetween⟩
    rcases (Nat.le_of_lt_succ hjk).lt_or_eq with hlt | rfl
    · rw [state_of_rejected E hk (hbetween k hlt k.lt_succ_self)]
      exact ih (by omega) ⟨hlt, hact, hinit, fun i hji hik => hbetween i hji (by omega)⟩
    · have hstep := E.steps j hk
      rw [hact] at hstep
      exact (Option.some.inj hstep).symm

lemma genuine_accepted (hP : Honest P) (E : AttemptRun P) (hk : k ≤ E.length)
    {priv responderPriv : Key} {psk : Option Key}
    (h : E.Awaits j k ⟨priv, P.derivePub priv, P.derivePub responderPriv, psk⟩ li random ts init)
    (index : UInt32) (ephemeralPriv : Key) :
    ∃ c resp send recv, consumeInitiation P responderPriv init = some c ∧
      createResponse P (psk.getD zeroKey) index ephemeralPriv c = some (resp, send, recv) ∧
      wgHandshakeProcessResponse P (E.state k) resp = some (recv, send, index) := by
  have hj : j ≤ E.length := h.1.le.trans hk
  have hstate := awaits_state E k hk h
  have hmsg := h.2.2.1
  obtain ⟨ss, hss, _⟩ := hP.dh_comm priv responderPriv
  unfold handshakeAttempt at hstate hmsg
  rw [wgHandshakeInit_eq_zero (attempt_run_cacheOk E j hj), wgHandshakeInit_zero hss] at hstate hmsg
  obtain ⟨msg, e, c, hh, hcreate, hconsume⟩ :=
    initiation_consumed hP (freshIdentity P priv (P.derivePub priv) (P.derivePub responderPriv)
      psk ss) rfl rfl rfl hss li random ts
  simp only [ne_eq, not_true_eq_false, if_false, hcreate] at hstate hmsg
  obtain rfl := Option.some.inj hmsg
  obtain ⟨resp, send, recv, hresp, hproc⟩ :=
    response_accepted hP (E.state k) (by rw [hstate]) (by rw [hstate]; rfl) (by rw [hstate])
      index ephemeralPriv ts.toList
  rw [hstate] at hresp
  exact ⟨_, resp, send, recv, hconsume, hresp, hproc⟩

end Run

/-- A response that is rejected leaves the state as it was and both keys zero; one that is accepted
names the INIT in flight and opens under its chain; the peer's own response is accepted, whatever
was rejected before it. -/
theorem forged_response_changes_nothing {P : Primitives} (E : AttemptRun P) {k : ℕ}
    (hk : k ≤ E.length) :
    (∀ c msg, c.st = E.state k → (wgHandshakeProcessResponseCall P c msg).1 ≠ 0 →
      wgHandshakeProcessResponseCall P c msg =
        (-1, { c with sendKey := zeroKey, recvKey := zeroKey })) ∧
    (∀ c msg, c.st = E.state k → (wgHandshakeProcessResponseCall P c msg).1 = 0 →
      ∃ j id localIndex random timestamp init ck,
        E.Awaits j k id localIndex random timestamp init ∧ msg.receiverIndex = localIndex ∧
        initChain P id (curve25519Keypair P random).1 = some ck ∧
        TagVerifies P id.localStaticPriv (id.presharedKey.getD zeroKey)
          (curve25519Keypair P random).1 ck (initHash P id init) msg) ∧
    (E.Idle k → ∀ c msg, c.st = E.state k → (wgHandshakeProcessResponseCall P c msg).1 = -1) ∧
    (Honest P → ∀ j priv responderPriv psk localIndex random timestamp init,
      E.Awaits j k ⟨priv, P.derivePub priv, P.derivePub responderPriv, psk⟩ localIndex random
        timestamp init →
      ∀ index ephemeralPriv sendKey recvKey outRemoteIndex, ∃ i resp send recv,
        consumeInitiation P responderPriv init = some i ∧
        createResponse P (psk.getD zeroKey) index ephemeralPriv i = some (resp, send, recv) ∧
        wgHandshakeProcessResponseCall P ⟨E.state k, sendKey, recvKey, outRemoteIndex⟩ resp =
          (0, ⟨E.state k, recv, send, index⟩)) := by
  have haccepted : ∀ c msg, c.st = E.state k → (wgHandshakeProcessResponseCall P c msg).1 = 0 →
      ∃ r, wgHandshakeProcessResponse P (E.state k) msg = some r := by
    intro c msg hc hrc
    rcases processResponseCall_cases P c msg with ⟨_, hr⟩ | ⟨r, hsome, _⟩
    · rw [hr] at hrc
      cases hrc
    · exact ⟨r, hc ▸ hsome⟩
  refine ⟨?_, ?_, ?_, ?_⟩
  · intro c msg _ hrc
    rcases processResponseCall_cases P c msg with ⟨_, hr⟩ | ⟨r, _, hr⟩
    · exact hr
    · rw [hr] at hrc
      exact absurd rfl hrc
  · intro c msg hc hrc
    obtain ⟨r, hr⟩ := haccepted c msg hc hrc
    obtain ⟨harmed, hidx, htag⟩ := processResponse_accepted hr
    obtain ⟨j, id, li, random, ts, init, haw, hfl⟩ := armed_awaits E k hk harmed
    rw [hfl.priv, hfl.psk, hfl.ephemeral, hfl.hash] at htag
    exact ⟨j, id, li, random, ts, init, _, haw, hidx.trans hfl.index, hfl.chain, htag⟩
  · intro hidle c msg hc
    by_contra hrc
    rcases processResponseCall_cases P c msg with ⟨_, hr⟩ | ⟨r, hsome, _⟩
    · exact hrc (by rw [hr])
    · obtain ⟨j, id, li, random, ts, init, haw, _⟩ :=
        armed_awaits E k hk (hc ▸ (processResponse_accepted hsome).1)
      exact not_awaits_of_idle hidle haw
  · intro hP j priv responderPriv psk li random ts init haw index ephemeralPriv sendKey recvKey out
    obtain ⟨i, resp, send, recv, hconsume, hresp, hproc⟩ :=
      genuine_accepted hP E hk haw index ephemeralPriv
    refine ⟨i, resp, send, recv, hconsume, hresp, ?_⟩
    rw [processResponseCall_eq]
    simp only [hproc]

section Sample

def samplePeer : WgIdentity :=
  ⟨Vector.replicate 32 1, Vector.replicate 32 1, Vector.replicate 32 2, none⟩

def forgedResponse : WgMsgResponse :=
  responseBody 9 7 (Vector.replicate 32 6) (List.replicate 16 0)

def forgedRun : AttemptRun toyPrimitives :=
  runOf .zero rfl .scrub
    [.attempt samplePeer 7 (Vector.replicate 32 3) (Vector.replicate 12 4),
      .response forgedResponse zeroKey zeroKey 0] rfl

lemma forgedRun_awaits : ∃ init,
    forgedRun.Awaits 0 2 samplePeer 7 (Vector.replicate 32 3) (Vector.replicate 12 4) init := by
  have hsome : (handshakeAttempt toyPrimitives (forgedRun.state 0) samplePeer 7
      (Vector.replicate 32 3) (Vector.replicate 12 4)).1.isSome = true := by decide +kernel
  obtain ⟨init, hinit⟩ := Option.isSome_iff_exists.mp hsome
  refine ⟨init, by decide, rfl, hinit, ?_⟩
  intro i hi hi'
  obtain rfl : i = 1 := by omega
  exact ⟨forgedResponse, zeroKey, zeroKey, 0, rfl, by decide +kernel⟩

theorem genuine_response_after_forged : ∃ init i resp send recv,
    consumeInitiation toyPrimitives (Vector.replicate 32 2) init = some i ∧
    createResponse toyPrimitives zeroKey 10 (Vector.replicate 32 11) i = some (resp, send, recv) ∧
    wgHandshakeProcessResponseCall toyPrimitives ⟨forgedRun.state 2, zeroKey, zeroKey, 0⟩ resp =
      (0, ⟨forgedRun.state 2, recv, send, 10⟩) := by
  obtain ⟨init, haw⟩ := forgedRun_awaits
  exact ⟨init, (forged_response_changes_nothing forgedRun (k := 2) le_rfl).2.2.2
    toyPrimitives_honest 0 (Vector.replicate 32 1) (Vector.replicate 32 2) none 7
    (Vector.replicate 32 3) (Vector.replicate 12 4) init haw 10 (Vector.replicate 32 11) zeroKey
    zeroKey 0⟩

end Sample

end TinyLink.Proofs
