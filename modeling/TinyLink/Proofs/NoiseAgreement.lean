import TinyLink.NoiseResponder
import TinyLink.Proofs.HandshakeAgreement
import TinyLink.Ts2021

/-!
# Agreement of the control plane's handshake

`noiseMsg1` is the first message as a function of the ephemeral key and the two shared secrets. The
responder follows it with one `SymmetricState` (`Matches`).
-/

namespace TinyLink.Proofs
open StepSystem

variable {P : Primitives} {st : NoiseIkState} {sym : NoiseSymmetric} {pre : Option NoiseIkPre}

@[simp] lemma mixHash_sPriv (data : Bytes) : (mixHash P st data).sPriv = st.sPriv := rfl
@[simp] lemma mixHash_ePriv (data : Bytes) : (mixHash P st data).ePriv = st.ePriv := rfl
@[simp] lemma mixHash_re (data : Bytes) : (mixHash P st data).re = st.re := rfl
@[simp] lemma mixKey_sPriv (input : Bytes) : (mixKey P st input).sPriv = st.sPriv := rfl
@[simp] lemma mixKey_re (input : Bytes) : (mixKey P st input).re = st.re := rfl

structure Matches (st : NoiseIkState) (sym : NoiseSymmetric) : Prop where
  h : st.h = sym.h
  ck : st.ck = sym.ck

/-- Both sides have just mixed a key. -/
structure Keyed (st : NoiseIkState) (sym : NoiseSymmetric) : Prop extends Matches st sym where
  k : sym.k = some st.k
  n : st.n = 0
  n' : sym.n = 0

lemma Matches.mixHash (h : Matches st sym) (data : Bytes) :
    Matches (mixHash P st data) (sym.mixHash P data) := by
  obtain ⟨hh, hck⟩ := h
  exact ⟨by rw [TinyLink.mixHash, NoiseSymmetric.mixHash, hh], hck⟩

lemma Matches.mixKey (h : Matches st sym) (input : Key) :
    Keyed (mixKey P st input.toList) (sym.mixKey P input) := by
  obtain ⟨hh, hck⟩ := h
  refine ⟨⟨hh, ?_⟩, ?_, rfl, rfl⟩
  · simp only [TinyLink.mixKey, NoiseSymmetric.mixKey, noiseHkdf2_eq, hck]
  · simp only [TinyLink.mixKey, NoiseSymmetric.mixKey, noiseHkdf2_eq, hck]

lemma noiseNonce_zero : noiseNonce 0 = counterToNonce 0 := by decide

lemma Keyed.opened (hP : Honest P) (h : Keyed st sym) (m : Bytes) :
    ∃ sym', sym.decryptAndHash P (P.aead.encrypt st.k (noiseNonce st.n) st.h.toList m) =
        some (m, sym') ∧
      Matches (mixHash P st (P.aead.encrypt st.k (noiseNonce st.n) st.h.toList m)) sym' := by
  obtain ⟨hm, hk, hn, hn'⟩ := h
  have hm' : Matches st { sym with n := sym.n + 1 } := ⟨hm.h, hm.ck⟩
  refine ⟨_, ?_, hm'.mixHash _⟩
  rw [NoiseSymmetric.decryptAndHash, hk]
  dsimp only
  rw [hn, hn', noiseNonce_zero, ← hm.h, hP.aead_correct]
  rfl

lemma Keyed.sealed (hP : Honest P) (h : Keyed st sym) {outMax : ℕ} (m : Bytes)
    (hmax : m.length ≤ outMax) :
    ∃ c st' sym', sym.encryptAndHash P m = (c, sym') ∧ c.length = m.length + noiseTagLen ∧
      decryptAndHash P st outMax c = some (m, st') ∧ Matches st' sym' := by
  obtain ⟨hm, hk, hn, hn'⟩ := h
  obtain ⟨c, hc⟩ : ∃ c, P.aead.encrypt st.k (noiseNonce st.n) st.h.toList m = c := ⟨_, rfl⟩
  have hlen : c.length = m.length + noiseTagLen := by rw [← hc, P.aead.length_encrypt]; rfl
  have hopen : P.aead.decrypt st.k (noiseNonce st.n) st.h.toList c = some m := by
    rw [← hc]
    exact hP.aead_correct _ _ _ _
  have hmix := hm.mixHash c (P := P)
  refine ⟨c, { mixHash P st c with n := st.n + 1 }, { sym.mixHash P c with n := sym.n + 1 }, ?_, hlen,
    ?_, hmix.h, hmix.ck⟩
  · have hc' : P.aead.encrypt st.k (counterToNonce sym.n) sym.h.toList m = c := by
      rw [hn', ← hm.h, ← noiseNonce_zero, ← hn, hc]
    unfold NoiseSymmetric.encryptAndHash
    split
    · rename_i hnone
      cases hk.symm.trans hnone
    · rename_i k hsome
      cases hk.symm.trans hsome
      rw [hc']
      rfl
  · rw [decryptAndHash, if_neg (by omega), if_neg (by omega), hopen]
    rfl

def noiseMsg1 (P : Primitives) (st : NoiseIkState) (e es ss : Key) : Bytes × NoiseIkState :=
  let st := { st with ePriv := e, ePub := P.derivePub e }
  let st := mixKey P (mixHash P st (P.derivePub e).toList) es.toList
  let s := P.aead.encrypt st.k (noiseNonce st.n) st.h.toList st.sPub.toList
  let st := mixKey P { mixHash P st s with n := st.n + 1 } ss.toList
  let tag := P.aead.encrypt st.k (noiseNonce st.n) st.h.toList []
  ((P.derivePub e).toList ++ s ++ tag, { mixHash P st tag with n := st.n + 1 })

def EphemeralFrom (P : Primitives) (rs random : Key) (pre : Option NoiseIkPre) (e es : Key) :
    Prop :=
  (∃ p, pre = some p ∧ p.haveE = true ∧ p.ePriv = e ∧ p.ePub = P.derivePub e ∧ p.es = es) ∨
    (pre.filter (·.haveE) = none ∧ (curve25519Keypair P random).1 = e ∧ P.dh e rs = some es)

def StaticFrom (P : Primitives) (sPriv rs : Key) (pre : Option NoiseIkPre) (ss : Key) : Prop :=
  (∃ p, pre = some p ∧ p.haveSs = true ∧ p.ss = ss) ∨
    (pre.filter (·.haveSs) = none ∧ P.dh sPriv rs = some ss)

lemma msg1Ephemeral_eq {random e es : Key}
    (he : EphemeralFrom P st.rs random pre e es) :
    msg1Ephemeral P st random pre = (some es, { st with ePriv := e, ePub := P.derivePub e }) := by
  rcases he with ⟨p, rfl, hp, rfl, hpub, rfl⟩ | ⟨hnone, rfl, hdh⟩
  · rw [msg1Ephemeral, Option.filter_some_pos hp]
    dsimp only
    rw [hpub]
  · rw [msg1Ephemeral, hnone]
    dsimp only
    rw [hdh]
    rfl

lemma msg1Static_eq {sPriv rs ss : Key}
    (hs : StaticFrom P sPriv rs pre ss) (hpriv : st.sPriv = sPriv) (hrs : st.rs = rs) :
    msg1Static P st pre = some ss := by
  subst hpriv hrs
  rcases hs with ⟨p, rfl, hp, rfl⟩ | ⟨hnone, hdh⟩
  · rw [msg1Static, Option.filter_some_pos hp]
  · rw [msg1Static, hnone, hdh]

lemma noiseIkWriteMsg1Pre_eq {random e es ss : Key}
    (he : EphemeralFrom P st.rs random pre e es) (hs : StaticFrom P st.sPriv st.rs pre ss) :
    noiseIkWriteMsg1Pre P st random pre =
      (some (noiseMsg1 P st e es ss).1, (noiseMsg1 P st e es ss).2) := by
  unfold noiseIkWriteMsg1Pre
  rw [msg1Ephemeral_eq he]
  dsimp only
  rw [encryptAndHash, if_neg (by simp [noiseIkMsg1Len, noiseDhLen, noiseTagLen])]
  dsimp only
  rw [msg1Static_eq hs]
  · dsimp only
    rw [encryptAndHash, if_neg (by simp [noiseTagLen])]
    rfl
  · rfl
  · rfl

lemma getD_append_zeros (b : Bytes) (n i : ℕ) :
    (b ++ List.replicate n 0).getD i 0 = b.getD i 0 := by
  rw [List.getD_eq_getElem?_getD, List.getD_eq_getElem?_getD, List.getElem?_append]
  split
  · rfl
  · rename_i hlen
    rw [List.getElem?_eq_none (Nat.le_of_not_lt hlen), List.getElem?_replicate]
    split
    · rfl
    · rfl

lemma start_h (P : Primitives) (name : Bytes) :
    (if noiseHashLen < name.length then P.blake2s name else padKey name) =
      (NoiseSymmetric.start P name).h := by
  unfold NoiseSymmetric.start
  by_cases hlen : 32 < name.length
  · rw [if_pos (show noiseHashLen < name.length from hlen), if_neg (Nat.not_le_of_lt hlen)]
  · rw [if_neg (show ¬ noiseHashLen < name.length from hlen), if_pos (Nat.le_of_not_lt hlen)]
    simp only [getD_append_zeros]
    rfl

lemma matches_init (P : Primitives) (sPriv sPub rs : Key) (name prologue : Bytes) :
    Matches (noiseIkInit P sPriv sPub rs name prologue)
      (((NoiseSymmetric.start P name).mixHash P prologue).mixHash P rs.toList) := by
  have hstart : Matches
      { NoiseIkState.zero with
        sPriv := sPriv, sPub := sPub, rs := rs
        h := if noiseHashLen < name.length then P.blake2s name else padKey name
        ck := if noiseHashLen < name.length then P.blake2s name else padKey name }
      (NoiseSymmetric.start P name) := ⟨start_h P name, start_h P name⟩
  exact (hstart.mixHash prologue).mixHash rs.toList

lemma msg1_parts (e : Key) {s : Bytes} (hs : s.length = 48) (tag : Bytes) :
    (e.toList ++ s ++ tag).take 32 = e.toList ∧ ((e.toList ++ s ++ tag).drop 32).take 48 = s ∧
      (e.toList ++ s ++ tag).drop 80 = tag := by
  have he : e.toList.length = 32 := by simp
  have hes : (e.toList ++ s).length = 80 := by rw [List.length_append, he, hs]
  refine ⟨?_, ?_, ?_⟩
  · rw [List.append_assoc, List.take_left' he]
  · rw [List.append_assoc, List.drop_left' he, List.take_left' hs]
  · rw [List.drop_left' hes]

lemma noiseReadMsg1_of_msg1 (hP : Honest P) (name prologue : Bytes) {priv controlPriv e es ss : Key}
    (hes : P.dh controlPriv (P.derivePub e) = some es)
    (hss : P.dh controlPriv (P.derivePub priv) = some ss) :
    ∃ sym, noiseReadMsg1 P name prologue controlPriv
        (noiseMsg1 P (noiseIkInit P priv (P.derivePub priv) (P.derivePub controlPriv) name prologue)
          e es ss).1 = some ⟨sym, P.derivePub priv, P.derivePub e⟩ ∧
      Matches (noiseMsg1 P (noiseIkInit P priv (P.derivePub priv) (P.derivePub controlPriv) name
        prologue) e es ss).2 sym := by
  have hinit := matches_init P priv (P.derivePub priv) (P.derivePub controlPriv) name prologue
  generalize hst : noiseIkInit P priv (P.derivePub priv) (P.derivePub controlPriv) name prologue = st
    at hinit ⊢
  have hpub : st.sPub = P.derivePub priv := by rw [← hst]; rfl
  -- `e` and `es`
  have hephemeral : Matches { st with ePriv := e, ePub := P.derivePub e } _ := ⟨hinit.h, hinit.ck⟩
  have hkeyed := (hephemeral.mixHash (P.derivePub e).toList (P := P)).mixKey es (P := P)
  obtain ⟨st₁, hst₁⟩ : ∃ st₁, mixKey P (mixHash P { st with ePriv := e, ePub := P.derivePub e }
    (P.derivePub e).toList) es.toList = st₁ := ⟨_, rfl⟩
  rw [hst₁] at hkeyed
  have hpub₁ : st₁.sPub = P.derivePub priv := by rw [← hst₁, ← hpub]; rfl
  -- `s`
  obtain ⟨s, hs⟩ : ∃ s, P.aead.encrypt st₁.k (noiseNonce st₁.n) st₁.h.toList st₁.sPub.toList = s :=
    ⟨_, rfl⟩
  have hlen : s.length = 48 := by rw [← hs, P.aead.length_encrypt]; simp [wgTagLen]
  obtain ⟨sym₂, hopen, hmatch⟩ := hkeyed.opened hP st₁.sPub.toList
  rw [hs] at hopen hmatch
  -- `ss`
  have hstatic : Matches { mixHash P st₁ s with n := st₁.n + 1 } sym₂ := ⟨hmatch.h, hmatch.ck⟩
  have hkeyed₂ := hstatic.mixKey ss (P := P)
  obtain ⟨st₂, hst₂⟩ : ∃ st₂, mixKey P { mixHash P st₁ s with n := st₁.n + 1 } ss.toList = st₂ :=
    ⟨_, rfl⟩
  rw [hst₂] at hkeyed₂
  -- the empty payload
  obtain ⟨tag, htag⟩ : ∃ tag, P.aead.encrypt st₂.k (noiseNonce st₂.n) st₂.h.toList [] = tag :=
    ⟨_, rfl⟩
  obtain ⟨sym₃, hopen', hmatch'⟩ := hkeyed₂.opened hP []
  rw [htag] at hopen' hmatch'
  have hmsg : noiseMsg1 P st e es ss =
      ((P.derivePub e).toList ++ s ++ tag, { mixHash P st₂ tag with n := st₂.n + 1 }) := by
    simp only [noiseMsg1, hst₁, hs, hst₂, htag]
  rw [hmsg]
  obtain ⟨hpart₁, hpart₂, hpart₃⟩ := msg1_parts (P.derivePub e) hlen tag
  refine ⟨sym₃, ?_, hmatch'.h, hmatch'.ck⟩
  rw [hpub₁] at hopen
  simp only [noiseReadMsg1, hpart₁, hpart₂, hpart₃, keyOfBytes_toList, Option.bind_eq_bind,
    Option.bind_some, hes, hopen, hss, hopen', pure]

lemma noiseReadMsg2_accepts (hP : Honest P) (h : Matches st sym) (priv : Key)
    (hpriv : st.sPriv = priv) (ephemeralPriv : Key) :
    ∃ msg st' send recv,
      noiseWriteMsg2 P ephemeralPriv ⟨sym, P.derivePub priv, P.derivePub st.ePriv⟩ =
        some (msg, send, recv) ∧
      noiseIkReadMsg2 P st msg = (true, st') ∧ st'.transportReady = true ∧ st'.kSend = recv ∧
      st'.kRecv = send := by
  subst hpriv
  obtain ⟨ee, hee, hee'⟩ := hP.dh_comm st.ePriv ephemeralPriv
  obtain ⟨se, hse, hse'⟩ := hP.dh_comm st.sPriv ephemeralPriv
  have hre : Matches { st with re := P.derivePub ephemeralPriv } sym := ⟨h.h, h.ck⟩
  have hkeyed := ((hre.mixHash (P.derivePub ephemeralPriv).toList (P := P)).mixKey ee
    (P := P)).toMatches.mixKey se (P := P)
  obtain ⟨c, st', sym', hseal, hlen, hopen, hmatch⟩ := hkeyed.sealed hP [] (Nat.zero_le 1)
  have he : (P.derivePub ephemeralPriv).toList.length = noiseDhLen := by simp [noiseDhLen]
  have hpart₁ : padKey (((P.derivePub ephemeralPriv).toList ++ c).take noiseDhLen) =
      P.derivePub ephemeralPriv := by
    rw [List.take_left' he]
    apply Vector.ext
    intro i hi
    simp [padKey, List.getD_eq_getElem?_getD]
  have hpart₂ : (((P.derivePub ephemeralPriv).toList ++ c).drop noiseDhLen).take noiseTagLen = c := by
    rw [List.drop_left' he, List.take_of_length_le (by rw [hlen]; exact Nat.le_refl _)]
  refine ⟨(P.derivePub ephemeralPriv).toList ++ c,
    { st' with
      kSend := kdf P st'.ck [] 1, kRecv := kdf P st'.ck [] 2
      nSend := 0, nRecv := 0, transportReady := true },
    kdf P sym'.ck [] 2, kdf P sym'.ck [] 1, ?_, ?_, rfl, by rw [hmatch.ck], by rw [hmatch.ck]⟩
  · simp only [noiseWriteMsg2, hee', hse', hseal, Option.bind_eq_bind, Option.bind_some, pure]
    rfl
  · unfold noiseIkReadMsg2
    rw [hpart₁, hpart₂]
    simp only [mixHash_sPriv, mixHash_ePriv, mixHash_re, mixKey_sPriv, mixKey_re, hee, hse]
    rw [hopen]
    rfl

section Cache
variable {c : PreCache} {pre pre' : NoiseIkPre} {priv pub control random : Key} {prologue : Bytes}

lemma preFor_cases (c : PreCache) (machinePub controlPub : Key) :
    (preFor c machinePub controlPub = c ∧ c.machinePub = machinePub ∧ c.controlPub = controlPub) ∨
      preFor c machinePub controlPub = ⟨machinePub, controlPub, true, .zero⟩ := by
  unfold preFor
  split
  · exact .inr rfl
  · rename_i h
    simp only [Bool.or_eq_true, decide_eq_true_eq, not_or, not_not] at h
    exact .inl ⟨rfl, h.1.2, h.2⟩

lemma preFor_keys (c : PreCache) (machinePub controlPub : Key) :
    (preFor c machinePub controlPub).machinePub = machinePub ∧
      (preFor c machinePub controlPub).controlPub = controlPub := by
  rcases preFor_cases c machinePub controlPub with ⟨h, hm, hc⟩ | h
  · rw [h]
    exact ⟨hm, hc⟩
  · rw [h]
    exact ⟨rfl, rfl⟩

/-- What `noise_ik_precompute` fills in, if it succeeds. -/
structure Precomputed (P : Primitives) (sPriv rs : Key) (wantE : Bool) (random : Key)
    (pre pre' : NoiseIkPre) : Prop where
  haveSs : pre'.haveSs = true
  ss : (pre.haveSs = true ∧ pre'.ss = pre.ss) ∨ P.dh sPriv rs = some pre'.ss
  e : (pre'.haveE = pre.haveE ∧ pre'.ePriv = pre.ePriv ∧ pre'.ePub = pre.ePub ∧ pre'.es = pre.es) ∨
    (wantE = true ∧ pre.haveE = false ∧ pre'.ePriv = (curve25519Keypair P random).1 ∧
      pre'.ePub = P.derivePub pre'.ePriv ∧ P.dh pre'.ePriv rs = some pre'.es)

lemma noiseIkPrecompute_true {wantE : Bool}
    (h : noiseIkPrecompute P pre priv control wantE random = (true, pre')) :
    (pre.haveSs || (P.dh priv control).isSome) = true ∧
      Precomputed P priv control wantE random pre pre' := by
  unfold noiseIkPrecompute at h
  split at h
  · cases h
  · rename_i ss hss
    have hfrom : (pre.haveSs = true ∧ ss = pre.ss) ∨ P.dh priv control = some ss := by
      split at hss
      · rename_i hhave
        exact .inl ⟨hhave, (Option.some.inj hss).symm⟩
      · exact .inr hss
    have hat : (pre.haveSs || (P.dh priv control).isSome) = true := by
      rcases hfrom with ⟨hhave, _⟩ | hdh
      · rw [hhave, Bool.true_or]
      · rw [hdh, Option.isSome_some, Bool.or_true]
    refine ⟨hat, ?_⟩
    dsimp only at h
    split at h
    · rename_i hwant
      rw [Bool.and_eq_true, Bool.not_eq_true'] at hwant
      split at h
      · cases h
      · rename_i es hes
        cases h
        exact ⟨rfl, hfrom, .inr ⟨hwant.1, hwant.2, rfl, rfl, hes⟩⟩
    · cases h
      exact ⟨rfl, hfrom, .inl ⟨rfl, rfl, rfl, rfl⟩⟩

lemma noiseIkPrecompute_false
    (h : noiseIkPrecompute P pre priv control false random = (false, pre')) :
    pre.haveSs = false ∧ P.dh priv control = none ∧ pre' = { pre with ss := zeroKey } := by
  unfold noiseIkPrecompute at h
  split at h
  · rename_i hss
    cases h
    split_ifs at hss with hhave
    exact ⟨Bool.eq_false_iff.mpr hhave, hss, rfl⟩
  · dsimp only at h
    rw [Bool.false_and, if_neg (by decide)] at h
    cases h

def NoiseIkPre.scrubbed (pre : NoiseIkPre) : NoiseIkPre :=
  if pre.haveE then { pre with ePriv := zeroKey, es := zeroKey, ePub := zeroKey, haveE := false }
  else pre

lemma scrubbed_haveE (pre : NoiseIkPre) : (NoiseIkPre.scrubbed pre).haveE = false := by
  unfold NoiseIkPre.scrubbed
  split
  · rfl
  · rename_i h
    exact Bool.eq_false_iff.mpr h

lemma scrubbed_ss (pre : NoiseIkPre) : (NoiseIkPre.scrubbed pre).haveSs = pre.haveSs ∧
    (NoiseIkPre.scrubbed pre).ss = pre.ss := by
  unfold NoiseIkPre.scrubbed
  split
  · exact ⟨rfl, rfl⟩
  · exact ⟨rfl, rfl⟩

lemma handshake_eq {e es : Key}
    (hpre : noiseIkPrecompute P (preFor c pub control).pre priv control false random = (true, pre))
    (he : EphemeralFrom P control random (some pre) e es) :
    handshake P prologue c priv pub control random =
      let m := noiseMsg1 P (noiseIkInit P priv pub control ts2021ProtocolName prologue) e es pre.ss
      (some (ts2021InitHeader ++ m.1), m.2,
        { preFor c pub control with pre := NoiseIkPre.scrubbed pre }) := by
  obtain ⟨_, hfilled⟩ := noiseIkPrecompute_true hpre
  have hss : StaticFrom P priv control (some pre) pre.ss := .inl ⟨pre, rfl, hfilled.haveSs, rfl⟩
  have hmsg : noiseIkWriteMsg1Pre P (noiseIkInit P priv pub control ts2021ProtocolName prologue)
    random (some pre) = _ := noiseIkWriteMsg1Pre_eq he hss
  simp only [handshake, hpre, hmsg]
  rfl

lemma handshake_sent {frame : Bytes} {c' : PreCache}
    (hpub : (preFor c pub control).pre.haveE = true →
      (preFor c pub control).pre.ePub = P.derivePub (preFor c pub control).pre.ePriv)
    (h : handshake P prologue c priv pub control random = (some frame, st, c')) :
    ∃ pre e es,
      noiseIkPrecompute P (preFor c pub control).pre priv control false random = (true, pre) ∧
      EphemeralFrom P control random (some pre) e es ∧
      (frame, st) = (ts2021InitHeader ++
          (noiseMsg1 P (noiseIkInit P priv pub control ts2021ProtocolName prologue) e es pre.ss).1,
        (noiseMsg1 P (noiseIkInit P priv pub control ts2021ProtocolName prologue) e es pre.ss).2) := by
  cases hpre : noiseIkPrecompute P (preFor c pub control).pre priv control false random with
  | mk ok pre =>
    cases ok with
    | false =>
      simp only [handshake, hpre] at h
      cases h
    | true =>
      obtain ⟨_, hfilled⟩ := noiseIkPrecompute_true hpre
      have hsame := hfilled.e.resolve_right fun hnew => absurd hnew.1 (by decide)
      obtain ⟨e, es, he⟩ : ∃ e es, EphemeralFrom P control random (some pre) e es := by
        by_cases hhave : pre.haveE = true
        · obtain ⟨hhave', hpriv, hpub', _⟩ := hsame
          refine ⟨_, _, .inl ⟨pre, rfl, hhave, rfl, ?_, rfl⟩⟩
          rw [hpub', hpriv]
          exact hpub (hhave' ▸ hhave)
        · have hnone : (some pre).filter (·.haveE) = none :=
            Option.filter_some_neg (Bool.eq_false_iff.mpr hhave)
          cases hdh : P.dh (curve25519Keypair P random).1 control with
          | some es => exact ⟨_, es, .inr ⟨hnone, rfl, hdh⟩⟩
          | none =>
            have hdh' : P.dh (curve25519Keypair P random).1
              (noiseIkInit P priv pub control ts2021ProtocolName prologue).rs = none := hdh
            simp only [handshake, hpre, noiseIkWriteMsg1Pre, msg1Ephemeral, hnone, hdh'] at h
            cases h
      rw [handshake_eq hpre he] at h
      cases h
      exact ⟨pre, e, es, rfl, he, rfl⟩

end Cache

end TinyLink.Proofs
