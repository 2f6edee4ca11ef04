import TinyLink.Proofs.NoiseAgreement

/-!
# Histories of the control connection's handshake

What the cache holds was derived with the keys it is stored with, and its ephemeral key has not been
sent (`PreFacts`).
-/

namespace TinyLink.Proofs
open StepSystem

variable {P : Primitives} {E : Ts2021Run P} {i : ℕ} {c : PreCache} {priv control random : Key}

/-- What holds of the cache `c` before the call at `i`. -/
structure PreFacts (E : Ts2021Run P) (i : ℕ) (c : PreCache) : Prop where
  static : c.pre.haveSs = true → ∃ j, j < i ∧ P.derivePub (E.act j).machinePriv = c.machinePub ∧
    (E.act j).controlPub = c.controlPub ∧
    P.dh (E.act j).machinePriv c.controlPub = some c.pre.ss
  ephemeral : c.pre.haveE = true → ∃ j priv random, j < i ∧
    E.act j = .precompute priv c.controlPub random ∧ P.derivePub priv = c.machinePub ∧
    c.pre.ePriv = (curve25519Keypair P random).1 ∧ c.pre.ePub = P.derivePub c.pre.ePriv ∧
    P.dh c.pre.ePriv c.controlPub = some c.pre.es
  both : c.pre.haveE = true → c.pre.haveSs = true
  unsent : c.pre.haveE = true → c.pre.ePriv ∈ (E.state i).made ∧
    ∀ j frame st, j < i → E.SendsAt j frame st → st.ePriv ≠ c.pre.ePriv

lemma preFacts_of_zero (hpre : c.pre = .zero) : PreFacts E i c := by
  have hss : c.pre.haveSs ≠ true := by rw [hpre]; nofun
  have he : c.pre.haveE ≠ true := by rw [hpre]; nofun
  exact ⟨fun h => absurd h hss, fun h => absurd h he, fun h => absurd h he, fun h => absurd h he⟩

lemma PreFacts.preFor (h : PreFacts E i c) (machinePub controlPub : Key) :
    PreFacts E i (preFor c machinePub controlPub) := by
  rcases preFor_cases c machinePub controlPub with ⟨hsame, _⟩ | hzero
  · rw [hsame]
    exact h
  · rw [hzero]
    exact preFacts_of_zero rfl

lemma PreFacts.ePub (h : PreFacts E i c) (he : c.pre.haveE) :
    c.pre.ePub = P.derivePub c.pre.ePriv := by
  obtain ⟨_, _, _, _, _, _, _, hpub, _⟩ := h.ephemeral he
  exact hpub

structure HistoryOk (E : Ts2021Run P) (i : ℕ) : Prop where
  cache : PreFacts E i (E.state i).cache
  sent : ∀ j frame st, j < i → E.SendsAt j frame st → st.ePriv ∈ (E.state i).made

lemma ts2021Step_cases {s s' : Ts2021State} {a : Ts2021Call} (h : ts2021Step P s a = some s') :
    s'.cache = a.apply P s.cache ∧ (∀ e ∈ s.made, e ∈ s'.made) ∧
      ∀ e, a.makes P s.cache = some e → e ∉ s.made ∧ e ∈ s'.made := by
  unfold ts2021Step at h
  split at h
  · rename_i hnone
    cases h
    exact ⟨rfl, fun e he => he, fun e he => by rw [hnone] at he; cases he⟩
  · rename_i e' hsome
    split_ifs at h with hnew
    cases h
    refine ⟨rfl, fun e he => List.mem_cons_of_mem _ he, fun e he => ?_⟩
    cases hsome.symm.trans he
    exact ⟨hnew, List.mem_cons_self⟩

lemma makes_eq {a : Ts2021Call}
    (hss : ((preFor c (P.derivePub a.machinePriv) a.controlPub).pre.haveSs ||
      (P.dh a.machinePriv a.controlPub).isSome))
    (he : (preFor c (P.derivePub a.machinePriv) a.controlPub).pre.haveE = false) :
    a.makes P c = some (curve25519Keypair P a.random).1 := by
  simp only [Ts2021Call.makes, hss, he, Bool.not_false, Bool.and_self, if_true]

lemma sent_ephemeral (h : HistoryOk E i) {frame : Bytes} {st : NoiseIkState}
    (hsend : E.SendsAt i frame st) :
    ((preFor (E.state i).cache (P.derivePub (E.act i).machinePriv) (E.act i).controlPub).pre.haveE =
        true ∧
      st.ePriv = (preFor (E.state i).cache (P.derivePub (E.act i).machinePriv)
        (E.act i).controlPub).pre.ePriv) ∨
      (E.act i).makes P (E.state i).cache = some st.ePriv := by
  obtain ⟨_, prologue, priv, control, random, ha, c', hhs⟩ := hsend
  rw [ha]
  have hfacts := h.cache.preFor (P.derivePub priv) control
  obtain ⟨pre, e, es, hpre, he, hframe⟩ := handshake_sent hfacts.ePub hhs
  obtain ⟨hat, hfilled⟩ := noiseIkPrecompute_true hpre
  obtain ⟨hhave', hpriv, _⟩ := hfilled.e.resolve_right fun hnew => absurd hnew.1 (by decide)
  have hst : st.ePriv = e := congrArg (fun x : Bytes × NoiseIkState => x.2.ePriv) hframe
  rcases he with ⟨p, hp, hhave, rfl, _⟩ | ⟨hnone, rfl, _⟩
  · cases hp
    exact .inl ⟨hhave' ▸ hhave, hst.trans hpriv⟩
  · have hno : pre.haveE = false := by
      by_contra hhave
      rw [Option.filter_some_pos (by simpa using hhave)] at hnone
      cases hnone
    exact .inr ((makes_eq hat (hhave' ▸ hno)).trans (congrArg some hst.symm))

lemma static_succ (h : PreFacts E i c) {pre : NoiseIkPre}
    (hpub : P.derivePub (E.act i).machinePriv = c.machinePub)
    (hcontrol : (E.act i).controlPub = c.controlPub)
    (hss : (c.pre.haveSs = true ∧ pre.ss = c.pre.ss) ∨
      P.dh (E.act i).machinePriv c.controlPub = some pre.ss) :
    ∃ j, j < i + 1 ∧ P.derivePub (E.act j).machinePriv = c.machinePub ∧
      (E.act j).controlPub = c.controlPub ∧
      P.dh (E.act j).machinePriv c.controlPub = some pre.ss := by
  rcases hss with ⟨hhave, hsame⟩ | hdh
  · obtain ⟨j, hj, hrest⟩ := h.static hhave
    exact ⟨j, Nat.lt_succ_of_lt hj, hsame ▸ hrest⟩
  · exact ⟨i, Nat.lt_succ_self i, hpub, hcontrol, hdh⟩

lemma not_sends_precompute (ha : E.act i = .precompute priv control random)
    (frame : Bytes) (st : NoiseIkState) : ¬ E.SendsAt i frame st := by
  rintro ⟨_, _, _, _, _, ha', _⟩
  cases ha.symm.trans ha'

lemma HistoryOk.precompute (h : HistoryOk E i) (hi : i < E.length)
    (ha : E.act i = .precompute priv control random) : PreFacts E (i + 1) (E.state (i + 1)).cache := by
  obtain ⟨hcache, hmade, hnew⟩ := ts2021Step_cases (E.steps i hi)
  have hfacts := h.cache.preFor (P.derivePub priv) control
  obtain ⟨hm, hc⟩ := preFor_keys (E.state i).cache (P.derivePub priv) control
  rw [ha] at hcache hnew
  rw [hcache, Ts2021Call.apply, ts2021Precompute]
  generalize hcur : preFor (E.state i).cache (P.derivePub priv) control = c at hfacts hm hc ⊢
  cases hpre : noiseIkPrecompute P c.pre priv control true random with
  | mk ok =>
    cases ok with
    | false => exact preFacts_of_zero rfl
    | true =>
      obtain ⟨hat, hfilled⟩ := noiseIkPrecompute_true hpre
      have hsent : ∀ j frame st, j < i + 1 → E.SendsAt j frame st → j < i := by
        intro j frame st hj hsend
        refine Nat.lt_of_le_of_ne (Nat.le_of_lt_succ hj) ?_
        rintro rfl
        exact not_sends_precompute ha frame st hsend
      refine ⟨fun _ => static_succ hfacts (by rw [ha]; exact hm.symm) (by rw [ha]; exact hc.symm) ?_,
        fun hhave => ?_, fun _ => hfilled.haveSs, fun hhave => ?_⟩
      · rw [ha]
        exact hc.symm ▸ hfilled.ss
      · rcases hfilled.e with ⟨hhave', hpriv, hpub, hes⟩ | ⟨_, _, hpriv, hpub, hes⟩
        · obtain ⟨j, priv', random', hj, haj, hm', he⟩ := hfacts.ephemeral (hhave' ▸ hhave)
          rw [hpriv, hpub, hes]
          exact ⟨j, priv', random', Nat.lt_succ_of_lt hj, haj, hm', he⟩
        · exact ⟨i, priv, random, Nat.lt_succ_self i, hc.symm ▸ ha, hm.symm, hpriv, hpub, hc.symm ▸ hes⟩
      · rcases hfilled.e with ⟨hhave', hpriv, _, _⟩ | ⟨_, hno, hpriv, _, _⟩
        · obtain ⟨hin, hother⟩ := hfacts.unsent (hhave' ▸ hhave)
          rw [hpriv]
          exact ⟨hmade _ hin, fun j frame st hj hsend => hother j frame st (hsent j frame st hj hsend)
            hsend⟩
        · have hmakes : (Ts2021Call.precompute priv control random).makes P (E.state i).cache =
              some (curve25519Keypair P random).1 := makes_eq (hcur ▸ hat) (hcur ▸ hno)
          obtain ⟨hnot, hin⟩ := hnew _ hmakes
          rw [hpriv]
          refine ⟨hin, fun j frame st hj hsend heq => hnot ?_⟩
          rw [← heq]
          exact h.sent j frame st (hsent j frame st hj hsend) hsend

lemma HistoryOk.connect (h : HistoryOk E i) (hi : i < E.length) {prologue : Bytes}
    (ha : E.act i = .connect prologue priv control random) :
    PreFacts E (i + 1) (E.state (i + 1)).cache := by
  obtain ⟨hcache, _, _⟩ := ts2021Step_cases (E.steps i hi)
  have hfacts := h.cache.preFor (P.derivePub priv) control
  obtain ⟨hm, hc⟩ := preFor_keys (E.state i).cache (P.derivePub priv) control
  rw [ha] at hcache
  rw [hcache, Ts2021Call.apply, handshake]
  generalize hcur : preFor (E.state i).cache (P.derivePub priv) control = c at hfacts hm hc ⊢
  cases hpre : noiseIkPrecompute P c.pre priv control false random with
  | mk ok pre =>
    cases ok with
    | false =>
      obtain ⟨hno, _, rfl⟩ := noiseIkPrecompute_false hpre
      have hss : c.pre.haveSs ≠ true := by rw [hno]; rintro ⟨⟩
      have he : c.pre.haveE ≠ true := fun hhave => hss (hfacts.both hhave)
      exact ⟨fun hhave => absurd hhave hss, fun hhave => absurd hhave he,
        fun hhave => absurd hhave he, fun hhave => absurd hhave he⟩
    | true =>
      obtain ⟨_, hfilled⟩ := noiseIkPrecompute_true hpre
      have he : (NoiseIkPre.scrubbed pre).haveE ≠ true := by rw [scrubbed_haveE]; rintro ⟨⟩
      refine ⟨fun _ => ?_, fun hhave => absurd hhave he, fun hhave => absurd hhave he,
        fun hhave => absurd hhave he⟩
      refine static_succ hfacts (by rw [ha]; exact hm.symm) (by rw [ha]; exact hc.symm) ?_
      rw [ha]
      change (_ ∧ (NoiseIkPre.scrubbed pre).ss = _) ∨ _ = some (NoiseIkPre.scrubbed pre).ss
      rw [(scrubbed_ss pre).2]
      exact hc.symm ▸ hfilled.ss

lemma HistoryOk.step (h : HistoryOk E i) (hi : i < E.length) : HistoryOk E (i + 1) := by
  obtain ⟨_, hmade, hnew⟩ := ts2021Step_cases (E.steps i hi)
  refine ⟨?_, fun j frame st hj hsend => ?_⟩
  · cases ha : E.act i with
    | precompute => exact h.precompute hi ha
    | connect => exact h.connect hi ha
  · rcases Nat.lt_or_eq_of_le (Nat.le_of_lt_succ hj) with hlt | rfl
    · exact hmade _ (h.sent j frame st hlt hsend)
    · rcases sent_ephemeral h hsend with ⟨hhave, heq⟩ | hmakes
      · rw [heq]
        exact hmade _ ((h.cache.preFor _ _).unsent hhave).1
      · exact (hnew _ hmakes).2

lemma history_along (E : Ts2021Run P) : ∀ i, i ≤ E.length → HistoryOk E i := by
  refine E.along ?_ fun i hi h => h.step hi
  refine ⟨preFacts_of_zero ?_, fun j frame st hj => absurd hj (Nat.not_lt_zero j)⟩
  rw [E.starts]
  rfl

lemma sent_new (h : HistoryOk E i) (hi : i < E.length) {frame frame' : Bytes}
    {st st' : NoiseIkState}
    (hsend : E.SendsAt i frame st) {j : ℕ} (hj : j < i) (hsend' : E.SendsAt j frame' st') :
    st'.ePriv ≠ st.ePriv := by
  rcases sent_ephemeral h hsend with ⟨hhave, heq⟩ | hmakes
  · rw [heq]
    exact ((h.cache.preFor _ _).unsent hhave).2 j frame' st' hj hsend'
  · obtain ⟨_, _, hnew⟩ := ts2021Step_cases (E.steps i hi)
    intro heq
    exact (hnew _ hmakes).1 (heq ▸ h.sent j frame' st' hj hsend')

section Agreement
variable {priv controlPriv random : Key}

lemma dh_swap (hP : Honest P) {a b k : Key} (h : P.dh a (P.derivePub b) = some k) :
    P.dh b (P.derivePub a) = some k := by
  obtain ⟨k', hk, hk'⟩ := hP.dh_comm a b
  cases h.symm.trans hk
  exact hk'

lemma attempt_ready (hP : Honest P) (h : HistoryOk E i) (priv controlPriv random : Key) :
    ∃ pre e es,
      noiseIkPrecompute P (preFor (E.state i).cache (P.derivePub priv) (P.derivePub controlPriv)).pre
        priv (P.derivePub controlPriv) false random = (true, pre) ∧
      EphemeralFrom P (P.derivePub controlPriv) random (some pre) e es ∧
      P.dh priv (P.derivePub controlPriv) = some pre.ss ∧
      P.dh e (P.derivePub controlPriv) = some es ∧ ∃ r, (curve25519Keypair P r).1 = e := by
  have hfacts := h.cache.preFor (P.derivePub priv) (P.derivePub controlPriv)
  obtain ⟨hm, hc⟩ := preFor_keys (E.state i).cache (P.derivePub priv) (P.derivePub controlPriv)
  generalize preFor (E.state i).cache (P.derivePub priv) (P.derivePub controlPriv) = c
    at hfacts hm hc ⊢
  obtain ⟨ss, hss, _⟩ := hP.dh_comm priv controlPriv
  cases hpre : noiseIkPrecompute P c.pre priv (P.derivePub controlPriv) false random with
  | mk ok pre =>
    cases ok with
    | false =>
      obtain ⟨_, hnone, _⟩ := noiseIkPrecompute_false hpre
      cases hss.symm.trans hnone
    | true =>
      obtain ⟨_, hfilled⟩ := noiseIkPrecompute_true hpre
      obtain ⟨hhave', hpriv, hpub, hes⟩ := hfilled.e.resolve_right fun hnew => absurd hnew.1 (by decide)
      have hstatic : P.dh priv (P.derivePub controlPriv) = some pre.ss := by
        rcases hfilled.ss with ⟨hhave, hsame⟩ | hdh
        · -- the cached secret of a call with the same public keys
          obtain ⟨j, _, hpub', _, hdh⟩ := hfacts.static hhave
          rw [hc, ← hsame] at hdh
          have hback := dh_swap hP hdh
          rw [hpub', hm] at hback
          exact dh_swap hP hback
        · exact hdh
      by_cases hhave : pre.haveE = true
      · obtain ⟨_, _, r, _, _, _, hr, hpub', hdh⟩ := hfacts.ephemeral (hhave' ▸ hhave)
        rw [hc, ← hpriv, ← hes] at hdh
        rw [← hpriv] at hr hpub'
        exact ⟨pre, pre.ePriv, pre.es, rfl,
          .inl ⟨pre, rfl, hhave, rfl, hpub.trans hpub', rfl⟩, hstatic, hdh, r, hr.symm⟩
      · obtain ⟨es, hdh, _⟩ := hP.dh_comm (curve25519Keypair P random).1 controlPriv
        exact ⟨pre, _, es, rfl,
          .inr ⟨Option.filter_some_neg (Bool.eq_false_iff.mpr hhave), rfl, hdh⟩, hstatic, hdh,
          random, rfl⟩

end Agreement

/-- An attempt agrees with a responder that follows the specification, and sends what it would send
without the cache; no two send one ephemeral key; the cache gives only what calls with the same keys
derived. -/
theorem noise_ik_agrees (hP : Honest P) (E : Ts2021Run P) :
    (∀ i prologue priv controlPriv random responderEphemeral, i ≤ E.length →
      ∃ msg st c heard msg₂ send recv st',
        handshake P prologue (E.state i).cache priv (P.derivePub priv) (P.derivePub controlPriv)
          random = (some (ts2021InitHeader ++ msg), st, c) ∧
        noiseReadMsg1 P ts2021ProtocolName prologue controlPriv msg = some heard ∧
        heard.initiatorStatic = P.derivePub priv ∧
        noiseWriteMsg2 P responderEphemeral heard = some (msg₂, send, recv) ∧
        noiseIkReadMsg2 P st msg₂ = (true, st') ∧
        st'.transportReady = true ∧ st'.kSend = recv ∧ st'.kRecv = send ∧
        (∃ r, (curve25519Keypair P r).1 = st.ePriv) ∧
        ∀ r, (curve25519Keypair P r).1 = st.ePriv →
          noiseIkWriteMsg1 P (noiseIkInit P priv (P.derivePub priv) (P.derivePub controlPriv)
            ts2021ProtocolName prologue) r = (some msg, st)) ∧
    (∀ i j frame frame' st st', j < i → E.SendsAt i frame st → E.SendsAt j frame' st' →
      st'.ePriv ≠ st.ePriv) ∧
    (∀ i prologue priv control random, i < E.length →
      E.act i = .connect prologue priv control random →
      ∀ pre, pre = (preFor (E.state i).cache (P.derivePub priv) control).pre →
        (pre.haveSs = true → ∃ j, j < i ∧ P.derivePub (E.act j).machinePriv = P.derivePub priv ∧
          (E.act j).controlPub = control ∧ P.dh (E.act j).machinePriv control = some pre.ss) ∧
        (pre.haveE = true → ∃ j priv' r, j < i ∧ E.act j = .precompute priv' control r ∧
          P.derivePub priv' = P.derivePub priv ∧ pre.ePriv = (curve25519Keypair P r).1 ∧
          P.dh pre.ePriv control = some pre.es)) := by
  have hok := history_along E
  refine ⟨fun i prologue priv controlPriv random responderEphemeral hi => ?_,
    fun i j frame frame' st st' hij hsend hsend' => ?_, ?_⟩
  · obtain ⟨pre, e, es, hpre, he, hss, hes, hr⟩ := attempt_ready hP (hok i hi) priv controlPriv random
    obtain ⟨sym, hread, hmatch⟩ := noiseReadMsg1_of_msg1 hP ts2021ProtocolName prologue
      (dh_swap hP hes) (dh_swap hP hss)
    obtain ⟨msg₂, st', send, recv, hwrite, hread₂, hready, hsend, hrecv⟩ :=
      noiseReadMsg2_accepts hP hmatch priv rfl responderEphemeral
    refine ⟨_, _, _, _, msg₂, send, recv, st', handshake_eq hpre he, hread, rfl, hwrite, hread₂, hready,
      hsend, hrecv, hr, fun r hr => ?_⟩
    exact noiseIkWriteMsg1Pre_eq (.inr ⟨rfl, hr, hes⟩) (.inr ⟨rfl, hss⟩)
  · exact sent_new (hok i (Nat.le_of_lt hsend.1)) hsend.1 hsend hij hsend'
  · rintro i prologue priv control random hi ha pre rfl
    have hfacts := (hok i (Nat.le_of_lt hi)).cache.preFor (P.derivePub priv) control
    obtain ⟨hm, hc⟩ := preFor_keys (E.state i).cache (P.derivePub priv) control
    refine ⟨fun hhave => ?_, fun hhave => ?_⟩
    · have hstatic := hfacts.static hhave
      rw [hm, hc] at hstatic
      exact hstatic
    · obtain ⟨j, priv', r, hj, ha', hpub, hr, _, hdh⟩ := hfacts.ephemeral hhave
      rw [hc] at ha' hdh
      exact ⟨j, priv', r, hj, ha', hpub.trans hm, hr, hdh⟩

section Sample

def bootCalls : List Ts2021Call :=
  [.precompute (Vector.replicate 32 1) (Vector.replicate 32 2) (Vector.replicate 32 3),
    .connect ts2021Prologue (Vector.replicate 32 1) (Vector.replicate 32 2) (Vector.replicate 32 4),
    .connect ts2021Prologue (Vector.replicate 32 1) (Vector.replicate 32 2) (Vector.replicate 32 8)]

def bootRun : Ts2021Run toyPrimitives :=
  runOf ⟨.zero, []⟩ rfl (.precompute zeroKey zeroKey zeroKey) bootCalls (by decide +kernel)

lemma bootRun_sends (i : ℕ) (hi : i = 1 ∨ i = 2) : ∃ frame st, bootRun.SendsAt i frame st := by
  rcases hi with rfl | rfl
  · exact ⟨_, _, by decide, _, _, _, _, rfl, _, rfl⟩
  · exact ⟨_, _, by decide, _, _, _, _, rfl, _, rfl⟩

theorem bootRun_agrees :
    Honest toyPrimitives ∧
    (∃ frame frame' st st', bootRun.SendsAt 2 frame st ∧ bootRun.SendsAt 1 frame' st' ∧
      st'.ePriv ≠ st.ePriv) ∧
    (∃ j priv r, j < 1 ∧ bootRun.act j = .precompute priv (Vector.replicate 32 2) r ∧ priv =
      Vector.replicate 32 1) ∧
    ∃ msg st c heard, handshake toyPrimitives ts2021Prologue (bootRun.state 1).cache
        (Vector.replicate 32 1) (Vector.replicate 32 1) (Vector.replicate 32 2)
        (Vector.replicate 32 4) = (some (ts2021InitHeader ++ msg), st, c) ∧
      noiseReadMsg1 toyPrimitives ts2021ProtocolName ts2021Prologue (Vector.replicate 32 2) msg =
        some heard ∧ heard.initiatorStatic = Vector.replicate 32 1 := by
  obtain ⟨hagree, hfresh, hcache⟩ := noise_ik_agrees toyPrimitives_honest bootRun
  obtain ⟨frame, st, hsend⟩ := bootRun_sends 2 (.inr rfl)
  obtain ⟨frame', st', hsend'⟩ := bootRun_sends 1 (.inl rfl)
  obtain ⟨j, priv, r, hj, ha, hpub, _⟩ :=
    (hcache 1 _ _ _ _ (by decide) rfl _ rfl).2 (by decide +kernel)
  obtain ⟨msg, st₁, c, heard, _, _, _, _, hmsg, hread, hlearn, _⟩ :=
    hagree 1 ts2021Prologue (Vector.replicate 32 1) (Vector.replicate 32 2) (Vector.replicate 32 4)
      (Vector.replicate 32 9) (by decide)
  exact ⟨toyPrimitives_honest,
    ⟨frame, frame', st, st', hsend, hsend', hfresh 2 1 _ _ _ _ (by decide) hsend hsend'⟩,
    ⟨j, priv, r, hj, ha, hpub⟩, msg, st₁, c, heard, hmsg, hread, hlearn⟩

end Sample

end TinyLink.Proofs
