import TinyLink.Proofs.PathDeadline
import TinyLink.Proofs.PathRetest
import TinyLink.WgNetifTimers

/-!
# The receive task neither spins nor fires unplanned

A timer block that acts puts its own deadline ahead, and no other block brings it back. The path tick
reads the clock again behind the other blocks, and goes by that reading.
-/

namespace TinyLink.Proofs
open StepSystem

section Plan
variable {g : WgNetif} {now : ℤ}

lemma earlier_le_iff {d t : WithTop ℤ} : earlier d t ≤ now ↔ d ≤ now ∨ t ≤ now := by
  unfold earlier
  split
  · next h => exact ⟨.inr, fun ho => ho.elim h.le.trans id⟩
  · next h => exact ⟨.inl, fun ho => ho.elim id (not_lt.mp h).trans⟩

lemma timerAt_le_iff {t p : ℤ} : ((wgTimerAt t p : ℤ) : WithTop ℤ) ≤ now ↔ t + p < now := by
  rw [WithTop.coe_le_coe, wgTimerAt]
  omega

lemma ite_earlier_le_iff {d t : WithTop ℤ} {c : Prop} [Decidable c] :
    (if c then earlier d t else d) ≤ now ↔ d ≤ now ∨ (c ∧ t ≤ now) := by
  split
  · next h => simp [earlier_le_iff, h]
  · next h => simp [h]

lemma rxNextDeadline_le_iff : rxNextDeadlineUs g ≤ now ↔
    ((g.state = .handshakePending ∨ g.rekeyInFlight = true) ∧
        g.lastHandshakeUs + handshakeRetryUs g < now) ∨
      ((g.state = .up ∧ ¬ g.rekeyInFlight = true ∧ 0 < g.lastHandshakeCompletedUs) ∧
        g.lastHandshakeCompletedUs + wgRekeyAfterUs < now) ∨
      ((g.state = .up ∧ ¬ g.rekeyInFlight = true ∧ 0 < g.lastTransportRecvUs) ∧
        g.lastTransportRecvUs + wgRxStaleThresholdUs < now) ∨
      (((g.state = .up ∨ g.state = .handshakePending) ∧ g.pathStaleCb = true ∧
          0 < g.lastTransportRecvUs) ∧ g.lastTransportRecvUs + wgRxStaleThresholdUs < now ∧
        g.lastPathProbeUs + wgPathProbeCooldownUs < now) ∨
      ((g.state = .up ∧ 0 < g.lastTxUs) ∧ g.lastTxUs + wgPersistentKeepaliveUs < now) ∨
      wgPathNextDeadline g.path ≤ now := by
  have hlater : (((if wgTimerAt g.lastTransportRecvUs wgRxStaleThresholdUs >
        wgTimerAt g.lastPathProbeUs wgPathProbeCooldownUs then
      wgTimerAt g.lastTransportRecvUs wgRxStaleThresholdUs
    else wgTimerAt g.lastPathProbeUs wgPathProbeCooldownUs : ℤ)) : WithTop ℤ) ≤ now ↔
      g.lastTransportRecvUs + wgRxStaleThresholdUs < now ∧
        g.lastPathProbeUs + wgPathProbeCooldownUs < now := by
    rw [WithTop.coe_le_coe]
    split
    · next h =>
      simp only [wgTimerAt] at h ⊢
      omega
    · next h =>
      simp only [wgTimerAt] at h ⊢
      omega
  simp only [rxNextDeadlineUs, earlier_le_iff, ite_earlier_le_iff, timerAt_le_iff, hlater,
    top_le_iff, WithTop.coe_ne_top, false_or, or_assoc]

end Plan

def Ahead (now : ℤ) (g : WgNetif) : RxBlock → Prop
  | .pathTick => (now : WithTop ℤ) < wgPathNextDeadline g.path
  | b => rxBlockDue g now now b = false

section Due
variable {g : WgNetif} {now : ℤ}

lemma retry_le (g : WgNetif) : 0 ≤ handshakeRetryUs g ∧ handshakeRetryUs g ≤ wgRekeyTimeoutUs := by
  unfold handshakeRetryUs wgFirstRetryUs wgRekeyTimeoutUs
  split <;> omega

lemma retry_of_not_pending (h : g.state ≠ .handshakePending) :
    handshakeRetryUs g = wgRekeyTimeoutUs :=
  if_neg fun hc => h hc.1

lemma ahead_handshakeRetry : Ahead now g .handshakeRetry ↔
    (g.state = .handshakePending → now ≤ g.lastHandshakeUs + handshakeRetryUs g) := by
  simp [Ahead, rxBlockDue, wgTimerDue_eq_false_iff]

lemma ahead_proactiveRekey : Ahead now g .proactiveRekey ↔
    (g.state = .up → g.rekeyInFlight = false →
    0 < g.lastHandshakeCompletedUs → now ≤ g.lastHandshakeCompletedUs + wgRekeyAfterUs) := by
  simp only [Ahead, rxBlockDue, ← Bool.not_eq_true, Bool.and_eq_true, decide_eq_true_eq,
    Bool.not_eq_true', wgTimerDue_iff]
  grind

lemma ahead_pathProbe : Ahead now g .pathProbe ↔ (g.state = .up ∨ g.state = .handshakePending →
    g.pathStaleCb = true → 0 < g.lastTransportRecvUs →
      now ≤ g.lastTransportRecvUs + wgRxStaleThresholdUs ∨
        now ≤ g.lastPathProbeUs + wgPathProbeCooldownUs) := by
  simp only [Ahead, rxBlockDue, ← Bool.not_eq_true, Bool.and_eq_true, Bool.or_eq_true,
    decide_eq_true_eq, wgTimerDue_iff]
  grind

lemma ahead_rxStale : Ahead now g .rxStale ↔ (g.state = .up → g.rekeyInFlight = false →
    0 < g.lastTransportRecvUs → now ≤ g.lastTransportRecvUs + wgRxStaleThresholdUs) := by
  simp only [Ahead, rxBlockDue, ← Bool.not_eq_true, Bool.and_eq_true, decide_eq_true_eq,
    Bool.not_eq_true', wgTimerDue_iff]
  grind

lemma ahead_rekeyRetry : Ahead now g .rekeyRetry ↔
    (g.rekeyInFlight = true → now ≤ g.lastHandshakeUs + wgRekeyTimeoutUs) := by
  simp [Ahead, rxBlockDue, wgTimerDue_eq_false_iff]

lemma ahead_keepalive : Ahead now g .keepalive ↔ (g.state = .up → 0 < g.lastTxUs →
    now ≤ g.lastTxUs + wgPersistentKeepaliveUs) := by
  simp only [Ahead, rxBlockDue, ← Bool.not_eq_true, Bool.and_eq_true, decide_eq_true_eq,
    wgTimerDue_iff]
  grind

lemma ahead_all_iff : (∀ b, Ahead now g b) ↔ (now : WithTop ℤ) < rxNextDeadlineUs g := by
  have hretry := retry_le g
  have hother := retry_of_not_pending (g := g)
  rw [← not_le, rxNextDeadline_le_iff]
  constructor
  · intro h
    have h1 := ahead_handshakeRetry.mp (h .handshakeRetry)
    have h2 := ahead_proactiveRekey.mp (h .proactiveRekey)
    have h3 := ahead_pathProbe.mp (h .pathProbe)
    have h4 := ahead_rxStale.mp (h .rxStale)
    have h5 := ahead_rekeyRetry.mp (h .rekeyRetry)
    have h6 := not_le.mpr (h .pathTick)
    have h7 := ahead_keepalive.mp (h .keepalive)
    rintro (⟨hs, hlt⟩ | ⟨⟨hs, hr, hp⟩, hlt⟩ | ⟨⟨hs, hr, hp⟩, hlt⟩ | ⟨⟨hs, hc, hp⟩, hlt, hlt'⟩ |
      ⟨⟨hs, hp⟩, hlt⟩ | hle)
    · by_cases hpend : g.state = .handshakePending
      · have := h1 hpend
        omega
      · have := h5 (hs.resolve_left hpend)
        rw [hother hpend] at hlt
        omega
    · have := h2 hs (by simpa using hr) hp
      omega
    · have := h4 hs (by simpa using hr) hp
      omega
    · have := h3 hs hc hp
      omega
    · have := h7 hs hp
      omega
    · exact h6 hle
  · intro h b
    simp only [not_or, not_and, not_lt] at h
    obtain ⟨h1, h2, h4, h3, h7, h6⟩ := h
    cases b with
    | handshakeRetry => exact ahead_handshakeRetry.mpr fun hs => h1 (.inl hs)
    | proactiveRekey => exact ahead_proactiveRekey.mpr fun hs hr hp => h2 ⟨hs, by simp [hr], hp⟩
    | pathProbe =>
      refine ahead_pathProbe.mpr fun hs hc hp => ?_
      rcases le_or_gt now (g.lastTransportRecvUs + wgRxStaleThresholdUs) with hle | hgt
      · exact .inl hle
      · exact .inr (h3 ⟨hs, hc, hp⟩ hgt)
    | rxStale => exact ahead_rxStale.mpr fun hs hr hp => h4 ⟨hs, by simp [hr], hp⟩
    | rekeyRetry =>
      refine ahead_rekeyRetry.mpr fun hr => ?_
      have := h1 (.inr hr)
      omega
    | pathTick => exact not_le.mp h6
    | keepalive => exact ahead_keepalive.mpr fun hs hp => h7 ⟨hs, hp⟩

end Due

section Effect
variable {g : WgNetif} {now : ℤ} {e : RxEnv} (b : RxBlock)

lemma buildAndSendInit_eq (g : WgNetif) (i : InitEnv) : ∃ hold, buildAndSendInit g i =
    { g with lastHandshakeUs := i.us, path := { g.path with initHoldUs := hold } } := by
  unfold buildAndSendInit
  cases i.built with
  | false => exact ⟨g.path.initHoldUs, rfl⟩
  | true =>
    obtain ⟨hold, h⟩ := wgPathInitRoute_path g.path i.ring (g.state = .up) i.relayUp i.us i.gen
    exact ⟨hold, by simp [h]⟩

lemma startRekey_eq (g : WgNetif) (i : InitEnv) : ∃ hold, startRekey g i =
    { g with
      lastHandshakeUs := i.us
      path := { g.path with initHoldUs := hold }
      rekeyAttempt := g.rekeyAttempt + 1
      rekeyInFlight := true } := by
  obtain ⟨hold, h⟩ := buildAndSendInit_eq g i
  exact ⟨hold, by rw [startRekey, h]⟩

lemma kickOffHandshake_eq (g : WgNetif) (i : InitEnv) : ∃ hold, kickOffHandshake g i =
    { g with
      state := .handshakePending
      lastHandshakeUs := i.us
      path := { g.path with initHoldUs := hold }
      handshakeAttempt := g.handshakeAttempt + 1 } := by
  obtain ⟨hold, h⟩ := buildAndSendInit_eq { g with state := .handshakePending } i
  exact ⟨hold, by rw [kickOffHandshake, h]⟩

def Busy (now : ℤ) (g : WgNetif) : Prop :=
  now ≤ g.lastHandshakeUs ∧ (g.state = .handshakePending ∨ g.rekeyInFlight = true)

def HsKept (g g' : WgNetif) : Prop :=
  g'.state = g.state ∧ g'.rekeyInFlight = g.rekeyInFlight ∧
    g'.lastHandshakeUs = g.lastHandshakeUs ∧ g'.handshakeAttempt = g.handshakeAttempt

lemma hsKept_refl (g : WgNetif) : HsKept g g := ⟨rfl, rfl, rfl, rfl⟩

def RekeysInUp (g : WgNetif) : Prop := g.rekeyInFlight = true → g.state = .up

/-- What block `b` does at `now` to what the others read. -/
structure BlockEffect (now : ℤ) (b : RxBlock) (g g' : WgNetif) : Prop where
  hs : HsKept g g' ∨ Busy now g'
  rekeys : RekeysInUp g'
  awake : g'.state ≠ .idle → g.state ≠ .idle
  up : g'.state = .up → g.state = .up
  completed : g'.lastHandshakeCompletedUs = g.lastHandshakeCompletedUs
  callback : g'.pathStaleCb = g.pathStaleCb
  recv : g'.lastTransportRecvUs = g.lastTransportRecvUs ∨ g'.lastTransportRecvUs = now
  probe : g'.lastPathProbeUs = g.lastPathProbeUs ∨ now ≤ g'.lastPathProbeUs
  tx : b ≠ .keepalive → g'.lastTxUs = g.lastTxUs
  path : b ≠ .pathTick → ∃ hold, g'.path = { g.path with initHoldUs := hold }

lemma BlockEffect.refl (h : RekeysInUp g) : BlockEffect now b g g :=
  ⟨.inl (hsKept_refl g), h, id, id, rfl, rfl, .inl rfl, .inl rfl, fun _ => rfl,
    fun _ => ⟨g.path.initHoldUs, rfl⟩⟩

lemma startRekey_effect {h : WgNetif} (i : InitEnv) (hi : now ≤ i.us)
    (hup : g.state = .up) (hstate : h.state = .up) (hpath : h.path = g.path)
    (hcompleted : h.lastHandshakeCompletedUs = g.lastHandshakeCompletedUs)
    (hcb : h.pathStaleCb = g.pathStaleCb)
    (hrecv : h.lastTransportRecvUs = g.lastTransportRecvUs ∨ h.lastTransportRecvUs = now)
    (hprobe : h.lastPathProbeUs = g.lastPathProbeUs) (htx : h.lastTxUs = g.lastTxUs) :
    BlockEffect now b g (startRekey h i) := by
  obtain ⟨hold, hr⟩ := startRekey_eq h i
  rw [hr]
  exact ⟨.inr ⟨hi, .inr rfl⟩, fun _ => hstate, fun _ => by simp [hup], fun _ => hup, hcompleted,
    hcb, hrecv, .inl hprobe, fun _ => htx, fun _ => ⟨hold, by rw [hpath]⟩⟩

lemma deadline_initHold (p : WgPath) (hold : ℤ) :
    wgPathNextDeadline { p with initHoldUs := hold } = wgPathNextDeadline p := rfl

lemma rxPathTick_path (g : WgNetif) (t : ℤ) (i : InitEnv) :
    ∃ hold, (rxPathTick g t i).path = { (wgPathTick g.path t).1 with initHoldUs := hold } := by
  unfold rxPathTick
  dsimp only
  split
  · obtain ⟨hold, hr⟩ := startRekey_eq _ i
    exact ⟨hold, by rw [hr]⟩
  · exact ⟨_, rfl⟩

lemma rxPathTick_effect (hi : now ≤ (e.init .pathTick).us) (ht : now ≤ e.tickUs)
    (hrekeys : RekeysInUp g) :
    BlockEffect now .pathTick g (rxPathTick g e.tickUs (e.init .pathTick)) := by
  have hprobe : (if (wgPathTick g.path e.tickUs).2.probe then e.tickUs else g.lastPathProbeUs) =
      g.lastPathProbeUs ∨
      now ≤ if (wgPathTick g.path e.tickUs).2.probe then e.tickUs else g.lastPathProbeUs := by
    split
    · exact .inr ht
    · exact .inl rfl
  simp only [rxPathTick]
  split
  · next hgo =>
    have hup : g.state = .up := by
      by_contra hup
      simp [wgPathRekeyGate, hup] at hgo
    obtain ⟨hold, hr⟩ := startRekey_eq _ (e.init .pathTick)
    rw [hr]
    exact ⟨.inr ⟨hi, .inr rfl⟩, fun _ => hup, fun _ => by simp [hup], fun _ => hup, rfl, rfl,
      .inl rfl, hprobe, fun _ => rfl, fun h => absurd rfl h⟩
  · exact ⟨.inl (hsKept_refl g), hrekeys, id, id, rfl, rfl, .inl rfl, hprobe, fun _ => rfl,
      fun h => absurd rfl h⟩

lemma rxBlockAct_effect (hinit : ∀ c, now ≤ (e.init c).us) (ht : now ≤ e.tickUs)
    (hrekeys : RekeysInUp g) (hdue : b = .pathTick ∨ rxBlockDue g now e.tickUs b = true) :
    BlockEffect now b g (rxBlockAct g now e b) := by
  have hnot : ∀ {s : WgNetifState}, g.state = s → s ≠ .up → g.rekeyInFlight = false := by
    intro s hs hne
    by_contra hr
    exact hne (hs.symm.trans (hrekeys (by simpa using hr)))
  cases b with
  | handshakeRetry =>
    have hpend : g.state = .handshakePending := by
      simp only [rxBlockDue, Bool.and_eq_true, decide_eq_true_eq] at hdue
      exact (hdue.resolve_left nofun).1
    have hidle := hnot hpend nofun
    simp only [rxBlockAct]
    split
    · refine ⟨.inr ⟨?_, .inl hpend⟩, hrekeys, id, id, rfl, rfl, .inl rfl, .inl rfl, fun _ => rfl,
        fun _ => ⟨g.path.initHoldUs, rfl⟩⟩
      simp only [wgHandshakeBackoffUs, wgRekeyTimeoutUs]
      omega
    · obtain ⟨hold, hr⟩ := kickOffHandshake_eq g (e.init .handshakeRetry)
      rw [hr]
      refine ⟨.inr ⟨hinit _, .inl rfl⟩, ?_, fun _ => by simp [hpend], nofun, rfl, rfl, .inl rfl,
        .inl rfl, fun _ => rfl, fun _ => ⟨hold, rfl⟩⟩
      intro hrekey
      rw [hidle] at hrekey
      cases hrekey
  | proactiveRekey =>
    have hup : g.state = .up := by
      simp only [rxBlockDue, Bool.and_eq_true, decide_eq_true_eq] at hdue
      exact (hdue.resolve_left nofun).1.1.1
    exact startRekey_effect _ _ (hinit _) hup hup rfl rfl rfl (.inl rfl) rfl rfl
  | pathProbe =>
    exact ⟨.inl (hsKept_refl g), hrekeys, id, id, rfl, rfl, .inl rfl, .inr le_rfl, fun _ => rfl,
      fun _ => ⟨g.path.initHoldUs, rfl⟩⟩
  | rxStale =>
    have hup : g.state = .up := by
      simp only [rxBlockDue, Bool.and_eq_true, decide_eq_true_eq] at hdue
      exact (hdue.resolve_left nofun).1.1.1
    exact startRekey_effect _ _ (hinit _) hup hup rfl rfl rfl (.inr rfl) rfl rfl
  | rekeyRetry =>
    have hup : g.state = .up := by
      simp only [rxBlockDue, Bool.and_eq_true] at hdue
      exact hrekeys (hdue.resolve_left nofun).1
    simp only [rxBlockAct]
    split
    · obtain ⟨hold, hr⟩ := kickOffHandshake_eq
        { g with
          rekeyInFlight := false
          rekeyAttempt := 0
          handshakeAttempt := 0
          state := .handshakePending } (e.init .rekeyRetry)
      rw [hr]
      exact ⟨.inr ⟨hinit _, .inl rfl⟩, nofun, fun _ => by simp [hup], nofun, rfl, rfl, .inl rfl,
        .inl rfl, fun _ => rfl, fun _ => ⟨hold, rfl⟩⟩
    · exact startRekey_effect _ _ (hinit _) hup hup rfl rfl rfl (.inl rfl) rfl rfl
  | pathTick => exact rxPathTick_effect (hinit _) ht hrekeys
  | keepalive =>
    simp only [rxBlockAct]
    split
    all_goals
      exact ⟨.inl (hsKept_refl g), hrekeys, id, id, rfl, rfl, .inl rfl, .inl rfl,
        fun h => absurd rfl h, fun _ => ⟨g.path.initHoldUs, rfl⟩⟩

lemma rxBlock_effect (hinit : ∀ c, now ≤ (e.init c).us) (ht : now ≤ e.tickUs)
    (hrekeys : RekeysInUp g) : BlockEffect now b g (rxBlock now e b g) := by
  unfold rxBlock
  split
  · next h =>
    rw [Bool.or_eq_true, decide_eq_true_eq] at h
    exact rxBlockAct_effect b hinit ht hrekeys h
  · exact .refl b hrekeys

lemma Busy.ahead (h : Busy now g) : Ahead now g .handshakeRetry ∧ Ahead now g .proactiveRekey ∧
    Ahead now g .rxStale ∧ Ahead now g .rekeyRetry := by
  obtain ⟨hle, hs⟩ := h
  have hretry := retry_le g
  have hnot : g.state = .up → g.rekeyInFlight = false → False := by
    intro hup hr
    rcases hs with hs | hs
    · rw [hup] at hs
      cases hs
    · rw [hr] at hs
      cases hs
  refine ⟨ahead_handshakeRetry.mpr fun _ => by omega,
    ahead_proactiveRekey.mpr fun hup hr => (hnot hup hr).elim,
    ahead_rxStale.mpr fun hup hr => (hnot hup hr).elim,
    ahead_rekeyRetry.mpr fun _ => ?_⟩
  rw [wgRekeyTimeoutUs]
  omega

lemma BlockEffect.keeps_ahead {b c : RxBlock} {g' : WgNetif} (h : BlockEffect now c g g')
    (hne : c ≠ b) (ha : Ahead now g b) : Ahead now g' b := by
  have hrecv := h.recv
  have hprobe := h.probe
  have hstale : (0 : ℤ) ≤ wgRxStaleThresholdUs := by decide
  have hcool : (0 : ℤ) ≤ wgPathProbeCooldownUs := by decide
  have hactive : g'.state = .up ∨ g'.state = .handshakePending →
      g.state = .up ∨ g.state = .handshakePending := by
    intro hs
    have hawake := h.awake (by rcases hs with hs | hs <;> simp [hs])
    cases hg : g.state with
    | idle => exact absurd hg hawake
    | handshakePending => exact .inr rfl
    | up => exact .inl rfl
  cases b with
  | handshakeRetry =>
    rcases h.hs with ⟨hs, hr, hl, hatt⟩ | hbusy
    · rw [ahead_handshakeRetry, handshakeRetryUs, hs, hl, hatt]
      exact ahead_handshakeRetry.mp ha
    · exact hbusy.ahead.1
  | proactiveRekey =>
    rcases h.hs with ⟨hs, hr, _⟩ | hbusy
    · rw [ahead_proactiveRekey, hs, hr, h.completed]
      exact ahead_proactiveRekey.mp ha
    · exact hbusy.ahead.2.1
  | pathProbe =>
    rw [ahead_pathProbe] at ha ⊢
    intro hs hcb hpos
    rcases hrecv with hrecv | hrecv
    · rw [h.callback] at hcb
      rw [hrecv] at hpos ⊢
      have := ha (hactive hs) hcb hpos
      omega
    · left
      omega
  | rxStale =>
    rcases h.hs with ⟨hs, hr, _⟩ | hbusy
    · rw [ahead_rxStale] at ha ⊢
      rw [hs, hr]
      intro hup hno hpos
      rcases hrecv with hrecv | hrecv
      · rw [hrecv] at hpos ⊢
        exact ha hup hno hpos
      · omega
    · exact hbusy.ahead.2.2.1
  | rekeyRetry =>
    rcases h.hs with ⟨_, hr, hl, _⟩ | hbusy
    · rw [ahead_rekeyRetry, hr, hl]
      exact ahead_rekeyRetry.mp ha
    · exact hbusy.ahead.2.2.2
  | pathTick =>
    obtain ⟨hold, hpath⟩ := h.path hne
    rw [Ahead, hpath, deadline_initHold]
    exact ha
  | keepalive =>
    rw [ahead_keepalive] at ha ⊢
    rw [h.tx hne]
    exact fun hup => ha (h.up hup)

lemma rxBlockAct_busy {b : RxBlock}
    (hb : b ∈ [.handshakeRetry, .proactiveRekey, .rxStale, .rekeyRetry])
    (hinit : ∀ c, now ≤ (e.init c).us) (hdue : rxBlockDue g now now b) :
    Busy now (rxBlockAct g now e b) := by
  have hrekey : ∀ (h : WgNetif) (c : RxBlock), Busy now (startRekey h (e.init c)) := by
    intro h c
    obtain ⟨hold, hr⟩ := startRekey_eq h (e.init c)
    rw [hr]
    exact ⟨hinit c, .inr rfl⟩
  have hkick : ∀ (h : WgNetif) (c : RxBlock), Busy now (kickOffHandshake h (e.init c)) := by
    intro h c
    obtain ⟨hold, hr⟩ := kickOffHandshake_eq h (e.init c)
    rw [hr]
    exact ⟨hinit c, .inl rfl⟩
  cases b with
  | handshakeRetry =>
    simp only [rxBlockAct]
    split
    · simp only [rxBlockDue, Bool.and_eq_true, decide_eq_true_eq] at hdue
      refine ⟨?_, .inl hdue.1⟩
      simp only [wgHandshakeBackoffUs, wgRekeyTimeoutUs]
      omega
    · exact hkick _ _
  | proactiveRekey | rxStale => exact hrekey _ _
  | rekeyRetry =>
    simp only [rxBlockAct]
    split
    · exact hkick _ _
    · exact hrekey _ _
  | pathProbe | pathTick | keepalive => simp at hb

lemma rxPathTick_ahead (hwait : WaitsInRelay g.path) (hs : g.path.sinceUs ≤ e.tickUs)
    (ht : now ≤ e.tickUs) : Ahead now (rxPathTick g e.tickUs (e.init .pathTick)) .pathTick := by
  have hlt : (now : WithTop ℤ) < wgPathNextDeadline (wgPathTick g.path e.tickUs).1 :=
    (WithTop.coe_le_coe.mpr ht).trans_lt (deadline_after_tick hs hwait)
  obtain ⟨hold, hpath⟩ := rxPathTick_path g e.tickUs (e.init .pathTick)
  rw [Ahead, hpath, deadline_initHold]
  exact hlt

structure ReadsFrom (now : ℤ) (e : RxEnv) : Prop where
  init : ∀ b, now ≤ (e.init b).us
  tick : now ≤ e.tickUs
  tx : now ≤ e.txUs

lemma due_eq_of_ne {b : RxBlock} (hb : b ≠ .pathTick) :
    rxBlockDue g now e.tickUs b = rxBlockDue g now now b := by
  cases b with
  | pathTick => exact absurd rfl hb
  | _ => rfl

lemma rxBlock_ahead (hreads : ReadsFrom now e)
    (htick : b = .pathTick → WaitsInRelay g.path ∧ g.path.sinceUs ≤ e.tickUs) :
    Ahead now (rxBlock now e b g) b := by
  by_cases hb : b = .pathTick
  · subst hb
    obtain ⟨hwait, hs⟩ := htick rfl
    exact rxPathTick_ahead hwait hs hreads.tick
  · have hsame : rxBlockDue g now e.tickUs b = rxBlockDue g now now b := due_eq_of_ne hb
    by_cases hdue : rxBlockDue g now now b = true
    · have hact : rxBlock now e b g = rxBlockAct g now e b :=
        if_pos (by rw [hsame, hdue, Bool.or_true])
      rw [hact]
      cases b with
      | handshakeRetry => exact (rxBlockAct_busy (by simp) hreads.init hdue).ahead.1
      | proactiveRekey => exact (rxBlockAct_busy (by simp) hreads.init hdue).ahead.2.1
      | rxStale => exact (rxBlockAct_busy (by simp) hreads.init hdue).ahead.2.2.1
      | rekeyRetry => exact (rxBlockAct_busy (by simp) hreads.init hdue).ahead.2.2.2
      | pathTick => exact absurd rfl hb
      | pathProbe =>
        refine ahead_pathProbe.mpr fun _ _ _ => .inr ?_
        simp only [rxBlockAct, wgPathProbeCooldownUs]
        omega
      | keepalive =>
        refine ahead_keepalive.mpr fun _ _ => ?_
        have htx := hreads.tx
        simp only [rxBlockAct, wgPersistentKeepaliveUs]
        split
        · dsimp only
          omega
        · dsimp only
          omega
    · have hact : rxBlock now e b g = g := if_neg (by simp [hb, hsame, hdue])
      rw [hact]
      cases b with
      | pathTick => exact absurd rfl hb
      | _ => exact Bool.eq_false_iff.mpr hdue

lemma rxPass_ahead (hreads : ReadsFrom now e) : ∀ (bs : List RxBlock) (g : WgNetif), bs.Nodup →
    RekeysInUp g → (.pathTick ∈ bs → WaitsInRelay g.path ∧ g.path.sinceUs ≤ e.tickUs) →
    (∀ b, b ∉ bs → Ahead now g b) → ∀ b, Ahead now (rxPass now e bs g).1 b := by
  intro bs
  induction bs with
  | nil => exact fun g _ _ _ h b => h b (by simp)
  | cons c _ ih =>
    intro g hnodup hrekeys htick h b
    obtain ⟨hc, hnodup⟩ := List.nodup_cons.mp hnodup
    have heff := rxBlock_effect c hreads.init hreads.tick hrekeys
    refine ih _ hnodup heff.rekeys ?_ ?_ b
    · intro hmem
      have hne : c ≠ .pathTick := fun hct => hc (hct ▸ hmem)
      obtain ⟨hold, hpath⟩ := heff.path hne
      rw [hpath]
      exact htick (List.mem_cons_of_mem _ hmem)
    · intro d hd
      by_cases hcd : c = d
      · subst hcd
        exact rxBlock_ahead c hreads fun hct => htick (by simp [hct])
      · exact heff.keeps_ahead hcd (h d (by simp [hd, Ne.symm hcd]))

section
variable (hs : g.path.sinceUs ≤ e.tickUs)
include hs

lemma rxPathTick_quiet (hdue : rxBlockDue g now e.tickUs .pathTick = false) :
    rxPathTick g e.tickUs (e.init .pathTick) = g := by
  have hnone : (wgPathTick g.path e.tickUs).2 = .none := by
    simp only [rxBlockDue, Bool.or_eq_false_iff, decide_eq_false_iff_not, not_not] at hdue
    exact hdue.1
  have hr : wgPathTick g.path e.tickUs = (g.path, .none) := by
    rcases tick_agrees hs with ⟨_, hact⟩ | ⟨_, hr⟩
    · exact absurd hnone hact
    · exact hr
  simp only [rxPathTick, hr, WgPathAct.none, Bool.or_self, Bool.false_and, Bool.false_eq_true,
    if_false]

lemma rxBlock_quiet {b : RxBlock}
    (hdue : rxBlockDue g now e.tickUs b = false) : rxBlock now e b g = g := by
  by_cases hb : b = .pathTick
  · subst hb
    exact rxPathTick_quiet hs hdue
  · exact if_neg (by simp [hb, hdue])

lemma rxPass_quiet_iff (bs : List RxBlock) :
    (rxPass now e bs g).2 = [] ↔ ∀ b ∈ bs, rxBlockDue g now e.tickUs b = false := by
  induction bs with
  | nil => simp [rxPass]
  | cons c _ ih =>
    simp only [rxPass, List.mem_cons, forall_eq_or_imp]
    cases hdue : rxBlockDue g now e.tickUs c with
    | true => simp
    | false =>
      rw [rxBlock_quiet hs hdue]
      simpa using ih

end

lemma due_eq_false_iff (hs : g.path.sinceUs ≤ now) (b : RxBlock) :
    rxBlockDue g now now b = false ↔ Ahead now g b := by
  cases b with
  | pathTick =>
    simp only [rxBlockDue, Bool.or_eq_false_iff, decide_eq_false_iff_not, not_not, Ahead]
    rcases tick_agrees hs with ⟨hle, hact⟩ | ⟨hlt, hr⟩
    · exact iff_of_false (fun h => hact h.1) (not_lt.mpr hle)
    · exact iff_of_true (by rw [hr]; exact ⟨rfl, rfl⟩) hlt
  | _ => exact Iff.rfl

lemma mem_rxBlocks : b ∈ rxBlocks := by
  cases b <;> decide

/-- The time that block `b` of a pass compares its timer with. -/
def readBy (now : ℤ) (e : RxEnv) (b : RxBlock) : ℤ := if b = .pathTick then e.tickUs else now

section
variable (hs : g.path.sinceUs ≤ e.tickUs)
include hs

lemma due_iff (b : RxBlock) :
    rxBlockDue g now e.tickUs b = true ↔ ¬ Ahead (readBy now e b) g b := by
  by_cases hb : b = .pathTick
  · have hdue : rxBlockDue g now e.tickUs b = rxBlockDue g e.tickUs e.tickUs b := by rw [hb]; rfl
    rw [readBy, if_pos hb, ← due_eq_false_iff hs, hdue, Bool.not_eq_false]
  · rw [readBy, if_neg hb, due_eq_of_ne hb, ← Bool.not_eq_false]
    cases b with
    | pathTick => exact absurd rfl hb
    | _ => exact Iff.rfl

lemma due_deadline {b : RxBlock}
    (hdue : rxBlockDue g now e.tickUs b) : rxNextDeadlineUs g ≤ readBy now e b := by
  rw [← not_lt, ← ahead_all_iff]
  exact fun h => (due_iff hs b).mp hdue (h b)

lemma rxPass_acts (ht : now ≤ e.tickUs)
    (hle : rxNextDeadlineUs g ≤ now) : ∃ b, b ∈ (rxPass now e rxBlocks g).2 := by
  refine List.exists_mem_of_ne_nil _ fun hnil => ?_
  refine absurd hle (not_le.mpr (ahead_all_iff.mp fun b => ?_))
  have hdue := (rxPass_quiet_iff hs rxBlocks).mp hnil b (mem_rxBlocks b)
  have hahead : Ahead (readBy now e b) g b := by
    by_contra hno
    rw [(due_iff hs b).mpr hno] at hdue
    cases hdue
  cases b with
  | pathTick => exact (WithTop.coe_le_coe.mpr ht).trans_lt hahead
  | _ => exact hahead

end

end Effect

/-- The path waits before re-probes, and none of its stamps is after `t`. -/
def PathFit (t : ℤ) (p : WgPath) : Prop := WaitsInRelay p ∧ NotYounger t p

variable {p : WgPath}

lemma PathFit.mono {t t' : ℤ} (h : PathFit t p) (ht : t ≤ t') : PathFit t' p :=
  ⟨h.1, h.2.1.trans ht, h.2.2.trans ht⟩

lemma PathFit.event {t : ℤ} (h : PathFit t p) (h0 : 0 ≤ t) (e : PathEvent) :
    PathFit t (pathEvent p t e).1 :=
  ⟨waitsInRelay_event t e h.1, notYounger_pathEvent p t e h0 h.2⟩

lemma PathFit.hold {t hold : ℤ} (h : PathFit t p) :
    PathFit t { p with initHoldUs := hold } := h

def RxInv (t : ℤ) (g : WgNetif) : Prop := RekeysInUp g ∧ PathFit t g.path

section Invariant
variable {g : WgNetif} {now : ℤ} {e : RxEnv}

lemma kickOff_inv {h : WgNetif} {t : ℤ} (i : InitEnv) (hrekey : h.rekeyInFlight = false)
    (hfit : PathFit t h.path) : RxInv t (kickOffHandshake h i) := by
  obtain ⟨hold, hr⟩ := kickOffHandshake_eq h i
  rw [hr]
  refine ⟨?_, hfit.hold⟩
  intro hc
  rw [show h.rekeyInFlight = true from hc] at hrekey
  cases hrekey

lemma rxBlock_inv (hreads : ReadsFrom now e) (h0 : 0 ≤ e.tickUs) (c : RxBlock) (h : RxInv e.tickUs g) :
    RxInv e.tickUs (rxBlock now e c g) := by
  have heff := rxBlock_effect c hreads.init hreads.tick h.1
  refine ⟨heff.rekeys, ?_⟩
  by_cases hc : c = .pathTick
  · subst hc
    obtain ⟨hold, hpath⟩ := rxPathTick_path g e.tickUs (e.init .pathTick)
    change PathFit e.tickUs (rxPathTick g e.tickUs (e.init .pathTick)).path
    rw [hpath]
    exact (h.2.event h0 .tick).hold
  · obtain ⟨hold, hpath⟩ := heff.path hc
    rw [hpath]
    exact h.2.hold

lemma rxPass_inv (hreads : ReadsFrom now e) (h0 : 0 ≤ e.tickUs) :
    ∀ (bs : List RxBlock) (g : WgNetif), RxInv e.tickUs g → RxInv e.tickUs (rxPass now e bs g).1 := by
  intro bs
  induction bs with
  | nil => exact fun g h => h
  | cons c _ ih => exact fun g h => ih _ (rxBlock_inv hreads h0 c h)

/-- A block that acts was due before the pass, or another one was that reads the clock as early. -/
lemma rxPass_acted (hreads : ReadsFrom now e) (h0 : 0 ≤ e.tickUs) {b : RxBlock} :
    ∀ (bs : List RxBlock) (g : WgNetif), RxInv e.tickUs g → b ∈ (rxPass now e bs g).2 →
      ∃ c, rxBlockDue g now e.tickUs c = true ∧ readBy now e c ≤ readBy now e b := by
  intro bs
  induction bs with
  | nil => exact fun g _ hb => absurd hb (List.not_mem_nil)
  | cons c bs ih =>
    intro g hinv hb
    have hs : g.path.sinceUs ≤ e.tickUs := hinv.2.2.2
    simp only [rxPass] at hb
    cases hdue : rxBlockDue g now e.tickUs c with
    | false =>
      rw [hdue, rxBlock_quiet hs hdue] at hb
      exact ih g hinv hb
    | true =>
      by_cases hle : readBy now e c ≤ readBy now e b
      · exact ⟨c, hdue, hle⟩
      · -- the path tick goes by a later time, and makes no timer of the others due
        have hc : c = .pathTick := by
          by_contra hc
          refine hle ?_
          rw [readBy, if_neg hc, readBy]
          split
          · exact hreads.tick
          · exact le_rfl
        have hb' : b ∈ (rxPass now e bs (rxBlock now e c g)).2 := by
          rw [hdue, if_pos rfl] at hb
          exact (List.mem_cons.mp hb).resolve_left fun hbc => hle (by rw [hbc])
        obtain ⟨d, hd, hdb⟩ := ih _ (rxBlock_inv hreads h0 c hinv) hb'
        have hne : d ≠ c := fun hdc => hle (hdc ▸ hdb)
        refine ⟨d, (due_iff hs d).mpr fun hahead => ?_, hdb⟩
        have hnow : readBy now e d = now := if_neg (hc ▸ hne)
        rw [hnow] at hahead
        refine (due_iff (rxBlock_inv hreads h0 c hinv).2.2.2 d).mp hd ?_
        rw [hnow]
        exact (rxBlock_effect c hreads.init hreads.tick hinv.1).keeps_ahead hne.symm hahead

lemma rxEvent_inv (h0 : 0 ≤ now) (h : RxInv now g) (a : RxEvent) (ha : ∀ env, a ≠ .pass env) :
    RxInv now (rxEvent g now a) := by
  cases a with
  | start managed init => exact kickOff_inv init rfl (h.2.event h0 (.init managed ⟨0, 0⟩))
  | abortStart => exact ⟨nofun, h.2.event h0 (.init false ⟨0, 0⟩)⟩
  | response =>
    simp only [rxEvent]
    split
    · exact ⟨fun _ => rfl, h.2.event h0 .handshake⟩
    · exact h
  | transport data =>
    simp only [rxEvent]
    split
    · refine ⟨h.1, ?_⟩
      cases data with
      | true => exact h.2.event h0 .peerData
      | false => exact h.2.event h0 .keepalive
    · exact h
  | sent =>
    simp only [rxEvent]
    split
    · exact h
    · exact h
  | unreachable => exact h
  | peerKeys _ disco init =>
    have hfit : PathFit now (if disco then { g with path := wgPathSetManaged g.path now true }
        else g).path := by
      cases disco with
      | true => exact h.2.event h0 (.setManaged true)
      | false => exact h.2
    simp only [rxEvent]
    split
    · exact kickOff_inv init rfl hfit
    · refine ⟨?_, hfit⟩
      cases disco with
      | true | false => exact h.1
  | refresh init =>
    obtain ⟨hold, hr⟩ := buildAndSendInit_eq g init
    simp only [rxEvent, hr]
    split
    · split
      · exact ⟨h.1, h.2.hold⟩
      · exact ⟨h.1, h.2.hold⟩
    · exact h
  | route init =>
    obtain ⟨hold, hr⟩ := wgPathInitRoute_path g.path init.ring (g.state = .up) init.relayUp now init.gen
    simp only [rxEvent, hr]
    exact ⟨h.1, h.2.hold⟩
  | setPathStaleCallback => exact h
  | path event => exact ⟨h.1, h.2.event h0 event⟩
  | pass env => exact absurd rfl (ha env)

end Invariant

lemma readsFrom_of_readings {now : ℤ} {e : RxEnv} (h : ∀ t ∈ e.readings, now ≤ t) :
    ReadsFrom now e := by
  refine ⟨fun b => h _ ?_, h _ (by simp [RxEnv.readings]), h _ (by simp [RxEnv.readings])⟩
  simp only [RxEnv.readings, List.mem_cons, List.mem_map]
  exact .inr (.inr ⟨b, mem_rxBlocks b, rfl⟩)

lemma readsFrom_of_admits {σ : RxState} {a : RxStep} {env : RxEnv} (hadm : σ.admits a)
    (ha : a.event = .pass env) :
    ReadsFrom a.now env ∧ (σ.clock : ℤ) ≤ env.tickUs ∧ env.tickUs ≤ a.endUs := by
  simp only [RxState.admits, ha, Bool.and_eq_true, List.all_eq_true, decide_eq_true_eq] at hadm
  have htick := hadm env.tickUs (by simp [RxEnv.readings])
  refine ⟨readsFrom_of_readings fun t ht => ?_, by omega, htick.2⟩
  have := (hadm t ht).1
  omega

lemma rxInv_run (E : RxRun) : ∀ k, k ≤ E.length → RxInv (E.state k).clock (E.state k).netif := by
  refine E.along ?_ ?_
  · rw [E.starts]
    refine ⟨nofun, nofun, ?_, ?_⟩
    · exact Int.natCast_nonneg _
    · exact Int.natCast_nonneg _
  · intro k hk ih
    have hstep := E.steps k hk
    unfold rxStep at hstep
    split_ifs at hstep with hadm
    rw [← Option.some.inj hstep]
    have h0 : (0 : ℤ) ≤ (E.act k).now := Int.natCast_nonneg _
    by_cases hpass : ∃ env, (E.act k).event = .pass env
    · obtain ⟨env, hev⟩ := hpass
      obtain ⟨hreads, hclock, hend⟩ := readsFrom_of_admits hadm hev
      rw [hev]
      have hinv := rxPass_inv hreads (h0.trans hreads.tick) rxBlocks _ ⟨ih.1, ih.2.mono hclock⟩
      exact ⟨hinv.1, hinv.2.mono hend⟩
    · have hclock : (E.state k).clock ≤ (E.act k).now ∧ (E.act k).now ≤ (E.act k).endUs := by
        unfold RxState.admits at hadm
        split at hadm
        case h_1 env hev => exact absurd ⟨env, hev⟩ hpass
        case h_2 => simpa using hadm
      have hnow : RxInv (E.act k).now (E.state k).netif :=
        ⟨ih.1, ih.2.mono (Int.ofNat_le.mpr hclock.1)⟩
      have hinv := rxEvent_inv h0 hnow (E.act k).event (not_exists.mp hpass)
      exact ⟨hinv.1, hinv.2.mono (Int.ofNat_le.mpr hclock.2)⟩

/-- A block of a pass acts only if the planned deadline is at most the time that the block reads,
some block acts if it is at most `now`, and after the pass, whatever its calls return, it lies
ahead. -/
theorem rx_timers_follow_deadline (E : RxRun) {k : ℕ} (hk : k ≤ E.length) {now : ℤ}
    (env : RxEnv) (hread : ∀ t ∈ env.readings, now ≤ t)
    (hclock : ((E.state k).clock : ℤ) ≤ env.tickUs) :
    (∀ b ∈ (rxPass now env rxBlocks (E.state k).netif).2,
      rxNextDeadlineUs (E.state k).netif ≤ readBy now env b) ∧
    (rxNextDeadlineUs (E.state k).netif ≤ now →
      ∃ b, b ∈ (rxPass now env rxBlocks (E.state k).netif).2) ∧
    (now : WithTop ℤ) < rxNextDeadlineUs (rxPass now env rxBlocks (E.state k).netif).1 := by
  have hinv := rxInv_run E k hk
  have hreads := readsFrom_of_readings hread
  have hs : (E.state k).netif.path.sinceUs ≤ env.tickUs := hinv.2.2.2.trans hclock
  refine ⟨fun b hb => ?_, rxPass_acts hs hreads.tick, ?_⟩
  · obtain ⟨c, hdue, hle⟩ := rxPass_acted hreads ((Int.natCast_nonneg _).trans hclock) rxBlocks _
      ⟨hinv.1, hinv.2.mono hclock⟩ hb
    exact (due_deadline hs hdue).trans (WithTop.coe_le_coe.mpr hle)
  · rw [← ahead_all_iff]
    exact rxPass_ahead hreads rxBlocks _ (by decide) hinv.1 (fun _ => ⟨hinv.2.1, hs⟩)
      fun b hb => absurd (mem_rxBlocks b) hb

section Sample

def unbuiltInit (us : ℤ) : InitEnv :=
  ⟨us, false, false, ⟨⟨0, 0, 0⟩, ⟨0, 0, 0⟩, ⟨0, 0⟩, ⟨0, 0⟩⟩, 0⟩

/-- Every call fails, and the clock reads `us`. -/
def failing (us : ℤ) : RxEnv := ⟨fun _ => unbuiltInit us, us, false, us⟩

def startedRun : RxRun :=
  runOf ⟨.zero, 0⟩ rfl ⟨0, 0, .abortStart⟩
    [⟨1000000, 1000000, .start false (unbuiltInit 1000000)⟩] (by decide +kernel)

/-- The first retry is due two seconds after the start, and does not leave its timer due although
its INIT is not built either. -/
theorem first_retry_replans :
    (∃ b, b ∈ (rxPass 3000001 (failing 3000001) rxBlocks (startedRun.state 1).netif).2) ∧
      ((3000001 : ℤ) : WithTop ℤ) < rxNextDeadlineUs
        (rxPass 3000001 (failing 3000001) rxBlocks (startedRun.state 1).netif).1 := by
  have h := rx_timers_follow_deadline startedRun (k := 1) le_rfl (failing 3000001)
    (by decide +kernel : ∀ t ∈ (failing 3000001).readings, 3000001 ≤ t) (by decide +kernel)
  exact ⟨h.2.1 (by decide +kernel), h.2.2⟩

def roamedRun : RxRun :=
  runOf ⟨.zero, 0⟩ rfl ⟨0, 0, .abortStart⟩
    [⟨1000000, 1000000, .start true (unbuiltInit 1000000)⟩,
      ⟨2040000, 2040000, .path (.endpointChange ⟨1, 41641⟩)⟩] (by decide +kernel)

/-- The packet that arrives at two seconds changes the peer's endpoint 40 ms later: the path tick of
that pass pings, and the deadline lay behind the `now` of the pass. -/
theorem tick_acts_after_now :
    (roamedRun.state 2).admits ⟨2000000, 2040000, .pass (failing 2040000)⟩ = true ∧
      ((2000000 : ℤ) : WithTop ℤ) < rxNextDeadlineUs (roamedRun.state 2).netif ∧
      (rxPass 2000000 (failing 2040000) rxBlocks (roamedRun.state 2).netif).2 = [.pathTick] := by
  decide +kernel

end Sample

section Recv
variable {now deadline : ℤ} {tick : UInt32}

lemma roundedTicks {T : ℕ} (hT : 0 < T) (rem : ℕ) :
    rem ≤ (rem + T * 1000 - 1) / (T * 1000) * T * 1000 ∧
      (rem + T * 1000 - 1) / (T * 1000) * T * 1000 < rem + T * 1000 := by
  have hpos : 0 < T * 1000 := by omega
  have hle := Nat.div_mul_le_self (rem + T * 1000 - 1) (T * 1000)
  have hlt := Nat.lt_div_mul_add (a := rem + T * 1000 - 1) hpos
  rw [← Nat.mul_assoc] at hle hlt
  omega

lemma toNat_thousandfold (x : UInt32) : (x.toUInt64 * 1000).toNat = x.toNat * 1000 := by
  have hx := x.toNat_lt
  rw [UInt64.toNat_mul, UInt32.toNat_toUInt64]
  exact Nat.mod_eq_of_lt (show x.toNat * 1000 < 2 ^ 64 by omega)

lemma wgRecvTimeoutMs_toNat (cap : UInt32) (hd : deadline - now < 2 ^ 63) (ht : 0 < tick.toNat) :
    (wgRecvTimeoutMs now deadline cap tick).toNat =
      if deadline ≤ now then tick.toNat
      else if max cap.toNat tick.toNat * 1000 ≤ (deadline - now).toNat then max cap.toNat tick.toNat
      else min (((deadline - now).toNat + tick.toNat * 1000 - 1) / (tick.toNat * 1000) * tick.toNat +
        tick.toNat) (max cap.toNat tick.toNat) := by
  have htick : tick ≠ 0 := by
    rintro rfl
    cases ht
  obtain ⟨c, hc, hcap⟩ : ∃ c : UInt32, (if cap < tick then tick else cap) = c ∧
      c.toNat = max cap.toNat tick.toNat := by
    refine ⟨_, rfl, ?_⟩
    split_ifs with h <;> rw [UInt32.lt_iff_toNat_lt] at h <;> omega
  simp only [wgRecvTimeoutMs, if_neg htick, hc, ← hcap]
  split
  · rfl
  obtain ⟨rem, hrem⟩ : ∃ rem, (deadline - now).toNat = rem := ⟨_, rfl⟩
  have hword : (UInt64.ofNat rem).toNat = rem := UInt64.toNat_ofNat_of_lt' (by
    change rem < 2 ^ 64
    omega)
  rw [hrem]
  simp only [ge_iff_le, UInt64.le_iff_toNat_le, toNat_thousandfold, hword]
  split
  · rfl
  have hC := c.toNat_lt
  obtain ⟨-, hround⟩ := roundedTicks ht rem
  have hsum : (UInt64.ofNat rem + tick.toUInt64 * 1000 - 1).toNat = rem + tick.toNat * 1000 - 1 := by
    rw [UInt64.toNat_sub_of_le _ _ (UInt64.le_iff_toNat_le.mpr ?_), UInt64.toNat_add,
      toNat_thousandfold, hword, Nat.mod_eq_of_lt (by omega)]
    · rfl
    · rw [UInt64.toNat_add, toNat_thousandfold, hword, Nat.mod_eq_of_lt (by omega)]
      change 1 ≤ _
      omega
  generalize hq : (rem + tick.toNat * 1000 - 1) / (tick.toNat * 1000) = q at hround ⊢
  have hqT : q ≤ q * tick.toNat := Nat.le_mul_of_pos_right q ht
  have hms : (((UInt64.ofNat rem + tick.toUInt64 * 1000 - 1) / (tick.toUInt64 * 1000) + 1) *
      tick.toUInt64).toNat = q * tick.toNat + tick.toNat := by
    rw [UInt64.toNat_mul, UInt64.toNat_add, UInt64.toNat_div, hsum, toNat_thousandfold, hq,
      UInt32.toNat_toUInt64]
    change (q + 1) % 2 ^ 64 * tick.toNat % 2 ^ 64 = _
    rw [Nat.mod_eq_of_lt (show q + 1 < 2 ^ 64 by omega), Nat.succ_mul]
    exact Nat.mod_eq_of_lt (by omega)
  simp only [gt_iff_lt, UInt64.lt_iff_toNat_lt, hms, UInt32.toNat_toUInt64]
  split
  · omega
  · rw [UInt64.toNat_toUInt32, hms, Nat.mod_eq_of_lt (by omega)]
    omega

lemma freertosWait_ticks {ms : UInt32} {k us : ℕ} (ht : 0 < tick.toNat)
    (hms : ms.toNat = k * tick.toNat + tick.toNat) (h : FreertosWait tick ms us) :
    k * tick.toNat * 1000 ≤ us ∧ us ≤ k * tick.toNat * 1000 + tick.toNat * 1000 := by
  have hticks : ms.toNat / tick.toNat = k + 1 := by
    rw [hms, ← Nat.succ_mul, Nat.mul_div_cancel _ ht]
  rw [FreertosWait, hticks, Nat.add_sub_cancel, Nat.succ_mul, ← Nat.mul_assoc] at h
  exact h

/-- The timeout is at least one tick and at most the cap. A wait that is not cut by the cap ends behind the
deadline, at most two ticks late. -/
theorem recv_timeout_rounds_up (now deadline : ℤ) (hd : deadline - now < 2 ^ 63) (cap tick : UInt32)
    (ht : 0 < tick.toNat) :
    wgRecvTimeoutMs now deadline cap tick ≠ 0 ∧
    (wgRecvTimeoutMs now deadline cap tick).toNat ≤ max cap.toNat tick.toNat ∧
    (wgRecvTimeoutMs now deadline cap tick ≠ cap → tick ≤ cap ∨ deadline ≤ now →
      ∀ us, FreertosWait tick (wgRecvTimeoutMs now deadline cap tick) us →
        deadline ≤ now + us ∧
        now + us ≤ if deadline ≤ now then now + tick.toNat * 1000
          else deadline + 2 * (tick.toNat * 1000)) := by
  have hms := wgRecvTimeoutMs_toNat cap hd ht
  obtain ⟨ms, hdef⟩ : ∃ ms, wgRecvTimeoutMs now deadline cap tick = ms := ⟨_, rfl⟩
  rw [hdef] at hms ⊢
  obtain ⟨hle, hlt⟩ := roundedTicks ht (deadline - now).toNat
  refine ⟨?_, ?_, fun hcap hticks us hus => ?_⟩
  · rintro rfl
    split_ifs at hms <;> change 0 = _ at hms <;> omega
  · split_ifs at hms <;> omega
  · split at hms
    · rename_i hover
      have hspan := freertosWait_ticks (k := 0) ht (by omega) hus
      rw [if_pos hover]
      omega
    · rename_i hahead
      have hcap' : tick.toNat ≤ cap.toNat := UInt32.le_iff_toNat_le.mp (hticks.resolve_right hahead)
      have hne : ms.toNat ≠ cap.toNat := fun h => hcap (UInt32.toNat_inj.mp h)
      generalize ((deadline - now).toNat + tick.toNat * 1000 - 1) / (tick.toNat * 1000) = k at *
      have hspan := freertosWait_ticks (k := k) ht (by split at hms <;> omega) hus
      rw [if_neg hahead]
      omega

theorem recv_timeout_of_next_tick :
    wgRecvTimeoutMs 0 10001 1000 10 = 30 ∧
      ∀ us, FreertosWait 10 30 us → (10001 : ℤ) ≤ 0 + us ∧ (0 : ℤ) + us ≤ 10001 + 2 * 10000 :=
  ⟨by decide, (recv_timeout_rounds_up 0 10001 (by decide) 1000 10 (by decide)).2.2 (by decide)
    (.inl (by decide))⟩

theorem cap_below_tick_wakes_early :
    wgRecvTimeoutMs 0 5000 3 10 ≠ 3 ∧
      ∃ us, FreertosWait 10 (wgRecvTimeoutMs 0 5000 3 10) us ∧ (0 : ℤ) + us < 5000 :=
  ⟨by decide, 0, ⟨by decide, by decide⟩, by decide⟩

end Recv

end TinyLink.Proofs
