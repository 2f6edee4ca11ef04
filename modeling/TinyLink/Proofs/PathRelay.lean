import TinyLink.Proofs.PathSteps
import TinyLink.WgTx
import Mathlib.Tactic.IntervalCases

/-!
# Only direct delivery proves the direct path

`last_relay_data_us` is at least the time of every data frame sent via DERP and of every re-send.
-/

namespace TinyLink.Proofs
open StepSystem

variable {σ τ : TxState} {q : WgPath} {now : ℕ}

section Stamp
variable (p : WgPath) (now : ℤ)

/-- The stamp stays or moves to now, and moves when a re-send is asked for. -/
def StampRule (p : WgPath) (r : WgPath × WgPathAct) (now : ℤ) : Prop :=
  (r.1.lastRelayDataUs = p.lastRelayDataUs ∨ r.1.lastRelayDataUs = now) ∧
    (r.2.rescue = true → r.1.lastRelayDataUs = now)

lemma stampRule_same (h : q.lastRelayDataUs = p.lastRelayDataUs) {act : WgPathAct}
    (ha : act.rescue = false) : StampRule p (q, act) now := by
  refine ⟨.inl h, ?_⟩
  intro hr
  rw [ha] at hr
  cases hr

lemma stampRule_rescued {r : WgPath × WgPathAct} {hasAct : Bool} (h : Rescued p now hasAct r)
    (hq : q.lastRelayDataUs = r.1.lastRelayDataUs) {act : WgPathAct}
    (ha : act.rescue = r.2.rescue) : StampRule p (q, act) now := by
  cases h with
  | pending => exact ⟨.inr hq, fun _ => hq⟩
  | none => exact stampRule_same p now hq ha

lemma stampRule_pathEvent {e : PathEvent} (he : e.isAround) :
    StampRule p (pathEvent p now e) now := by
  have hmove := pathEvent_move p now e
  generalize pathEvent p now e = r at hmove ⊢
  cases hmove with
  | startsOver hs => rcases hs with ⟨_, _, rfl⟩ | ⟨rfl, _⟩ <;> cases he
  | setManaged | sends | sendsLapsed => cases he
  | tests _ hr => cases hr <;> exact stampRule_same p now rfl rfl
  | silent | undelivered => exact ⟨.inr rfl, fun _ => rfl⟩
  | resolves hp => cases hp <;> exact ⟨.inl (confirm_lastRelay _ now), by rintro ⟨⟩⟩
  | heard hp | restarts hp => cases hp <;> exact stampRule_same p now rfl rfl
  | dies _ _ hr | moves _ hr => exact stampRule_rescued p now hr rfl rfl
  | confirms => exact ⟨.inl (confirm_lastRelay p now), by rintro ⟨⟩⟩
  | roams _ _ _ hr => exact stampRule_rescued p now hr (confirm_lastRelay _ now) rfl
  | _ => exact stampRule_same p now rfl rfl

lemma onSend_stamp (data : Bool) :
    ((wgPathOnSend p now data).1.lastRelayDataUs = p.lastRelayDataUs ∨
        (wgPathOnSend p now data).1.lastRelayDataUs = now) ∧
      (data = true → (wgPathOnSend p now data).2.2 ≠ .direct →
        (wgPathOnSend p now data).1.lastRelayDataUs = now) := by
  have hanswer : (wgPathCheckAnswer p now).1.lastRelayDataUs = p.lastRelayDataUs := by
    grind [wgPathCheckAnswer]
  have hidle : ∀ q : WgPath, (wgPathCheckIdle q now).1.lastRelayDataUs = q.lastRelayDataUs := by
    grind [wgPathCheckIdle]
  cases hm : p.managed with
  | false =>
    rw [onSend_unmanaged p now data hm]
    exact ⟨.inl rfl, fun _ h => absurd rfl h⟩
  | true =>
    cases data with
    | false =>
      rw [onSend_keepalive p now hm]
      exact ⟨.inl hanswer, fun h => by cases h⟩
    | true =>
      rw [onSend_data p now hm]
      refine ⟨?_, ?_⟩
      · simp only [wgPathNoteData]
        split
        · exact .inr rfl
        · left
          rw [hidle, hanswer]
      · intro _ hne
        simp only [wgPathNoteData]
        rw [if_pos hne]

end Stamp

section Run

/-- A real time, 0 being the source's "never", that the stamp has reached. -/
def Stamped (p : WgPath) (t : ℕ) : Prop := 0 < t ∧ (t : ℤ) ≤ p.lastRelayDataUs

lemma Stamped.mono {p : WgPath} {t : ℕ} (h : Stamped p t)
    (hpq : p.lastRelayDataUs ≤ q.lastRelayDataUs) : Stamped q t :=
  ⟨h.1, h.2.trans hpq⟩

def TxState.RelaysNext (σ : TxState) (s : TxSending) : Prop :=
  σ.sending = some s ∧ s.item.data = true ∧ s.mode ≠ .direct

/-- The stamp has reached every frame sent via DERP and every order of a re-send. -/
structure StampCovers (σ : TxState) : Prop where
  handed : ∀ h ∈ σ.handed, h.route = .routed → Stamped σ.path h.takenUs
  orders : ∀ o ∈ σ.orders, Stamped σ.path o
  sending : ∀ s, TxState.RelaysNext σ s → Stamped σ.path s.takenUs

lemma StampCovers.keep (h : StampCovers σ)
    (hstamp : σ.path.lastRelayDataUs ≤ τ.path.lastRelayDataUs) (hhanded : τ.handed = σ.handed)
    (horders : τ.orders = σ.orders) (hsending : τ.sending = σ.sending) : StampCovers τ := by
  refine ⟨?_, ?_, ?_⟩
  · intro x hx hroute
    rw [hhanded] at hx
    exact (h.handed x hx hroute).mono hstamp
  · intro o ho
    rw [horders] at ho
    exact (h.orders o ho).mono hstamp
  · intro s hs
    unfold TxState.RelaysNext at hs
    rw [hsending] at hs
    exact (h.sending s hs).mono hstamp

lemma stampCovers_take (hpos : 0 < now) (h : StampCovers σ)
    (hle : σ.path.lastRelayDataUs ≤ now) (it : WgTxItem) : StampCovers (txTake σ now it) := by
  unfold txTake
  split
  · exact h
  · obtain ⟨hmove, hdata⟩ := onSend_stamp σ.path now it.data
    have hstamp : σ.path.lastRelayDataUs ≤ (wgPathOnSend σ.path now it.data).1.lastRelayDataUs := by
      omega
    refine ⟨?_, ?_, ?_⟩
    · intro x hx hroute
      exact (h.handed x hx hroute).mono hstamp
    · intro o ho
      exact (h.orders o ho).mono hstamp
    · rintro s ⟨hs, hd, hmode⟩
      obtain rfl := Option.some.inj hs
      have hrelay : (wgPathOnSend σ.path now it.data).2.2 ≠ .direct := by
        intro hdirect
        apply hmode
        simp only [hdirect, ite_self]
      exact ⟨hpos, (hdata hd hrelay).ge⟩

lemma stampCovers_finish {s : TxSending} (h : StampCovers σ)
    (hs : σ.sending = some s) (now : ℕ) (sendtoOk relayOk : Bool) :
    StampCovers (txFinish σ now s sendtoOk relayOk) := by
  have hidle : StampCovers { σ with sending := none } :=
    ⟨h.handed, h.orders, fun _ hn => by cases hn.1⟩
  have hkeep : StampCovers (rescueKeep { σ with sending := none } s) :=
    hidle.keep le_rfl rfl rfl rfl
  have hlog : ∀ route, (route = .routed → s.mode ≠ .direct) →
      StampCovers (logHandOff { σ with sending := none } now s route) := by
    intro route hroute
    unfold logHandOff
    split
    · next hd =>
      refine ⟨?_, hidle.orders, hidle.sending⟩
      intro x hx hx'
      rcases List.mem_cons.mp hx with rfl | hx
      · exact h.sending s ⟨hs, hd, hroute hx'⟩
      · exact hidle.handed x hx hx'
    · exact hidle
  cases hmode : s.mode with
  | relay | dual =>
    have hrouted := hlog .routed (fun _ => by simp [hmode])
    simp only [txFinish, hmode]
    split_ifs
    · exact hrouted
    · exact hkeep
    · exact hidle
  | direct =>
    have hfallback := hlog .fallback (fun h => by cases h)
    simp only [txFinish, hmode]
    split_ifs
    · exact hkeep
    · exact hidle
    · exact hfallback
    · exact hidle

section
attribute [local irreducible] wgRescueFlush

lemma rescue_frame (σ : TxState) (now leftUs : ℕ) (accepts : ℕ → Bool) :
    (txRescue σ now leftUs accepts).path = σ.path ∧
      (txRescue σ now leftUs accepts).orders = σ.orders ∧
      (txRescue σ now leftUs accepts).sending = σ.sending ∧
      ∀ h ∈ (txRescue σ now leftUs accepts).handed, h.route ≠ .rescue → h ∈ σ.handed := by
  simp only [txRescue]
  split
  · exact ⟨rfl, rfl, rfl, fun _ h _ => h⟩
  · refine ⟨rfl, rfl, rfl, ?_⟩
    intro x hx hroute
    rcases List.mem_append.mp hx with hx | hx
    · obtain ⟨_, _, rfl⟩ := List.mem_map.mp hx
      exact absurd rfl hroute
    · exact hx

end

lemma stampCovers_rescue (h : StampCovers σ) (now leftUs : ℕ) (accepts : ℕ → Bool) :
    StampCovers (txRescue σ now leftUs accepts) := by
  obtain ⟨hpath, horders, hsending, hhanded⟩ := rescue_frame σ now leftUs accepts
  refine ⟨?_, ?_, ?_⟩
  · intro x hx hroute
    rw [hpath]
    exact h.handed x (hhanded x hx (by simp [hroute])) hroute
  · rw [hpath, horders]
    exact h.orders
  · unfold TxState.RelaysNext
    rw [hpath, hsending]
    exact h.sending

lemma stampCovers_path (hpos : 0 < now) (h : StampCovers σ)
    (hle : σ.path.lastRelayDataUs ≤ now) {e : PathEvent} (he : e.isAround) :
    StampCovers (queueRescue { σ with path := (pathEvent σ.path now e).1 } now
      (pathEvent σ.path now e).2) := by
  obtain ⟨hmove, hrescue⟩ := stampRule_pathEvent σ.path now he
  have hstamp : σ.path.lastRelayDataUs ≤ (pathEvent σ.path now e).1.lastRelayDataUs := by omega
  have hmoved : StampCovers { σ with path := (pathEvent σ.path now e).1 } :=
    h.keep hstamp rfl rfl rfl
  unfold queueRescue
  split
  · next hr =>
    refine ⟨hmoved.handed, ?_, hmoved.sending⟩
    intro o ho
    rcases List.mem_cons.mp ho with rfl | ho
    · exact ⟨hpos, (hrescue hr).ge⟩
    · exact hmoved.orders o ho
  · exact hmoved

structure RelayInv (σ : TxState) : Prop where
  covers : StampCovers σ
  past : σ.path.lastRelayDataUs ≤ σ.clock

lemma finish_path (σ : TxState) (now : ℕ) (s : TxSending) (sendtoOk relayOk : Bool) :
    (txFinish σ now s sendtoOk relayOk).path = σ.path := by
  grind [txFinish, logHandOff, rescueKeep]

lemma relayInv_event {e : TxEvent} (hpos : 0 < now)
    (h : StampCovers σ) (hle : σ.path.lastRelayDataUs ≤ now) (hstep : txEvent σ now e = some τ) :
    StampCovers τ ∧ τ.path.lastRelayDataUs ≤ now := by
  cases e with
  | take it =>
    obtain ⟨_, rfl⟩ := guarded hstep
    refine ⟨stampCovers_take hpos h hle it, ?_⟩
    unfold txTake
    split
    · exact hle
    · have hmove := (onSend_stamp σ.path now it.data).1
      show (wgPathOnSend σ.path now it.data).1.lastRelayDataUs ≤ now
      omega
  | finish sendtoOk relayOk =>
    obtain ⟨s, hs, rfl⟩ := Option.map_eq_some_iff.mp hstep
    refine ⟨stampCovers_finish h hs now sendtoOk relayOk, ?_⟩
    rw [finish_path]
    exact hle
  | rescue leftUs accepts =>
    obtain ⟨_, rfl⟩ := guarded hstep
    refine ⟨stampCovers_rescue h now leftUs accepts, ?_⟩
    rw [(rescue_frame σ now leftUs accepts).1]
    exact hle
  | login | initBehindResend =>
    obtain rfl := Option.some.inj hstep
    exact ⟨h.keep le_rfl rfl rfl rfl, hle⟩
  | path e =>
    obtain ⟨he, rfl⟩ := guarded hstep
    refine ⟨stampCovers_path hpos h hle he, ?_⟩
    have hmove := (stampRule_pathEvent σ.path now he).1
    have hpath : (queueRescue { σ with path := (pathEvent σ.path now e).1 } now
        (pathEvent σ.path now e).2).path = (pathEvent σ.path now e).1 := by
      unfold queueRescue
      split <;> rfl
    rw [hpath]
    omega

lemma txStep_eq {a : TxStep} (h : txStep σ a = some τ) :
    σ.clock ≤ a.now ∧ ∃ σ', txEvent σ a.now a.event = some σ' ∧ τ = { σ' with clock := a.now } := by
  simp only [txStep, Option.ite_none_left_eq_some, Option.map_eq_some_iff, not_lt] at h
  obtain ⟨hle, σ', hevent, rfl⟩ := h
  exact ⟨hle, σ', hevent, rfl⟩

lemma relayInv_step {a : TxStep} (hpos : 0 < a.now) (h : RelayInv σ)
    (hstep : txStep σ a = some τ) : RelayInv τ := by
  obtain ⟨hclock, σ', hevent, rfl⟩ := txStep_eq hstep
  have hle : σ.path.lastRelayDataUs ≤ a.now := h.past.trans (by exact_mod_cast hclock)
  obtain ⟨hcovers, hpast⟩ := relayInv_event hpos h.covers hle hevent
  exact ⟨hcovers.keep le_rfl rfl rfl rfl, hpast⟩

lemma relayInv_run (E : TxRun) (hpos : ∀ k, k < E.length → 0 < (E.act k).now) :
    ∀ k, k ≤ E.length → RelayInv (E.state k) := by
  refine E.along (P := fun k => RelayInv (E.state k)) ?_ ?_
  · obtain ⟨now, managed, hasRelay, h⟩ := E.starts
    rw [h]
    refine ⟨⟨?_, ?_, ?_⟩, Int.natCast_nonneg now⟩
    · intro x hx
      cases hx
    · intro o ho
      cases ho
    · intro s hs
      cases hs.1
  · intro k hk ih
    exact relayInv_step (hpos k hk) ih (E.steps k hk)

lemma keepalive_step (E : TxRun) {k : ℕ} (hk : E.Keepalive k) :
    E.pathAt (k + 1) = (wgPathOnKeepalive (E.pathAt k) (E.timeAt k)).1 := by
  obtain ⟨_, σ', hevent, hnext⟩ := txStep_eq (E.steps k hk.1)
  rw [hk.2] at hevent
  simp only [txEvent, PathEvent.isAround, if_true, Option.some.injEq] at hevent
  unfold TxRun.pathAt
  rw [hnext, ← hevent]
  unfold queueRescue
  split <;> rfl

lemma resolve_keeps_counts (p : WgPath) (now : ℤ) : (wgPathResolve p now).1.doubts = p.doubts ∧
      (wgPathResolve p now).1.deliveredUs = p.deliveredUs := by
  grind [wgPathResolve, wgPathConfirm]

lemma Stamped.old {p : WgPath} {t : ℕ} {now : ℤ} (h : Stamped p t)
    (hp : wgPathProvesDirect p now) : (t : ℤ) + wgPathAnswerUs < now := by
  obtain ⟨hpos, hle⟩ := h
  simp only [wgPathProvesDirect, Bool.or_eq_true, decide_eq_true_eq, wgTimerDue_iff] at hp
  omega

/-- A keepalive that ends no doubt proves the direct path only in DIRECT, when every frame via DERP
and every re-send is a window old. One that ends a doubt counts nothing as delivered. -/
theorem keepalive_proves_direct_only (E : TxRun) (hpos : ∀ k, k < E.length → 0 < (E.act k).now)
    {k : ℕ} (hk : E.Keepalive k) :
    ((E.pathAt k).inDoubt = false → E.Proves k → (E.pathAt k).mode = .direct ∧
      (∀ h ∈ (E.state k).handed, h.route = .routed →
        (h.takenUs : ℤ) + wgPathAnswerUs < E.timeAt k) ∧
      ∀ o ∈ (E.state k).orders, (o : ℤ) + wgPathAnswerUs < E.timeAt k) ∧
    ((E.pathAt k).inDoubt = true → (E.pathAt (k + 1)).doubts = (E.pathAt k).doubts ∧
      (E.pathAt (k + 1)).deliveredUs = (E.pathAt k).deliveredUs) := by
  have hinv := (relayInv_run E hpos k hk.1.le).covers
  have hnext := keepalive_step E hk
  rcases keepalive_cases (E.pathAt k) (E.timeAt k) with ⟨hd, h⟩ | ⟨hd, hm, h⟩ | ⟨hm, hp, h⟩ |
    ⟨hm, _, h⟩
  · rw [h] at hnext
    refine ⟨fun hno => ?_, fun _ => ?_⟩
    · rw [hd] at hno
      cases hno
    · rw [hnext]
      exact resolve_keeps_counts (wgPathHeard (E.pathAt k) (E.timeAt k)) (E.timeAt k)
  · rw [h] at hnext
    refine ⟨fun _ hproves => ?_, fun hdoubt => ?_⟩
    · simp [TxRun.Proves, hnext, wgPathHeard] at hproves
    · rw [hd] at hdoubt
      cases hdoubt
  · refine ⟨fun _ _ => ⟨hm, ?_, ?_⟩, fun hdoubt => ?_⟩
    · intro x hx hroute
      exact (hinv.handed x hx hroute).old hp
    · intro o ho
      exact (hinv.orders o ho).old hp
    · rw [not_inDoubt_of_direct _ hm] at hdoubt
      cases hdoubt
  · rw [h] at hnext
    refine ⟨fun _ hproves => ?_, fun hdoubt => ?_⟩
    · simp [TxRun.Proves, hnext, wgPathHeard, WgPath.clearAwait] at hproves
    · rw [not_inDoubt_of_direct _ hm] at hdoubt
      cases hdoubt

end Run

section Samples

def relayStart : TxState :=
  ⟨wgPathInit (500000 : ℕ) true, 500000, true, .empty, false, false, none, [], []⟩

lemma relayStart_started : relayStart.Started := ⟨500000, true, true, rfl⟩

def dataItem : WgTxItem := ⟨[4], 1, false, true, true⟩

def samplePong : PathEvent := .pong ⟨20000, true, ⟨1, 41641⟩, false, false, true⟩

def doubtEnds : List TxStep :=
  [⟨1000000, .path samplePong⟩, ⟨2000000, .take dataItem⟩, ⟨2000000, .finish true true⟩,
    ⟨15000000, .path .tick⟩, ⟨15100000, .path samplePong⟩, ⟨16000000, .take dataItem⟩,
    ⟨16000000, .finish true true⟩, ⟨17000000, .path .keepalive⟩]

def doubtEndsRun : TxRun := runOf relayStart relayStart_started ⟨0, .login⟩ doubtEnds rfl

theorem doubt_end_renews_proof : ¬ ∀ (E : TxRun) (k : ℕ), E.Keepalive k → E.Proves k →
    ∀ h ∈ (E.state k).handed, (h.handedUs : ℤ) ≤ E.timeAt k →
      (h.handedUs : ℤ) + wgPathAnswerUs < E.timeAt k := by
  intro h
  have hproves : doubtEndsRun.Proves 7 := by
    left
    decide
  have hfar := h doubtEndsRun 7 ⟨by decide, rfl⟩ hproves ⟨.routed, 16000000, 16000000⟩
    (List.mem_singleton.mpr rfl) (by decide)
  revert hfar
  decide

def relayedFirst : List TxStep :=
  [⟨1000000, .take dataItem⟩, ⟨1000000, .finish true true⟩, ⟨2000000, .path samplePong⟩,
    ⟨14000000, .path .keepalive⟩]

def relayedFirstRun : TxRun := runOf relayStart relayStart_started ⟨0, .login⟩ relayedFirst rfl

theorem relayed_frame_is_old : relayedFirstRun.Proves 3 ∧
    (relayedFirstRun.state 3).handed.length = 1 ∧
    ∀ h ∈ (relayedFirstRun.state 3).handed, h.route = .routed →
      (h.takenUs : ℤ) + wgPathAnswerUs < relayedFirstRun.timeAt 3 := by
  have hpos : ∀ k, k < relayedFirstRun.length → 0 < (relayedFirstRun.act k).now := by
    intro k hk
    change k < 4 at hk
    interval_cases k <;> decide
  have hproves : relayedFirstRun.Proves 3 := by
    left
    decide
  have hdirect := (keepalive_proves_direct_only relayedFirstRun hpos ⟨by decide, rfl⟩).1 rfl hproves
  exact ⟨hproves, rfl, hdirect.2.1⟩

end Samples

end TinyLink.Proofs
