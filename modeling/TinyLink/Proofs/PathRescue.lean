import TinyLink.Proofs.PathHistory

/-!
# A lapse is never left without its re-send

One event asks for the re-send exactly when it takes the path out of a pending lapse, except at
the quiet exits.
-/

namespace TinyLink.Proofs
open StepSystem

variable {quiet : Prop} {q : WgPath} {r : WgPath × WgPathAct}

/-- The quiet exits as the code reads them. -/
def QuietStep (p : WgPath) (e : PathEvent) : Prop :=
  (∃ args, e = .pong args ∧ args.fromCurrent = true ∧
      (p.why = .idle ∨ (p.why = .answer ∧ p.lapseFromUs ≤ p.peerWgUs))) ∨
    (e.isWgPacket = true ∧ p.why = .doubt ∧ p.doubts < 2)

/-- `r` is what an event that exits quietly when `quiet` holds makes of `p`. -/
def RescueRule (p : WgPath) (r : WgPath × WgPathAct) (quiet : Prop) : Prop :=
  (r.2.rescue = true ↔ p.lapsePending = true ∧ r.1.lapsePending = false ∧ ¬ quiet) ∧
    (p.lapsePending = true → quiet → r.1.lapsePending = false)

section Step
variable (p : WgPath) (now : ℤ)

lemma rescueRule_same (hm : q.mode = p.mode) (hw : q.why = p.why) {act : WgPathAct}
    (ha : act.rescue = false) (hq : p.lapsePending = true → ¬ quiet) :
    RescueRule p (q, act) quiet := by
  have hl : q.lapsePending = p.lapsePending := by
    simp only [WgPath.lapsePending, hm, hw]
  refine ⟨?_, ?_⟩
  · rw [ha, hl]
    constructor
    · intro h
      cases h
    · rintro ⟨h1, h2, _⟩
      rw [h1] at h2
      cases h2
  · intro h1 h2
    exact absurd h2 (hq h1)

lemma rescueRule_of_not_pending (h : p.lapsePending = false)
    (ha : r.2.rescue = false) (quiet : Prop) : RescueRule p r quiet := by
  refine ⟨?_, ?_⟩
  · rw [ha, h]
    constructor
    · intro h'
      cases h'
    · rintro ⟨h', _⟩
      cases h'
  · intro h'
    rw [h] at h'
    cases h'

lemma rescueRule_exit (h : p.lapsePending) (ha : r.2.rescue)
    (hr : r.1.lapsePending = false) (hq : ¬ quiet) : RescueRule p r quiet :=
  ⟨⟨fun _ => ⟨h, hr, hq⟩, fun _ => ha⟩, fun _ h' => absurd h' hq⟩

lemma rescueRule_quiet (ha : r.2.rescue = false)
    (hr : r.1.lapsePending = false) (hq : quiet) : RescueRule p r quiet := by
  refine ⟨?_, fun _ _ => hr⟩
  constructor
  · intro h
    rw [ha] at h
    cases h
  · rintro ⟨_, _, h⟩
    exact absurd hq h

lemma not_pending_of_mode (h : q.mode ≠ .dual) : q.lapsePending = false := by
  simp [WgPath.lapsePending, h]

lemma pending_of_inDoubt (h : p.inDoubt) : p.lapsePending = true := by
  rw [inDoubt_iff] at h
  simp [WgPath.lapsePending, h.1, h.2]

lemma not_inDoubt_why (h : p.inDoubt = false) (hl : p.lapsePending) : p.why ≠ .doubt := by
  intro hw
  rw [lapsePending_iff] at hl
  rw [WgPath.inDoubt, hl.1, hw] at h
  cases h

lemma not_quietStep {e : PathEvent} (hpong : ∀ args, e = .pong args → args.fromCurrent = true →
      p.why ≠ .idle ∧ (p.why = .answer → p.peerWgUs < p.lapseFromUs))
    (hpacket : e.isWgPacket = true → p.why = .doubt → 2 ≤ p.doubts) : ¬ QuietStep p e := by
  rintro (⟨args, he, hf, hw | ⟨hw, hle⟩⟩ | ⟨he, hw, hlt⟩)
  · exact (hpong args he hf).1 hw
  · exact absurd hle (not_le.mpr ((hpong args he hf).2 hw))
  · exact absurd hlt (not_lt.mpr (hpacket he hw))

lemma rescueRule_rescued (h : Rescued p now true r)
    (hq : q.lapsePending = false) {act : WgPathAct} (ha : act.rescue = r.2.rescue)
    (hno : ¬ quiet) : RescueRule p (q, act) quiet := by
  cases h with
  | pending hl => exact rescueRule_exit p hl ha hq hno
  | none hl => exact rescueRule_of_not_pending p (hl rfl) ha quiet

section
attribute [local irreducible] wgPathConfirm

lemma rescueRule_pathEvent {e : PathEvent} (he : e.asks) :
    RescueRule p (pathEvent p now e) (QuietStep p e) := by
  have hmove := pathEvent_move p now e
  have hdirect {r : WgPath × WgPathAct} (hm : p.mode = .direct) (ha : r.2.rescue = false) :
      RescueRule p r (QuietStep p e) :=
    rescueRule_of_not_pending p (not_pending_of_mode (by simp [hm])) ha _
  have hconfirmed (q : WgPath) : (wgPathConfirm q now).lapsePending = false :=
    not_pending_of_mode (by simp)
  generalize pathEvent p now e = r at hmove ⊢
  cases hmove with
  | startsOver hs => rcases hs with ⟨_, _, rfl⟩ | ⟨rfl, _⟩ <;> cases he
  | setManaged => cases he
  | still hs =>
    refine rescueRule_same p rfl rfl rfl fun _ => not_quietStep p ?_ ?_
    · rcases hs with rfl | ⟨_, rfl⟩ <;> rintro _ ⟨⟩
    · rcases hs with rfl | ⟨_, rfl⟩ <;> rintro ⟨⟩
  | lapses _ hl | sendsLapsed hl => exact hdirect hl.1 rfl
  | sends | pings =>
    exact rescueRule_same p rfl rfl rfl fun _ => not_quietStep p (by rintro _ ⟨⟩) (by rintro ⟨⟩)
  | tests _ hr =>
    have hq : ¬ QuietStep p .tick := not_quietStep p (by rintro _ ⟨⟩) (by rintro ⟨⟩)
    cases hr <;> exact rescueRule_same p rfl rfl rfl fun _ => hq
  | silent hd hr =>
    have hq : ¬ QuietStep p .tick := not_quietStep p (by rintro _ ⟨⟩) (by rintro ⟨⟩)
    cases hr <;> exact rescueRule_exit p (pending_of_inDoubt p hd) rfl rfl hq
  | dies _ _ hr | moves _ hr =>
    refine rescueRule_rescued p now hr ?_ ?_ (not_quietStep p (by rintro _ ⟨⟩) (by rintro ⟨⟩))
    · rfl
    · rfl
  | reprobes hm => exact rescueRule_of_not_pending p (not_pending_of_mode (by simp [hm])) rfl _
  | resolves hp hd hlt =>
    exact rescueRule_quiet p rfl (hconfirmed _) (.inr ⟨hp.isWgPacket, ((inDoubt_iff p).mp hd).2, hlt⟩)
  | undelivered hp hd hle =>
    refine rescueRule_exit p (pending_of_inDoubt p hd) rfl rfl (not_quietStep p ?_ fun _ _ => hle)
    cases hp <;> rintro _ ⟨⟩
  | heard hp hd =>
    have hq : p.lapsePending = true → ¬ QuietStep p e := fun hl =>
      not_quietStep p (by cases hp <;> rintro _ ⟨⟩) fun _ hw => absurd hw (not_inDoubt_why p hd hl)
    cases hp <;> exact rescueRule_same p rfl rfl rfl hq
  | restarts _ hm | proves hm => exact hdirect hm rfl
  | held _ hh =>
    simp only [wgPathRetestHold, Bool.and_eq_true, decide_eq_true_eq] at hh
    exact rescueRule_of_not_pending p (not_pending_of_mode (by simp [hh.1.1])) rfl _
  | answers _ hd =>
    have hw := ((inDoubt_iff p).mp hd).2
    exact rescueRule_same p rfl rfl rfl fun _ => not_quietStep p (by simp [hw]) (by rintro ⟨⟩)
  | doubts a ho =>
    obtain ⟨hdual, hw, hlt⟩ := ho
    have hq : ¬ QuietStep p (.pong a) :=
      not_quietStep p (fun _ _ _ => ⟨by simp [hw], fun _ => hlt⟩) (by rintro ⟨⟩)
    have hpend : (wgPathEnterDoubt (p.setRtt a.rttUs now) now).lapsePending = true :=
      (lapsePending_iff _).mpr ⟨hdual, .inr (.inr rfl)⟩
    refine ⟨⟨by rintro ⟨⟩, fun h => ?_⟩, fun _ h => absurd h hq⟩
    exact absurd (hpend.symm.trans h.2.1) (by decide)
  | confirms a _ hf hd ho =>
    cases hl : p.lapsePending with
    | false => exact rescueRule_of_not_pending p hl rfl _
    | true =>
      refine rescueRule_quiet p rfl (hconfirmed p) (.inl ⟨a, rfl, hf, ?_⟩)
      obtain ⟨hdual, hw | hw | hw⟩ := (lapsePending_iff p).mp hl
      · exact .inr ⟨hw, not_lt.mp fun hlt => ho ⟨hdual, hw, hlt⟩⟩
      · exact .inl hw
      · exact absurd hw (not_inDoubt_why p hd hl)
  | roams a _ hf hr =>
    have ha : a.hasAct = true := he
    rw [ha] at hr
    refine rescueRule_rescued p now hr ?_ rfl (not_quietStep p ?_ (by rintro ⟨⟩))
    · exact hconfirmed _
    · rintro _ ⟨⟩ h
      simp [hf] at h
  | keepsCand a hf =>
    refine rescueRule_same p rfl rfl rfl fun _ => not_quietStep p ?_ (by rintro ⟨⟩)
    rintro _ ⟨⟩ h
    simp [hf] at h

end

end Step

section Run
variable {E : PathRun} {k : ℕ}

lemma quietExit_iff (hk : k ≤ E.length) (hl : (E.pathAt k).lapsePending) :
    E.QuietExit k ↔ QuietStep (E.pathAt k) (E.act k).event := by
  have hmode := ((lapsePending_iff _).mp hl).1
  have hanswer : (E.pathAt k).why = .answer →
      (E.HeardSince k (E.pathAt k).lapseFromUs ↔ (E.pathAt k).lapseFromUs ≤ (E.pathAt k).peerWgUs) :=
    fun hw => heardSince_iff hk (lapseFrom_frame hk hmode hw).1
  unfold PathRun.QuietExit QuietStep
  rw [fewDoubts_iff hk]
  constructor
  · rintro (⟨args, he, hf, hw | ⟨hw, hh⟩⟩ | h)
    · exact .inl ⟨args, he, hf, .inl hw⟩
    · exact .inl ⟨args, he, hf, .inr ⟨hw, (hanswer hw).mp hh⟩⟩
    · exact .inr h
  · rintro (⟨args, he, hf, hw | ⟨hw, hh⟩⟩ | h)
    · exact .inl ⟨args, he, hf, .inl hw⟩
    · exact .inl ⟨args, he, hf, .inr ⟨hw, (hanswer hw).mpr hh⟩⟩
    · exact .inr h

/-- An event asks for the re-send if and only if it takes the path out of a pending lapse and is no
quiet exit; and an answer lapse counts from a data frame that went direct only. -/
theorem rescue_iff_leaves_lapse (E : PathRun) {k : ℕ} (hk : k < E.length)
    (he : (E.act k).event.asks = true) :
    ((E.actAt k).rescue = true ↔ (E.pathAt k).lapsePending = true ∧
        (E.pathAt (k + 1)).lapsePending = false ∧ ¬ E.QuietExit k) ∧
      ((E.pathAt k).lapsePending = true → E.QuietExit k → (E.pathAt (k + 1)).lapsePending = false) ∧
      ((E.pathAt k).lapsePending = true → (E.pathAt k).why = .answer →
        E.FrameAt k (E.pathAt k).lapseFromUs) := by
  obtain ⟨hiff, hexit⟩ := rescueRule_pathEvent (E.pathAt k) (E.timeAt k) he
  rw [← pathAt_succ hk] at hiff hexit
  refine ⟨?_, ?_, ?_⟩
  · rw [PathRun.actAt, hiff]
    constructor
    · rintro ⟨hl, hn, hq⟩
      exact ⟨hl, hn, fun h => hq ((quietExit_iff hk.le hl).mp h)⟩
    · rintro ⟨hl, hn, hq⟩
      exact ⟨hl, hn, fun h => hq ((quietExit_iff hk.le hl).mpr h)⟩
  · intro hl hq
    exact hexit hl ((quietExit_iff hk.le hl).mp hq)
  · intro hl hw
    exact (lapseFrom_frame hk.le ((lapsePending_iff _).mp hl).1 hw).2

end Run

section Sample

def deadLapse : List PathStep :=
  [⟨1000000, currentPong⟩, ⟨2000000, .send true⟩, ⟨15000000, .tick⟩, ⟨21000000, .tick⟩]

def deadLapseRun : PathRun := runOf answerStart answerStart_started ⟨0, .tick⟩ deadLapse rfl

theorem dead_lapse_is_rescued : (deadLapseRun.actAt 3).rescue = true ↔
    (deadLapseRun.pathAt 3).lapsePending = true ∧ (deadLapseRun.pathAt 4).lapsePending = false ∧
      ¬ deadLapseRun.QuietExit 3 :=
  (rescue_iff_leaves_lapse deadLapseRun (by decide) rfl).1

example : (deadLapseRun.actAt 3).rescue = true := rfl

end Sample

end TinyLink.Proofs
