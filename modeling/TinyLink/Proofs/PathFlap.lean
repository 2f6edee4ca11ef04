import TinyLink.Proofs.PathDirect
import TinyLink.Proofs.PathHistory

/-!
# The endpoint does not flap

Two endpoints answer each ping round, in either order. Both orders compare the same two answers as
long as what the path remembers comes from these two, and `wg_path_better` never holds both ways.
-/

namespace TinyLink

/-- What one endpoint answers in every round. -/
structure PongAnswer where
  addr : Endpoint
  rttUs : UInt32
  isPrivate : Bool

def PongAnswer.beats (x y : PongAnswer) : Bool :=
  wgPathBetter x.rttUs x.isPrivate y.rttUs y.isPrivate

def PongAnswer.args (x : PongAnswer) (priv : Endpoint → Bool) (endpoint : Endpoint)
    (hasAct : Bool) : PongArgs :=
  ⟨x.rttUs, x.addr = endpoint, x.addr, x.isPrivate, priv endpoint, hasAct⟩

/-- Where a round leaves the endpoint: at the answer that beats the current one's. -/
def roundChoice (a b : PongAnswer) (endpoint : Endpoint) : Endpoint :=
  if endpoint = a.addr then if b.beats a then b.addr else a.addr
  else if endpoint = b.addr then if a.beats b then a.addr else b.addr
  else endpoint

def PathRun.AnswersAt (E : PathRun) (priv : Endpoint → Bool) (x : PongAnswer) (k : ℕ) : Prop :=
  ∃ hasAct, (E.act k).event = .pong (x.args priv (E.state k).endpoint hasAct)

def PathRun.MovesAt (E : PathRun) (k : ℕ) : Prop :=
  (E.state (k + 1)).endpoint ≠ (E.state k).endpoint

/-- Steps `start` to `stop`, DIRECT and valid, with `rounds` ping rounds in which `a` and `b` answer
in either order. -/
structure PongRounds (E : PathRun) (priv : Endpoint → Bool) (a b : PongAnswer) where
  start : ℕ
  stop : ℕ
  rounds : ℕ
  first : ℕ → ℕ
  second : ℕ → ℕ
  stop_le : stop ≤ E.length
  distinct : a.addr ≠ b.addr
  private_a : priv a.addr = a.isPrivate
  private_b : priv b.addr = b.isPrivate
  direct : ∀ k, start ≤ k → k ≤ stop → (E.pathAt k).mode = .direct
  valid : ∀ k, start ≤ k → k < stop → wgPathValid (E.pathAt k) (E.timeAt k) = true
  inside : ∀ j, j < rounds → start ≤ first j ∧ first j < second j ∧ second j < stop
  apart : ∀ j, j + 1 < rounds → second j < first (j + 1) ∧
    E.timeAt (second j) + wgPathRoundUs < E.timeAt (first (j + 1))
  within : ∀ j, j < rounds → E.timeAt (second j) ≤ E.timeAt (first j) + wgPathRoundUs
  answers : ∀ j, j < rounds →
    (E.AnswersAt priv a (first j) ∧ E.AnswersAt priv b (second j)) ∨
      (E.AnswersAt priv b (first j) ∧ E.AnswersAt priv a (second j))
  only : ∀ k args, start ≤ k → k < stop → (E.act k).event = .pong args →
    ∃ j, j < rounds ∧ (k = first j ∨ k = second j)

/-- Before the first round no candidate is live, and a live measurement is the answer of `a` or of
`b`. -/
structure PongRounds.Fresh {E : PathRun} {priv : Endpoint → Bool} {a b : PongAnswer}
    (R : PongRounds E priv a b) : Prop where
  noCand : (E.pathAt R.start).candValid = true →
    wgTimerDue (E.timeAt (R.first 0)) (E.pathAt R.start).cand.atUs wgPathRoundUs = true
  measured : (E.pathAt R.start).rttAtUs ≠ 0 →
    wgTimerDue (E.timeAt (R.first 0)) (E.pathAt R.start).rttAtUs wgPathRoundUs = false →
    ((E.state R.start).endpoint = a.addr ∧ (E.pathAt R.start).rttUs = a.rttUs) ∨
      ((E.state R.start).endpoint = b.addr ∧ (E.pathAt R.start).rttUs = b.rttUs)

end TinyLink

namespace TinyLink.Proofs
open StepSystem

variable {a b x y : PongAnswer} {p q : WgPath} {i : ℕ} {t : ℤ}

lemma better_asymm (aRttUs : UInt32) (aPriv : Bool) (bRttUs : UInt32) (bPriv : Bool) :
    ¬ (wgPathBetter aRttUs aPriv bRttUs bPriv = true ∧
      wgPathBetter bRttUs bPriv aRttUs aPriv = true) := by
  rintro ⟨h, h'⟩
  simp only [wgPathBetter, wgPathBetterMinUs, wgPathBetterPoints, wgPathPrivatePoints,
    decide_eq_true_eq, gt_iff_lt] at h h'
  split_ifs at h h' <;> omega

lemma beats_asymm (h : x.beats y) : y.beats x = false := by
  have hno := better_asymm x.rttUs x.isPrivate y.rttUs y.isPrivate
  simp only [PongAnswer.beats] at h ⊢
  simpa [h] using hno

section Choice
variable {endpoint : Endpoint}

lemma roundChoice_idem :
    roundChoice a b (roundChoice a b endpoint) = roundChoice a b endpoint := by
  have h : b.beats a = true → a.beats b = false := beats_asymm
  grind [roundChoice]

lemma roundChoice_moves (h : roundChoice a b endpoint ≠ endpoint) :
    (endpoint = a.addr ∧ b.beats a = true) ∨ (endpoint = b.addr ∧ a.beats b = true) := by
  grind [roundChoice]

end Choice

/-- What a ping round is judged by. -/
structure SameMemory (p q : WgPath) : Prop where
  rttUs : q.rttUs = p.rttUs
  rttAtUs : q.rttAtUs = p.rttAtUs
  candValid : q.candValid = p.candValid
  cand : q.cand = p.cand

lemma sameMemory_refl (p : WgPath) : SameMemory p p := ⟨rfl, rfl, rfl, rfl⟩

lemma SameMemory.trans {r : WgPath} (h : SameMemory p q) (h' : SameMemory q r) : SameMemory p r :=
  ⟨h'.rttUs.trans h.rttUs, h'.rttAtUs.trans h.rttAtUs, h'.candValid.trans h.candValid,
    h'.cand.trans h.cand⟩

section Events
variable {p : WgPath} {now : ℤ}

lemma quiet_sameMemory {e : PathEvent} (h : p.mode = .direct)
    (h' : (pathEvent p now e).1.mode = .direct) (he : ∀ args, e ≠ .pong args) :
    SameMemory p (pathEvent p now e).1 := by
  have hmove := pathEvent_move p now e
  generalize pathEvent p now e = r at hmove h' ⊢
  cases hmove with
  | startsOver | lapses | sendsLapsed | silent | dies | undelivered | moves => cases h'
  | tests hd | resolves _ hd => simp [not_inDoubt_of_direct p h] at hd
  | heard hp | restarts hp => cases hp <;> exact ⟨rfl, rfl, rfl, rfl⟩
  | held a | answers a | doubts a | confirms a | roams a | keepsCand a => exact absurd rfl (he a)
  | _ => exact ⟨rfl, rfl, rfl, rfl⟩

def CandLive (p : WgPath) (now : ℤ) : Prop :=
  p.candValid = true ∧ wgTimerDue now p.cand.atUs wgPathRoundUs = false

def RttLive (p : WgPath) (now : ℤ) : Prop :=
  p.rttAtUs ≠ 0 ∧ wgTimerDue now p.rttAtUs wgPathRoundUs = false

lemma CandLive.mono (h : CandLive p now) (ht : t ≤ now) : CandLive p t := by
  refine ⟨h.1, ?_⟩
  have := h.2
  rw [wgTimerDue_eq_false_iff] at this ⊢
  omega

lemma RttLive.mono (h : RttLive p now) (ht : t ≤ now) : RttLive p t := by
  refine ⟨h.1, ?_⟩
  have := h.2
  rw [wgTimerDue_eq_false_iff] at this ⊢
  omega

lemma SameMemory.candLive (h : SameMemory p q) : CandLive q now ↔ CandLive p now := by
  rw [CandLive, CandLive, h.candValid, h.cand]

lemma SameMemory.rttLive (h : SameMemory p q) : RttLive q now ↔ RttLive p now := by
  rw [RttLive, RttLive, h.rttAtUs]

end Events

section Pongs
variable {p : WgPath} {args : PongArgs}

def CurrentAnswers (p q : WgPath) (now : ℤ) (rttUs : UInt32) (isPrivate : Bool)
    (endpoint endpoint' : Endpoint) : Prop :=
  (CandLive p now ∧ wgPathBetter p.cand.rttUs p.cand.isPrivate rttUs isPrivate = true ∧
      endpoint' = p.cand.addr ∧ q.rttUs = p.cand.rttUs ∧ q.candValid = false) ∨
    (¬ (CandLive p now ∧ wgPathBetter p.cand.rttUs p.cand.isPrivate rttUs isPrivate = true) ∧
      endpoint' = endpoint ∧ q.rttUs = rttUs ∧ q.rttAtUs = now ∧ q.candValid = false)

lemma direct_pong_current (now : ℤ) (endpoint : Endpoint) (h : p.mode = .direct)
    (hf : args.fromCurrent) :
    CurrentAnswers p (wgPathOnPong p now args).1 now args.rttUs args.curPrivate endpoint
      (pongEndpoint p now args endpoint) := by
  have hhold : wgPathRetestHold p now = false := by simp [wgPathRetestHold, h]
  have hr : wgPathOnPong p now args =
      ((wgPathPongCurrent p now args).1, (wgPathPongCurrent p now args).2, .none) := by
    simp [wgPathOnPong, hhold, hf]
  have hrtt : ∀ q : WgPath, (wgPathConfirm q now).rttUs = q.rttUs ∧
      (wgPathConfirm q now).rttAtUs = q.rttAtUs := by
    grind [wgPathConfirm]
  by_cases hc : CandLive p now ∧
      wgPathBetter p.cand.rttUs p.cand.isPrivate args.rttUs args.curPrivate = true
  · left
    have hcur : wgPathPongCurrent p now args =
        ((((wgPathConfirm (p.setRtt args.rttUs now) now).dropCand).setRtt p.cand.rttUs
          p.cand.atUs).countRoam, .roamCand) := by
      obtain ⟨⟨hv, hl⟩, hb⟩ := hc
      simp [wgPathPongCurrent, WgPath.inDoubt, WgPath.setRtt, h, hv, hl, hb]
    refine ⟨hc.1, hc.2, ?_, ?_, ?_⟩
    · rw [pongEndpoint_of_roamCand endpoint (by rw [hr, hcur]), hr, hcur]
      simp
    all_goals rw [hr, hcur]; rfl
  · right
    have hcur : wgPathPongCurrent p now args =
        ((wgPathConfirm (p.setRtt args.rttUs now) now).dropCand, .confirmed) := by
      have hno : (p.candValid && !wgTimerDue now p.cand.atUs wgPathRoundUs &&
          wgPathBetter p.cand.rttUs p.cand.isPrivate args.rttUs args.curPrivate) = false := by
        simpa [CandLive, and_assoc] using hc
      simp only [wgPathPongCurrent, WgPath.inDoubt, WgPath.setRtt, h, hno]
      rfl
    refine ⟨hc, ?_, ?_, ?_, ?_⟩
    · apply pongEndpoint_of_stays <;> simp [hr, hcur]
    · rw [hr, hcur]
      exact (hrtt _).1
    · rw [hr, hcur]
      exact (hrtt _).2
    · rw [hr, hcur]
      rfl

def OtherAnswers (p q : WgPath) (now : ℤ) (x : PongAnswer) (isPrivate : Bool)
    (endpoint endpoint' : Endpoint) : Prop :=
  (RttLive p now ∧ wgPathBetter x.rttUs x.isPrivate p.rttUs isPrivate = true ∧
      endpoint' = x.addr ∧ q.rttUs = x.rttUs ∧ q.candValid = false) ∨
    (¬ (RttLive p now ∧ wgPathBetter x.rttUs x.isPrivate p.rttUs isPrivate = true) ∧
      endpoint' = endpoint ∧ (q = p.setCand ⟨x.isPrivate, x.addr, x.rttUs, now⟩ ∨
        CandLive p now ∧ q = p))

lemma direct_pong_other {now : ℤ} (endpoint : Endpoint) (hv : wgPathValid p now)
    (hf : args.fromCurrent = false) :
    OtherAnswers p (wgPathOnPong p now args).1 now ⟨args.src, args.rttUs, args.srcPrivate⟩
      args.curPrivate endpoint (pongEndpoint p now args endpoint) := by
  have hm : p.mode = .direct := by
    simp only [wgPathValid, Bool.and_eq_true, decide_eq_true_eq] at hv
    exact hv.1.1
  have hhold : wgPathRetestHold p now = false := by simp [wgPathRetestHold, hm]
  have hr : wgPathOnPong p now args = wgPathPongOther p now args := by
    simp [wgPathOnPong, hhold, hf]
  have htakes : wgPathTakes p now args = true ↔ RttLive p now ∧
      wgPathBetter args.rttUs args.srcPrivate p.rttUs args.curPrivate = true := by
    simp [wgPathTakes, hv, RttLive, and_assoc]
  by_cases ht : wgPathTakes p now args = true
  · left
    obtain ⟨hlive, hbetter⟩ := htakes.mp ht
    have hl : p.lapsePending = false := by simp [WgPath.lapsePending, hm]
    have hother : wgPathPongOther p now args =
        ((wgPathConfirm ((p.setRtt args.rttUs now).dropCand) now).countRoam, .roam, .none) := by
      simp [wgPathPongOther, ht, hl]
    refine ⟨hlive, hbetter, pongEndpoint_of_roam endpoint (by rw [hr, hother]), ?_⟩
    rw [hr, hother]
    grind [wgPathConfirm]
  · right
    have hno := mt htakes.mpr ht
    by_cases hkeep : (!p.candValid || wgTimerDue now p.cand.atUs wgPathRoundUs ||
        (args.srcPrivate && !p.cand.isPrivate) ||
        (args.srcPrivate = p.cand.isPrivate && args.rttUs < p.cand.rttUs)) = true
    · have hother : wgPathPongOther p now args =
          (p.setCand ⟨args.srcPrivate, args.src, args.rttUs, now⟩, .kept, .none) :=
        (if_neg ht).trans (if_pos hkeep)
      refine ⟨hno, ?_, .inl (by rw [hr, hother])⟩
      apply pongEndpoint_of_stays <;> simp [hr, hother]
    · have hother : wgPathPongOther p now args = (p, .kept, .none) :=
        (if_neg ht).trans (if_neg hkeep)
      have hlive : CandLive p now := by
        simp only [Bool.or_eq_true, not_or, Bool.not_eq_true', Bool.not_eq_true] at hkeep
        exact ⟨by simpa using hkeep.1.1.1, hkeep.1.1.2⟩
      refine ⟨hno, ?_, .inr ⟨hlive, by rw [hr, hother]⟩⟩
      apply pongEndpoint_of_stays <;> simp [hr, hother]

end Pongs

lemma proofUs_event (p : WgPath) (now : ℤ) (e : PathEvent) :
    (pathEvent p now e).1.proofUs = p.proofUs ∨ (pathEvent p now e).1.proofUs = 0 ∨
      (pathEvent p now e).1.proofUs = now := by
  have hmove := pathEvent_move p now e
  generalize pathEvent p now e = r at hmove ⊢
  cases hmove with
  | tests _ hr | silent _ hr => cases hr <;> exact .inl rfl
  | resolves hp | undelivered hp | heard hp | restarts hp => cases hp <;> grind [wgPathConfirm]
  | dies _ _ hr | moves _ hr | roams _ _ _ hr => cases hr <;> grind [wgPathConfirm]
  | _ => grind [wgPathNoteData, wgPathConfirm]

lemma proofUs_bounds (E : PathRun) : ∀ k, k ≤ E.length →
    0 ≤ (E.pathAt k).proofUs ∧ (E.pathAt k).proofUs ≤ (E.state k).clock := by
  refine E.along ?_ ?_
  · obtain ⟨now, managed, endpoint, h⟩ := E.starts
    rw [PathRun.pathAt, h]
    exact ⟨le_rfl, Int.natCast_nonneg now⟩
  · intro k hk ih
    have hle := clock_le hk
    rw [pathAt_succ hk, clock_succ hk]
    rcases proofUs_event (E.pathAt k) (E.timeAt k) (E.act k).event with h | h | h
    all_goals
      rw [h]
      omega

lemma timeAt_pos_of_valid {E : PathRun} {k : ℕ} (hk : k < E.length)
    (hv : wgPathValid (E.pathAt k) (E.timeAt k)) : 0 < E.timeAt k := by
  have hb := proofUs_bounds E k hk.le
  have hle := clock_le hk
  simp only [wgPathValid, Bool.and_eq_true, decide_eq_true_eq] at hv
  omega

/-- What the path remembers at `t` comes from `a` and `b`. -/
def FromAnswers (a b : PongAnswer) (p : WgPath) (endpoint : Endpoint) (t : ℤ) : Prop :=
  (CandLive p t → ∃ x, (x = a ∨ x = b) ∧ x.addr ≠ endpoint ∧ p.cand.addr = x.addr ∧
      p.cand.rttUs = x.rttUs ∧ p.cand.isPrivate = x.isPrivate) ∧
    (RttLive p t → ∃ x, (x = a ∨ x = b) ∧ endpoint = x.addr ∧ p.rttUs = x.rttUs)

lemma fromAnswers_measured {endpoint : Endpoint}
    (hx : x = a ∨ x = b) (hend : endpoint = x.addr) (hrtt : p.rttUs = x.rttUs)
    (hcand : p.candValid = false) : FromAnswers a b p endpoint t := by
  refine ⟨?_, fun _ => ⟨x, hx, hend, hrtt⟩⟩
  intro hlive
  rw [CandLive, hcand] at hlive
  cases hlive.1

lemma SameMemory.fromAnswers {endpoint : Endpoint}
    (h : SameMemory p q) (hp : FromAnswers a b p endpoint t) : FromAnswers a b q endpoint t := by
  rw [FromAnswers, h.candLive, h.rttLive, h.cand, h.rttUs]
  exact hp

lemma roundChoice_of_beats (hab : a.addr ≠ b.addr) (hx : x = a ∨ x = b)
    (hy : y = a ∨ y = b) (hne : x.addr ≠ y.addr) (hbeats : x.beats y) :
    roundChoice a b y.addr = x.addr := by
  grind [roundChoice]

section Rounds
variable {E : PathRun} {priv : Endpoint → Bool} {a b : PongAnswer} (R : PongRounds E priv a b)
  {x : PongAnswer} {k : ℕ} {t : ℤ}

include R

lemma rounds_lt_length (hk : k < R.stop) : k < E.length := lt_of_lt_of_le hk R.stop_le

lemma rounds_private (hx : x = a ∨ x = b) : priv x.addr = x.isPrivate := by
  rcases hx with rfl | rfl
  · exact R.private_a
  · exact R.private_b

lemma rounds_quiet (hs : R.start ≤ k) (hk : k < R.stop)
    (hq : ∀ args, (E.act k).event ≠ .pong args) :
    SameMemory (E.pathAt k) (E.pathAt (k + 1)) ∧ (E.state (k + 1)).endpoint = (E.state k).endpoint := by
  have hlt := rounds_lt_length R hk
  have hd' := R.direct (k + 1) (by omega) hk
  rw [pathAt_succ hlt] at hd'
  refine ⟨?_, ?_⟩
  · rw [pathAt_succ hlt]
    exact quiet_sameMemory (R.direct k hs hk.le) hd' hq
  · rw [endpoint_succ hlt]
    cases hact : (E.act k).event with
    | init | endpointChange => rw [hact] at hd'; cases hd'
    | pong args => exact absurd hact (hq args)
    | _ => rfl

lemma rounds_current (hs : R.start ≤ k) (hk : k < R.stop) (hact : E.AnswersAt priv x k)
    (hcur : (E.state k).endpoint = x.addr) :
    CurrentAnswers (E.pathAt k) (E.pathAt (k + 1)) (E.timeAt k) x.rttUs (priv x.addr)
      (E.state k).endpoint (E.state (k + 1)).endpoint := by
  have hlt := rounds_lt_length R hk
  obtain ⟨hasAct, hact⟩ := hact
  have hf : (x.args priv (E.state k).endpoint hasAct).fromCurrent = true := decide_eq_true hcur.symm
  rw [pathAt_succ hlt, endpoint_succ hlt, hact, ← hcur]
  exact direct_pong_current (E.timeAt k) (E.state k).endpoint (R.direct k hs hk.le) hf

lemma rounds_other (hs : R.start ≤ k) (hk : k < R.stop) (hact : E.AnswersAt priv x k)
    (hcur : x.addr ≠ (E.state k).endpoint) :
    OtherAnswers (E.pathAt k) (E.pathAt (k + 1)) (E.timeAt k) x (priv (E.state k).endpoint)
      (E.state k).endpoint (E.state (k + 1)).endpoint := by
  have hlt := rounds_lt_length R hk
  obtain ⟨hasAct, hact⟩ := hact
  have hf : (x.args priv (E.state k).endpoint hasAct).fromCurrent = false := decide_eq_false hcur
  rw [pathAt_succ hlt, endpoint_succ hlt, hact]
  exact direct_pong_other (E.state k).endpoint (R.valid k hs hk) hf

lemma rounds_pong (hs : R.start ≤ k) (hk : k < R.stop) (hx : x = a ∨ x = b)
    (hact : E.AnswersAt priv x k) (ht : t ≤ E.timeAt k)
    (h : FromAnswers a b (E.pathAt k) (E.state k).endpoint t) :
    FromAnswers a b (E.pathAt (k + 1)) (E.state (k + 1)).endpoint t ∧
      ((E.state (k + 1)).endpoint = (E.state k).endpoint ∨
        (E.state (k + 1)).endpoint = roundChoice a b (E.state k).endpoint) := by
  by_cases hcur : (E.state k).endpoint = x.addr
  · rcases rounds_current R hs hk hact hcur with
      ⟨hlive, hbetter, hend, hrtt, hcand⟩ | ⟨_, hend, hrtt, _, hcand⟩
    · obtain ⟨y, hy, hne, haddr, hyrtt, hpriv⟩ := h.1 (hlive.mono ht)
      rw [haddr] at hend
      refine ⟨fromAnswers_measured hy hend (hrtt.trans hyrtt) hcand, .inr ?_⟩
      rw [hyrtt, hpriv, rounds_private R hx] at hbetter
      rw [hcur] at hne
      rw [hend, hcur]
      exact (roundChoice_of_beats R.distinct hy hx hne hbetter).symm
    · exact ⟨fromAnswers_measured hx (hend.trans hcur) hrtt hcand, .inl hend⟩
  · rcases rounds_other R hs hk hact (Ne.symm hcur) with
      ⟨hlive, hbetter, hend, hrtt, hcand⟩ | ⟨_, hend, hpath⟩
    · obtain ⟨y, hy, hyend, hyrtt⟩ := h.2 (hlive.mono ht)
      refine ⟨fromAnswers_measured hx hend hrtt hcand, .inr ?_⟩
      rw [hyend, hyrtt, rounds_private R hy] at hbetter
      rw [hyend] at hcur
      rw [hend, hyend]
      exact (roundChoice_of_beats R.distinct hx hy (Ne.symm hcur) hbetter).symm
    · refine ⟨?_, .inl hend⟩
      rw [hend]
      rcases hpath with hpath | ⟨_, hpath⟩
      · rw [hpath]
        exact ⟨fun _ => ⟨x, hx, Ne.symm hcur, rfl, rfl, rfl⟩, h.2⟩
      · rw [hpath]
        exact h

lemma rounds_first_le {j : ℕ} (hj : j < R.rounds) :
    R.first 0 ≤ R.first j ∧ E.timeAt (R.first 0) ≤ E.timeAt (R.first j) := by
  induction j with
  | zero => exact ⟨le_rfl, le_rfl⟩
  | succ j ih =>
    have hin := R.inside j (by omega)
    have hin' := R.inside (j + 1) hj
    have hap := (R.apart j hj).1
    obtain ⟨hle, htime⟩ := ih (by omega)
    refine ⟨by omega, htime.trans ?_⟩
    exact timeAt_mono (by omega) (rounds_lt_length R (by omega))

lemma rounds_answer {args : PongArgs} (hs : R.start ≤ k) (hk : k < R.stop)
    (hact : (E.act k).event = .pong args) :
    ∃ x, (x = a ∨ x = b) ∧ E.AnswersAt priv x k ∧ E.timeAt (R.first 0) ≤ E.timeAt k := by
  obtain ⟨j, hj, hkj⟩ := R.only k args hs hk hact
  have hin := R.inside j hj
  have hfirst := (rounds_first_le R hj).2
  have hsecond : E.timeAt (R.first j) ≤ E.timeAt (R.second j) :=
    timeAt_mono hin.2.1 (rounds_lt_length R hin.2.2)
  rcases hkj with rfl | rfl
  · rcases R.answers j hj with h | h
    · exact ⟨a, .inl rfl, h.1, hfirst⟩
    · exact ⟨b, .inr rfl, h.1, hfirst⟩
  · rcases R.answers j hj with h | h
    · exact ⟨b, .inr rfl, h.2, hfirst.trans hsecond⟩
    · exact ⟨a, .inl rfl, h.2, hfirst.trans hsecond⟩

lemma rounds_fresh (hfresh : R.Fresh) :
    FromAnswers a b (E.pathAt R.start) (E.state R.start).endpoint (E.timeAt (R.first 0)) := by
  refine ⟨?_, ?_⟩
  · rintro ⟨hvalid, hdue⟩
    rw [hfresh.noCand hvalid] at hdue
    cases hdue
  · rintro ⟨hne, hdue⟩
    rcases hfresh.measured hne hdue with ⟨hend, hrtt⟩ | ⟨hend, hrtt⟩
    · exact ⟨a, .inl rfl, hend, hrtt⟩
    · exact ⟨b, .inr rfl, hend, hrtt⟩

lemma rounds_fromAnswers (hfresh : R.Fresh) (hs : R.start ≤ k) (hk : k ≤ R.stop) :
    FromAnswers a b (E.pathAt k) (E.state k).endpoint (E.timeAt (R.first 0)) := by
  refine stretch hs (rounds_fresh R hfresh) fun m hs hmk hprev => ?_
  have hm : m < R.stop := by omega
  by_cases hpong : ∃ args, (E.act m).event = .pong args
  · obtain ⟨args, hact⟩ := hpong
    obtain ⟨x, hx, hans, ht⟩ := rounds_answer R hs hm hact
    exact (rounds_pong R hs hm hx hans ht hprev).1
  · obtain ⟨hsame, hend⟩ := rounds_quiet R hs hm (not_exists.mp hpong)
    rw [hend]
    exact hsame.fromAnswers hprev

lemma rounds_move (hfresh : R.Fresh) (hs : R.start ≤ k) (hk : k < R.stop) :
    (E.state (k + 1)).endpoint = (E.state k).endpoint ∨
      (E.state (k + 1)).endpoint = roundChoice a b (E.state k).endpoint := by
  by_cases hpong : ∃ args, (E.act k).event = .pong args
  · obtain ⟨args, hact⟩ := hpong
    obtain ⟨x, hx, hans, ht⟩ := rounds_answer R hs hk hact
    exact (rounds_pong R hs hk hx hans ht (rounds_fromAnswers R hfresh hs hk.le)).2
  · exact .inl (rounds_quiet R hs hk (not_exists.mp hpong)).2

lemma rounds_settled (hfresh : R.Fresh) (hs : R.start ≤ i) (hik : i ≤ k) (hk : k ≤ R.stop)
    (hsettled : roundChoice a b (E.state i).endpoint = (E.state i).endpoint) :
    (E.state k).endpoint = (E.state i).endpoint := by
  refine stretch hik rfl fun m him hmk hprev => ?_
  rcases rounds_move R hfresh (hs.trans him) (by omega) with h | h
  · exact h.trans hprev
  · rw [h, hprev, hsettled]

lemma rounds_between (hs : R.start ≤ i) (hik : i ≤ k) (hk : k ≤ R.stop)
    (hq : ∀ m args, i ≤ m → m < k → (E.act m).event ≠ .pong args) :
    SameMemory (E.pathAt i) (E.pathAt k) ∧ (E.state k).endpoint = (E.state i).endpoint := by
  refine stretch hik ⟨sameMemory_refl _, rfl⟩ fun m him hmk ⟨hsame, hend⟩ => ?_
  obtain ⟨hsame', hend'⟩ := rounds_quiet R (hs.trans him) (by omega) fun args => hq m args him hmk
  exact ⟨hsame.trans hsame', hend'.trans hend⟩

lemma rounds_second_lt {j : ℕ} (hij : i < j) (hj : j < R.rounds) : R.second i < R.first j := by
  refine stretch (show i + 1 ≤ j from hij) (R.apart i (by omega)).1 fun m _ hm hlt => ?_
  have hin := R.inside m (by omega)
  have hap := (R.apart m (by omega)).1
  omega

lemma rounds_quiet_before (hs : R.start ≤ k) (hk : k < R.first 0) (hstop : k < R.stop)
    (args : PongArgs) : (E.act k).event ≠ .pong args := by
  intro hact
  obtain ⟨j, hj, hkj⟩ := R.only k args hs hstop hact
  have hin := R.inside j hj
  have hfirst := (rounds_first_le R hj).1
  omega

lemma rounds_quiet_within (hlt : 0 < R.rounds) (hs : R.first 0 < k) (hk : k < R.second 0)
    (args : PongArgs) : (E.act k).event ≠ .pong args := by
  intro hact
  have hin := R.inside 0 hlt
  obtain ⟨j, hj, hkj⟩ := R.only k args (by omega) (by omega) hact
  have hinj := R.inside j hj
  rcases Nat.eq_zero_or_pos j with rfl | hpos
  · omega
  · have hsec := rounds_second_lt R hpos hj
    omega

lemma rounds_first_round (hfresh : R.Fresh) (hlt : 0 < R.rounds)
    (hx : x = a ∨ x = b) (hy : y = a ∨ y = b) (hne : x.addr ≠ y.addr)
    (hbeats : x.beats y) (hcur : (E.state (R.first 0)).endpoint = y.addr)
    (hans : (E.AnswersAt priv y (R.first 0) ∧ E.AnswersAt priv x (R.second 0)) ∨
      (E.AnswersAt priv x (R.first 0) ∧ E.AnswersAt priv y (R.second 0))) :
    (E.state (R.second 0 + 1)).endpoint = x.addr := by
  obtain ⟨hs, hfs, hstop⟩ := R.inside 0 hlt
  have hbetter : wgPathBetter x.rttUs x.isPrivate y.rttUs (priv y.addr) = true := by
    rw [rounds_private R hy]
    exact hbeats
  have hnolive : ¬ CandLive (E.pathAt (R.first 0)) (E.timeAt (R.first 0)) := by
    rw [(rounds_between R le_rfl hs (by omega)
      fun m args hsm hm => rounds_quiet_before R hsm hm (by omega) args).1.candLive]
    rintro ⟨hvalid, hdue⟩
    rw [hfresh.noCand hvalid] at hdue
    cases hdue
  obtain ⟨hsame, hend⟩ := rounds_between R (by omega : R.start ≤ R.first 0 + 1)
    (by omega : R.first 0 + 1 ≤ R.second 0) hstop.le
    (fun m args hm hms => rounds_quiet_within R hlt (by omega) hms args)
  rcases hans with ⟨hfirst, hsecond⟩ | ⟨hfirst, hsecond⟩
  · -- the current endpoint is measured, and the other one is compared with it
    obtain ⟨_, hend1, hrtt, hat, _⟩ :=
      (rounds_current R hs (by omega) hfirst hcur).resolve_left fun h => hnolive h.1
    have hcur2 : (E.state (R.second 0)).endpoint = y.addr := hend.trans (hend1.trans hcur)
    have hlive : RttLive (E.pathAt (R.second 0)) (E.timeAt (R.second 0)) := by
      rw [hsame.rttLive, RttLive, hat, wgTimerDue_eq_false_iff]
      have hpos := timeAt_pos_of_valid (rounds_lt_length R (by omega)) (R.valid _ hs (by omega))
      exact ⟨hpos.ne', R.within 0 hlt⟩
    have hmoves : wgPathBetter x.rttUs x.isPrivate (E.pathAt (R.second 0)).rttUs
        (priv (E.state (R.second 0)).endpoint) = true := by
      rw [hsame.rttUs, hrtt, hcur2]
      exact hbetter
    rcases rounds_other R (by omega) hstop hsecond (hcur2.symm ▸ hne) with h | h
    · exact h.2.2.1
    · exact absurd ⟨hlive, hmoves⟩ h.1
  · rcases rounds_other R hs (by omega) hfirst (hcur.symm ▸ hne) with h | ⟨_, hend1, hpath⟩
    · -- the answer is compared with an earlier measurement, and the endpoint is there to stay
      have hend1 := h.2.2.1
      rw [← hend1]
      apply rounds_settled R hfresh (by omega) (by omega) hstop
      rw [hend1, ← roundChoice_of_beats R.distinct hx hy hne hbeats]
      exact roundChoice_idem
    · -- the answer becomes the candidate, and is compared when the current endpoint answers
      have hcand := hpath.resolve_right fun h => hnolive h.1
      have hcur2 : (E.state (R.second 0)).endpoint = y.addr := hend.trans (hend1.trans hcur)
      have hrec : (E.pathAt (R.second 0)).cand =
          ⟨x.isPrivate, x.addr, x.rttUs, E.timeAt (R.first 0)⟩ := by
        rw [hsame.cand, hcand]
        rfl
      have hlive : CandLive (E.pathAt (R.second 0)) (E.timeAt (R.second 0)) := by
        rw [CandLive, hrec, wgTimerDue_eq_false_iff, hsame.candValid, hcand]
        exact ⟨rfl, R.within 0 hlt⟩
      rcases rounds_current R (by omega) hstop hsecond hcur2 with h | h
      · rw [h.2.2.1, hrec]
      · rw [hrec] at h
        exact absurd ⟨hlive, hbetter⟩ h.1

lemma rounds_choice (hfresh : R.Fresh) : ∀ j, j < R.rounds →
    (E.state (R.second j + 1)).endpoint = roundChoice a b (E.state (R.first j)).endpoint := by
  intro j
  induction j with
  | zero =>
    intro hlt
    obtain ⟨hs, hfs, hstop⟩ := R.inside 0 hlt
    by_cases hset : roundChoice a b (E.state (R.first 0)).endpoint = (E.state (R.first 0)).endpoint
    · rw [hset]
      exact rounds_settled R hfresh hs (by omega) hstop hset
    · rcases roundChoice_moves hset with ⟨hcur, hbeats⟩ | ⟨hcur, hbeats⟩
      · rw [hcur, roundChoice_of_beats R.distinct (.inr rfl) (.inl rfl) R.distinct.symm hbeats]
        exact rounds_first_round R hfresh hlt (.inr rfl) (.inl rfl) R.distinct.symm hbeats hcur
          (R.answers 0 hlt)
      · rw [hcur, roundChoice_of_beats R.distinct (.inl rfl) (.inr rfl) R.distinct hbeats]
        exact rounds_first_round R hfresh hlt (.inl rfl) (.inr rfl) R.distinct hbeats hcur
          (R.answers 0 hlt).symm
  | succ j ih =>
    intro hlt
    obtain ⟨hs, hfs, hstop⟩ := R.inside (j + 1) hlt
    have hin := R.inside j (by omega)
    have hgap := (R.apart j hlt).1
    have hprev := ih (by omega)
    -- the round before left the endpoint settled
    have hset : roundChoice a b (E.state (R.second j + 1)).endpoint =
        (E.state (R.second j + 1)).endpoint := by
      rw [hprev]
      exact roundChoice_idem
    have hfirst := rounds_settled R hfresh (k := R.first (j + 1)) (by omega) (by omega) (by omega) hset
    have hsecond := rounds_settled R hfresh (k := R.second (j + 1) + 1) (by omega) (by omega)
      hstop hset
    rw [hsecond, hfirst, hset]

lemma rounds_move_settles (hfresh : R.Fresh) (hs : R.start ≤ i) (hik : i < k)
    (hk : k < R.stop) (hmove : E.MovesAt i) : ¬ E.MovesAt k := by
  have hchoice := (rounds_move R hfresh hs (by omega)).resolve_left hmove
  have hset : roundChoice a b (E.state (i + 1)).endpoint = (E.state (i + 1)).endpoint := by
    rw [hchoice]
    exact roundChoice_idem
  have h := rounds_settled R hfresh (k := k) (by omega) hik hk.le hset
  have h' := rounds_settled R hfresh (k := k + 1) (by omega) (by omega) hk hset
  exact not_not.mpr (h'.trans h.symm)

end Rounds

/-- Each round leaves the endpoint where its two answers lead, whichever comes first; over all
rounds it moves at most once; and no two answers are each better than the other. -/
theorem endpoint_does_not_flap {E : PathRun} {priv : Endpoint → Bool} {a b : PongAnswer}
    (R : PongRounds E priv a b) (hfresh : R.Fresh) :
    (∀ j, j < R.rounds →
        (E.state (R.second j + 1)).endpoint = roundChoice a b (E.state (R.first j)).endpoint) ∧
      (∀ i k, R.start ≤ i → i < R.stop → R.start ≤ k → k < R.stop → E.MovesAt i → E.MovesAt k →
        i = k) ∧
      ∀ aRttUs aPriv bRttUs bPriv, ¬ (wgPathBetter aRttUs aPriv bRttUs bPriv = true ∧
        wgPathBetter bRttUs bPriv aRttUs aPriv = true) := by
  refine ⟨rounds_choice R hfresh, ?_, better_asymm⟩
  intro i k hsi hi hsk hk hmi hmk
  rcases Nat.lt_trichotomy i k with hlt | heq | hgt
  · exact absurd hmk (rounds_move_settles R hfresh hsi hlt hk hmi)
  · exact heq
  · exact absurd hmi (rounds_move_settles R hfresh hsk hgt hi hmk)

section Samples

def noPrivate (_ : Endpoint) : Bool := false

def slowAnswer : PongAnswer := ⟨⟨1, 41641⟩, 200000, false⟩

def fastAnswer : PongAnswer := ⟨⟨2, 41641⟩, 20000, false⟩

def equalAnswer : PongAnswer := ⟨⟨3, 41641⟩, 20000, false⟩

def twoRounds : List PathStep :=
  [⟨10, .pong (slowAnswer.args noPrivate ⟨1, 41641⟩ true)⟩,
    ⟨3000000, .pong (fastAnswer.args noPrivate ⟨1, 41641⟩ true)⟩,
    ⟨3000100, .pong (slowAnswer.args noPrivate ⟨1, 41641⟩ true)⟩,
    ⟨5000000, .pong (slowAnswer.args noPrivate ⟨2, 41641⟩ true)⟩,
    ⟨5000100, .pong (fastAnswer.args noPrivate ⟨2, 41641⟩ true)⟩]

def twoRoundsRun : PathRun := runOf sampleStart sampleStart_started ⟨0, .tick⟩ twoRounds rfl

def twoRoundsSeen : PongRounds twoRoundsRun noPrivate slowAnswer fastAnswer where
  start := 1
  stop := 5
  rounds := 2
  first j := 2 * j + 1
  second j := 2 * j + 2
  stop_le := le_rfl
  distinct := by decide
  private_a := rfl
  private_b := rfl
  direct k hs hk := by interval_cases k <;> rfl
  valid k hs hk := by interval_cases k <;> rfl
  inside j hj := by omega
  apart j hj := by
    obtain rfl : j = 0 := by omega
    decide
  within j hj := by interval_cases j <;> decide
  answers j hj := by
    interval_cases j
    · exact .inr ⟨⟨true, rfl⟩, ⟨true, rfl⟩⟩
    · exact .inl ⟨⟨true, rfl⟩, ⟨true, rfl⟩⟩
  only k args hs hk _ := by
    refine ⟨(k - 1) / 2, by omega, by omega⟩

lemma twoRoundsSeen_fresh : twoRoundsSeen.Fresh where
  noCand h := by cases h
  measured _ h := by cases h

theorem two_rounds_move_once :
    (twoRoundsRun.state 3).endpoint = ⟨2, 41641⟩ ∧ (twoRoundsRun.state 5).endpoint = ⟨2, 41641⟩ := by
  have h := (endpoint_does_not_flap twoRoundsSeen twoRoundsSeen_fresh).1
  exact ⟨h 0 (by decide), h 1 (by decide)⟩

def thirdCurrent (x y : PongAnswer) : List PathStep :=
  [⟨10, .pong (slowAnswer.args noPrivate ⟨1, 41641⟩ true)⟩,
    ⟨500000, .pong (x.args noPrivate ⟨1, 41641⟩ true)⟩,
    ⟨600000, .pong (y.args noPrivate x.addr true)⟩]

def fastFirst : PathRun := runOf sampleStart sampleStart_started ⟨0, .tick⟩
  (thirdCurrent fastAnswer equalAnswer) rfl

def equalFirst : PathRun := runOf sampleStart sampleStart_started ⟨0, .tick⟩
  (thirdCurrent equalAnswer fastAnswer) rfl

def fastFirstSeen : PongRounds fastFirst noPrivate fastAnswer equalAnswer where
  start := 1
  stop := 3
  rounds := 1
  first _ := 1
  second _ := 2
  stop_le := le_rfl
  distinct := by decide
  private_a := rfl
  private_b := rfl
  direct k hs hk := by interval_cases k <;> rfl
  valid k hs hk := by interval_cases k <;> rfl
  inside j hj := by omega
  apart j hj := by omega
  within j hj := by decide
  answers j hj := .inl ⟨⟨true, rfl⟩, ⟨true, rfl⟩⟩
  only k args hs hk _ := ⟨0, by omega, by omega⟩

def equalFirstSeen : PongRounds equalFirst noPrivate fastAnswer equalAnswer where
  start := 1
  stop := 3
  rounds := 1
  first _ := 1
  second _ := 2
  stop_le := le_rfl
  distinct := by decide
  private_a := rfl
  private_b := rfl
  direct k hs hk := by interval_cases k <;> rfl
  valid k hs hk := by interval_cases k <;> rfl
  inside j hj := by omega
  apart j hj := by omega
  within j hj := by decide
  answers j hj := .inr ⟨⟨true, rfl⟩, ⟨true, rfl⟩⟩
  only k args hs hk _ := ⟨0, by omega, by omega⟩

/-- From one state without a candidate, the two orders of one round end at different endpoints:
each answer is compared with the measurement of the third. -/
theorem third_endpoint_order_decides :
    fastFirst.state fastFirstSeen.start = equalFirst.state equalFirstSeen.start ∧
      (fastFirst.pathAt fastFirstSeen.start).candValid = false ∧
      (fastFirst.state (fastFirstSeen.second 0 + 1)).endpoint = fastAnswer.addr ∧
      (equalFirst.state (equalFirstSeen.second 0 + 1)).endpoint = equalAnswer.addr ∧
      fastAnswer.addr ≠ equalAnswer.addr :=
  ⟨rfl, rfl, rfl, rfl, by decide⟩

end Samples

end TinyLink.Proofs
