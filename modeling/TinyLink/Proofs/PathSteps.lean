import TinyLink.PathSystem

/-!
# What one path event can do

One case lemma for each function of the path selection that branches; all runs go through these.
-/

namespace TinyLink.Proofs
open StepSystem

attribute [grind =] WgPath.setRtt WgPath.dropCand WgPath.setCand WgPath.countRoam
  WgPath.countSilence WgPath.countUndelivered WgPath.clearAwait wgPathEnterDual wgPathLapse
  wgPathRescue wgPathEnterRelay wgPathHeard wgPathHandshaken wgPathProve wgPathDie wgPathEnterDoubt
  wgPathInit

section Fields
variable (p : WgPath) (now : ℤ)

@[simp] lemma confirm_mode : (wgPathConfirm p now).mode = .direct := by
  unfold wgPathConfirm
  split
  · rfl
  · next h => exact not_not.mp h

@[simp] lemma confirm_candValid : (wgPathConfirm p now).candValid = p.candValid := by
  unfold wgPathConfirm
  split <;> rfl

@[simp] lemma confirm_cand : (wgPathConfirm p now).cand = p.cand := by
  unfold wgPathConfirm
  split <;> rfl

@[simp] lemma confirm_lastRelay : (wgPathConfirm p now).lastRelayDataUs = p.lastRelayDataUs := by
  unfold wgPathConfirm
  split <;> rfl

@[simp] lemma confirm_awaitUs (h : p.mode = .direct) :
    (wgPathConfirm p now).awaitUs = p.awaitUs := by
  unfold wgPathConfirm
  rw [if_neg (not_not.mpr h)]

lemma confirm_peerWgUs : (wgPathConfirm p now).peerWgUs = p.peerWgUs := by
  unfold wgPathConfirm
  split <;> rfl

lemma confirm_doubts : (wgPathConfirm p now).doubts = p.doubts := by
  unfold wgPathConfirm
  split <;> rfl

@[simp] lemma countRoam_cand : p.countRoam.cand = p.cand := rfl

@[simp] lemma dropCand_cand : p.dropCand.cand = p.cand := rfl

@[simp] lemma setRtt_cand (rttUs : UInt32) (atUs : ℤ) : (p.setRtt rttUs atUs).cand = p.cand := rfl

lemma inDoubt_iff : p.inDoubt = true ↔ p.mode = .dual ∧ p.why = .doubt := by
  simp [WgPath.inDoubt]

lemma not_inDoubt_of_direct (h : p.mode = .direct) : p.inDoubt = false := by
  simp [WgPath.inDoubt, h]

lemma lapsePending_iff : p.lapsePending = true ↔
    p.mode = .dual ∧ (p.why = .answer ∨ p.why = .idle ∨ p.why = .doubt) := by
  simp [WgPath.lapsePending, or_assoc]

end Fields

section Cases
variable (p : WgPath) (now : ℤ)

lemma checkAnswer_cases : (p.mode = .direct ∧ p.awaitUs ≠ 0 ∧ p.awaitUs + wgPathAnswerUs < now ∧
        wgPathCheckAnswer p now = wgPathLapse p now .answer p.awaitUs) ∨
      (¬ (p.mode = .direct ∧ p.awaitUs ≠ 0 ∧ p.awaitUs + wgPathAnswerUs < now) ∧
        wgPathCheckAnswer p now = (p, .none)) := by
  by_cases h : p.mode = .direct ∧ p.awaitUs ≠ 0 ∧ p.awaitUs + wgPathAnswerUs < now
  · left
    refine ⟨h.1, h.2.1, h.2.2, if_pos ?_⟩
    simp [h.1, h.2.1, wgTimerDue_iff, h.2.2]
  · right
    refine ⟨h, if_neg ?_⟩
    simpa [wgTimerDue_iff, and_assoc] using h

lemma checkIdle_cases :
    (p.mode = .direct ∧ wgPathCheckIdle p now = wgPathLapse p now .idle (wgPathSeen p)) ∨
      wgPathCheckIdle p now = (p, .none) := by
  unfold wgPathCheckIdle
  split
  · next h =>
    simp only [Bool.and_eq_true, decide_eq_true_eq] at h
    exact .inl ⟨h.1.1, rfl⟩
  · exact .inr rfl

lemma keepalive_cases :
    (p.inDoubt = true ∧ wgPathOnKeepalive p now = wgPathResolve (wgPathHeard p now) now) ∨
      (p.inDoubt = false ∧ p.mode ≠ .direct ∧ wgPathOnKeepalive p now = (wgPathHeard p now, .none)) ∨
      (p.mode = .direct ∧ wgPathProvesDirect p now = true ∧ wgPathOnKeepalive p now =
        (wgPathProve { (wgPathHeard p now).clearAwait with kaUs := now } now, .none)) ∨
      (p.mode = .direct ∧ wgPathProvesDirect p now = false ∧ wgPathOnKeepalive p now =
        ({ (wgPathHeard p now).clearAwait with kaUs := now }, .none)) := by
  by_cases hd : p.inDoubt = true
  · exact .inl ⟨hd, if_pos hd⟩
  · have hf : p.inDoubt = false := by simpa using hd
    right
    by_cases hm : p.mode = .direct
    · have hm' : ¬ (wgPathHeard p now).mode ≠ .direct := not_not.mpr hm
      right
      by_cases hp : wgPathProvesDirect p now = true
      · exact .inl ⟨hm, hp, (if_neg hd).trans ((if_neg hm').trans (if_pos hp))⟩
      · exact .inr ⟨hm, by simpa using hp, (if_neg hd).trans ((if_neg hm').trans (if_neg hp))⟩
    · exact .inl ⟨hf, hm, (if_neg hd).trans (if_pos hm)⟩

/-- The first payload in the window after a handshake restarts the answer window. -/
def GraceApplies (p : WgPath) (now : ℤ) : Prop :=
  p.mode = .direct ∧ p.hsUs ≠ 0 ∧ p.graceUsed = false ∧ now ≤ p.hsUs + wgPathAnswerUs

lemma tick_cases : (p.managed = false ∧ wgPathTick p now = (p, .none)) ∨
      (p.managed = true ∧ p.mode = .direct ∧ wgPathTick p now = wgPathCheckAnswer p now) ∨
      (p.managed = true ∧ p.inDoubt = true ∧ wgPathTick p now = wgPathTickDoubt p now) ∨
      (p.managed = true ∧ p.mode = .dual ∧ p.inDoubt = false ∧ wgPathTick p now = wgPathTickDual p now) ∨
      (p.managed = true ∧ p.mode = .relay ∧ wgPathTick p now = wgPathTickRelay p now) := by
  unfold wgPathTick
  cases hm : p.managed with
  | false => exact .inl ⟨rfl, rfl⟩
  | true =>
    right
    cases hmode : p.mode with
    | direct => exact .inl ⟨rfl, rfl, rfl⟩
    | relay => exact .inr (.inr (.inr ⟨rfl, rfl, rfl⟩))
    | dual =>
      right
      by_cases hw : p.why = .doubt
      · exact .inl ⟨rfl, by simp [WgPath.inDoubt, hmode, hw], if_pos hw⟩
      · exact .inr (.inl ⟨rfl, rfl, by simp [WgPath.inDoubt, hw], if_neg hw⟩)

lemma onSend_data (h : p.managed) : wgPathOnSend p now true =
      (wgPathNoteData (wgPathCheckIdle (wgPathCheckAnswer p now).1 now).1 now,
        (wgPathCheckAnswer p now).2 ||| (wgPathCheckIdle (wgPathCheckAnswer p now).1 now).2,
        (wgPathCheckIdle (wgPathCheckAnswer p now).1 now).1.mode) := by
  simp only [wgPathOnSend, h]
  rfl

lemma onSend_keepalive (h : p.managed) : wgPathOnSend p now false =
      ((wgPathCheckAnswer p now).1, (wgPathCheckAnswer p now).2, (wgPathCheckAnswer p now).1.mode) := by
  simp only [wgPathOnSend, h]
  rfl

lemma onSend_unmanaged (data : Bool) (h : p.managed = false) :
    wgPathOnSend p now data = (p, .none, .direct) := by
  simp only [wgPathOnSend, h]
  rfl

end Cases

section Pong
variable (p : WgPath) (now : ℤ) (a : PongArgs)

/-- A pong from the current endpoint answers a lapse while nothing came from the peer since. -/
def OpensDoubt (p : WgPath) : Prop :=
  p.mode = .dual ∧ p.why = .answer ∧ p.peerWgUs < p.lapseFromUs

lemma pongCurrent_cases :
    (p.inDoubt = true ∧ wgPathPongCurrent p now a = ((p.setRtt a.rttUs now).dropCand, .kept)) ∨
      (OpensDoubt p ∧
        wgPathPongCurrent p now a = (wgPathEnterDoubt (p.setRtt a.rttUs now) now, .doubt)) ∨
      (p.inDoubt = false ∧ ¬ OpensDoubt p ∧ p.candValid = true ∧ wgPathPongCurrent p now a =
        ((((wgPathConfirm (p.setRtt a.rttUs now) now).dropCand).setRtt p.cand.rttUs
          p.cand.atUs).countRoam, .roamCand)) ∨
      (p.inDoubt = false ∧ ¬ OpensDoubt p ∧ wgPathPongCurrent p now a =
        ((wgPathConfirm (p.setRtt a.rttUs now) now).dropCand, .confirmed)) := by
  have hiff : ((p.setRtt a.rttUs now).mode = .dual && (p.setRtt a.rttUs now).why = .answer &&
      (p.setRtt a.rttUs now).peerWgUs < (p.setRtt a.rttUs now).lapseFromUs) = true ↔ OpensDoubt p := by
    simp only [Bool.and_eq_true, decide_eq_true_eq, and_assoc]
    exact Iff.rfl
  simp only [wgPathPongCurrent]
  by_cases hd : p.inDoubt = true
  · exact .inl ⟨hd, if_pos hd⟩
  · have hf : p.inDoubt = false := by simpa using hd
    right
    by_cases ho : OpensDoubt p
    · exact .inl ⟨ho, (if_neg hd).trans (if_pos (hiff.mpr ho))⟩
    · right
      rw [show (p.setRtt a.rttUs now).inDoubt = false from hf, if_neg Bool.false_ne_true,
        if_neg (mt hiff.mp ho)]
      split
      · next hc =>
        simp only [Bool.and_eq_true] at hc
        exact .inl ⟨hf, ho, hc.1.1, rfl⟩
      · exact .inr ⟨hf, ho, rfl⟩

def rescued (p : WgPath) (now : ℤ) (hasAct : Bool) : WgPath × WgPathAct :=
  if hasAct && p.lapsePending then wgPathRescue p now else (p, .none)

lemma pongOther_cases : (wgPathTakes p now a = true ∧ wgPathPongOther p now a =
        ((wgPathConfirm (((rescued p now a.hasAct).1.setRtt a.rttUs now).dropCand) now).countRoam, .roam,
          (rescued p now a.hasAct).2)) ∨ (wgPathTakes p now a = false ∧ wgPathPongOther p now a =
        (p.setCand ⟨a.srcPrivate, a.src, a.rttUs, now⟩, .kept, .none)) ∨
      (wgPathTakes p now a = false ∧ wgPathPongOther p now a = (p, .kept, .none)) := by
  unfold wgPathPongOther
  cases ht : wgPathTakes p now a with
  | true => exact .inl ⟨rfl, rfl⟩
  | false =>
    right
    rw [if_neg Bool.false_ne_true]
    split
    · exact .inl ⟨rfl, rfl⟩
    · exact .inr ⟨rfl, rfl⟩

lemma onPong_cases : (wgPathRetestHold p now = true ∧ a.fromCurrent = true ∧
        wgPathOnPong p now a = (p.setRtt a.rttUs now, .kept, .none)) ∨
      (wgPathRetestHold p now = true ∧ a.fromCurrent = false ∧
        wgPathOnPong p now a = (p, .kept, .none)) ∨
      (wgPathRetestHold p now = false ∧ a.fromCurrent = true ∧ wgPathOnPong p now a =
        ((wgPathPongCurrent p now a).1, (wgPathPongCurrent p now a).2, .none)) ∨
      (wgPathRetestHold p now = false ∧ a.fromCurrent = false ∧
        wgPathOnPong p now a = wgPathPongOther p now a) := by
  unfold wgPathOnPong
  cases wgPathRetestHold p now with
  | true =>
    cases a.fromCurrent with
    | true => exact .inl ⟨rfl, rfl, rfl⟩
    | false => exact .inr (.inl ⟨rfl, rfl, rfl⟩)
  | false =>
    cases a.fromCurrent with
    | true => exact .inr (.inr (.inl ⟨rfl, rfl, rfl⟩))
    | false => exact .inr (.inr (.inr ⟨rfl, rfl, rfl⟩))

end Pong

/-- The event starts a session or makes the path managed. -/
def StartsOverAt (p : WgPath) (e : PathEvent) : Prop :=
  (∃ managed endpoint, e = .init managed endpoint) ∨ (e = .setManaged true ∧ p.managed = false)

def RestartsWindow (p : WgPath) (now : ℤ) (e : PathEvent) : Prop :=
  e = .keepalive ∨ e = .handshake ∨ (e = .peerData ∧ GraceApplies p now)

/-- A lapse of DIRECT: the frame from `fromUs` has no answer, or the path was idle. -/
def LapsesFrom (p : WgPath) (why : WgPathWhy) (fromUs : ℤ) : Prop :=
  p.mode = .direct ∧ (why = .answer ∧ p.awaitUs ≠ 0 ∧ fromUs = p.awaitUs ∨ why = .idle)

/-- A packet of the peer, and the path that took note of it. -/
inductive PeerPacket (p : WgPath) (now : ℤ) : PathEvent → WgPath → Prop where
  | keepalive : PeerPacket p now .keepalive (wgPathHeard p now)
  | peerData : PeerPacket p now .peerData (wgPathHeard p now)
  | handshake : PeerPacket p now .handshake (wgPathHandshaken p now)

variable {e : PathEvent}

lemma PeerPacket.isWgPacket {p q : WgPath} {now : ℤ} (h : PeerPacket p now e q) :
    e.isWgPacket = true := by
  cases h <;> rfl

/-- The handshake test of a doubt: taken if it is owed. -/
inductive Tested (p : WgPath) : WgPath × WgPathAct → Prop where
  | owed (h : p.testAtUs ≠ 0) (stats : WgPathStats) :
      Tested p ({ p with testAtUs := 0, stats := stats }, { test := true })
  | none : Tested p (p, .none)

inductive Rescued (p : WgPath) (now : ℤ) (hasAct : Bool) : WgPath × WgPathAct → Prop where
  | pending (h : p.lapsePending = true) : Rescued p now hasAct (wgPathRescue p now)
  | none (h : hasAct = true → p.lapsePending = false) : Rescued p now hasAct (p, .none)

/-- The path after an event and the actions asked for, branch by branch. -/
inductive PathMove (p : WgPath) (now : ℤ) : PathEvent → WgPath × WgPathAct → Prop where
  | startsOver {e : PathEvent} (h : StartsOverAt p e) (managed stats) :
      PathMove p now e ({ wgPathInit now managed with stats := stats }, .none)
  | setManaged (managed) (h : managed = true → p.managed = true) :
      PathMove p now (.setManaged managed) ({ p with managed := managed }, .none)
  | still {e : PathEvent} (he : e = .tick ∨ ∃ data, e = .send data)
      (hm : p.managed = true → e ≠ .send true) : PathMove p now e (p, .none)
  | lapses {e : PathEvent} (he : e = .tick ∨ e = .send false)
      (hl : LapsesFrom p .answer p.awaitUs) :
      PathMove p now e (wgPathLapse p now .answer p.awaitUs)
  | sends : PathMove p now (.send true) (wgPathNoteData p now, .none)
  | sendsLapsed {why : WgPathWhy} {fromUs : ℤ} (hl : LapsesFrom p why fromUs) :
      PathMove p now (.send true)
        (wgPathNoteData (wgPathLapse p now why fromUs).1 now, { ping := true })
  | tests {r : WgPath × WgPathAct} (hd : p.inDoubt = true) (hr : Tested p r) : PathMove p now .tick r
  | silent {r : WgPath × WgPathAct} (hd : p.inDoubt = true) (hr : Tested p r) :
      PathMove p now .tick ((wgPathSilent r.1 now).1, r.2 ||| (wgPathSilent r.1 now).2)
  | pings (hm : p.mode = .dual) :
      PathMove p now .tick
        ({ p with pingUs := if now > p.sinceUs then now else p.sinceUs }, { ping := true })
  | dies {r : WgPath × WgPathAct} (hm : p.mode = .dual) (hd : p.inDoubt = false)
      (hr : Rescued p now true r) :
      PathMove p now .tick (wgPathDie r.1 now, { probe := true } ||| r.2)
  | reprobes (hm : p.mode = .relay) (hman : p.managed = true) (hlive : wgPathReprobeLive p = true)
      (hdue : p.reprobeUs ≤ now) :
      PathMove p now .tick
        ({ p with
            pingUs := now
            reprobeMs := min (2 * p.reprobeMs) 60000
            reprobeUs := now + (min (2 * p.reprobeMs) 60000 : ℕ) * 1000 },
          { ping := true, probe := true })
  | resolves {e : PathEvent} {q : WgPath} (hp : PeerPacket p now e q) (hd : p.inDoubt = true)
      (hlt : p.doubts < 2) : PathMove p now e (wgPathConfirm q now, .none)
  | undelivered {e : PathEvent} {q : WgPath} (hp : PeerPacket p now e q) (hd : p.inDoubt = true)
      (hle : 2 ≤ p.doubts) :
      PathMove p now e
        (wgPathRescue (wgPathEnterRelay (q.countUndelivered now) now .undelivered) now)
  | heard {e : PathEvent} {q : WgPath} (hp : PeerPacket p now e q) (hd : p.inDoubt = false)
      (hno : p.mode = .direct → ¬ RestartsWindow p now e) : PathMove p now e (q, .none)
  | restarts {e : PathEvent} {q : WgPath} (hp : PeerPacket p now e q) (hm : p.mode = .direct)
      (hr : RestartsWindow p now e) (kaUs graceUsed) :
      PathMove p now e ({ q.clearAwait with kaUs := kaUs, graceUsed := graceUsed }, .none)
  | proves (hm : p.mode = .direct) (hp : wgPathProvesDirect p now = true) :
      PathMove p now .keepalive
        (wgPathProve { (wgPathHeard p now).clearAwait with kaUs := now } now, .none)
  | moves (endpoint) {r : WgPath × WgPathAct} (hr : Rescued p now true r) :
      PathMove p now (.endpointChange endpoint)
        ({ wgPathEnterDual r.1 now .endpoint with
            pingUs := 0, proofUs := 0, rttUs := 0, rttAtUs := 0, candValid := false }, r.2)
  | held (a) (hh : wgPathRetestHold p now = true) (rttUs atUs) :
      PathMove p now (.pong a) (p.setRtt rttUs atUs, .none)
  | answers (a) (hd : p.inDoubt = true) :
      PathMove p now (.pong a) ((p.setRtt a.rttUs now).dropCand, .none)
  | doubts (a) (ho : OpensDoubt p) :
      PathMove p now (.pong a) (wgPathEnterDoubt (p.setRtt a.rttUs now) now, .none)
  | confirms (a) (hh : wgPathRetestHold p now = false) (hf : a.fromCurrent = true)
      (hd : p.inDoubt = false) (ho : ¬ OpensDoubt p) (rttUs atUs stats) :
      PathMove p now (.pong a)
        ({ wgPathConfirm p now with
            candValid := false, rttUs := rttUs, rttAtUs := atUs, stats := stats }, .none)
  | roams (a) (hh : wgPathRetestHold p now = false) (hf : a.fromCurrent = false) {r : WgPath × WgPathAct}
      (hr : Rescued p now a.hasAct r) (rttUs atUs stats) :
      PathMove p now (.pong a)
        ({ wgPathConfirm r.1 now with
            candValid := false, rttUs := rttUs, rttAtUs := atUs, stats := stats }, r.2)
  | keepsCand (a) (hf : a.fromCurrent = false) (ht : wgPathTakes p now a = false) (candValid cand) :
      PathMove p now (.pong a) ({ p with candValid := candValid, cand := cand }, .none)

section Moves
variable (p : WgPath) (now : ℤ)

lemma startsOver_eq (h : StartsOverAt p e) : ∃ managed stats,
    pathEvent p now e = ({ wgPathInit now managed with stats := stats }, .none) := by
  rcases h with ⟨managed, endpoint, rfl⟩ | ⟨rfl, hm⟩
  · exact ⟨managed, .zero, rfl⟩
  · refine ⟨true, { p.stats with unconfirmedUs := 0, wasOffUs := 0 }, ?_⟩
    simp [pathEvent, wgPathSetManaged, hm]

lemma setManaged_move {managed : Bool} (h : ¬ StartsOverAt p (.setManaged managed)) :
    PathMove p now (.setManaged managed) (wgPathSetManaged p now managed, .none) := by
  have hkeep : managed = true → p.managed = true := by
    rintro rfl
    by_contra hm
    exact h (.inr ⟨rfl, by simpa using hm⟩)
  have hset : wgPathSetManaged p now managed = { p with managed := managed } := by
    unfold wgPathSetManaged
    split
    · next hm => rw [← hm]
    · next hm =>
      cases managed with
      | false => rfl
      | true => exact absurd (hkeep rfl) hm
  rw [hset]
  exact .setManaged managed hkeep

lemma send_move (data : Bool) :
    PathMove p now (.send data) ((wgPathOnSend p now data).1, (wgPathOnSend p now data).2.1) := by
  cases hm : p.managed with
  | false =>
    rw [onSend_unmanaged p now data hm]
    exact .still (.inr ⟨data, rfl⟩) (by simp [hm])
  | true =>
    cases data with
    | false =>
      rw [onSend_keepalive p now hm]
      rcases checkAnswer_cases p now with ⟨hd, ha, _, h⟩ | ⟨_, h⟩
      · rw [h]
        exact .lapses (.inr rfl) ⟨hd, .inl ⟨rfl, ha, rfl⟩⟩
      · rw [h]
        exact .still (.inr ⟨false, rfl⟩) (by simp)
    | true =>
      rw [onSend_data p now hm]
      rcases checkAnswer_cases p now with ⟨hd, ha, _, h⟩ | ⟨_, h⟩
      · rw [h]
        exact .sendsLapsed ⟨hd, .inl ⟨rfl, ha, rfl⟩⟩
      · rw [h]
        rcases checkIdle_cases p now with ⟨hd, h⟩ | h
        · rw [h]
          exact .sendsLapsed ⟨hd, .inr rfl⟩
        · rw [h]
          exact .sends

lemma takeTest_tested : Tested p (wgPathTakeTest p now) := by
  unfold wgPathTakeTest
  split
  · next h => exact .owed (by simp_all) _
  · exact .none

lemma tick_move : PathMove p now .tick (wgPathTick p now) := by
  have hstill : PathMove p now .tick (p, .none) := .still (.inl rfl) (by simp)
  rcases tick_cases p now with ⟨_, h⟩ | ⟨_, hd, h⟩ | ⟨_, hd, h⟩ | ⟨_, hm, hd, h⟩ | ⟨hman, hm, h⟩
  · rw [h]
    exact hstill
  · rw [h]
    rcases checkAnswer_cases p now with ⟨_, ha, _, h⟩ | ⟨_, h⟩
    · rw [h]
      exact .lapses (.inl rfl) ⟨hd, .inl ⟨rfl, ha, rfl⟩⟩
    · rw [h]
      exact hstill
  · rw [h]
    unfold wgPathTickDoubt
    dsimp only
    split
    · exact .silent hd (takeTest_tested p now)
    · exact .tests hd (takeTest_tested p now)
  · rw [h]
    unfold wgPathTickDual
    split
    · exact .pings hm
    · split
      · split
        · next hl => exact .dies hm hd (.pending hl)
        · next hl => exact .dies hm hd (.none fun _ => by simpa using hl)
      · exact hstill
  · rw [h]
    unfold wgPathTickRelay
    split
    · next hdue =>
      simp only [Bool.and_eq_true, decide_eq_true_eq] at hdue
      have hms : (if p.reprobeMs * 2 > wgPathReprobeMaxMs then wgPathReprobeMaxMs
          else p.reprobeMs * 2) = min (2 * p.reprobeMs) 60000 := by
        have hmax : wgPathReprobeMaxMs = 60000 := rfl
        split_ifs <;> omega
      simp only [hms]
      exact .reprobes hm hman hdue.1 hdue.2
    · exact hstill

lemma resolve_move {q : WgPath} (hp : PeerPacket p now e q)
    (hd : p.inDoubt) : PathMove p now e (wgPathResolve q now) := by
  have hq : q.doubts = p.doubts := by cases hp <;> rfl
  unfold wgPathResolve
  split
  · next hlt => exact .resolves hp hd (hq ▸ hlt)
  · next hle => exact .undelivered hp hd (by omega)

lemma keepalive_move : PathMove p now .keepalive (wgPathOnKeepalive p now) := by
  rcases keepalive_cases p now with ⟨hd, h⟩ | ⟨hd, hm, h⟩ | ⟨hm, hp, h⟩ | ⟨hm, _, h⟩
  · rw [h]
    exact resolve_move p now .keepalive hd
  · rw [h]
    exact .heard .keepalive hd fun hdir => absurd hdir hm
  · rw [h]
    exact .proves hm hp
  · rw [h]
    exact .restarts .keepalive hm (.inl rfl) now p.graceUsed

lemma peerData_move : PathMove p now .peerData (wgPathOnPeerData p now) := by
  have hiff : ((wgPathHeard p now).mode = .direct && (wgPathHeard p now).hsUs ≠ 0 &&
      !(wgPathHeard p now).graceUsed &&
      !wgTimerDue now (wgPathHeard p now).hsUs wgPathAnswerUs) = true ↔ GraceApplies p now := by
    simp only [Bool.and_eq_true, decide_eq_true_eq, Bool.not_eq_true', wgTimerDue_eq_false_iff,
      and_assoc]
    exact Iff.rfl
  unfold wgPathOnPeerData
  dsimp only
  split
  · next hd => exact resolve_move p now .peerData hd
  · next hd =>
    split
    · next hg =>
      have hg := hiff.mp hg
      exact .restarts .peerData hg.1 (.inr (.inr ⟨rfl, hg⟩)) p.kaUs true
    · next hg =>
      exact .heard .peerData (Bool.of_not_eq_true hd) fun _ => by
        simp [RestartsWindow, mt hiff.mpr hg]

lemma handshake_move : PathMove p now .handshake (wgPathOnHandshake p now) := by
  unfold wgPathOnHandshake
  dsimp only
  split
  · next hd => exact resolve_move p now .handshake hd
  · next hd =>
    split
    · next hm => exact .restarts (p := p) .handshake hm (.inr (.inl rfl)) p.kaUs false
    · next hm => exact .heard .handshake (Bool.of_not_eq_true hd) fun hdir => absurd hdir hm

lemma endpointChange_move (endpoint : Endpoint) :
    PathMove p now (.endpointChange endpoint) (wgPathOnEndpointChange p now) := by
  unfold wgPathOnEndpointChange
  split
  · next hl => exact .moves endpoint (.pending hl)
  · next hl => exact .moves endpoint (.none fun _ => by simpa using hl)

lemma rescued_act (hasAct : Bool) : Rescued p now hasAct (rescued p now hasAct) := by
  unfold rescued
  split
  · next hl => exact .pending (by simp_all)
  · next hl => exact .none (by simp_all)

lemma confirm_setRtt (rttUs : UInt32) (atUs : ℤ) :
    wgPathConfirm (p.setRtt rttUs atUs) now = (wgPathConfirm p now).setRtt rttUs atUs := by
  by_cases h : p.mode = .direct <;> simp [wgPathConfirm, WgPath.setRtt, h]

lemma confirm_dropCand : wgPathConfirm p.dropCand now = (wgPathConfirm p now).dropCand := by
  by_cases h : p.mode = .direct <;> simp [wgPathConfirm, WgPath.dropCand, h]

section
attribute [local irreducible] wgPathConfirm

lemma pong_move (a : PongArgs) :
    PathMove p now (.pong a) ((wgPathOnPong p now a).1, (wgPathOnPong p now a).2.2) := by
  rcases onPong_cases p now a with ⟨hh, _, h⟩ | ⟨hh, _, h⟩ | ⟨hh, hf, h⟩ | ⟨hh, hf, h⟩
  · rw [h]
    exact .held a hh _ _
  · rw [h]
    exact .held a hh p.rttUs p.rttAtUs
  · rw [h]
    rcases pongCurrent_cases p now a with ⟨hd, h⟩ | ⟨ho, h⟩ | ⟨hd, ho, _, h⟩ | ⟨hd, ho, h⟩
    · rw [h]
      exact .answers a hd
    · rw [h]
      exact .doubts a ho
    · rw [h, confirm_setRtt]
      exact .confirms a hh hf hd ho _ _ _
    · rw [h, confirm_setRtt]
      exact .confirms a hh hf hd ho _ _ _
  · rw [h]
    rcases pongOther_cases p now a with ⟨_, h⟩ | ⟨ht, h⟩ | ⟨ht, h⟩
    · rw [h, confirm_dropCand, confirm_setRtt]
      exact .roams a hh hf (rescued_act p now a.hasAct) _ _ _
    · rw [h]
      exact .keepsCand a hf ht _ _
    · rw [h]
      exact .keepsCand a hf ht p.candValid p.cand

end

lemma pathEvent_move (e : PathEvent) : PathMove p now e (pathEvent p now e) := by
  by_cases hs : StartsOverAt p e
  · obtain ⟨managed, stats, h⟩ := startsOver_eq p now hs
    rw [h]
    exact .startsOver hs managed stats
  · cases e with
    | init => exact absurd (.inl ⟨_, _, rfl⟩) hs
    | setManaged managed => exact setManaged_move p now hs
    | send data => exact send_move p now data
    | tick => exact tick_move p now
    | keepalive => exact keepalive_move p now
    | peerData => exact peerData_move p now
    | handshake => exact handshake_move p now
    | endpointChange endpoint => exact endpointChange_move p now endpoint
    | pong args => exact pong_move p now args

end Moves

lemma pathStep_eq {σ σ' : PathState} {a : PathStep} (h : pathStep σ a = some σ') :
    σ.admits a = true ∧ σ'.path = (pathEvent σ.path a.now a.event).1 ∧
      σ'.endpoint = nextEndpoint σ a.now a.event ∧ σ'.clock = a.now := by
  unfold pathStep at h
  split_ifs at h with hadm
  obtain rfl := Option.some.inj h
  exact ⟨hadm, rfl, rfl, rfl⟩

section Runs
variable {E : PathRun} {k : ℕ}

section
variable (hk : k < E.length)
include hk

lemma pathAt_succ :
    E.pathAt (k + 1) = (pathEvent (E.pathAt k) (E.timeAt k) (E.act k).event).1 :=
  (pathStep_eq (E.steps k hk)).2.1

lemma endpoint_succ :
    (E.state (k + 1)).endpoint = nextEndpoint (E.state k) (E.timeAt k) (E.act k).event :=
  (pathStep_eq (E.steps k hk)).2.2.1

lemma clock_succ : ((E.state (k + 1)).clock : ℤ) = E.timeAt k :=
  congrArg Nat.cast (pathStep_eq (E.steps k hk)).2.2.2

lemma clock_le : ((E.state k).clock : ℤ) ≤ E.timeAt k := by
  have hadm := (pathStep_eq (E.steps k hk)).1
  simp only [PathState.admits, Bool.and_eq_true, decide_eq_true_eq] at hadm
  exact Int.ofNat_le.mpr hadm.1

lemma fromCurrent_src {args : PongArgs} (hact : (E.act k).event = .pong args)
    (hf : args.fromCurrent) : args.src = (E.state k).endpoint := by
  have hadm := (pathStep_eq (E.steps k hk)).1
  simp only [PathState.admits, hact, Bool.and_eq_true, hf, Bool.not_true, Bool.false_or,
    decide_eq_true_eq] at hadm
  exact hadm.2

end

end Runs

end TinyLink.Proofs
