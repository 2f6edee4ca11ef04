import TinyLink.Proofs.PathSteps

/-!
# Direct-only sending rests on a pong from the endpoint in use

Only a pong leads into DIRECT and DOUBT from outside. The invariant carries the candidate along with
the mode.
-/

namespace TinyLink.Proofs
open StepSystem

variable {a : PongArgs} {p q : WgPath} {now : ℤ} (endpoint : Endpoint)

def RestsOnPong (p : WgPath) : Prop := p.mode = .direct ∨ p.inDoubt = true

def HasCand (p : WgPath) (c : WgPathCand) : Prop := p.candValid = true ∧ p.cand = c

def NoNewPong (p q : WgPath) : Prop :=
  (RestsOnPong q → RestsOnPong p) ∧ ∀ c, HasCand q c → HasCand p c

lemma noNewPong_refl (p : WgPath) : NoNewPong p p := ⟨id, fun _ => id⟩

def NoPong (p : WgPath) : Prop := ¬ RestsOnPong p ∧ ∀ c, ¬ HasCand p c

lemma NoPong.noNewPong (p : WgPath) (h : NoPong q) : NoNewPong p q :=
  ⟨fun hr => absurd hr h.1, fun c hc => absurd hc (h.2 c)⟩

lemma noPong_of (hm : q.mode ≠ .direct) (hw : q.mode = .dual → q.why ≠ .doubt)
    (hc : q.candValid = false) : NoPong q := by
  refine ⟨?_, ?_⟩
  · intro hr
    rcases hr with hr | hr
    · exact hm hr
    · rw [inDoubt_iff] at hr
      exact hw hr.1 hr.2
  · intro c hcand
    rw [hcand.1] at hc
    cases hc

lemma noPong_init (now : ℤ) (managed : Bool) (stats : WgPathStats) :
    NoPong { wgPathInit now managed with stats := stats } :=
  noPong_of (by rintro ⟨⟩) (by rintro _ ⟨⟩) rfl

lemma noPong_enterRelay (p : WgPath) (now : ℤ) (why : WgPathWhy) :
    NoPong (wgPathRescue (wgPathEnterRelay p now why) now).1 :=
  noPong_of (by rintro ⟨⟩) (by rintro ⟨⟩) rfl

lemma noNewPong_pathEvent (p : WgPath) (now : ℤ) {e : PathEvent} (he : ∀ args, e ≠ .pong args) :
    NoNewPong p (pathEvent p now e).1 := by
  have hmove := pathEvent_move p now e
  generalize pathEvent p now e = r at hmove ⊢
  cases hmove with
  | startsOver => exact (noPong_init now _ _).noNewPong p
  | lapses _ hl | sendsLapsed hl => exact ⟨fun _ => .inl hl.1, fun _ => id⟩
  | tests _ hr => cases hr <;> exact noNewPong_refl p
  | silent | undelivered => exact (noPong_enterRelay _ now _).noNewPong p
  | dies _ _ hr =>
    refine ⟨fun h => absurd h (by simp [RestsOnPong, inDoubt_iff, wgPathDie]), ?_⟩
    cases hr <;> exact fun _ => id
  | resolves hp hd =>
    refine ⟨fun _ => .inr hd, fun c hc => ?_⟩
    rw [HasCand, confirm_candValid, confirm_cand] at hc
    cases hp <;> exact hc
  | heard hp | restarts hp => cases hp <;> exact noNewPong_refl p
  | moves => exact (noPong_of (by rintro ⟨⟩) (by rintro _ ⟨⟩) rfl).noNewPong p
  | held a | answers a | doubts a | confirms a | roams a | keepsCand a => exact absurd rfl (he a)
  | _ => exact noNewPong_refl p

lemma onPong_cand {c : WgPathCand}
    (h : HasCand (wgPathOnPong p now a).1 c) : HasCand p c ∨ c.addr = a.src := by
  rcases onPong_cases p now a with ⟨_, _, hr⟩ | ⟨_, _, hr⟩ | ⟨_, _, hr⟩ | ⟨_, _, hr⟩
  · rw [hr] at h
    exact .inl h
  · rw [hr] at h
    exact .inl h
  · rw [hr] at h
    rcases pongCurrent_cases p now a with ⟨_, hc⟩ | ⟨_, hc⟩ | ⟨_, _, _, hc⟩ | ⟨_, _, hc⟩
    all_goals
      rw [hc] at h
      exact absurd h.1 Bool.false_ne_true
  · rw [hr] at h
    rcases pongOther_cases p now a with ⟨_, ho⟩ | ⟨_, ho⟩ | ⟨_, ho⟩
    · rw [ho] at h
      have hv := h.1
      simp [WgPath.countRoam, WgPath.dropCand] at hv
    · rw [ho] at h
      right
      rw [← h.2]
      rfl
    · rw [ho] at h
      exact .inl h

lemma restsOnPong_congr (hm : q.mode = p.mode) (hw : q.why = p.why)
    (h : RestsOnPong q) : RestsOnPong p := by
  rw [RestsOnPong, inDoubt_iff, hm, hw] at h
  rw [RestsOnPong, inDoubt_iff]
  exact h

lemma pongEndpoint_of_stays
    (h : (wgPathOnPong p now a).2.1 ≠ .roam) (h' : (wgPathOnPong p now a).2.1 ≠ .roamCand) :
    pongEndpoint p now a endpoint = endpoint := by
  unfold pongEndpoint
  split
  · next hv => exact absurd hv h
  · next hv => exact absurd hv h'
  · rfl

lemma pongEndpoint_of_roam
    (h : (wgPathOnPong p now a).2.1 = .roam) : pongEndpoint p now a endpoint = a.src := by
  unfold pongEndpoint
  rw [h]

lemma pongEndpoint_of_roamCand (h : (wgPathOnPong p now a).2.1 = .roamCand) :
    pongEndpoint p now a endpoint = (wgPathOnPong p now a).1.cand.addr := by
  unfold pongEndpoint
  rw [h]

lemma pongCurrent_endpoint
    (hr : wgPathOnPong p now a = ((wgPathPongCurrent p now a).1, (wgPathPongCurrent p now a).2, .none)) :
    pongEndpoint p now a endpoint = endpoint ∨
      ∃ c, HasCand p c ∧ pongEndpoint p now a endpoint = c.addr := by
  have hverdict : (wgPathOnPong p now a).2.1 = (wgPathPongCurrent p now a).2 := by rw [hr]
  rcases pongCurrent_cases p now a with ⟨_, hc⟩ | ⟨_, hc⟩ | ⟨_, _, hv, hc⟩ | ⟨_, _, hc⟩
  · left
    apply pongEndpoint_of_stays <;> simp [hverdict, hc]
  · left
    apply pongEndpoint_of_stays <;> simp [hverdict, hc]
  · right
    refine ⟨p.cand, ⟨hv, rfl⟩, ?_⟩
    rw [pongEndpoint_of_roamCand endpoint (by rw [hverdict, hc]), hr, hc]
    simp
  · left
    apply pongEndpoint_of_stays <;> simp [hverdict, hc]

lemma pongEndpoint_cases {endpoint : Endpoint}
    (hcur : a.fromCurrent = true → a.src = endpoint) (h : RestsOnPong (wgPathOnPong p now a).1) :
    pongEndpoint p now a endpoint = a.src ∨
      (∃ c, HasCand p c ∧ pongEndpoint p now a endpoint = c.addr) ∨
      (pongEndpoint p now a endpoint = endpoint ∧ RestsOnPong p) := by
  have hstays : ∀ q : WgPath, wgPathOnPong p now a = (q, .kept, .none) → q.mode = p.mode →
      q.why = p.why → pongEndpoint p now a endpoint = endpoint ∧ RestsOnPong p := by
    intro q hr hm hw
    refine ⟨pongEndpoint_of_stays endpoint (by simp [hr]) (by simp [hr]), ?_⟩
    rw [hr] at h
    exact restsOnPong_congr hm hw h
  rcases onPong_cases p now a with ⟨_, _, hr⟩ | ⟨_, _, hr⟩ | ⟨_, hf, hr⟩ | ⟨_, _, hr⟩
  · exact .inr (.inr (hstays _ hr rfl rfl))
  · exact .inr (.inr (hstays _ hr rfl rfl))
  · rcases pongCurrent_endpoint endpoint hr with he | he
    · rw [he]
      exact .inl (hcur hf).symm
    · exact .inr (.inl he)
  · rcases pongOther_cases p now a with ⟨_, ho⟩ | ⟨_, ho⟩ | ⟨_, ho⟩
    · exact .inl (pongEndpoint_of_roam endpoint (by rw [hr, ho]))
    · exact .inr (.inr (hstays _ (hr.trans ho) rfl rfl))
    · exact .inr (.inr (hstays _ (hr.trans ho) rfl rfl))

variable {E : PathRun} {k : ℕ}

lemma pongFrom_succ {endpoint : Endpoint} (h : E.PongFrom k endpoint) (hs : ¬ E.StartsOver k)
    (hc : ¬ E.ChangesEndpoint k) : E.PongFrom (k + 1) endpoint := by
  obtain ⟨i, hi⟩ := h
  refine ⟨i, hi.succ ?_⟩
  rintro (h | h)
  · exact hs h
  · exact hc h

lemma pongFrom_pong {args : PongArgs} (h : (E.act k).event = .pong args) :
    E.PongFrom (k + 1) args.src := ⟨k, since_self ⟨args, h, rfl⟩⟩

/-- Whatever rests on a pong, the mode or the candidate, has one. -/
def PongInv (E : PathRun) (k : ℕ) : Prop :=
  (RestsOnPong (E.pathAt k) → E.PongFrom k (E.state k).endpoint) ∧
    ∀ c, HasCand (E.pathAt k) c → E.PongFrom k c.addr

lemma pongInv_of_noPong (h : NoPong (E.pathAt k)) : PongInv E k :=
  ⟨fun hr => absurd hr h.1, fun c hc => absurd hc (h.2 c)⟩

section
variable (hk : k < E.length)
include hk

lemma pongInv_of_noNewPong (h : PongInv E k) (hs : ¬ E.StartsOver k)
    (hc : ¬ E.ChangesEndpoint k) (hp : ∀ args, (E.act k).event ≠ .pong args)
    (hnew : NoNewPong (E.pathAt k) (E.pathAt (k + 1))) : PongInv E (k + 1) := by
  have hend : (E.state (k + 1)).endpoint = (E.state k).endpoint := by
    rw [endpoint_succ hk]
    cases hact : (E.act k).event with
    | init => exact absurd (.inl ⟨_, _, hact⟩) hs
    | endpointChange => exact absurd ⟨_, hact⟩ hc
    | pong args => exact absurd hact (hp args)
    | _ => rfl
  refine ⟨?_, ?_⟩
  · intro hr
    rw [hend]
    exact pongFrom_succ (h.1 (hnew.1 hr)) hs hc
  · intro c hcand
    exact pongFrom_succ (h.2 c (hnew.2 c hcand)) hs hc

lemma pongInv_pong (h : PongInv E k) {args : PongArgs}
    (hact : (E.act k).event = .pong args) : PongInv E (k + 1) := by
  have hs : ¬ E.StartsOver k := by
    simp [PathRun.StartsOver, hact]
  have hc : ¬ E.ChangesEndpoint k := by
    simp [PathRun.ChangesEndpoint, hact]
  have hpath := pathAt_succ hk
  have hend := endpoint_succ hk
  rw [hact] at hpath hend
  refine ⟨?_, ?_⟩
  · intro hr
    rw [hpath] at hr
    rw [hend]
    rcases pongEndpoint_cases (fromCurrent_src hk hact) hr with he | ⟨c, hcand, he⟩ | ⟨he, hrests⟩
    · rw [nextEndpoint, ← PathRun.pathAt, he]
      exact pongFrom_pong hact
    · rw [nextEndpoint, ← PathRun.pathAt, he]
      exact pongFrom_succ (h.2 c hcand) hs hc
    · rw [nextEndpoint, ← PathRun.pathAt, he]
      exact pongFrom_succ (h.1 hrests) hs hc
  · intro c hcand
    rw [hpath] at hcand
    rcases onPong_cand hcand with hold | hnew
    · exact pongFrom_succ (h.2 c hold) hs hc
    · rw [hnew]
      exact pongFrom_pong hact

lemma noPong_of_startsOver (h : E.StartsOver k) : NoPong
    (E.pathAt (k + 1)) := by
  rw [pathAt_succ hk]
  obtain ⟨_, _, hq⟩ := startsOver_eq (E.pathAt k) (E.timeAt k) h
  rw [hq]
  exact noPong_init _ _ _

lemma noPong_of_changesEndpoint (h : E.ChangesEndpoint k) :
    NoPong (E.pathAt (k + 1)) := by
  obtain ⟨endpoint, hact⟩ := h
  rw [pathAt_succ hk, hact]
  exact noPong_of (by rintro ⟨⟩) (by rintro _ ⟨⟩) rfl

lemma pongInv_succ (h : PongInv E k) : PongInv E (k + 1) := by
  by_cases hs : E.StartsOver k
  · exact pongInv_of_noPong (noPong_of_startsOver hk hs)
  by_cases hc : E.ChangesEndpoint k
  · exact pongInv_of_noPong (noPong_of_changesEndpoint hk hc)
  by_cases hp : ∃ args, (E.act k).event = .pong args
  · obtain ⟨args, hact⟩ := hp
    exact pongInv_pong hk h hact
  · have hp' : ∀ args, (E.act k).event ≠ .pong args := fun args hact => hp ⟨args, hact⟩
    apply pongInv_of_noNewPong hk h hs hc hp'
    rw [pathAt_succ hk]
    exact noNewPong_pathEvent _ _ hp'

end

lemma pongInv_along (E : PathRun) : ∀ k, k ≤ E.length → PongInv E k := by
  refine E.along ?_ ?_
  · obtain ⟨now, managed, endpoint, hstart⟩ := E.starts
    apply pongInv_of_noPong
    rw [PathRun.pathAt, hstart]
    exact noPong_init _ managed .zero
  · intro k hk h
    exact pongInv_succ hk h

/-- In every state that sends direct only or is in doubt, a pong from the endpoint in use was
processed since the session start, since the path became managed, and since the last endpoint
change. -/
theorem direct_rests_on_pong (E : PathRun) {k : ℕ} (hk : k ≤ E.length)
    (h : (E.pathAt k).mode = .direct ∨ (E.pathAt k).inDoubt = true) :
    E.PongFrom k (E.state k).endpoint :=
  (pongInv_along E k hk).1 h

section Sample

def sampleStart : PathState := ⟨wgPathInit 1 true, ⟨1, 41641⟩, 1⟩

lemma sampleStart_started : sampleStart.Started := ⟨1, true, ⟨1, 41641⟩, rfl⟩

def roamSteps : List PathStep :=
  [⟨2, .tick⟩, ⟨3, .pong ⟨20000, false, ⟨2, 41641⟩, false, false, true⟩⟩]

theorem roamed_endpoint_ponged :
    PathRun.PongFrom (runOf sampleStart sampleStart_started ⟨0, .tick⟩ roamSteps rfl) 2 ⟨2, 41641⟩ :=
  direct_rests_on_pong (runOf sampleStart sampleStart_started ⟨0, .tick⟩ roamSteps rfl)
    (by decide) (.inl rfl)

end Sample

end TinyLink.Proofs
