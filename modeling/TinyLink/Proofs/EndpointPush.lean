import TinyLink.EndpointPush

/-!
# An endpoint change is never forgotten

From the store of an endpoint on, something is left to do about it (`Due`) until a push whose body was
built behind the store is answered 200.
-/

namespace TinyLink.Proofs
open StepSystem

variable {a : PollAction} {k p : ℕ} {s s' : PushWorld} (E : PushRun)

inductive PollMove (s : PushWorld) : PollAction → PushWorld → Prop
  | offline (a : PollAction) (h : s.poll = .out) : PollMove s a s
  | connect (a connOpen abortReads) (h : s.poll = .out) :
      PollMove s a { s with connOpen, abortReads, poll := .loadPending }
  | loadPending (a pc) (h : s.poll = .loadPending)
      (hpc : pc = .loadWaiting ∨ pc = .reset false) : PollMove s a { s with poll := pc }
  | loadWaiting (a pc) (h : s.poll = .loadWaiting)
      (hpc : pc = .reset false ∨ pc = .clear) : PollMove s a { s with poll := pc }
  | clear (a : PollAction) (h : s.poll = .clear) :
      PollMove s a { s with pending := false, poll := .reset true }
  | reset (a push) (h : s.poll = .reset push) :
      PollMove s a { s with resolved := false, poll := if push then .build else .stream false }
  | build (h : s.poll = .build ∨ s.poll = .stream true) :
      PollMove s .build { s with poll := .stream true }
  | answer (status waitMs) (h : s.poll = .stream true) :
      PollMove s (.answer status waitMs) { s with poll := .resolve status waitMs }
  | resolve (a status waitMs) (h : s.poll = .resolve status waitMs) :
      PollMove s a
        { s with
          resolved := true
          poll := if status = 200 then .clearRetried else .setPending status waitMs }
  | clearRetried (a : PollAction) (h : s.poll = .clearRetried) :
      PollMove s a { s with pushes := s.pushes + 1, retried := false, poll := .answered }
  | setPending (a status waitMs pc) (h : s.poll = .setPending status waitMs)
      (hpc : pc = .answered ∨ pc = .loadRetried status waitMs) :
      PollMove s a { s with pending := true, poll := pc }
  | loadRetried (a status waitMs pc) (h : s.poll = .loadRetried status waitMs)
      (hpc : pc = .answered ∨ s.retried = false ∧ ∃ ms, pc = .setWaiting ms) :
      PollMove s a { s with poll := pc }
  | setWaiting (a ms) (h : s.poll = .setWaiting ms) :
      PollMove s a { s with waiting := true, poll := .arm ms }
  | arm (ms) (h : s.poll = .arm ms) :
      PollMove s (.arm true) { s with armed := true, poll := .setRetried }
  | notArmed (ms) (h : s.poll = .arm ms) : PollMove s (.arm false) { s with poll := .clearWaiting }
  | setRetried (a : PollAction) (h : s.poll = .setRetried) :
      PollMove s a { s with retried := true, poll := .answered }
  | clearWaiting (a : PollAction) (h : s.poll = .clearWaiting) :
      PollMove s a { s with waiting := false, poll := .answered }
  | streamEnd (a push)
      (h : s.poll = .stream push ∨ push = true ∧ (s.poll = .build ∨ s.poll = .answered)) :
      PollMove s a { s with poll := .ended push }
  | loadResolved (a push) (h : s.poll = .ended push) :
      PollMove s a { s with poll := if push && !s.resolved then .owe else .drop }
  | owe (a : PollAction) (h : s.poll = .owe) :
      PollMove s a { s with pending := true, poll := .drop }
  | drop (a : PollAction) (h : s.poll = .drop) :
      PollMove s a { s with connOpen := false, poll := .reregister }
  | reregister (a ok) (h : s.poll = .reregister) :
      PollMove s a { s with pending := s.pending || ok, poll := .out }

lemma pollStep_cases (h : pollStep s a = some s') : PollMove s a s' := by
  -- every action is enabled at its own places of the long-poll task only
  cases a <;> cases hp : s.poll <;> simp only [pollStep, hp, reduceCtorEq] at h <;> try cases h
  case connect.out =>
    split at h
    · cases h
      exact .connect _ _ _ hp
    · cases h
      exact .offline _ hp
  case loadPending.loadPending =>
    refine .loadPending _ _ hp ?_
    split
    · exact .inl rfl
    · exact .inr rfl
  case loadWaiting.loadWaiting =>
    refine .loadWaiting _ _ hp ?_
    split
    · exact .inl rfl
    · exact .inr rfl
  case clear.clear => exact .clear _ hp
  case reset.reset push => exact .reset _ push hp
  case build.build => exact .build (.inl hp)
  case build.stream push =>
    cases push with
    | true =>
      cases h
      exact .build (.inr hp)
    | false => cases h
  case answer.stream status waitMs push =>
    cases push with
    | true =>
      cases h
      exact .answer status waitMs hp
    | false => cases h
  case done.resolve status waitMs => exact .resolve _ status waitMs hp
  case done.clearRetried => exact .clearRetried _ hp
  case done.setPending status waitMs =>
    refine .setPending _ status waitMs _ hp ?_
    split
    · exact .inl rfl
    · exact .inr rfl
  case done.loadRetried status waitMs =>
    refine .loadRetried _ status waitMs _ hp ?_
    cases hr : retryAllowed s status with
    | true =>
      have hretried : s.retried = false := by
        simp only [retryAllowed, Bool.and_eq_true, Bool.not_eq_true'] at hr
        exact hr.1.2
      exact .inr ⟨hretried, _, rfl⟩
    | false => exact .inl rfl
  case done.setWaiting ms => exact .setWaiting _ ms hp
  case done.setRetried => exact .setRetried _ hp
  case done.clearWaiting => exact .clearWaiting _ hp
  case arm.arm ok ms =>
    cases ok with
    | false =>
      cases h
      exact .notArmed ms hp
    | true =>
      simp only [Bool.not_true, Bool.false_eq_true, if_false] at h
      split_ifs at h
      cases h
      exact .arm ms hp
  case streamEnd.build => exact .streamEnd _ true (.inr ⟨rfl, .inl hp⟩)
  case streamEnd.answered => exact .streamEnd _ true (.inr ⟨rfl, .inr hp⟩)
  case streamEnd.stream push => exact .streamEnd _ push (.inl hp)
  case loadResolved.ended push => exact .loadResolved _ push hp
  case owe.owe => exact .owe _ hp
  case drop.drop => exact .drop _ hp
  case reregister.reregister ok => exact .reregister _ ok hp

structure OtherMove (s s' : PushWorld) : Prop where
  poll : s'.poll = s.poll
  resolved : s'.resolved = s.resolved
  retried : s'.retried = s.retried
  pending : s.pending = true → s'.pending = true
  probe : s.probe = .setPending → s'.probe = .setPending ∨ s'.pending = true
  result : s'.result ≠ s.result → s'.probe = .setPending

lemma asyncStep_cases {pc pc' : AsyncPc} (h : asyncStep s pc = some (s', pc')) :
    s'.poll = s.poll ∧ s'.resolved = s.resolved ∧ s'.retried = s.retried ∧ s'.probe = s.probe ∧
      s'.result = s.result ∧ (s.pending = true → s'.pending = true) ∧
      (pc = .setPending → s'.pending = true) := by
  cases pc with
  | idle => cases h
  | setPending =>
    cases h
    exact ⟨rfl, rfl, rfl, rfl, rfl, fun _ => rfl, fun _ => rfl⟩
  | loadWaiting | loadOpen | abort =>
    cases h
    exact ⟨rfl, rfl, rfl, rfl, rfl, id, nofun⟩

lemma pushStep_cases {a : PushAction} (h : pushStep s a = some s') :
    (∃ b, a = .poll b ∧ PollMove s b s') ∨ (∀ b, a ≠ .poll b) ∧ OtherMove s s' := by
  cases a with
  | probe =>
    refine .inr ⟨fun _ => nofun, ?_⟩
    simp only [pushStep] at h
    split at h
    · split at h
      · cases h
        exact ⟨rfl, rfl, rfl, id, .inl, fun h => absurd rfl h⟩
      · cases h
        exact ⟨rfl, rfl, rfl, id, fun _ => .inl rfl, fun _ => rfl⟩
    · cases h
  | probeAsync =>
    refine .inr ⟨fun _ => nofun, ?_⟩
    obtain ⟨⟨t, pc⟩, ht, rfl⟩ := Option.map_eq_some_iff.mp h
    obtain ⟨hpoll, hres, hret, -, hresult, hpend, hset⟩ := asyncStep_cases ht
    exact ⟨hpoll, hres, hret, hpend, fun hp => .inr (hset hp), fun h => absurd hresult h⟩
  | fire =>
    refine .inr ⟨fun _ => nofun, ?_⟩
    simp only [pushStep] at h
    split at h
    · split_ifs at h
      cases h
      exact ⟨rfl, rfl, rfl, id, .inl, fun h => absurd rfl h⟩
    · cases h
  | timerStep =>
    refine .inr ⟨fun _ => nofun, ?_⟩
    simp only [pushStep] at h
    split at h
    · cases h
      exact ⟨rfl, rfl, rfl, id, .inl, fun h => absurd rfl h⟩
    · obtain ⟨⟨t, pc⟩, ht, rfl⟩ := Option.map_eq_some_iff.mp h
      obtain ⟨hpoll, hres, hret, hprobe, hresult, hpend, -⟩ := asyncStep_cases ht
      exact ⟨hpoll, hres, hret, hpend, fun hp => .inl (hprobe.trans hp), fun h => absurd hresult h⟩
  | poll b => exact .inl ⟨b, rfl, pollStep_cases h⟩

def pushInFlight : PollPc → Bool
  | .reset true | .build | .stream true => true
  | _ => false

/-- The push failed or went unanswered, and the flag is not yet set for it. -/
def pushOwed (s : PushWorld) : Bool :=
  match s.poll with
  | .resolve status _ => status ≠ 200
  | .setPending _ _ | .owe => true
  | .ended push => push && !s.resolved
  | _ => false

def bodyDue : PollPc → Bool
  | .reset true | .build => true
  | _ => false

/-- A push with a body yet to be built will come, or is here. -/
def Due (s : PushWorld) : Prop :=
  s.pending = true ∨ s.probe = .setPending ∨ bodyDue s.poll = true ∨ pushOwed s = true

/-- What the long-poll task knows of the flags only it writes. -/
structure PushShape (s : PushWorld) : Prop where
  unresolved : s.poll = .build ∨ s.poll = .stream true → s.resolved = false
  fresh : (∃ ms, s.poll = .setWaiting ms ∨ s.poll = .arm ms) → s.retried = false

lemma PushShape.of_poll (hun : s.poll ≠ .build ∧ s.poll ≠ .stream true)
    (hfr : ∀ ms, s.poll ≠ .setWaiting ms ∧ s.poll ≠ .arm ms) : PushShape s where
  unresolved h := by
    rcases h with h | h
    · exact absurd h hun.1
    · exact absurd h hun.2
  fresh h := by
    obtain ⟨ms, h | h⟩ := h
    · exact absurd h (hfr ms).1
    · exact absurd h (hfr ms).2

lemma OtherMove.shape (hm : OtherMove s s') (hs : PushShape s) : PushShape s' where
  unresolved h := hm.resolved.trans (hs.unresolved (hm.poll ▸ h))
  fresh h := hm.retried.trans (hs.fresh (hm.poll ▸ h))

lemma PollMove.shape (hm : PollMove s a s') (hs : PushShape s) : PushShape s' := by
  cases hm with
  | offline => exact hs
  | loadPending _ _ _ hpc | loadWaiting _ _ _ hpc | setPending _ _ _ _ _ hpc =>
    rcases hpc with rfl | rfl <;> exact .of_poll ⟨nofun, nofun⟩ fun _ => ⟨nofun, nofun⟩
  | reset a push h =>
    refine ⟨fun _ => rfl, ?_⟩
    cases push <;> rintro ⟨ms, h | h⟩ <;> cases h
  | build h =>
    refine ⟨fun _ => hs.unresolved h, ?_⟩
    rintro ⟨ms, h | h⟩ <;> cases h
  | resolve | loadResolved =>
    refine .of_poll ?_ fun _ => ?_ <;> dsimp only <;> split <;> exact ⟨nofun, nofun⟩
  | loadRetried _ _ _ _ h hpc =>
    obtain rfl | ⟨hr, ms, rfl⟩ := hpc
    · exact .of_poll ⟨nofun, nofun⟩ fun _ => ⟨nofun, nofun⟩
    · refine ⟨?_, fun _ => hr⟩
      rintro (h | h) <;> cases h
  | setWaiting a ms h =>
    refine ⟨?_, fun _ => hs.fresh ⟨ms, .inl h⟩⟩
    rintro (h | h) <;> cases h
  | connect | clear | answer | clearRetried | arm | notArmed | setRetried | clearWaiting | streamEnd
  | owe | drop | reregister => exact .of_poll ⟨nofun, nofun⟩ fun _ => ⟨nofun, nofun⟩

lemma pushShape_run (hk : k ≤ E.length) : PushShape (E.state k) := by
  refine E.invariant ?_ ?_ k hk
  · rintro s ⟨pending, timerMade, connOpen, result, rfl⟩
    exact .of_poll ⟨nofun, nofun⟩ fun _ => ⟨nofun, nofun⟩
  · intro s a s' hs h
    obtain ⟨b, -, hm⟩ | ⟨-, hm⟩ := pushStep_cases h
    · exact hm.shape hs
    · exact hm.shape hs

lemma OtherMove.due (hm : OtherMove s s') (h : Due s) : Due s' := by
  obtain h | h | h | h := h
  · exact .inl (hm.pending h)
  · exact (hm.probe h).elim (fun h => .inr (.inl h)) .inl
  · exact .inr (.inr (.inl (hm.poll ▸ h)))
  · refine .inr (.inr (.inr ?_))
    unfold pushOwed at h ⊢
    rw [hm.poll, hm.resolved]
    exact h

section
variable (hm : PollMove s a s')
include hm

lemma PollMove.probe : s'.probe = s.probe ∧ s'.result = s.result := by
  cases hm <;> exact ⟨rfl, rfl⟩

lemma PollMove.pending (h : s.pending) :
    s'.pending = true ∨ bodyDue s'.poll = true := by
  cases hm with
  | clear => exact .inr rfl
  | setPending | owe => exact .inl rfl
  | reregister => exact .inl (by simp [h])
  | _ => exact .inl h

lemma PollMove.bodyDue (hs : PushShape s) (hb : bodyDue s.poll) :
    Proofs.bodyDue s'.poll = true ∨ pushOwed s' = true ∨ a = .build ∧ s'.poll = .stream true := by
  cases hm with
  | reset a push h =>
    rw [h] at hb
    cases push with
    | true => exact .inl rfl
    | false => cases hb
  | build => exact .inr (.inr ⟨rfl, rfl⟩)
  | streamEnd _ _ h =>
    rcases h with h | ⟨rfl, h | h⟩
    · rw [h] at hb
      cases hb
    · have hres := hs.unresolved (.inl h)
      exact .inr (.inl (by simp [pushOwed, hres]))
    · rw [h] at hb
      cases hb
  | offline _ h | connect _ _ _ h | loadPending _ _ h | loadWaiting _ _ h | clear _ h
  | answer _ _ h | resolve _ _ _ h | clearRetried _ h | setPending _ _ _ _ h
  | loadRetried _ _ _ _ h | setWaiting _ _ h | arm _ h | notArmed _ h | setRetried _ h
  | clearWaiting _ h | loadResolved _ _ h | owe _ h | drop _ h | reregister _ _ h =>
    rw [h] at hb
    cases hb

lemma PollMove.owed (ho : pushOwed s) :
    s'.pending = true ∨ pushOwed s' = true := by
  unfold pushOwed at ho
  cases hm with
  | resolve _ status _ h =>
    rw [h] at ho
    have hne : status ≠ 200 := of_decide_eq_true ho
    exact .inr (by simp [pushOwed, hne])
  | setPending | owe => exact .inl rfl
  | loadResolved _ _ h =>
    rw [h] at ho
    exact .inr (by simp only [pushOwed, if_pos ho])
  | build h =>
    rcases h with h | h <;> rw [h] at ho <;> cases ho
  | streamEnd _ _ h =>
    rcases h with h | ⟨-, h | h⟩ <;> rw [h] at ho <;> cases ho
  | offline _ h | connect _ _ _ h | loadPending _ _ h | loadWaiting _ _ h | clear _ h
  | reset _ _ h | answer _ _ h | clearRetried _ h | loadRetried _ _ _ _ h | setWaiting _ _ h
  | arm _ h | notArmed _ h | setRetried _ h | clearWaiting _ h | drop _ h | reregister _ _ h =>
    rw [h] at ho
    cases ho

lemma PollMove.due (hs : PushShape s) (h : Due s) :
    Due s' ∨ a = .build ∧ s'.poll = .stream true := by
  obtain h | h | h | h := h
  · rcases hm.pending h with h | h
    · exact .inl (.inl h)
    · exact .inl (.inr (.inr (.inl h)))
  · exact .inl (.inr (.inl (hm.probe.1.trans h)))
  · rcases hm.bodyDue hs h with h | h | h
    · exact .inl (.inr (.inr (.inl h)))
    · exact .inl (.inr (.inr (.inr h)))
    · exact .inr h
  · rcases hm.owed h with h | h
    · exact .inl (.inl h)
    · exact .inl (.inr (.inr (.inr h)))

lemma PollMove.stream (hs : PushShape s) (hp : s.poll = .stream true) :
    s'.poll = .stream true ∨ pushOwed s' = true ∨ ∃ waitMs, a = .answer 200 waitMs := by
  cases hm with
  | build => exact .inl rfl
  | answer status waitMs =>
    by_cases hst : status = 200
    · subst hst
      exact .inr (.inr ⟨waitMs, rfl⟩)
    · exact .inr (.inl (by simp [pushOwed, hst]))
  | streamEnd _ _ h =>
    have hres := hs.unresolved (.inr hp)
    rcases h with h | ⟨-, h | h⟩ <;> rw [hp] at h <;> cases h
    exact .inr (.inl (by simp [pushOwed, hres]))
  | offline _ h | connect _ _ _ h | loadPending _ _ h | loadWaiting _ _ h | clear _ h
  | reset _ _ h | resolve _ _ _ h | clearRetried _ h | setPending _ _ _ _ h
  | loadRetried _ _ _ _ h | setWaiting _ _ h | arm _ h | notArmed _ h | setRetried _ h
  | clearWaiting _ h | loadResolved _ _ h | owe _ h | drop _ h | reregister _ _ h =>
    rw [hp] at h
    cases h

end

def Stores (E : PushRun) (p : ℕ) : Prop := (E.state (p + 1)).result ≠ (E.state p).result

def Builds (E : PushRun) (q : ℕ) : Prop := E.act q = .poll .build

def Answers200 (E : PushRun) (r : ℕ) : Prop := ∃ waitMs, E.act r = .poll (.answer 200 waitMs)

def Arms (E : PushRun) (j : ℕ) : Prop := E.act j = .poll (.arm true)

/-- Before step `k` a push was answered 200 whose body was built behind step `p`. -/
def Carried (E : PushRun) (p k : ℕ) : Prop :=
  ∃ q r, p < q ∧ Since (Builds E) (Builds E) r q ∧ Answers200 E r ∧ r < k

/-- Something is due, or a push is on its way with a body built behind step `p`. -/
def Pursued (E : PushRun) (p k : ℕ) : Prop :=
  Due (E.state k) ∨
    (E.state k).poll = .stream true ∧ ∃ q, p < q ∧ Since (Builds E) (Builds E) k q

lemma pursued_of_stores (hp : p < E.length) (h : Stores E p) :
    Pursued E p (p + 1) := by
  obtain ⟨b, -, hm⟩ | ⟨-, hm⟩ := pushStep_cases (E.steps p hp)
  · exact absurd hm.probe.2 h
  · exact .inl (.inr (.inl (hm.result h)))

lemma Pursued.step (hpk : p < k) (hk : k < E.length)
    (h : Pursued E p k) : Pursued E p (k + 1) ∨ Carried E p (k + 1) := by
  have hs := pushShape_run E hk.le
  obtain ⟨b, hb, hm⟩ | ⟨hb, hm⟩ := pushStep_cases (E.steps k hk)
  · rcases h with h | ⟨h, q, hq, hsince⟩
    · rcases hm.due hs h with h | ⟨rfl, h⟩
      · exact .inl (.inl h)
      · exact .inl (.inr ⟨h, k, hpk, since_self hb⟩)
    · rcases hm.stream hs h with h | h | ⟨waitMs, rfl⟩
      · by_cases hbuild : Builds E k
        · exact .inl (.inr ⟨h, k, hpk, since_self hbuild⟩)
        · exact .inl (.inr ⟨h, q, hq, hsince.succ hbuild⟩)
      · exact .inl (.inl (.inr (.inr (.inr h))))
      · exact .inr ⟨q, k, hq, hsince, ⟨waitMs, hb⟩, Nat.lt_succ_self k⟩
  · rcases h with h | ⟨h, q, hq, hsince⟩
    · exact .inl (.inl (hm.due h))
    · exact .inl (.inr ⟨hm.poll.trans h, q, hq, hsince.succ fun hbuild => hb _ hbuild⟩)

lemma pursued_or_carried (h : Stores E p) (hpk : p < k)
    (hk : k ≤ E.length) : Pursued E p k ∨ Carried E p k := by
  refine stretch (show p + 1 ≤ k from hpk) (.inl (pursued_of_stores E (by omega) h))
    fun m hpm hm hor => ?_
  rcases hor with hpursued | ⟨q, r, hq, hsince, hans, hr⟩
  · exact hpursued.step E hpm (by omega)
  · exact .inr ⟨q, r, hq, hsince, hans, by omega⟩

lemma pushInFlight_of_bodyDue {pc : PollPc} (h : bodyDue pc) : pushInFlight pc = true := by
  unfold bodyDue at h
  split at h
  · rfl
  · rfl
  · cases h

def StreakArmed (s : PushWorld) : Prop :=
  (s.retried = true ∧ s.poll ≠ .clearRetried ∧ ∀ waitMs, s.poll ≠ .resolve 200 waitMs) ∨
    s.poll = .setRetried

lemma OtherMove.streakArmed (hm : OtherMove s s') (h : StreakArmed s) : StreakArmed s' := by
  unfold StreakArmed
  rw [hm.retried, hm.poll]
  exact h

lemma PollMove.streakArmed (hm : PollMove s a s') (h : StreakArmed s)
    (ha : ∀ waitMs, a ≠ .answer 200 waitMs) : StreakArmed s' := by
  have hret (hne : s.poll ≠ .setRetried) := (h.resolve_right hne).1
  cases hm with
  | offline => exact h
  | setRetried => exact .inl ⟨rfl, nofun, fun _ => nofun⟩
  | arm => exact .inr rfl
  | clearRetried a hp =>
    rcases h with ⟨-, hne, -⟩ | h
    · exact absurd hp hne
    · rw [hp] at h
      cases h
  | resolve a status waitMs hp =>
    have hne : status ≠ 200 := by
      rintro rfl
      exact ((h.resolve_right (by rw [hp]; nofun)).2.2 waitMs) hp
    exact .inl ⟨hret (by rw [hp]; nofun), by simp [hne], by simp [hne]⟩
  | answer _ waitMs hp =>
    refine .inl ⟨hret (by rw [hp]; nofun), nofun, ?_⟩
    intro w hw
    cases hw
    exact ha waitMs rfl
  | reset a push hp =>
    refine .inl ⟨hret (by rw [hp]; nofun), ?_⟩
    cases push <;> exact ⟨nofun, fun _ => nofun⟩
  | build hp =>
    refine .inl ⟨hret ?_, nofun, fun _ => nofun⟩
    rcases hp with hp | hp <;> rw [hp] <;> nofun
  | streamEnd _ _ hp =>
    refine .inl ⟨hret ?_, nofun, fun _ => nofun⟩
    rcases hp with hp | ⟨-, hp | hp⟩ <;> rw [hp] <;> nofun
  | loadResolved _ _ hp =>
    refine .inl ⟨hret (by rw [hp]; nofun), ?_⟩
    split <;> exact ⟨nofun, fun _ => nofun⟩
  | loadPending a pc hp hpc | loadWaiting a pc hp hpc | setPending _ _ _ _ hp hpc =>
    refine .inl ⟨hret (by rw [hp]; nofun), ?_⟩
    rcases hpc with rfl | rfl <;> exact ⟨nofun, fun _ => nofun⟩
  | loadRetried _ _ _ _ hp hpc =>
    refine .inl ⟨hret (by rw [hp]; nofun), ?_⟩
    obtain rfl | ⟨-, ms, rfl⟩ := hpc <;> exact ⟨nofun, fun _ => nofun⟩
  | connect _ _ _ hp | clear _ hp | setWaiting _ _ hp | notArmed _ hp | clearWaiting _ hp | owe _ hp
  | drop _ hp | reregister _ _ hp =>
    exact .inl ⟨hret (by rw [hp]; nofun), nofun, fun _ => nofun⟩

lemma arm_spec (h : pollStep s (.arm true) = some s') :
    (∃ ms, s.poll = .arm ms) ∧ s'.poll = .setRetried := by
  simp only [pollStep, Bool.not_true, Bool.false_eq_true, if_false] at h
  split at h
  · rename_i ms hp
    split_ifs at h
    cases h
    exact ⟨⟨ms, hp⟩, rfl⟩
  · cases h

lemma streakArmed_since {j : ℕ} : ∀ k ≤ E.length,
    Since (Arms E) (Answers200 E) k j → StreakArmed (E.state k) := by
  refine E.along (P := fun k => Since (Arms E) (Answers200 E) k j → StreakArmed (E.state k))
    (fun h => absurd h not_since_zero) ?_
  intro k hk ih hsince
  rcases hsince.of_succ with ⟨rfl, harms⟩ | ⟨hsince, hno⟩
  · have hstep := E.steps j hk
    rw [harms] at hstep
    exact .inr (arm_spec hstep).2
  · obtain ⟨b, hb, hm⟩ | ⟨-, hm⟩ := pushStep_cases (E.steps k hk)
    · exact hm.streakArmed (ih hsince) fun w hw => hno ⟨w, hw ▸ hb⟩
    · exact hm.streakArmed (ih hsince)

lemma not_streakArmed_of_arms (hk : k < E.length) (h : Arms E k) :
    ¬ StreakArmed (E.state k) := by
  have hstep := E.steps k hk
  rw [h] at hstep
  obtain ⟨⟨ms, hp⟩, -⟩ := arm_spec hstep
  rintro (⟨hret, -⟩ | hset)
  · have hfresh := (pushShape_run E hk.le).fresh ⟨ms, .inr hp⟩
    rw [hret] at hfresh
    cases hfresh
  · rw [hp] at hset
    cases hset

/-- While a stored endpoint has not been carried by a push answered 200, the flag is set or about to
be set, or a push is in flight. And between two answers 200 the timer is armed at most once. -/
theorem endpoint_change_not_forgotten (E : PushRun) :
    (∀ k ≤ E.length, ∀ p < k, Stores E p → ¬ Carried E p k →
      (E.state k).pending = true ∨ pushInFlight (E.state k).poll = true ∨
        (E.state k).probe = .setPending ∨ pushOwed (E.state k) = true) ∧
    (∀ j k, j < k → k < E.length → Arms E j → Arms E k →
      ∃ m, j < m ∧ m < k ∧ Answers200 E m) := by
  constructor
  · intro k hk p hpk hstores hnot
    rcases (pursued_or_carried E hstores hpk hk).resolve_right hnot with h | ⟨h, -⟩
    · obtain h | h | h | h := h
      · exact .inl h
      · exact .inr (.inr (.inl h))
      · exact .inr (.inl (pushInFlight_of_bodyDue h))
      · exact .inr (.inr (.inr h))
    · exact .inr (.inl (by rw [h]; rfl))
  · intro j k hjk hk hj hk'
    by_contra hno
    have hsince : Since (Arms E) (Answers200 E) k j :=
      ⟨hjk, hj, fun m hjm hmk hans => hno ⟨m, hjm, hmk, hans⟩⟩
    exact not_streakArmed_of_arms E hk hk' (streakArmed_since E k hk.le hsince)

def lateChangeActions : List PushAction :=
  [.poll (.connect true), .poll .loadPending, .poll .loadWaiting, .poll .clear, .poll .reset,
    .poll .build, .probe ⟨#v[1, 2, 3, 4], 5⟩, .probeAsync, .poll (.answer 200 0), .poll .done,
    .poll .done]

def lateChangeRun : PushRun :=
  runOf ⟨true, false, false, false, true, false, false, false, 0, none, .idle, .async .idle, .out⟩
    ⟨true, true, false, none, rfl⟩ .fire lateChangeActions (by decide +kernel)

theorem late_change_is_pending :
    Stores lateChangeRun 6 ∧ ¬ Carried lateChangeRun 6 11 ∧
      ((lateChangeRun.state 11).pending = true ∨
        pushInFlight (lateChangeRun.state 11).poll = true ∨
          (lateChangeRun.state 11).probe = .setPending ∨
            pushOwed (lateChangeRun.state 11) = true) := by
  have hstores : Stores lateChangeRun 6 := by
    unfold Stores
    decide +kernel
  have hnot : ¬ Carried lateChangeRun 6 11 := by
    rintro ⟨q, r, hq, ⟨hqr, hbuild, -⟩, -, hr⟩
    have hlate : ∀ q < 11, 6 < q → lateChangeRun.act q ≠ .poll .build := by decide +kernel
    exact hlate q (by omega) hq hbuild
  exact ⟨hstores, hnot, (endpoint_change_not_forgotten lateChangeRun).1 11 (by decide +kernel) 6
    (by decide) hstores hnot⟩

end TinyLink.Proofs
