import TinyLink.WarmSystem

/-!
# Steps of the warm start

What one step of a task and the handler of a netmap frame do, to the marks in RTC memory among others.
-/

namespace TinyLink.Proofs
open WarmDevice StepSystem

variable {cfg : WarmConfig} {s s' : WarmDevice} {a : WarmAction} {r : WarmRtc}

inductive LpMove (cfg : WarmConfig) (s : WarmDevice) : WarmDevice → Prop
  | poll (c next) (hl : s.lp = .loop ∧ next = .connect ∨ s.lp = .ended ∧ next = .loop) :
      LpMove cfg s (s.lpPoll cfg c next)
  | goOn (lp) (hl : s.lp = .connect ∨ s.lp = .stream)
      (hn : lp = .stream ∨ lp = .loop ∨ lp = .ended) : LpMove cfg s { s with lp }
  | receive (nm) (hl : s.lp = .stream) :
      LpMove cfg s { s with gateLp := true, lp := if s.gateLp then .frame nm else .gate nm }
  | gatePass (nm) (hl : s.lp = .gate nm) (hmx : s.mxFree = true) :
      LpMove cfg s { s with gateShut := true, lp := .frame nm }
  | gateHang (nm) (hl : s.lp = .gate nm) : LpMove cfg s { s with lp := .mark true }
  | frame (nm) (hl : s.lp = .frame nm) :
      LpMove cfg s
        { s with
          sm := (tlWarmSmFrame s.sm s.tables).1
          tables := (tlWarmSmFrame s.sm s.tables).2.1
          lp := .handle nm (tlWarmSmFrame s.sm s.tables).2.2 }
  | handle (nm warm e) (hl : s.lp = .handle nm warm) :
      LpMove cfg s (s.handle cfg nm warm e)
  | cold (hl : s.lp = .cold) : LpMove cfg s { s with sm := tlWarmSmCold s.sm, lp := .stage }
  | stage (our) (hl : s.lp = .stage) : LpMove cfg s (s.stage our)
  | mark (hung) (hl : s.lp = .mark hung) :
      LpMove cfg s { s.mark hung with lp := .shut hung }
  | shut (hung got) (hl : s.lp = .shut hung) :
      LpMove cfg s { s with nvsShut := true, lp := .halted hung got }

inductive TelMove (cfg : WarmConfig) (s : WarmDevice) : WarmDevice → Prop
  | poll (c) : TelMove cfg s (s.telPoll cfg c)
  | idle : TelMove cfg s { s with tel := .idle }
  | snapshot (r : WarmRec) (hr : s.staged = some r) : TelMove cfg s { s with tel := .wait r s.sm }
  | take (r sm) (ht : s.tel = .wait r sm) :
      TelMove cfg s { s with tel := if s.nvsShut then .leaving else .store r sm }
  | store (r sm e) (ht : s.tel = .store r sm) :
      TelMove cfg s (s.store r sm e)
  | settle (rc) (ht : s.tel = .settle rc) : TelMove cfg s (s.settle rc)
  | mark (ht : s.tel = .mark) : TelMove cfg s { s.mark false with tel := .shut }
  | shut (got) : TelMove cfg s { s with nvsShut := true, tel := .halted got }

/-- A step that is not a reset. -/
inductive WarmMove (cfg : WarmConfig) (s : WarmDevice) : WarmDevice → Prop
  | load (nodePub controlPub eraseOk read) (hm : s.main = .booting) :
      WarmMove cfg s (s.load nodePub controlPub eraseOk read)
  | takeStart (hm : s.main = .idle) : WarmMove cfg s s.takeStart
  | go (regReused heapOk : Bool) (nowUnix) (hm : s.main = .holding) :
      WarmMove cfg s (s.go regReused heapOk nowUnix)
  | start (ok nowS selfV4) (hm : s.main = .starting) :
      WarmMove cfg s (s.start ok nowS selfV4)
  | giveStart (hm : s.main = .leaving) : WarmMove cfg s { s with main := .done }
  | lp {t : WarmDevice} (hm : s.main ≠ .booting) (h : LpMove cfg s t) : WarmMove cfg s t
  | tel {t : WarmDevice} (hm : s.main ≠ .booting) (h : TelMove cfg s t) : WarmMove cfg s t

lemma lpStep_move (h : lpStep cfg s a = some s') : LpMove cfg s s' := by
  cases a with
  | lpPoll c =>
    cases hl : s.lp <;> simp only [lpStep, hl, Option.some.injEq, reduceCtorEq] at h
    case loop =>
      subst h
      exact .poll c .connect (.inl ⟨hl, rfl⟩)
    case ended =>
      subst h
      exact .poll c .loop (.inr ⟨hl, rfl⟩)
  | connect ok =>
    obtain ⟨hl, rfl⟩ := guarded h
    exact .goOn _ (.inl hl) (by cases ok <;> simp)
  | receive nm =>
    obtain ⟨hl, rfl⟩ := guarded h
    exact .receive nm hl
  | streamEnds =>
    obtain ⟨hl, rfl⟩ := guarded h
    exact .goOn _ (.inr hl) (by simp)
  | gatePass =>
    cases hl : s.lp <;> simp only [lpStep, hl, reduceCtorEq] at h
    case gate nm =>
      obtain ⟨hmx, rfl⟩ := guarded h
      exact .gatePass nm hl hmx
  | gateHang =>
    cases hl : s.lp <;> simp only [lpStep, hl, reduceCtorEq] at h
    case gate nm =>
      obtain ⟨-, rfl⟩ := guarded h
      exact .gateHang nm hl
  | frame =>
    cases hl : s.lp <;> simp only [lpStep, hl, Option.some.injEq, reduceCtorEq] at h
    case frame nm =>
      subst h
      exact .frame nm hl
  | handle e =>
    cases hl : s.lp <;> simp only [lpStep, hl, Option.some.injEq, reduceCtorEq] at h
    case handle nm warm =>
      subst h
      exact .handle nm warm e hl
  | cold =>
    obtain ⟨hl, rfl⟩ := guarded h
    exact .cold hl
  | stage our =>
    obtain ⟨hl, rfl⟩ := guarded h
    exact .stage our hl
  | lpMark =>
    cases hl : s.lp <;> simp only [lpStep, hl, Option.some.injEq, reduceCtorEq] at h
    case mark hung =>
      subst h
      exact .mark hung hl
  | lpShut got =>
    cases hl : s.lp <;> simp only [lpStep, hl, reduceCtorEq] at h
    case shut hung =>
      obtain ⟨-, rfl⟩ := guarded h
      exact .shut hung got hl
  | _ => exact nomatch h

lemma telStep_move (h : telStep cfg s a = some s') : TelMove cfg s s' := by
  cases a with
  | telPoll c =>
    obtain ⟨-, rfl⟩ := guarded h
    exact .poll c
  | snapshot =>
    simp only [telStep, Option.ite_none_right_eq_some] at h
    obtain ⟨-, h⟩ := h
    split at h
    case h_1 =>
      obtain rfl := Option.some.inj h
      exact .idle
    case h_2 r hr =>
      obtain rfl := Option.some.inj h
      exact .snapshot r hr
  | telTake got =>
    cases ht : s.tel <;> simp only [telStep, ht, reduceCtorEq] at h
    case wait r sm =>
      cases got with
      | false =>
        obtain rfl := Option.some.inj h
        exact .idle
      | true =>
        obtain ⟨-, rfl⟩ := guarded h
        exact .take r sm ht
  | store e =>
    cases ht : s.tel <;> simp only [telStep, ht, Option.some.injEq, reduceCtorEq] at h
    case store r sm =>
      subst h
      exact .store r sm e ht
  | settle =>
    cases ht : s.tel <;> simp only [telStep, ht, Option.some.injEq, reduceCtorEq] at h
    case settle rc =>
      subst h
      exact .settle rc ht
  | telGive =>
    obtain ⟨-, rfl⟩ := guarded h
    exact .idle
  | telMark =>
    obtain ⟨ht, rfl⟩ := guarded h
    exact .mark ht
  | telShut got =>
    obtain ⟨-, rfl⟩ := guarded h
    exact .shut got
  | _ => exact nomatch h

lemma mainStep_move (h : mainStep s a = some s') : WarmMove cfg s s' := by
  cases a with
  | load nodePub controlPub eraseOk read =>
    obtain ⟨hm, rfl⟩ := guarded h
    exact .load nodePub controlPub eraseOk read hm
  | takeStart =>
    obtain ⟨hm, rfl⟩ := guarded h
    simp only [Bool.and_eq_true, decide_eq_true_eq] at hm
    exact .takeStart hm.1
  | go regReused heapOk nowUnix =>
    obtain ⟨hm, rfl⟩ := guarded h
    exact .go regReused heapOk nowUnix hm
  | start ok nowS selfV4 =>
    obtain ⟨hm, rfl⟩ := guarded h
    exact .start ok nowS selfV4 hm
  | giveStart =>
    obtain ⟨hm, rfl⟩ := guarded h
    exact .giveStart hm
  | _ => exact nomatch h

lemma warmStep_cases (h : warmStep cfg s a = some s') :
    (∃ reason garbage, a = .reset reason garbage ∧
      s' = .boot (if reason = tlWarmRstPoweron then garbage else s.rtc) reason
        (s.history ++ [⟨s.log, reason⟩])) ∨ WarmMove cfg s s' := by
  have htask (h : (mainStep s a).or (if s.main = .booting then none
      else (lpStep cfg s a).or (telStep cfg s a)) = some s') : WarmMove cfg s s' := by
    rcases Option.or_eq_some_iff.mp h with hmain | ⟨-, h⟩
    · exact mainStep_move hmain
    · split_ifs at h with hm
      rcases Option.or_eq_some_iff.mp h with hlp | ⟨-, htel⟩
      · exact .lp hm (lpStep_move hlp)
      · exact .tel hm (telStep_move htel)
  cases a with
  | reset reason garbage => exact .inl ⟨reason, garbage, rfl, (Option.some.inj h).symm⟩
  | _ => exact .inr (htask h)

inductive HandleMove (s : WarmDevice) (warm : Bool) : WarmDevice → Prop
  | answer (tables : WarmTables) (nm : Netmap) (our : Option Ipv4) (expired moved : Bool)
      (hw : warm = true) :
      HandleMove s warm ({ s with tables }.warmNetmap nm our expired moved)
  | leave (hw : warm = false) : HandleMove s warm { s with lp := .ended }
  | moved (tables : WarmTables) (hw : warm = false) :
      HandleMove s warm { s with tables, sm.restart := true, lp := .ended }
  | apply (tables : WarmTables) (dataplaneStarted : Bool) (selfV4 : ℕ) (lp : LpPc)
      (hw : warm = false) (hl : lp = .stream ∨ lp = .cold ∨ lp = .stage) :
      HandleMove s warm { s with tables, dataplaneStarted, selfV4, lp }

lemma applyNetmap_eq (s : WarmDevice) (nm : Netmap) (changed startOk : Bool) (selfV4 : ℕ) :
    ∃ started v4 lp, (lp = .stream ∨ lp = .cold ∨ lp = .stage) ∧
      s.applyNetmap nm changed startOk selfV4 =
        { s with dataplaneStarted := started, selfV4 := v4, lp } := by
  unfold applyNetmap
  split_ifs
  · exact ⟨_, _, _, .inl rfl, rfl⟩
  · exact ⟨_, _, _, .inl rfl, rfl⟩
  · exact ⟨_, _, _, .inr (.inl rfl), rfl⟩
  · exact ⟨_, _, _, .inr (.inr rfl), rfl⟩
  · exact ⟨_, _, _, .inl rfl, rfl⟩

lemma handle_move (s : WarmDevice) (nm : Netmap) (warm : Bool) (e : HandlerEnv) :
    HandleMove s warm (s.handle cfg nm warm e) := by
  unfold handle
  by_cases hexp : selfNodeExpired nm e.nowUnix = true
  · rw [if_pos hexp]
    cases warm with
    | true => exact .answer s.tables nm e.our true false rfl
    | false => exact .leave rfl
  rw [if_neg hexp]
  dsimp only
  generalize hs : (if (nm.haveSelf && decide (nm.selfAddresses ≠ [])) = true then
    { s with tables.self := nm.selfAddresses } else s) = t
  obtain ⟨tables, rfl⟩ : ∃ tables, t = { s with tables } := by
    rw [← hs]
    split_ifs
    · exact ⟨_, rfl⟩
    · exact ⟨s.tables, rfl⟩
  split
  · cases warm with
    | true => exact .answer tables nm e.our false true rfl
    | false => exact .moved tables rfl
  · cases warm with
    | true => exact .answer ⟨tables.self, _⟩ nm e.our false false rfl
    | false =>
      obtain ⟨started, v4, lp, hl, he⟩ := applyNetmap_eq
        { s with tables := ⟨tables.self, (mergePeers tables.peers nm).1⟩ } nm
        (mergePeers tables.peers nm).2 e.startOk e.selfV4
      exact he ▸ .apply _ started v4 lp rfl hl

lemma intact_iff (r : WarmRtc) : r.intact = true ↔
    r.magic = tlWarmRtcMagic ∧ r.check = tlWarmRtcSum r ∧ r.attempt ≤ 1 ∧ r.skip ≤ 1 ∧
      r.crashes ≤ tlWarmRtcMaxCrashes ∧ r.pad = 0 := by
  simp [WarmRtc.intact, and_assoc]

lemma rtcSum_check (r : WarmRtc) (c : ℕ) : tlWarmRtcSum { r with check := c } = tlWarmRtcSum r := by
  simp only [tlWarmRtcSum]

lemma seal_intact (ha : r.attempt ≤ 1) (hs : r.skip ≤ 1)
    (hc : r.crashes ≤ tlWarmRtcMaxCrashes) (hp : r.pad = 0) : (tlWarmRtcSeal r).intact = true :=
  (intact_iff _).mpr ⟨rfl, (rtcSum_check _ _).symm, ha, hs, hc, hp⟩

lemma counted_le (hc : r.crashes ≤ tlWarmRtcMaxCrashes) :
    r.counted ≤ tlWarmRtcMaxCrashes := by
  unfold WarmRtc.counted
  split_ifs <;> omega

lemma le_counted {n : ℕ} (hn : n ≤ r.crashes + 1) (hm : n ≤ tlWarmRtcMaxCrashes) :
    n ≤ r.counted := by
  unfold WarmRtc.counted
  split_ifs <;> omega

lemma rtcBoot_intact (hi : r.intact) {reason : ℕ}
    (hp : reason ≠ tlWarmRstPoweron) : (tlWarmRtcBoot r reason).1 = tlWarmRtcSeal { r with
        crashes := if r.attempt ≠ 0 ∧ reason ≠ tlWarmRstSw then r.counted else r.crashes
        attempt := 0
        skip := 0 } ∧
    ((tlWarmRtcBoot r reason).2.2 = true ↔ r.attempt ≠ 0 ∧ reason ≠ tlWarmRstSw) := by
  simp [tlWarmRtcBoot, hi, hp]

lemma rtcBoot_spec (r : WarmRtc) (reason : ℕ) :
    let b := tlWarmRtcBoot r reason
    b.1.intact = true ∧ b.1.attempt = 0 ∧ b.1.skip = 0 ∧
      (b.2.1 = .off ↔ tlWarmRtcMaxCrashes ≤ b.1.crashes) := by
  by_cases hr : (decide (reason = tlWarmRstPoweron) || !r.intact) = true
  · simp only [tlWarmRtcBoot, hr, if_true]
    decide
  · have hi : r.intact = true := by
      cases hc : r.intact
      · simp [hc] at hr
      · rfl
    have hp : reason ≠ tlWarmRstPoweron := by
      rintro rfl
      simp at hr
    obtain ⟨-, -, -, -, hc, hpad⟩ := (intact_iff r).mp hi
    dsimp only
    rw [(rtcBoot_intact hi hp).1]
    refine ⟨seal_intact (Nat.zero_le 1) (Nat.zero_le 1) ?_ hpad, rfl, rfl, ?_⟩
    · dsimp only
      split_ifs
      · exact counted_le hc
      · exact hc
    · rw [← (rtcBoot_intact hi hp).1]
      simp only [tlWarmRtcBoot, hr]
      split_ifs <;> simp_all

lemma rtcBoot_clean (hi : r.intact) {reason : ℕ}
    (hp : reason ≠ tlWarmRstPoweron) (hv : (tlWarmRtcBoot r reason).2.1 = .clean) :
    ¬(r.attempt ≠ 0 ∧ reason ≠ tlWarmRstSw) ∧ r.skip = 0 := by
  have hb : (decide (reason = tlWarmRstPoweron) || !r.intact) = false := by simp [hi, hp]
  simp only [tlWarmRtcBoot, hb] at hv
  split_ifs at hv <;> simp_all

lemma tlWarmLoad_marks (rtc : WarmRtc) (reason : ℕ) (eraseOk : Bool) (read : WarmRead) :
    (tlWarmLoad rtc reason eraseOk read).rtc = (tlWarmRtcBoot rtc reason).1 ∧
      (tlWarmLoad rtc reason eraseOk read).verdict = (tlWarmRtcBoot rtc reason).2.1 := by
  unfold tlWarmLoad
  dsimp only
  split
  · exact ⟨rfl, rfl⟩
  · cases read with
    | blob b =>
      dsimp only
      cases tlWarmDecode b <;> exact ⟨rfl, rfl⟩
    | _ => exact ⟨rfl, rfl⟩

lemma underWay_concat (es : List WarmEvent) (e : WarmEvent) :
    underWay (es ++ [e]) = e.opens (underWay es) := by
  simp [underWay]

lemma hasBegun_append (es fs : List WarmEvent) :
    hasBegun (es ++ fs) = (hasBegun es || hasBegun fs) := by
  simp [hasBegun]

/-- Events that leave the marks alone. -/
def WarmQuiet : WarmEvent → Prop
  | .started ok => ok = true
  | .answered _ _ _ | .polled _ _ | .stored _ => True
  | _ => False

lemma WarmQuiet.opens {e : WarmEvent} (he : WarmQuiet e) (under : Bool) :
    e.opens under = under := by
  cases e with
  | started ok =>
    obtain rfl : ok = true := he
    exact Bool.and_true under
  | began | settled | restarted => exact he.elim
  | _ => rfl

lemma underWay_quiet (l : List WarmEvent) {es : List WarmEvent} (hq : ∀ e ∈ es, WarmQuiet e) :
    underWay (l ++ es) = underWay l := by
  induction es using List.reverseRecOn with
  | nil => rw [List.append_nil]
  | append_singleton _ e ih =>
    rw [← List.append_assoc, underWay_concat, (hq e (by simp)).opens]
    exact ih fun f hf => hq f (by simp [hf])

lemma hasBegun_quiet {es : List WarmEvent} (hq : ∀ e ∈ es, WarmQuiet e) : hasBegun es = false := by
  rw [hasBegun, List.any_eq_false]
  intro e he
  have := hq e he
  cases e <;> simp_all [WarmQuiet]

/-- What a move behind `warm_load` does to the marks. -/
inductive GuardMove (s s' : WarmDevice) : Prop
  | quiet (es : List WarmEvent) (hq : ∀ e ∈ es, WarmQuiet e) (hrtc : s'.rtc = s.rtc)
      (hlog : s'.log = s.log ++ es)
  | began (r : WarmRec) (hv : s.verdict = .clean)
      (hrtc : s'.rtc = tlWarmRtcSeal { s.rtc with attempt := 1 })
      (hlog : s'.log = s.log ++ [.began r])
  | failed (hrtc : s'.rtc = tlWarmRtcSeal { s.rtc with attempt := 0 })
      (hlog : s'.log = s.log ++ [.started false])
  | settled (hu : s.sm.unsettled = true)
      (hrtc : s'.rtc = tlWarmRtcSeal { s.rtc with attempt := 0, crashes := 0 })
      (hlog : s'.log = s.log ++ [.settled])
  | restarted (hung : Bool)
      (hrtc : s'.rtc = if hung then tlWarmRtcHung s.rtc else tlWarmRtcRestart s.rtc)
      (hlog : s'.log = s.log ++ [.restarted hung])

lemma GuardMove.silent (hrtc : s'.rtc = s.rtc) (hlog : s'.log = s.log) : GuardMove s s' :=
  .quiet [] (by simp) hrtc (by simp [hlog])

lemma GuardMove.noted {e : WarmEvent} (hrtc : s'.rtc = s.rtc) (hlog : s'.log = s.log ++ [e])
    (he : WarmQuiet e) : GuardMove s s' :=
  .quiet [e] (by simpa using he) hrtc hlog

lemma go_clean {i : WarmGoIn} (h : tlWarmGo i = .go) : i.rtc = .clean ∧ i.haveRec = true := by
  cases hv : i.rtc with
  | clean => cases hr : i.haveRec <;> simp [tlWarmGo, hv, hr] at h ⊢
  | restarted => cases hr : i.haveRec <;> simp [tlWarmGo, hv, hr] at h
  | crashed | off => simp [tlWarmGo, hv] at h

/-- What every move behind `warm_load` does. -/
structure GuardStep (s s' : WarmDevice) : Prop where
  move : GuardMove s s'
  history : s'.history = s.history
  verdict : s'.verdict = s.verdict
  loaded : s'.main ≠ .booting

lemma HandleMove.guard {warm : Bool} (h : HandleMove s warm s') (hm : s.main ≠ .booting) :
    GuardStep s s' := by
  cases h with
  | answer => exact ⟨.noted rfl rfl trivial, rfl, rfl, hm⟩
  | _ => exact ⟨.silent rfl rfl, rfl, rfl, hm⟩

lemma LpMove.guard (h : LpMove cfg s s') (hm : s.main ≠ .booting) : GuardStep s s' := by
  cases h with
  | poll => exact ⟨.noted rfl rfl trivial, rfl, rfl, hm⟩
  | handle nm warm e => exact (handle_move s nm warm e).guard hm
  | stage =>
    unfold WarmDevice.stage
    split
    · exact ⟨.silent rfl rfl, rfl, rfl, hm⟩
    · exact ⟨.silent rfl rfl, rfl, rfl, hm⟩
  | mark hung => exact ⟨.restarted hung rfl rfl, rfl, rfl, hm⟩
  | _ => exact ⟨.silent rfl rfl, rfl, rfl, hm⟩

lemma settle_cases (s : WarmDevice) (rc : StoreRc) : s.settle rc = { s with tel := .leaving } ∨
    s.sm.state = .confirmed ∧ s.sm.unsettled = true ∧ rc ≠ .failed ∧
      s.settle rc = { s with
        sm.unsettled := false
        rtc := tlWarmRtcSeal { s.rtc with attempt := 0, crashes := 0 }
        tel := .leaving
        log := s.log ++ [.settled] } := by
  unfold WarmDevice.settle tlWarmSmSettle
  by_cases hno : s.sm.state ≠ .confirmed ∨ s.sm.unsettled = false ∨ rc = .failed
  · left
    have hno' : (decide (s.sm.state ≠ .confirmed) || !s.sm.unsettled || decide (rc = .failed)) =
        true := by
      simpa [or_assoc] using hno
    simp only [hno', if_true, Bool.false_eq_true, if_false]
  · right
    simp only [not_or, not_not, Bool.not_eq_false] at hno
    obtain ⟨hst, hu, hrc⟩ := hno
    refine ⟨hst, hu, hrc, ?_⟩
    simp [hst, hu, hrc, note]

lemma TelMove.guard (h : TelMove cfg s s') (hm : s.main ≠ .booting) : GuardStep s s' := by
  cases h with
  | poll | store => exact ⟨.noted rfl rfl trivial, rfl, rfl, hm⟩
  | settle rc =>
    rcases settle_cases s rc with he | ⟨-, hu, -, he⟩
    · rw [he]
      exact ⟨.silent rfl rfl, rfl, rfl, hm⟩
    · rw [he]
      exact ⟨.settled hu rfl rfl, rfl, rfl, hm⟩
  | mark => exact ⟨.restarted false rfl rfl, rfl, rfl, hm⟩
  | _ => exact ⟨.silent rfl rfl, rfl, rfl, hm⟩

lemma go_cases (s : WarmDevice) (regReused heapOk : Bool) (nowUnix : ℤ) :
    s.go regReused heapOk nowUnix = { s with main := .leaving } ∨
    s.verdict = .clean ∧ s.nvs.valid = true ∧
      s.go regReused heapOk nowUnix = { s with
        sm := (tlWarmSmBegin s.rtc).1
        rtc := (tlWarmSmBegin s.rtc).2
        tables := tlWarmSeed s.nvs.record
        main := .starting
        log := s.log ++ [.began s.nvs.record] } := by
  unfold WarmDevice.go
  dsimp only
  split
  case isTrue hgo =>
    obtain ⟨hc, hrec⟩ := go_clean hgo
    exact .inr ⟨hc, hrec, rfl⟩
  case isFalse => exact .inl rfl

lemma WarmMove.guard (h : WarmMove cfg s s') :
    (s.main = .booting ∧ ∃ np cp eraseOk read, s' = s.load np cp eraseOk read) ∨
      s.main ≠ .booting ∧ GuardStep s s' := by
  cases h with
  | load np cp eraseOk read hm => exact .inl ⟨hm, np, cp, eraseOk, read, rfl⟩
  | takeStart hm =>
    refine .inr ⟨by simp [hm], ?_⟩
    unfold WarmDevice.takeStart
    split_ifs
    · exact ⟨.silent rfl rfl, rfl, rfl, nofun⟩
    · exact ⟨.silent rfl rfl, rfl, rfl, nofun⟩
  | go regReused heapOk nowUnix hm =>
    refine .inr ⟨by simp [hm], ?_⟩
    rcases go_cases s regReused heapOk nowUnix with he | ⟨hc, -, he⟩
    · rw [he]
      exact ⟨.silent rfl rfl, rfl, rfl, nofun⟩
    · rw [he]
      exact ⟨.began _ hc rfl rfl, rfl, rfl, nofun⟩
  | start ok _ _ hm =>
    refine .inr ⟨by simp [hm], ?_⟩
    cases ok with
    | true => exact ⟨.noted rfl rfl rfl, rfl, rfl, nofun⟩
    | false => exact ⟨.failed rfl rfl, rfl, rfl, nofun⟩
  | giveStart hm => exact .inr ⟨by simp [hm], .silent rfl rfl, rfl, rfl, nofun⟩
  | lp hm h | tel hm h => exact .inr ⟨hm, h.guard hm⟩

end TinyLink.Proofs
