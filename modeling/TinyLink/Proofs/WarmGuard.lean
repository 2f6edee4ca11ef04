import TinyLink.Proofs.WarmSession

/-!
# The crash guard of the warm start

The marks in RTC memory say what the boots before did. A boot reads them in `warm_load`; a reset
before that keeps the marks and loses the reason they were left with.
-/

namespace TinyLink.Proofs
open WarmDevice

variable {cfg : WarmConfig} {s s' : WarmDevice} {reason : ℕ}

lemma guardTally_concat (h : List WarmBoot) (b : WarmBoot) :
    guardTally (h ++ [b]) = (guardTally h).add b := by
  simp [guardTally]

def carried (s : WarmDevice) : ℕ := if .settled ∈ s.log then 0 else (guardTally s.history).failures

structure Unread (s : WarmDevice) : Prop where
  count : (guardTally s.history).failures ≤ (tlWarmRtcBoot s.rtc s.resetReason).1.crashes
  off : (guardTally s.history).off = true → (tlWarmRtcBoot s.rtc s.resetReason).2.1 = .off
  cold : mustStartCold s.history = true → (tlWarmRtcBoot s.rtc s.resetReason).2.1 ≠ .clean
  crash : (tlWarmRtcBoot s.rtc s.resetReason).2.2 = true →
    ∃ b, s.history.getLast? = some b ∧ b.crashed = true

/-- What the verdict says of the boots before. -/
structure Judged (s : WarmDevice) : Prop where
  bounded : (guardTally s.history).failures ≤ tlWarmRtcMaxCrashes
  off : (guardTally s.history).off = true → s.verdict = .off
  cold : mustStartCold s.history = true → s.verdict ≠ .clean
  few : s.verdict = .clean → (guardTally s.history).failures < tlWarmRtcMaxCrashes

/-- What the marks say behind `warm_load`. -/
structure Marked (s : WarmDevice) : Prop where
  intact : s.rtc.intact = true
  skip : ∀ hung, .restarted hung ∈ s.log → s.rtc.skip ≠ 0
  count : carried s + (if .restarted true ∈ s.log ∧ s.verdict = .clean then 1 else 0) ≤
    s.rtc.crashes
  full : s.verdict = .off → tlWarmRtcMaxCrashes ≤ s.rtc.crashes
  begun : hasBegun s.log = true → s.verdict = .clean

structure Guarded (s : WarmDevice) : Prop where
  unread : s.main = .booting → Unread s
  judged : s.main ≠ .booting → Judged s
  marked : s.main ≠ .booting → Marked s

lemma Marked.crashes_le (hs : Marked s) : s.rtc.crashes ≤ tlWarmRtcMaxCrashes :=
  ((intact_iff _).mp hs.intact).2.2.2.2.1

lemma Unread.bounded (hs : Unread s) : (guardTally s.history).failures ≤ tlWarmRtcMaxCrashes :=
  hs.count.trans ((intact_iff _).mp (rtcBoot_spec s.rtc s.resetReason).1).2.2.2.2.1

lemma carried_le (s : WarmDevice) : carried s ≤ (guardTally s.history).failures := by
  unfold carried
  split_ifs
  · exact Nat.zero_le _
  · exact le_rfl

lemma Unread.load (hs : Unread s) (hlog : s.log = []) (np cp : Key) (eraseOk : Bool)
    (read : WarmRead) :
    Judged (s.load np cp eraseOk read) ∧ Marked (s.load np cp eraseOk read) := by
  obtain ⟨hi, -, hk, hoff⟩ := rtcBoot_spec s.rtc s.resetReason
  obtain ⟨hl₁, hl₂⟩ := tlWarmLoad_marks s.rtc s.resetReason eraseOk read
  have hlog' : (s.load np cp eraseOk read).log = [] := hlog
  have hrtc : (s.load np cp eraseOk read).rtc = (tlWarmRtcBoot s.rtc s.resetReason).1 := hl₁
  have hv : (s.load np cp eraseOk read).verdict = (tlWarmRtcBoot s.rtc s.resetReason).2.1 := hl₂
  constructor
  · constructor
    case bounded => exact hs.bounded
    case off => rw [hv]; exact hs.off
    case cold => rw [hv]; exact hs.cold
    case few =>
      rw [hv]
      intro hc
      refine lt_of_le_of_lt hs.count (Nat.lt_of_not_le fun hle => ?_)
      rw [hoff.mpr hle] at hc
      cases hc
  · constructor
    case intact => rw [hrtc]; exact hi
    case skip => rw [hlog']; nofun
    case count =>
      have hc : carried (s.load np cp eraseOk read) = (guardTally s.history).failures := by
        rw [carried, hlog']
        rfl
      rw [hrtc, hc, hlog']
      simpa using hs.count
    case full => rw [hv, hrtc]; exact hoff.mp
    case begun => rw [hlog']; nofun

lemma Judged.step (hs : Judged s) (h : GuardStep s s') : Judged s' := by
  obtain ⟨-, hhist, hverd, -⟩ := h
  constructor
  case bounded => rw [hhist]; exact hs.bounded
  case off => rw [hhist, hverd]; exact hs.off
  case cold => rw [hhist, hverd]; exact hs.cold
  case few => rw [hhist, hverd]; exact hs.few

lemma carried_concat {e : WarmEvent} (hhist : s'.history = s.history)
    (hlog : s'.log = s.log ++ [e]) (he : e ≠ .settled) : carried s' = carried s := by
  have hset : .settled ∈ s'.log ↔ .settled ∈ s.log := by simp [hlog, he.symm]
  simp only [carried, hset, hhist]

lemma Marked.step (hses : Session s) (hj : Judged s) (hs : Marked s) (h : GuardStep s s') :
    Marked s' := by
  obtain ⟨-, -, ha, hk, hc, hp⟩ := (intact_iff _).mp hs.intact
  obtain ⟨hmove, hhist, hverd, -⟩ := h
  cases hmove with
  | quiet _ hq hrtc hlog =>
    have hset : .settled ∈ s'.log ↔ .settled ∈ s.log := by
      rw [hlog, List.mem_append]
      exact ⟨fun h => h.resolve_right fun h => hq _ h, .inl⟩
    have hre : ∀ hung, .restarted hung ∈ s'.log ↔ .restarted hung ∈ s.log := by
      intro hung
      rw [hlog, List.mem_append]
      exact ⟨fun h => h.resolve_right fun h => hq _ h, .inl⟩
    constructor
    case intact => rw [hrtc]; exact hs.intact
    case skip => rw [hrtc]; exact fun hung h => hs.skip hung ((hre hung).mp h)
    case count => simp only [carried, hset, hhist, hrtc, hverd, hre]; exact hs.count
    case full => rw [hverd, hrtc]; exact hs.full
    case begun =>
      rw [hverd, hlog, hasBegun_append, hasBegun_quiet hq, Bool.or_false]
      exact hs.begun
  | began r hv hrtc hlog =>
    have hcar := carried_concat hhist hlog (by rintro ⟨⟩)
    constructor
    case intact => rw [hrtc]; exact seal_intact le_rfl hk hc hp
    case skip => rw [hrtc, hlog]; exact fun hung h => hs.skip hung (by simpa using h)
    case count =>
      simp only [hcar, hlog, hverd, hrtc, List.mem_append, List.mem_singleton, reduceCtorEq,
        or_false]
      exact hs.count
    case full => rw [hverd, hrtc]; exact hs.full
    case begun => rw [hverd]; exact fun _ => hv
  | failed hrtc hlog =>
    have hcar := carried_concat hhist hlog (by rintro ⟨⟩)
    constructor
    case intact => rw [hrtc]; exact seal_intact (Nat.zero_le 1) hk hc hp
    case skip => rw [hrtc, hlog]; exact fun hung h => hs.skip hung (by simpa using h)
    case count =>
      simp only [hcar, hlog, hverd, hrtc, List.mem_append, List.mem_singleton, reduceCtorEq,
        or_false]
      exact hs.count
    case full => rw [hverd, hrtc]; exact hs.full
    case begun =>
      rw [hverd, hlog, hasBegun_append]
      exact fun h => hs.begun (by simpa [hasBegun] using h)
  | settled hu hrtc hlog =>
    -- the session was confirmed: it had begun, and no hang was reported
    obtain ⟨f, hf, hfc⟩ := hses.unsettled hu
    have hnohang : .restarted true ∉ s.log := by
      intro h
      have hgave := hses.hung h
      have hb : beforeGate s = true := by
        revert hgave
        unfold beforeGate gaveUp
        cases s.lp with
        | shut hung => cases hung <;> simp
        | halted hung => cases hung <;> simp
        | _ => simp
      exact (hses.gated hb).2.1 (hses.confirm f hf hfc)
    have hclean : s.verdict = .clean := hs.begun (hses.confirmed_begun hf hfc)
    constructor
    case intact => rw [hrtc]; exact seal_intact (Nat.zero_le 1) hk (Nat.zero_le _) hp
    case skip => rw [hrtc, hlog]; exact fun hung h => hs.skip hung (by simpa using h)
    case count =>
      have hcar : carried s' = 0 := if_pos (by simp [hlog])
      have hno : .restarted true ∉ s'.log := by simp [hlog, hnohang]
      simp [hcar, hno]
    case full =>
      rw [hverd, hclean]
      rintro ⟨⟩
    case begun => exact fun _ => hverd.trans hclean
  | restarted hung hrtc hlog =>
    have hcar := carried_concat hhist hlog (by rintro ⟨⟩)
    cases hung with
    | false =>
      constructor
      case intact => rw [hrtc]; exact seal_intact (Nat.zero_le 1) le_rfl hc hp
      case skip => rw [hrtc]; exact fun _ _ => one_ne_zero
      case count =>
        simp only [hcar, hlog, hverd, hrtc, List.mem_append, List.mem_singleton,
          WarmEvent.restarted.injEq, reduceCtorEq, or_false]
        exact hs.count
      case full => rw [hverd, hrtc]; exact hs.full
      case begun =>
        rw [hverd, hlog, hasBegun_append]
        exact fun h => hs.begun (by simpa [hasBegun] using h)
    | true =>
      constructor
      case intact => rw [hrtc]; exact seal_intact (Nat.zero_le 1) le_rfl (counted_le hc) hp
      case skip => rw [hrtc]; exact fun _ _ => one_ne_zero
      case count =>
        have hle : carried s ≤ s.rtc.crashes := (Nat.le_add_right _ _).trans hs.count
        have hcount : carried s + (if s.verdict = .clean then 1 else 0) ≤ s.rtc.counted := by
          split_ifs with hclean
          · have := hj.few hclean
            have := carried_le s
            exact le_counted (by omega) (by omega)
          · exact le_counted (by omega) (by omega)
        simp only [hcar, hlog, hverd, hrtc, List.mem_append, List.mem_singleton, or_true, true_and]
        exact hcount
      case full =>
        rw [hverd, hrtc]
        exact fun h => le_counted ((hs.full h).trans (Nat.le_succ _)) le_rfl
      case begun =>
        rw [hverd, hlog, hasBegun_append]
        exact fun h => hs.begun (by simpa [hasBegun] using h)

lemma unread_poweron (garbage : WarmRtc) (h : List WarmBoot) (es : List WarmEvent) :
    Unread (.boot garbage tlWarmRstPoweron (h ++ [⟨es, tlWarmRstPoweron⟩])) := by
  have htally : guardTally (h ++ [⟨es, tlWarmRstPoweron⟩]) = ⟨0, false⟩ := by
    rw [guardTally_concat]
    exact if_pos rfl
  constructor
  case count =>
    simp only [WarmDevice.boot, htally]
    exact Nat.zero_le _
  case off =>
    simp only [WarmDevice.boot, htally]
    rintro ⟨⟩
  case cold => simp [WarmDevice.boot, mustStartCold]
  case crash => simp [WarmDevice.boot, tlWarmRtcBoot]

lemma Marked.reset (hj : Judged s) (hs : Marked s) (ha : s.rtc.attempt = (underWay s.log).toNat)
    (hp : reason ≠ tlWarmRstPoweron) :
    Unread (.boot s.rtc reason (s.history ++ [⟨s.log, reason⟩])) := by
  obtain ⟨hboot, hcrash⟩ := rtcBoot_intact hs.intact hp
  have hcrashes := congrArg WarmRtc.crashes hboot
  have hoff := (rtcBoot_spec s.rtc reason).2.2.2
  have hclean := fun hv => rtcBoot_clean hs.intact hp hv
  have hatt : s.rtc.attempt ≠ 0 ↔ underWay s.log = true := by
    rw [ha]
    cases underWay s.log <;> simp
  have hcar : carried s ≤ s.rtc.crashes := (Nat.le_add_right _ _).trans hs.count
  have hkept : s.rtc.crashes ≤ (tlWarmRtcBoot s.rtc reason).1.crashes := by
    rw [hcrashes]
    split_ifs
    · exact le_counted (Nat.le_succ _) hs.crashes_le
    · exact le_rfl
  -- a failed warm start was counted by the hang, or is by the crash that the boot finds
  have hfail : (WarmBoot.mk s.log reason).failed = true →
      carried s + 1 ≤ (tlWarmRtcBoot s.rtc reason).1.crashes := by
    intro hf
    simp only [WarmBoot.failed, Bool.and_eq_true, Bool.or_eq_true] at hf
    obtain ⟨hbegun, hf⟩ := hf
    have hv := hs.begun hbegun
    by_cases hh : .restarted true ∈ s.log
    · have hcount := hs.count
      rw [if_pos ⟨hh, hv⟩] at hcount
      exact hcount.trans hkept
    · have hcr : (WarmBoot.mk s.log reason).crashed = true :=
        hf.resolve_right (by simpa [WarmBoot.hung] using hh)
      simp only [WarmBoot.crashed, Bool.and_eq_true, decide_eq_true_eq] at hcr
      rw [hcrashes, tlWarmRtcSeal]
      simp only [if_pos (And.intro (hatt.mpr hcr.1.1) hcr.1.2)]
      have := hj.few hv
      have := carried_le s
      exact le_counted (by omega) (by omega)
  have hcount : (guardTally (s.history ++ [⟨s.log, reason⟩])).failures ≤
      (tlWarmRtcBoot s.rtc reason).1.crashes := by
    rw [guardTally_concat, GuardTally.add, if_neg hp]
    change carried s + _ ≤ _
    split_ifs with hf
    · exact hfail hf
    · exact hcar.trans hkept
  constructor
  case count => exact hcount
  case off =>
    simp only [WarmDevice.boot]
    rw [guardTally_concat, GuardTally.add, if_neg hp] at hcount ⊢
    intro h
    rw [hoff]
    rcases Bool.or_eq_true_iff.mp h with h | h
    · exact (hs.full (hj.off h)).trans hkept
    · exact (of_decide_eq_true h).trans hcount
  case cold =>
    simp only [WarmDevice.boot, mustStartCold, List.getLast?_append, List.getLast?_singleton,
      Option.some_or, Option.any_some, Bool.and_eq_true, Bool.or_eq_true, decide_eq_true_eq]
    rintro ⟨-, h⟩ hv
    obtain ⟨hno, hskip⟩ := hclean hv
    rcases h with (h | h) | h
    · simp only [WarmBoot.crashed, Bool.and_eq_true, decide_eq_true_eq] at h
      exact hno ⟨hatt.mpr h.1.1, h.1.2⟩
    · exact hs.skip true (by simpa [WarmBoot.hung] using h) hskip
    · exact hs.skip false h hskip
  case crash =>
    intro h
    obtain ⟨hne, hsw⟩ := hcrash.mp h
    exact ⟨_, List.getLast?_concat, by simp [WarmBoot.crashed, hatt.mp hne, hsw, hp]⟩

lemma rtcBoot_unattempted {r : WarmRtc} (ha : r.attempt = 0) (old : ℕ)
    (hp : reason ≠ tlWarmRstPoweron) :
    (tlWarmRtcBoot r old).1.crashes ≤ (tlWarmRtcBoot r reason).1.crashes ∧
      (tlWarmRtcBoot r reason).2.2 = false := by
  by_cases hi : r.intact = true
  · by_cases ho : old = tlWarmRstPoweron
    · refine ⟨?_, by simp [tlWarmRtcBoot, hi, hp, ha]⟩
      have hzero : (tlWarmRtcBoot r old).1.crashes = 0 := by
        rw [ho]
        rfl
      rw [hzero]
      exact Nat.zero_le _
    · simp [tlWarmRtcBoot, hi, hp, ha, ho]
  · simp [tlWarmRtcBoot, hi]

lemma Unread.reset (hs : Unread s) (hlog : s.log = []) (ha : s.rtc.attempt = 0)
    (hp : reason ≠ tlWarmRstPoweron) :
    Unread (.boot s.rtc reason (s.history ++ [⟨s.log, reason⟩])) := by
  obtain ⟨hle, hno⟩ := rtcBoot_unattempted ha s.resetReason hp
  have hoff := (rtcBoot_spec s.rtc reason).2.2.2
  have hold := (rtcBoot_spec s.rtc s.resetReason).2.2.2
  have htally : guardTally (s.history ++ [⟨s.log, reason⟩]) =
      ⟨(guardTally s.history).failures, (guardTally s.history).off ||
        decide (tlWarmRtcMaxCrashes ≤ (guardTally s.history).failures)⟩ := by
    rw [guardTally_concat, GuardTally.add, if_neg hp, hlog]
    rfl
  constructor
  case count =>
    simp only [WarmDevice.boot, htally]
    exact hs.count.trans hle
  case off =>
    simp only [WarmDevice.boot, htally, Bool.or_eq_true, decide_eq_true_eq]
    rintro (h | h)
    · exact hoff.mpr ((hold.mp (hs.off h)).trans hle)
    · exact hoff.mpr (h.trans (hs.count.trans hle))
  case cold => simp [WarmDevice.boot, mustStartCold, hlog, WarmBoot.crashed, WarmBoot.hung, underWay]
  case crash =>
    simp only [WarmDevice.boot, hno]
    rintro ⟨⟩

lemma Guarded.reset (hs : Guarded s) (hses : Session s)
    (ha : s.main ≠ .booting → s.rtc.attempt = (underWay s.log).toNat)
    {garbage : WarmRtc} (hread : readsMarkFirst s (.reset reason garbage)) :
    Guarded (.boot (if reason = tlWarmRstPoweron then garbage else s.rtc) reason
      (s.history ++ [⟨s.log, reason⟩])) := by
  refine ⟨fun _ => ?_, fun h => absurd rfl h, fun h => absurd rfl h⟩
  by_cases hp : reason = tlWarmRstPoweron
  · subst hp
    exact unread_poweron _ _ _
  · rw [if_neg hp]
    by_cases hm : s.main = .booting
    · have hno : s.rtc.attempt = 0 := by simpa [readsMarkFirst, hp, hm] using hread
      exact (hs.unread hm).reset (hses.blank hm) hno hp
    · exact (hs.marked hm).reset (hs.judged hm) (ha hm) hp

lemma Guarded.move (hs : Guarded s) (hses : Session s) (h : WarmMove cfg s s') : Guarded s' := by
  rcases h.guard with ⟨hm, np, cp, eraseOk, read, rfl⟩ | ⟨hm, hstep⟩
  · obtain ⟨hj, hmk⟩ := (hs.unread hm).load (hses.blank hm) np cp eraseOk read
    exact ⟨nofun, fun _ => hj, fun _ => hmk⟩
  · refine ⟨fun h => absurd h hstep.loaded, fun _ => (hs.judged hm).step hstep, fun _ => ?_⟩
    exact (hs.marked hm).step hses (hs.judged hm) hstep

lemma boots_guarded (E : WarmRun cfg)
    (hread : ∀ k, k < E.length → readsMarkFirst (E.state k) (E.act k) = true) {k : ℕ}
    (hk : k ≤ E.length) : Guarded (E.state k) := by
  refine E.along (P := fun k => Guarded (E.state k)) ?_ (fun k hk hs => ?_) k hk
  · obtain ⟨rtc, hs⟩ := E.starts
    rw [hs]
    refine ⟨fun _ => ⟨Nat.zero_le _, nofun, nofun, ?_⟩, fun h => absurd rfl h, fun h => absurd rfl h⟩
    simp [WarmDevice.boot, tlWarmRtcBoot]
  · rcases warmStep_cases (E.steps k hk) with ⟨reason, garbage, ha, he⟩ | hmove
    · have hr := hread k hk
      rw [ha] at hr
      rw [he]
      exact hs.reset (session E hk.le) (attempting E hk.le) hr
    · exact hs.move (session E hk.le) hmove

lemma rtcBoot_crashes_le {r : WarmRtc} (hno : (tlWarmRtcBoot r reason).2.2 = false) :
    (tlWarmRtcBoot r reason).1.crashes ≤ r.crashes := by
  by_cases hr : (decide (reason = tlWarmRstPoweron) || !r.intact) = true
  · simp only [tlWarmRtcBoot, hr, if_true]
    exact Nat.zero_le _
  · simp only [Bool.or_eq_true, decide_eq_true_eq, Bool.not_eq_true', not_or,
      Bool.not_eq_false] at hr
    obtain ⟨hboot, hcrash⟩ := rtcBoot_intact hr.2 hr.1
    rw [hboot, tlWarmRtcSeal]
    simp only
    rw [if_neg (fun h => by simp [hcrash.mpr h] at hno)]

lemma crashes_raised (hs : Guarded s) (h : WarmMove cfg s s')
    (hup : s.rtc.crashes < s'.rtc.crashes) : s'.log = s.log ++ [.restarted true] ∨
      ∃ b, s.history.getLast? = some b ∧ b.crashed = true := by
  rcases h.guard with ⟨hm, np, cp, eraseOk, read, rfl⟩ | ⟨-, hstep⟩
  · right
    apply (hs.unread hm).crash
    have hl := (tlWarmLoad_marks s.rtc s.resetReason eraseOk read).1
    have hup' : s.rtc.crashes < (tlWarmRtcBoot s.rtc s.resetReason).1.crashes := hl ▸ hup
    by_contra hno
    exact absurd hup' (Nat.not_lt_of_le (rtcBoot_crashes_le (by simpa using hno)))
  · cases hstep.move with
    | quiet _ _ hrtc => exact absurd hup (by simp [hrtc])
    | began _ _ hrtc | failed hrtc | settled _ hrtc =>
      exact absurd hup (by simp [hrtc, tlWarmRtcSeal])
    | restarted hung hrtc hlog =>
      cases hung with
      | true => exact .inl hlog
      | false => exact absurd hup (by simp [hrtc, tlWarmRtcRestart, tlWarmRtcSeal])

/-- Where every boot reads the attempt mark it finds, few warm starts fail, and none follows a
failure or a planned restart at once. -/
theorem crash_guard_holds (E : WarmRun cfg)
    (hread : ∀ k, k < E.length → readsMarkFirst (E.state k) (E.act k) = true) (k : ℕ)
    (hk : k ≤ E.length) : (guardTally (E.state k).history).failures ≤ tlWarmRtcMaxCrashes ∧
    (hasBegun (E.state k).log = true →
      (guardTally (E.state k).history).off = false ∧ mustStartCold (E.state k).history = false) ∧
    (k < E.length → (∀ garbage, E.act k ≠ .reset tlWarmRstPoweron garbage) →
      (E.state k).rtc.crashes < (E.state (k + 1)).rtc.crashes →
        (E.state (k + 1)).log = (E.state k).log ++ [.restarted true] ∨
        ∃ b, (E.state k).history.getLast? = some b ∧ b.crashed = true) := by
  have hs := boots_guarded E hread hk
  refine ⟨?_, fun hbegun => ?_, fun hk' hno hup => ?_⟩
  · by_cases hm : (E.state k).main = .booting
    · exact (hs.unread hm).bounded
    · exact (hs.judged hm).bounded
  · have hm : (E.state k).main ≠ .booting := by
      intro hm
      rw [(session E hk).blank hm] at hbegun
      cases hbegun
    have hclean := (hs.marked hm).begun hbegun
    constructor
    · by_contra h
      have hoff := (hs.judged hm).off (by simpa using h)
      rw [hclean] at hoff
      cases hoff
    · by_contra h
      exact (hs.judged hm).cold (by simpa using h) hclean
  · rcases warmStep_cases (E.steps k hk') with ⟨reason, garbage, ha, he⟩ | hmove
    · have hp : reason ≠ tlWarmRstPoweron := by
        rintro rfl
        exact hno garbage ha
      rw [he, if_neg hp] at hup
      exact absurd hup (lt_irrefl _)
    · exact crashes_raised hs hmove hup

def warmStartActs : List WarmAction :=
  [.load zeroKey zeroKey true smallBlob, .takeStart, .go true true 0]

def crashingRun : WarmRun smallConfig :=
  StepSystem.runOf (.boot .zero tlWarmRstPoweron []) poweron_warmStart .settle
    (warmStartActs ++ [.reset 4 .zero] ++ warmStartActs ++ [.reset tlWarmRstSw .zero] ++
      warmStartActs ++ [.reset 4 .zero] ++ warmStartActs) (by decide +kernel)

theorem crashing_run_is_bounded :
    (guardTally (crashingRun.state 15).history).failures = tlWarmRtcMaxCrashes ∧
    (guardTally (crashingRun.state 15).history).failures ≤ tlWarmRtcMaxCrashes ∧
    (crashingRun.state 15).verdict = .off :=
  ⟨by decide +kernel, (crash_guard_holds crashingRun (by decide +kernel) 15 (by decide)).1,
    by decide +kernel⟩

def abortedRun : WarmRun smallConfig :=
  StepSystem.runOf (.boot .zero tlWarmRstPoweron []) poweron_warmStart .settle
    (warmStartActs ++ [.reset 4 .zero, .reset tlWarmRstSw .zero] ++ warmStartActs ++
      [.reset 4 .zero, .reset tlWarmRstSw .zero] ++ warmStartActs ++ [.reset 4 .zero])
    (by decide +kernel)

theorem aborted_boots_hide_crashes : (guardTally (abortedRun.state 14).history).failures = 3 ∧
    tlWarmRtcMaxCrashes < 3 ∧ (abortedRun.state 14).rtc.crashes = 0 := by
  decide +kernel

end TinyLink.Proofs
