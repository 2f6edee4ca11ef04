import Mathlib.Tactic.IntervalCases
import TinyLink.TimeFloor

/-!
# The time floor does not move backwards

A write stores the last time an SNTP sync gave, which need not be the one that asked for the write.
-/

namespace TinyLink.Proofs
open StepSystem

def Awaits (s : TimeState) : Prop :=
  s.persistPending = true ∨ s.poll ≠ .idle ∨ s.sync = .due ∨
    (s.sync = .stored ∧ s.floor + persistMinIntervalS ≤ s.lastSyncS)

structure FloorOk (s : TimeState) : Prop where
  stored : ∀ v ∈ s.nvs, v ≤ s.floor ∨ s.poll = .saved v
  mark : s.floor ≤ s.mark
  last : Awaits s → s.mark ≤ s.lastSyncS

/-- What a step does to the stored value and to the floor. -/
inductive FloorMove (s : TimeState) : TimeAction → TimeState → Prop
  | sync {v : UInt64} (hi : s.sync = .idle) :
      FloorMove s (.syncStore v) { s with lastSyncS := v, sync := .stored }
  | asks (hs : s.sync = .stored) (hdue : s.floor + persistMinIntervalS ≤ s.lastSyncS) :
      FloorMove s .syncTest { s with sync := .due }
  | content (hs : s.sync = .stored) : FloorMove s .syncTest { s with sync := .idle }
  | marks (hs : s.sync = .due) :
      FloorMove s .syncMark { s with persistPending := true, sync := .idle }
  | finds (hi : s.poll = .idle) (hp : s.persistPending = true) :
      FloorMove s .pollTest { s with poll := .due }
  | passes (hi : s.poll = .idle) : FloorMove s .pollTest { s with poll := .idle }
  | claims (hd : s.poll = .due) :
      FloorMove s .pollClear { s with persistPending := false, poll := .claimed }
  | reads (hc : s.poll = .claimed) : FloorMove s .pollRead { s with poll := .saving s.lastSyncS }
  | saves {v : UInt64} (hv : s.poll = .saving v) :
      FloorMove s (.pollSave true) { s with nvs := some v, poll := .saved v }
  | fails {v : UInt64} (hv : s.poll = .saving v) :
      FloorMove s (.pollSave false) { s with poll := .failed v }
  | publishes {v : UInt64} (hv : s.poll = .saved v) :
      FloorMove s .pollEnd { s with floor := v, poll := .idle }
  | retries {v : UInt64} (hv : s.poll = .failed v) :
      FloorMove s .pollEnd { s with persistPending := true, poll := .idle }
  | reboots (build : UInt64) (readOk : Bool) :
      FloorMove s (.reboot build readOk) (.boot s.nvs build readOk)

lemma timeStep_move {s s' : TimeState} {a : TimeAction} (h : timeStep s a = some s') :
    FloorMove s a s' := by
  cases a with
  | syncStore =>
    obtain ⟨hi, rfl⟩ := guarded h
    exact .sync hi
  | syncTest =>
    obtain ⟨hs, rfl⟩ := guarded h
    split
    · next hdue => exact .asks hs hdue
    · exact .content hs
  | syncMark =>
    obtain ⟨hs, rfl⟩ := guarded h
    exact .marks hs
  | pollTest =>
    obtain ⟨hi, rfl⟩ := guarded h
    split
    · next hp => exact .finds hi hp
    · exact .passes hi
  | pollClear =>
    obtain ⟨hd, rfl⟩ := guarded h
    exact .claims hd
  | pollRead =>
    obtain ⟨hc, rfl⟩ := guarded h
    exact .reads hc
  | pollSave ok =>
    cases hp : s.poll with
    | saving =>
      simp only [timeStep, hp, Option.some.injEq] at h
      subst h
      cases ok with
      | true => exact .saves hp
      | false => exact .fails hp
    | _ => simp [timeStep, hp] at h
  | pollEnd =>
    cases hp : s.poll with
    | saved =>
      simp only [timeStep, hp, Option.some.injEq] at h
      subst h
      exact .publishes hp
    | failed =>
      simp only [timeStep, hp, Option.some.injEq] at h
      subst h
      exact .retries hp
    | _ => simp [timeStep, hp] at h
  | reboot build readOk =>
    cases h
    exact .reboots build readOk

lemma le_tlTimeInit (build : UInt64) (persisted : Option UInt64) :
    build ≤ tlTimeInit build persisted ∧ ∀ v ∈ persisted, v ≤ tlTimeInit build persisted := by
  cases persisted with
  | none => exact ⟨UInt64.le_refl _, fun v hv => by cases hv⟩
  | some =>
    unfold tlTimeInit
    dsimp only
    split
    · next hgt =>
      refine ⟨UInt64.le_of_lt hgt, fun w hw => ?_⟩
      cases hw
      exact UInt64.le_refl _
    · next hle =>
      refine ⟨UInt64.le_refl _, fun w hw => ?_⟩
      cases hw
      exact UInt64.not_lt.mp hle

lemma floorOk_boot {nvs : Option UInt64} {build : UInt64} {readOk : Bool}
    (h : readOk = true ∨ ∀ v ∈ nvs, v ≤ build) : FloorOk (.boot nvs build readOk) where
  stored v hv := by
    refine .inl ?_
    obtain ⟨hbuild, hread⟩ := le_tlTimeInit build (if readOk then nvs else none)
    rcases h with rfl | hle
    · exact hread v hv
    · exact UInt64.le_trans (hle v hv) hbuild
  mark := UInt64.le_refl _
  last := by
    rintro (h | h | h | ⟨h, -⟩)
    · cases h
    · exact absurd rfl h
    · cases h
    · cases h

section Step
variable {s s' : TimeState} {a : TimeAction}

lemma FloorOk.step (hs : FloorOk s) (ho : s.Orderly a) (h : FloorMove s a s') : FloorOk s' := by
  cases h with
  | @sync =>
    refine ⟨hs.stored, hs.mark, fun hw => ?_⟩
    rcases ho with hge | ⟨hquiet, hlt⟩
    · exact hge
    · -- nothing is to be written, and this sync does not ask for it
      simp only [TimeState.quiet, Bool.and_eq_true, Bool.not_eq_true', decide_eq_true_eq] at hquiet
      rcases hw with hp | hp | hd | ⟨-, hdue⟩
      · exact absurd (hquiet.1.symm.trans hp) (by decide)
      · exact absurd hquiet.2 hp
      · cases hd
      · exact absurd hdue (UInt64.not_le.mpr hlt)
  | asks hst hdue => exact ⟨hs.stored, hs.mark, fun _ => hs.last (.inr (.inr (.inr ⟨hst, hdue⟩)))⟩
  | content =>
    refine ⟨hs.stored, hs.mark, fun hw => hs.last ?_⟩
    rcases hw with hp | hp | hd | ⟨hd, -⟩
    · exact .inl hp
    · exact .inr (.inl hp)
    · cases hd
    · cases hd
  | marks hd => exact ⟨hs.stored, hs.mark, fun _ => hs.last (.inr (.inr (.inl hd)))⟩
  | finds hi hp =>
    have hmark : s.mark = s.floor := by rw [TimeState.mark, hi]
    refine ⟨fun v hv => .inl ?_, UInt64.le_refl _, fun _ => ?_⟩
    · exact (hs.stored v hv).resolve_right (by rw [hi]; rintro ⟨⟩)
    · exact hmark ▸ hs.last (.inl hp)
  | passes hi =>
    have hsame : { s with poll := .idle } = s := by rw [← hi]
    rw [hsame]
    exact hs
  | claims hd =>
    have hmark : s.mark = s.floor := by rw [TimeState.mark, hd]
    refine ⟨fun v hv => .inl ?_, UInt64.le_refl _, fun _ => ?_⟩
    · exact (hs.stored v hv).resolve_right (by rw [hd]; rintro ⟨⟩)
    · exact hmark ▸ hs.last (.inr (.inl (by rw [hd]; rintro ⟨⟩)))
  | reads hc =>
    have hmark : s.mark = s.floor := by rw [TimeState.mark, hc]
    have hlast := hs.last (.inr (.inl (by rw [hc]; rintro ⟨⟩)))
    rw [hmark] at hlast
    refine ⟨fun v hv => .inl ?_, hlast, fun _ => UInt64.le_refl _⟩
    exact (hs.stored v hv).resolve_right (by rw [hc]; rintro ⟨⟩)
  | @saves v hv =>
    have hmark : s.mark = v := by rw [TimeState.mark, hv]
    refine ⟨fun w hw => .inr ?_, hmark ▸ hs.mark, fun _ => ?_⟩
    · cases hw
      rfl
    · exact hmark ▸ hs.last (.inr (.inl (by rw [hv]; rintro ⟨⟩)))
  | @fails v hv =>
    have hmark : s.mark = v := by rw [TimeState.mark, hv]
    refine ⟨fun w hw => .inl ?_, hmark ▸ hs.mark, fun _ => ?_⟩
    · exact (hs.stored w hw).resolve_right (by rw [hv]; rintro ⟨⟩)
    · exact hmark ▸ hs.last (.inr (.inl (by rw [hv]; rintro ⟨⟩)))
  | @publishes v hv =>
    have hmark : s.mark = v := by rw [TimeState.mark, hv]
    have hfloor : s.floor ≤ v := hmark ▸ hs.mark
    refine ⟨fun w hw => .inl ?_, UInt64.le_refl _, fun _ => ?_⟩
    · rcases hs.stored w hw with hle | heq
      · exact UInt64.le_trans hle hfloor
      · rw [hv] at heq
        cases heq
        exact UInt64.le_refl _
    · exact hmark ▸ hs.last (.inr (.inl (by rw [hv]; rintro ⟨⟩)))
  | @retries v hv =>
    refine ⟨fun w hw => .inl ?_, UInt64.le_refl _, fun _ => ?_⟩
    · exact (hs.stored w hw).resolve_right (by rw [hv]; rintro ⟨⟩)
    · exact UInt64.le_trans hs.mark (hs.last (.inr (.inl (by rw [hv]; rintro ⟨⟩))))
  | reboots => exact floorOk_boot ho

lemma floor_step (hs : FloorOk s) (h : FloorMove s a s') (hno : ∀ build ok, a ≠ .reboot build ok) :
    s.floor ≤ s'.floor := by
  cases h with
  | @publishes v hv =>
    have hmark : s.mark = v := by rw [TimeState.mark, hv]
    exact hmark ▸ hs.mark
  | reboots build readOk => exact absurd rfl (hno build readOk)
  | _ => exact UInt64.le_refl _

lemma nvs_step (hs : FloorOk s) (h : FloorMove s a s') {v : UInt64} (hv : v ∈ s.nvs) :
    ∃ w ∈ s'.nvs, v ≤ w := by
  cases h with
  | @saves w hw =>
    have hmark : s.mark = w := by rw [TimeState.mark, hw]
    have hfloor := (hs.stored v hv).resolve_right (by rw [hw]; rintro ⟨⟩)
    exact ⟨w, rfl, UInt64.le_trans hfloor (hmark ▸ hs.mark)⟩
  | _ => exact ⟨v, hv, UInt64.le_refl _⟩

end Step

lemma floorOk_run (E : TimeRun) (ho : ∀ k, k < E.length → (E.state k).Orderly (E.act k)) :
    ∀ k, k ≤ E.length → FloorOk (E.state k) := by
  refine E.along ?_ fun k hk hs => hs.step (ho k hk) (timeStep_move (E.steps k hk))
  obtain ⟨nvs, build, h⟩ := E.starts
  rw [h]
  exact floorOk_boot (.inl rfl)

/-- While no sync gives an earlier time under a pending write, the stored floor does not decrease,
nor does `s_floor` between two reboots. -/
theorem time_floor_never_lowers (E : TimeRun)
    (ho : ∀ k, k < E.length → (E.state k).Orderly (E.act k)) :
    (∀ i j, i ≤ j → j ≤ E.length → ∀ v ∈ (E.state i).nvs, ∃ w ∈ (E.state j).nvs, v ≤ w) ∧
    (∀ i j, i ≤ j → j ≤ E.length → (∀ k build ok, i ≤ k → k < j → E.act k ≠ .reboot build ok) →
      (E.state i).floor ≤ (E.state j).floor) := by
  have hok := floorOk_run E ho
  constructor
  · intro i j hij hj v hv
    refine stretch hij ⟨v, hv, UInt64.le_refl _⟩ fun k _ hkj ⟨w, hw, hvw⟩ => ?_
    obtain ⟨x, hx, hwx⟩ := nvs_step (hok k (by omega)) (timeStep_move (E.steps k (by omega))) hw
    exact ⟨x, hx, UInt64.le_trans hvw hwx⟩
  · intro i j hij hj hno
    refine stretch hij (UInt64.le_refl _) fun k hik hkj hle => ?_
    exact UInt64.le_trans hle (floor_step (hok k (by omega)) (timeStep_move (E.steps k (by omega)))
      fun b ok => hno k b ok hik hkj)

def syncAndPersist (tvSec : UInt64) : List TimeAction :=
  [.syncStore tvSec, .syncTest, .syncMark, .pollTest, .pollClear, .pollRead, .pollSave true, .pollEnd]

lemma emptyNvs_start : TimeStart (.boot none 0 true) := ⟨none, 0, rfl⟩

/-- An earlier sync while nothing is to be written, a write that fails, and a reboot. -/
def rebootedPersist : TimeRun :=
  runOf (.boot none 0 true) emptyNvs_start .pollTest
    (syncAndPersist 200000 ++ [.syncStore 1000, .syncTest, .syncStore 300000, .syncTest, .syncMark,
      .pollTest, .pollClear, .pollRead, .pollSave false, .pollEnd, .reboot 150000 true] ++
      syncAndPersist 400000) (by decide)

theorem rebooted_persist_keeps_floor : (rebootedPersist.state 8).nvs = some 200000 ∧
    (∃ w ∈ (rebootedPersist.state 27).nvs, 200000 ≤ w) ∧
    (rebootedPersist.state 8).floor ≤ (rebootedPersist.state 18).floor := by
  have ho (k : ℕ) (hk : k < 27) :
      (rebootedPersist.state k).Orderly (rebootedPersist.act k) := by
    interval_cases k
    all_goals first
      | trivial
      | exact .inl (by decide)
      | exact .inr (by decide)
  obtain ⟨hnvs, hfloor⟩ := time_floor_never_lowers rebootedPersist ho
  refine ⟨by decide, hnvs 8 27 (by decide) le_rfl 200000 (by decide),
    hfloor 8 18 (by decide) (by decide) fun k build ok hle hk => ?_⟩
  interval_cases k <;> rintro ⟨⟩

/-- Under a pending write a second sync gives an earlier time. -/
def earlierSync : TimeRun :=
  runOf (.boot none 0 true) emptyNvs_start .pollTest
    (syncAndPersist 200000 ++ [.syncStore 300000, .syncTest, .syncMark, .syncStore 100, .syncTest,
      .pollTest, .pollClear, .pollRead, .pollSave true, .pollEnd]) (by decide)

theorem earlier_sync_lowers_floor :
    (earlierSync.state 8).nvs = some 200000 ∧ (earlierSync.state 8).floor = 200000 ∧
      (earlierSync.state 18).nvs = some 100 ∧ (earlierSync.state 18).floor = 100 ∧
      ∀ k build ok, k < 18 → earlierSync.act k ≠ .reboot build ok := by
  refine ⟨by decide, by decide, by decide, by decide, ?_⟩
  intro k build ok hk
  interval_cases k <;> rintro ⟨⟩

end TinyLink.Proofs
