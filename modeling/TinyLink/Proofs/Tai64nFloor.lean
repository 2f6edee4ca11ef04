import Mathlib.Data.List.GetD
import TinyLink.Tai64n

/-!
# Time stamps never go back

Everything emitted lies below the floor of the boot, and the floor never decreases until the seconds
wrap, after some `10^14` time stamps and floor initialisations.
-/

namespace TinyLink.Proofs
open StepSystem ByteOrder

variable {σ σ' : Tai64nState} {c : ℕ}

lemma wgTai64nNow_steps (σ : Tai64nState) (clock : ClockReading) (ok : Bool) (h : σ.pc = .idle) :
    ((tai64nStep σ (.choose clock)).bind (tai64nStep · (.persist ok))).bind (tai64nStep · .emit) =
      some ⟨(wgTai64nNow σ.ram σ.nvs clock ok).2.2, (wgTai64nNow σ.ram σ.nvs clock ok).2.1, .idle⟩ := by
  simp only [tai64nStep, h, Option.bind_some, wgTai64nNow]
  cases tai64nExtend σ.ram (tai64nSecs σ.ram clock) with
  | none => rfl
  | some => cases ok <;> rfl

lemma tinylinkTai64nFloorInit_steps (σ : Tai64nState) (h : σ.pc = .idle) :
    ((tai64nStep σ (.floorRead true)).bind (tai64nStep · (.floorPersist true))).bind
        (tai64nStep · .floorInstall) = some ⟨(tinylinkTai64nFloorInit σ.nvs true true).2,
        (tinylinkTai64nFloorInit σ.nvs true true).1, .idle⟩ := by
  simp [tai64nStep, h, tinylinkTai64nFloorInit]

lemma tinylinkTai64nFloorInit_steps_of_persist_failed (σ : Tai64nState) (h : σ.pc = .idle) :
    (tai64nStep σ (.floorRead true)).bind (tai64nStep · (.floorPersist false)) =
      some ⟨(tinylinkTai64nFloorInit σ.nvs true false).2,
        (tinylinkTai64nFloorInit σ.nvs true false).1, .idle⟩ := by
  simp [tai64nStep, h, tinylinkTai64nFloorInit]

lemma tinylinkTai64nFloorInit_steps_of_read_failed (σ : Tai64nState) (ok : Bool)
    (h : σ.pc = .idle) :
    tai64nStep σ (.floorRead false) = some ⟨(tinylinkTai64nFloorInit σ.nvs false ok).2,
      (tinylinkTai64nFloorInit σ.nvs false ok).1, .idle⟩ := by
  simp [tai64nStep, h, tinylinkTai64nFloorInit]

lemma toNat_add_chunk (x : UInt64) (h : x.toNat + 86400 < 2 ^ 64) :
    (x + wgTai64nReserveChunkSecs).toNat = x.toNat + 86400 := by
  rw [UInt64.toNat_add]
  exact Nat.mod_eq_of_lt h

lemma tai64nSecs_bounds (ram : Tai64nRam) {clock : ClockReading}
    (hram : ram.emittedHigh.toNat + 1 < 2 ^ 64) (ht : clock.time.toNat < 2 ^ 62)
    (hm : clock.monotonicSeconds.toNat < 2 ^ 62) :
    ram.emittedHigh.toNat < (tai64nSecs ram clock).toNat ∧ ((tai64nSecs ram clock).toNat < 2 ^ 62 ∨
        (tai64nSecs ram clock).toNat = ram.emittedHigh.toNat + 1) := by
  have hone : (ram.emittedHigh + 1).toNat = ram.emittedHigh.toNat + 1 := by
    rw [UInt64.toNat_add]
    exact Nat.mod_eq_of_lt hram
  obtain ⟨secs, hsecs⟩ : ∃ secs, (if clock.time = 0 then clock.monotonicSeconds else clock.time) = secs :=
    ⟨_, rfl⟩
  have hlt : secs.toNat < 2 ^ 62 := by
    rw [← hsecs]
    split
    · exact hm
    · exact ht
  simp only [tai64nSecs, hsecs]
  by_cases hle : secs ≤ ram.emittedHigh
  · rw [if_pos hle, hone]
    exact ⟨Nat.lt_succ_self _, .inr rfl⟩
  · rw [if_neg hle]
    rw [UInt64.le_iff_toNat_le] at hle
    exact ⟨by omega, .inl hlt⟩

lemma tai64nBytes_lt {s t : UInt64} {n m : UInt32} (h : s.toNat < t.toNat)
    (ht : t.toNat < 3 * 2 ^ 62) : tai64nBytes s n < tai64nBytes t m := by
  have htai : ∀ x : UInt64, x.toNat < 3 * 2 ^ 62 →
      (x + 0x4000000000000000).toNat = x.toNat + 2 ^ 62 := by
    intro x hx
    rw [UInt64.toNat_add, show (0x4000000000000000 : UInt64).toNat = 2 ^ 62 from rfl]
    exact Nat.mod_eq_of_lt (by omega)
  simp only [tai64nBytes]
  rw [htai s (h.trans ht), htai t ht]
  apply beBytes_append_lt
  · norm_num at ht ⊢
    omega
  · omega

def secsBound (c : ℕ) : ℕ := 2 ^ 62 + 86401 * c

lemma secsBound_succ (c : ℕ) : secsBound (c + 1) = secsBound c + 86401 := by
  unfold secsBound
  omega

def nvsSecs (σ : Tai64nState) : ℕ := (σ.nvs.getD 0).toNat

/-- What the boot will start from, or has started from and moved up since. -/
def floorSecs (σ : Tai64nState) : ℕ :=
  match σ.pc with
  | .floorRead p => p.toNat
  | .floorReserved p _ => p.toNat
  | _ => if σ.ram.persists then σ.ram.emittedHigh.toNat else nvsSecs σ

/-- The joint invariant of NVS, RAM and the call in progress after `c` calls. -/
structure FloorInv (c : ℕ) (σ : Tai64nState) : Prop where
  nvs_le : nvsSecs σ ≤ secsBound c
  ram_le : σ.ram.persists = true →
    σ.ram.emittedHigh.toNat ≤ nvsSecs σ ∧ σ.ram.reservation.toNat ≤ nvsSecs σ
  pc_ok : match σ.pc with
    | .idle => True
    | .floorRead p => p.toNat = nvsSecs σ ∧ p.toNat + 86400 ≤ secsBound c
    | .floorReserved p r => p.toNat ≤ r.toNat ∧ r.toNat = nvsSecs σ
    | .chosen s _ => σ.ram.persists = true ∧ σ.ram.emittedHigh.toNat < s.toNat ∧
        s.toNat + 86400 ≤ secsBound c
    | .reserved s _ => σ.ram.persists = true ∧ σ.ram.emittedHigh.toNat < s.toNat ∧
        s.toNat < σ.ram.reservation.toNat

lemma floorInv_new : FloorInv 0 Tai64nState.new := by
  refine ⟨?_, ?_, trivial⟩
  · exact Nat.zero_le _
  · intro h
    exact absurd h (by decide)

lemma floorSecs_le_nvsSecs (h : FloorInv c σ) : floorSecs σ ≤ nvsSecs σ := by
  obtain ⟨nvs, ram, pc⟩ := σ
  have hif : (if ram.persists = true then ram.emittedHigh.toNat else nvsSecs ⟨nvs, ram, pc⟩) ≤
      nvsSecs ⟨nvs, ram, pc⟩ := by
    split
    · next hp => exact (h.ram_le hp).1
    · exact le_rfl
  have hpc := h.pc_ok
  cases pc with
  | floorRead => exact hpc.1.le
  | floorReserved => exact hpc.1.trans hpc.2.le
  | idle | chosen | reserved => exact hif

def FloorStep (c : ℕ) (σ σ' : Tai64nState) : Prop := FloorInv c σ' ∧ floorSecs σ ≤ floorSecs σ'

section
variable (h : FloorInv c σ)
include h

lemma floorStep_reset (hs : tai64nStep σ .reset = some σ') : FloorStep c σ σ' := by
  simp only [tai64nStep, Option.some.injEq] at hs
  subst hs
  refine ⟨⟨h.nvs_le, ?_, trivial⟩, floorSecs_le_nvsSecs h⟩
  intro hp
  exact absurd hp (by simp [Tai64nRam.boot])

lemma floorStep_floorRead
    (hs : tai64nStep σ (.floorRead true) = some σ') : FloorStep (c + 1) σ σ' := by
  have hb := secsBound_succ c
  have hn := h.nvs_le
  cases hpc : σ.pc with
  | idle =>
    simp only [tai64nStep, hpc, if_true, Option.some.injEq] at hs
    subst hs
    refine ⟨⟨?_, h.ram_le, rfl, ?_⟩, floorSecs_le_nvsSecs h⟩
    · change nvsSecs σ ≤ _
      omega
    · change nvsSecs σ + 86400 ≤ _
      omega
  | _ => simp [tai64nStep, hpc] at hs

lemma floorStep_floorPersist
    (hc : secsBound c < 2 ^ 64) (hs : tai64nStep σ (.floorPersist true) = some σ') :
    FloorStep c σ σ' := by
  cases hpc : σ.pc with
  | floorRead p =>
    have hp := h.pc_ok
    simp only [hpc] at hp
    have hadd := toNat_add_chunk p (by omega)
    simp only [tai64nStep, hpc, if_true, Option.some.injEq] at hs
    subst hs
    have hnew : nvsSecs { σ with nvs := some (p + wgTai64nReserveChunkSecs)
                                 pc := .floorReserved p (p + wgTai64nReserveChunkSecs) } =
        p.toNat + 86400 := hadd
    refine ⟨⟨?_, ?_, ?_, ?_⟩, ?_⟩
    · rw [hnew]
      exact hp.2
    · intro hpersists
      obtain ⟨hhigh, hres⟩ := h.ram_le hpersists
      rw [hnew]
      exact ⟨hhigh.trans (by omega), hres.trans (by omega)⟩
    · rw [hadd]
      omega
    · rfl
    · simp only [floorSecs, hpc]
      exact le_rfl
  | _ => simp [tai64nStep, hpc] at hs

lemma floorStep_floorInstall (hs : tai64nStep σ .floorInstall = some σ') : FloorStep c σ σ' := by
  cases hpc : σ.pc with
  | floorReserved =>
    have hp := h.pc_ok
    simp only [hpc] at hp
    simp only [tai64nStep, hpc, Option.some.injEq] at hs
    subst hs
    refine ⟨⟨h.nvs_le, ?_, trivial⟩, ?_⟩
    · intro _
      exact ⟨hp.1.trans hp.2.le, hp.2.le⟩
    · simp only [floorSecs, hpc]
      exact le_rfl
  | _ => simp [tai64nStep, hpc] at hs

lemma floorStep_choose {clock : ClockReading}
    (hc : secsBound (c + 1) < 2 ^ 64) (hp : σ.ram.persists) (ht : clock.time.toNat < 2 ^ 62)
    (hm : clock.monotonicSeconds.toNat < 2 ^ 62) (hs : tai64nStep σ (.choose clock) = some σ') :
    FloorStep (c + 1) σ σ' := by
  have hb := secsBound_succ c
  have hn := h.nvs_le
  have hr := h.ram_le hp
  cases hpc : σ.pc with
  | idle =>
    simp only [tai64nStep, hpc, Option.some.injEq] at hs
    subst hs
    obtain ⟨hlt, hsecs⟩ := tai64nSecs_bounds σ.ram (by omega) ht hm
    refine ⟨⟨?_, h.ram_le, hp, hlt, ?_⟩, ?_⟩
    · change nvsSecs σ ≤ _
      omega
    · rcases hsecs with hsecs | hsecs
      · have hbase : 2 ^ 62 ≤ secsBound c := Nat.le_add_right _ _
        omega
      · omega
    · simp [floorSecs, hpc, hp]
  | _ => simp [tai64nStep, hpc] at hs

lemma floorStep_persist (hc : secsBound c < 2 ^ 64) (hs : tai64nStep σ (.persist true) = some σ') :
    FloorStep c σ σ' := by
  cases hpc : σ.pc with
  | chosen s =>
    have hp := h.pc_ok
    simp only [hpc] at hp
    obtain ⟨hpersists, hlt, hsize⟩ := hp
    by_cases hge : s ≥ σ.ram.reservation
    · have hext : tai64nExtend σ.ram s = some (s + wgTai64nReserveChunkSecs) := by
        simp [tai64nExtend, hpersists, hge]
      have hadd := toNat_add_chunk s (by omega)
      have hge' := UInt64.le_iff_toNat_le.mp hge
      -- the sum gets a name, or the kernel unfolds it
      obtain ⟨r, hr⟩ : ∃ r, s + wgTai64nReserveChunkSecs = r := ⟨_, rfl⟩
      rw [hr] at hext hadd
      simp only [tai64nStep, hpc, hext, if_true, Option.some.injEq] at hs
      subst hs
      refine ⟨⟨?_, ?_, hpersists, hlt, ?_⟩, ?_⟩
      · exact hadd.le.trans hsize
      · intro _
        refine ⟨?_, le_rfl⟩
        change σ.ram.emittedHigh.toNat ≤ r.toNat
        omega
      · change _ < r.toNat
        omega
      · simp [floorSecs, hpc, hpersists]
    · have hext : tai64nExtend σ.ram s = none := by
        simp only [tai64nExtend, hge, decide_false, Bool.and_false, Bool.false_eq_true, if_false]
      simp only [tai64nStep, hpc, hext, Option.some.injEq] at hs
      subst hs
      refine ⟨⟨h.nvs_le, h.ram_le, hpersists, hlt, ?_⟩, ?_⟩
      · rw [ge_iff_le, UInt64.le_iff_toNat_le] at hge
        exact Nat.lt_of_not_le hge
      · simp [floorSecs, hpc, hpersists]
  | _ => simp [tai64nStep, hpc] at hs

lemma floorStep_emit {s : UInt64} {n : UInt32}
    (hpc : σ.pc = .reserved s n) (hs : tai64nStep σ .emit = some σ') :
    FloorInv c σ' ∧ floorSecs σ < s.toNat ∧ floorSecs σ' = s.toNat := by
  have hp := h.pc_ok
  simp only [hpc] at hp
  obtain ⟨hpersists, hlt, hres⟩ := hp
  have hram := h.ram_le hpersists
  simp only [tai64nStep, hpc, Option.some.injEq] at hs
  subst hs
  refine ⟨⟨h.nvs_le, ?_, trivial⟩, ?_, ?_⟩
  · intro _
    exact ⟨(hres.trans_le hram.2).le, hram.2⟩
  · simp only [floorSecs, hpc, hpersists, if_true]
    exact hlt
  · simp [floorSecs, hpersists]

lemma floorStep_of_sane {a : Tai64nStep}
    (ha : a.Sane) (hfloored : ∀ clock, a = .choose clock → σ.ram.persists = true)
    (hc : secsBound (c + a.isCall.toNat) < 2 ^ 64) (hs : tai64nStep σ a = some σ') :
    FloorStep (c + a.isCall.toNat) σ σ' := by
  cases a with
  | reset => exact floorStep_reset h hs
  | floorRead ok =>
    obtain rfl : ok = true := ha
    exact floorStep_floorRead h hs
  | floorPersist ok =>
    obtain rfl : ok = true := ha
    exact floorStep_floorPersist h hc hs
  | floorInstall => exact floorStep_floorInstall h hs
  | choose clock => exact floorStep_choose h hc (hfloored clock rfl) ha.1 ha.2 hs
  | persist ok =>
    obtain rfl : ok = true := ha
    exact floorStep_persist h hc hs
  | emit =>
    cases hpc : σ.pc with
    | reserved =>
      obtain ⟨hinv, hlt, heq⟩ := floorStep_emit h hpc hs
      exact ⟨hinv, hlt.le.trans heq.ge⟩
    | _ => simp [tai64nStep, hpc] at hs

end

lemma step_persists {a : Tai64nStep} (h : σ.ram.persists)
    (ha : a.Sane) (hr : a ≠ .reset) (hs : tai64nStep σ a = some σ') : σ'.ram.persists = true := by
  cases a with
  | reset => exact absurd rfl hr
  | floorRead ok | floorPersist ok =>
    obtain rfl : ok = true := ha
    cases hpc : σ.pc <;> simp [tai64nStep, hpc] at hs
    rw [← hs]
    exact h
  | floorInstall =>
    cases hpc : σ.pc <;> simp [tai64nStep, hpc] at hs
    rw [← hs]
    rfl
  | choose | emit =>
    cases hpc : σ.pc <;> simp [tai64nStep, hpc] at hs
    rw [← hs]
    exact h
  | persist ok =>
    obtain rfl : ok = true := ha
    cases hpc : σ.pc <;> simp [tai64nStep, hpc] at hs
    split at hs <;> simp at hs <;> rw [← hs] <;> exact h

lemma persists_of_floored {E : Tai64nRun} (hE : E.Sane) :
    ∀ k, k ≤ E.length → E.Floored k → (E.state k).ram.persists = true := by
  refine E.along ?_ ?_
  · rintro ⟨j, hj, _⟩
    exact absurd hj (Nat.not_lt_zero j)
  · intro k hk ih hfl
    obtain ⟨j, hj, hinst, hno⟩ := hfl
    have hstep := E.steps k hk
    by_cases hjk : j = k
    · subst hjk
      rw [hinst] at hstep
      cases hpc : (E.state j).pc <;> simp [tai64nStep, hpc] at hstep
      rw [← hstep]
      rfl
    · have hlt : j < k := by omega
      have hpers := ih ⟨j, hlt, hinst, fun i h1 h2 => hno i h1 (by omega)⟩
      exact step_persists hpers (hE k hk).1 (hno k hlt (by omega)) hstep

lemma callsBefore_succ (E : Tai64nRun) (k : ℕ) :
    E.callsBefore (k + 1) = E.callsBefore k + (E.act k).isCall.toNat := by
  unfold Tai64nRun.callsBefore
  rw [List.range_succ, List.countP_append, List.countP_singleton]
  cases (E.act k).isCall <;> rfl

lemma callsBefore_mono (E : Tai64nRun) {i j : ℕ} (h : i ≤ j) :
    E.callsBefore i ≤ E.callsBefore j := by
  apply List.Sublist.countP_le
  exact List.range_sublist.mpr h

variable {E : Tai64nRun}

lemma floorStep_along (hE : E.Sane) (hc : secsBound (E.callsBefore E.length) < 2 ^ 64) {k : ℕ}
    (hk : k < E.length) (h : FloorInv (E.callsBefore k) (E.state k)) :
    FloorStep (E.callsBefore (k + 1)) (E.state k) (E.state (k + 1)) := by
  have hle := callsBefore_mono E (Nat.succ_le_of_lt hk)
  rw [callsBefore_succ] at hle ⊢
  refine floorStep_of_sane h (hE k hk).1 ?_ ?_ (E.steps k hk)
  · intro clock hact
    exact persists_of_floored hE k hk.le ((hE k hk).2 clock hact)
  · unfold secsBound at hc ⊢
    omega

lemma floorInv_along (hE : E.Sane) (hc : secsBound (E.callsBefore E.length) < 2 ^ 64) :
    ∀ k, k ≤ E.length → FloorInv (E.callsBefore k) (E.state k) := by
  refine E.along ?_ ?_
  · rw [E.starts]
    exact floorInv_new
  · intro k hk ih
    exact (floorStep_along hE hc hk ih).1

lemma floorSecs_mono (hE : E.Sane) (hc : secsBound (E.callsBefore E.length) < 2 ^ 64) {i : ℕ} :
    ∀ j, j ≤ E.length → i ≤ j → floorSecs (E.state i) ≤ floorSecs (E.state j) := by
  intro j hj hij
  apply E.mono floorSecs hij
  intro k _ hkj
  have hk : k < E.length := by omega
  exact (floorStep_along hE hc hk (floorInv_along hE hc k hk.le)).2

/-- Over the life of a device that asks for at most `10^14` floors and time stamps, the emitted
bytes increase strictly. -/
theorem timestamps_increase (E : Tai64nRun) (hE : E.Sane) (hc : E.callsBefore E.length ≤ 10 ^ 14)
    {i j : ℕ} {x y : Bytes} (hij : i < j) (hx : E.Emits i x) (hy : E.Emits j y) : x < y := by
  have hbound : secsBound (E.callsBefore E.length) < 3 * 2 ^ 62 := by
    unfold secsBound
    omega
  have hbound' : secsBound (E.callsBefore E.length) < 2 ^ 64 :=
    hbound.trans_le (by norm_num)
  obtain ⟨hi, hacti, s, n, hpci, rfl⟩ := hx
  obtain ⟨hj, hactj, t, m, hpcj, rfl⟩ := hy
  have hstepi := E.steps i hi
  have hstepj := E.steps j hj
  rw [hacti] at hstepi
  rw [hactj] at hstepj
  have hinvj := floorInv_along hE hbound' j hj.le
  have hemiti := floorStep_emit (floorInv_along hE hbound' i hi.le) hpci hstepi
  have hemitj := floorStep_emit hinvj hpcj hstepj
  have hst : s.toNat < t.toNat :=
    calc s.toNat = floorSecs (E.state (i + 1)) := hemiti.2.2.symm
      _ ≤ floorSecs (E.state j) := floorSecs_mono hE hbound' j hj.le hij
      _ < t.toNat := hemitj.2.1
  have htop : t.toNat < 3 * 2 ^ 62 := by
    have hle : floorSecs (E.state (j + 1)) ≤ nvsSecs (E.state (j + 1)) := floorSecs_le_nvsSecs hemitj.1
    have hnvs := hemitj.1.nvs_le
    have hcalls := callsBefore_mono E hj.le
    unfold secsBound at hbound hnvs
    omega
  exact tai64nBytes_lt hst htop

/-- A reset at any point finds a floor in NVS that no emitted timestamp has passed. -/
theorem nvs_covers_emitted (E : Tai64nRun) (hE : E.Sane) (hc : E.callsBefore E.length ≤ 10 ^ 14)
    {k : ℕ} (hk : k ≤ E.length) (hp : (E.state k).ram.persists = true) :
    (E.state k).ram.emittedHigh.toNat ≤ nvsSecs (E.state k) ∧
      (E.state k).ram.reservation.toNat ≤ nvsSecs (E.state k) := by
  refine (floorInv_along hE ?_ k hk).ram_le hp
  unfold secsBound
  omega

instance (a : Tai64nStep) : Decidable a.Sane := by
  cases a <;> simp only [Tai64nStep.Sane] <;> infer_instance

def flooredAfter (floored : Bool) : Tai64nStep → Bool
  | .reset => false
  | .floorInstall => true
  | _ => floored

def saneFrom : Bool → List Tai64nStep → Bool
  | _, [] => true
  | floored, a :: as =>
    decide a.Sane && (match a with | .choose _ => floored | _ => true) &&
      saneFrom (flooredAfter floored a) as

lemma saneFrom_spec (as : List Tai64nStep) (floored : Bool) (h : saneFrom floored as) :
    ∀ k, k < as.length → (as.getD k .reset).Sane ∧ ∀ clock, as.getD k .reset = .choose clock →
      (floored = true ∧ ∀ i, i < k → as.getD i .reset ≠ .reset) ∨
        ∃ j, j < k ∧ as.getD j .reset = .floorInstall ∧
          ∀ i, j < i → i < k → as.getD i .reset ≠ .reset := by
  induction as generalizing floored with
  | nil =>
    intro k hk
    exact absurd hk (Nat.not_lt_zero k)
  | cons a _ ih =>
    simp only [saneFrom, Bool.and_eq_true, decide_eq_true_eq] at h
    obtain ⟨⟨ha, hchoose⟩, has⟩ := h
    intro k hk
    cases k with
    | zero =>
      refine ⟨ha, ?_⟩
      intro clock hclock
      obtain rfl : a = .choose clock := hclock
      exact .inl ⟨hchoose, fun i hi => absurd hi (Nat.not_lt_zero i)⟩
    | succ k =>
      obtain ⟨hsane, hfl⟩ := ih _ has k (Nat.lt_of_succ_lt_succ hk)
      refine ⟨hsane, ?_⟩
      intro clock hclock
      rcases hfl clock hclock with ⟨hf, hno⟩ | ⟨j, hj, hinst, hno⟩
      · -- no reset before step `k` of the tail, so the head decides
        cases a with
        | reset => exact absurd hf (by simp [flooredAfter])
        | floorInstall =>
          right
          refine ⟨0, Nat.succ_pos k, rfl, ?_⟩
          intro i h1 h2
          obtain ⟨i, rfl⟩ := Nat.exists_eq_succ_of_ne_zero h1.ne'
          exact hno i (by omega)
        | _ =>
          left
          refine ⟨hf, ?_⟩
          intro i hi
          cases i with
          | zero => simp
          | succ i => exact hno i (by omega)
      · right
        refine ⟨j + 1, by omega, hinst, ?_⟩
        intro i h1 h2
        obtain ⟨i, rfl⟩ := Nat.exists_eq_succ_of_ne_zero (show i ≠ 0 by omega)
        exact hno i (by omega) (by omega)

lemma sane_runOf (as : List Tai64nStep) (hen : allEnabled tai64nStep .new as)
    (h : saneFrom false as) : Tai64nRun.Sane (runOf Tai64nState.new rfl .reset as hen) := by
  intro k hk
  obtain ⟨hsane, hfl⟩ := saneFrom_spec as false h k hk
  refine ⟨hsane, ?_⟩
  intro clock hclock
  rcases hfl clock hclock with ⟨hf, _⟩ | hfl
  · exact absurd hf Bool.false_ne_true
  · exact hfl

def restartedClock : List Tai64nStep :=
  [.floorRead true, .floorPersist true, .floorInstall, .choose ⟨1700000000, 4, 0⟩, .persist true,
    .emit, .reset, .floorRead true, .floorPersist true, .floorInstall, .choose ⟨0, 3, 7⟩,
    .persist true, .emit]

theorem restartedClock_increases : tai64nBytes 1700000000 0 < tai64nBytes 1700086401 7 :=
  timestamps_increase (runOf Tai64nState.new rfl .reset restartedClock rfl)
    (sane_runOf _ _ (by decide)) (by decide) (i := 5) (j := 12) (by decide)
    ⟨by decide, rfl, _, _, rfl, rfl⟩ ⟨by decide, rfl, _, _, rfl, rfl⟩

theorem restartedClock_covered : nvsSecs ((runOf Tai64nState.new rfl .reset restartedClock rfl :
    Tai64nRun).state 13) ≥ 1700086401 :=
  (nvs_covers_emitted (runOf Tai64nState.new rfl .reset restartedClock rfl)
    (sane_runOf _ _ (by decide)) (by decide) (k := 13) le_rfl rfl).1

section Wrap

def bootSteps : List Tai64nStep := [.floorRead true, .floorPersist true, .floorInstall, .reset]

def firstStamp : List Tai64nStep :=
  [.floorRead true, .floorPersist true, .floorInstall, .choose ⟨5, 0, 0⟩, .persist true, .emit, .reset]

def lastStamp : List Tai64nStep :=
  [.floorRead true, .floorPersist true, .floorInstall, .choose ⟨5, 0, 0⟩, .persist true, .emit]

def boots (n : ℕ) : List Tai64nStep := (List.replicate n bootSteps).flatten

lemma boots_succ (n : ℕ) : boots (n + 1) = bootSteps ++ boots n := by
  rw [boots, boots, List.replicate_succ, List.flatten_cons]

def offAt (floor : UInt64) : Tai64nState := ⟨some floor, .boot, .idle⟩

lemma bootSteps_enabled (x : UInt64) : allEnabled tai64nStep (offAt x) bootSteps = true := rfl

lemma visited_bootSteps (x : UInt64) :
    visited tai64nStep (offAt x) bootSteps bootSteps.length = offAt (x + 86400) := rfl

lemma boots_from (n m : ℕ) : allEnabled tai64nStep (offAt (.ofNat m)) (boots n) = true ∧
    visited tai64nStep (offAt (.ofNat m)) (boots n) (boots n).length =
      offAt (.ofNat (m + 86400 * n)) := by
  induction n generalizing m with
  | zero => exact ⟨rfl, rfl⟩
  | succ n ih =>
    obtain ⟨hen, hvis⟩ := ih (m + 86400)
    have hboot : visited tai64nStep (offAt (.ofNat m)) bootSteps bootSteps.length =
        offAt (.ofNat (m + 86400)) := by
      rw [visited_bootSteps, UInt64.ofNat_add]
      rfl
    rw [boots_succ]
    refine ⟨allEnabled_append _ _ _ (bootSteps_enabled _) ?_, ?_⟩
    · rw [hboot]
      exact hen
    · rw [List.length_append, visited_append_right, hboot, hvis, Nat.mul_succ, Nat.add_assoc,
        Nat.add_comm 86400]

lemma saneFrom_boots (n : ℕ) (as : List Tai64nStep) (h : saneFrom false as) :
    saneFrom false (boots n ++ as) = true := by
  induction n with
  | zero => exact h
  | succ n ih =>
    rw [boots_succ, List.append_assoc]
    exact ih

def longLife (n : ℕ) : List Tai64nStep := firstStamp ++ (boots n ++ lastStamp)

lemma visited_firstStamp :
    visited tai64nStep .new firstStamp firstStamp.length = offAt (.ofNat 86400) := rfl

lemma visited_lastBoot (n k : ℕ) :
    visited tai64nStep .new (longLife n) (firstStamp.length + ((boots n).length + k)) =
      visited tai64nStep (offAt (.ofNat (86400 + 86400 * n))) lastStamp k := by
  rw [longLife, visited_append_right, visited_firstStamp, visited_append_right, (boots_from n 86400).2]

lemma longLife_enabled (n : ℕ)
    (h : allEnabled tai64nStep (offAt (.ofNat (86400 + 86400 * n))) lastStamp) :
    allEnabled tai64nStep .new (longLife n) = true := by
  apply allEnabled_append _ _ _ rfl
  rw [visited_firstStamp]
  apply allEnabled_append _ _ _ (boots_from n 86400).1
  rw [(boots_from n 86400).2]
  exact h

lemma getD_lastBoot (n k : ℕ) :
    (longLife n).getD (firstStamp.length + ((boots n).length + k)) .reset = lastStamp.getD k .reset := by
  rw [longLife, List.getD_append_right _ _ _ _ (Nat.le_add_right _ _), Nat.add_sub_cancel_left,
    List.getD_append_right _ _ _ _ (Nat.le_add_right _ _), Nat.add_sub_cancel_left]

/-- After some `1.6 * 10^14` boots the floor alone wraps the encoded seconds. -/
theorem timestamps_wrap : ¬ ∀ (E : Tai64nRun) (i j : ℕ) (x y : Bytes), E.Sane → i < j →
    E.Emits i x → E.Emits j y → x < y := by
  intro h
  obtain ⟨n, hn⟩ : ∃ n, n = 160127986750950 := ⟨_, rfl⟩
  have hfloor : UInt64.ofNat (86400 + 86400 * n) = 13835058055282166400 := by
    rw [hn]
    rfl
  have hen : allEnabled tai64nStep .new (longLife n) = true := by
    apply longLife_enabled
    rw [hfloor]
    rfl
  have hsane : saneFrom false (longLife n) = true := saneFrom_boots n lastStamp (by decide)
  have hlen : (longLife n).length = firstStamp.length + ((boots n).length + 6) := by
    simp [longLife, lastStamp]
  have hlt := h (runOf Tai64nState.new rfl .reset (longLife n) hen) 5
    (firstStamp.length + ((boots n).length + 5)) (tai64nBytes 5 0) (tai64nBytes 13835058055282166401 0)
    (sane_runOf _ _ hsane) ?_ ⟨?_, rfl, 5, 0, ?_, rfl⟩ ⟨?_, ?_, 13835058055282166401, 0, ?_, rfl⟩
  · exact absurd hlt (by decide)
  · change 5 < 7 + _
    omega
  · change 5 < (longLife n).length
    rw [hlen]
    change 5 < 7 + _
    omega
  · change (visited tai64nStep .new (longLife n) 5).pc = _
    rw [longLife, visited_append_left _ _ _ (by decide)]
    rfl
  · change _ < (longLife n).length
    omega
  · exact getD_lastBoot n 5
  · change (visited tai64nStep .new (longLife n) _).pc = _
    rw [visited_lastBoot, hfloor]
    rfl

end Wrap

end TinyLink.Proofs
