import TinyLink.StunBoot

/-!
# One reader of the WireGuard socket at boot

Where the two sides stand fixes the shared state and the semaphore (`BootInv`).
-/

namespace TinyLink.Proofs
open StepSystem

variable {s s' : BootWorld}

/-- The semaphore while the signal or the deletion, `last`, is left to the probe's last step. -/
def Owes (s : BootWorld) (last : DoneSem) : Prop :=
  s.probe ≠ .none ∧ s.done = if s.probe = .ended then last else .empty

/-- What each side may take for granted of the other, where it stands. -/
structure BootInv (s : BootWorld) : Prop where
  probe : match s.probe with
    | .none => s.boot = .idle ∧ s.done = .null
    | .pick | .claim => s.boot = .resolving ∨ s.boot = .abandoned
    | .exchange => s.boot = .onSocket ∨ s.boot = .abandoned
    | .finish => s.boot ≠ .idle
    | .last awaited => s.boot = if awaited then .done else .abandoned
    | .ended => s.boot = .done ∨ s.boot = .abandoned
  main : match s.main with
    | .before => s.boot ≠ .abandoned ∧ (s.probe = .none ∨ Owes s .given)
    | .wait | .giveUp => s.boot ≠ .abandoned ∧ Owes s .given
    | .take => s.boot = .done ∧ Owes s .given
    | .delete => s.boot = .done ∧ s.probe = .ended ∧ s.done = .empty
    | .check | .after => s.probe = .none ∨ s.boot = .abandoned ∧ Owes s .deleted ∨
      s.boot = .done ∧ s.probe = .ended ∧ s.done = .deleted
  misuse : s.misuse = false
  informed : s.main = .after → s.result.isSome ∨ s.reprobeNow = true

lemma bootInv_run {ok : Bool} (hs : BootInv s) (h : stunBootRun s ok = some s') : BootInv s' := by
  obtain ⟨hp, hm, hu, hi⟩ := hs
  cases hpc : s.probe <;> rw [hpc] at hp <;> simp only [stunBootRun, hpc, reduceCtorEq] at h <;> cases h
  case pick => exact ⟨by grind, by grind [Owes], hu, hi⟩
  case claim =>
    -- the socket is the probe's, unless the main task gave up before
    rcases hp with hb | hb <;> simp only [hb, stunBootClaim] <;>
      exact ⟨by simp, by grind [Owes], hu, hi⟩
  case exchange => exact ⟨by grind, by grind [Owes], by grind, by grind⟩
  case finish =>
    by_cases hb : s.boot = .abandoned
    · rw [hb, stunBootFinish]
      exact ⟨rfl, by grind [Owes], hu, hi⟩
    · have hdone : stunBootFinish s.boot = (true, .done) := by grind [stunBootFinish]
      rw [hdone]
      exact ⟨rfl, by grind [Owes], hu, hi⟩
  case last awaited =>
    -- whichever side goes last finds the semaphore as it was made
    have hempty : s.done = .empty := by grind [Owes]
    rw [BootWorld.setDone, if_neg (by simp [hempty])]
    exact ⟨by grind, by cases awaited <;> grind [Owes], hu, hi⟩

lemma BootInv.takes (hs : BootInv s) (hb : s.boot ≠ .abandoned) (ho : Owes s .given)
    (h : s.takeDone = some s') : BootInv s' := by
  obtain ⟨hd, rfl⟩ := guarded h
  have hended : s.probe = .ended ∧ s.done = .given := by grind [Owes]
  have hdone : s.boot = .done := by grind [hs.probe]
  rw [BootWorld.setDone, if_neg (by simp [hended.2])]
  exact ⟨by simp [hended.1, hdone], ⟨hdone, hended.1, rfl⟩, hs.misuse, by rintro ⟨⟩⟩

lemma bootInv_join {timeout : Bool} (hs : BootInv s) (h : stunBootJoin s timeout = some s') :
    BootInv s' := by
  have ⟨hp, hm, hu, hi⟩ := hs
  cases hpc : s.main <;> rw [hpc] at hm <;> simp only [stunBootJoin, hpc, reduceCtorEq] at h
  case before =>
    cases h
    exact ⟨hp, by grind [Owes], hu, by split <;> rintro ⟨⟩⟩
  case wait =>
    cases timeout with
    | true =>
      cases h
      exact ⟨hp, hm, hu, by rintro ⟨⟩⟩
    | false => exact hs.takes hm.1 hm.2 h
  case giveUp =>
    cases h
    by_cases hb : s.boot = .done
    · rw [hb, stunBootGiveUp]
      exact ⟨hb ▸ hp, ⟨rfl, hm.2⟩, hu, by rintro ⟨⟩⟩
    · -- the semaphore is left to a probe that has not finished
      have hgone : stunBootGiveUp s.boot = (false, .abandoned) := by grind [stunBootGiveUp]
      rw [hgone]
      exact ⟨by grind [Owes], by grind [Owes], hu, by rintro ⟨⟩⟩
  case take => exact hs.takes (by simp [hm.1]) hm.2 h
  case delete =>
    cases h
    rw [BootWorld.setDone, if_neg (by simp [hm.2.2])]
    exact ⟨by simp [hm.1, hm.2.1], .inr (.inr ⟨hm.1, hm.2.1, rfl⟩), hu, by rintro ⟨⟩⟩
  case check =>
    cases h
    exact ⟨hp, hm, hu, fun _ => by cases hr : s.result <;> simp⟩

lemma bootInv_step {a : BootAction} (hs : BootInv s) (h : bootStep s a = some s') :
    BootInv s' := by
  cases a with
  | start created =>
    obtain ⟨⟨hmain, _⟩, rfl⟩ := guarded h
    cases created with
    | false => exact hs
    | true => exact ⟨.inl rfl, by simp [hmain, Owes], hs.misuse, by simp [hmain]⟩
  | probe => exact bootInv_run hs h
  | read answer =>
    obtain ⟨hp, hm, hu, hi⟩ := hs
    simp only [bootStep, stunBootRead] at h
    split_ifs at h with hpc hread
    · have hb : s.boot = .onSocket := by simpa [stunBootMayRead] using hread
      cases answer <;> simp only [hb, stunBootPublish] at h <;> cases h
      · exact ⟨hb ▸ hp, hb ▸ hm, hu, hi⟩
      · exact ⟨by simp, by grind [Owes], hu, fun _ => .inl rfl⟩
    · cases h
      exact ⟨by grind, by grind [Owes], hu, hi⟩
  | main => exact bootInv_join hs h

lemma boot_inv (E : BootRun) {k : ℕ} (hk : k ≤ E.length) : BootInv (E.state k) :=
  E.invariant (by rintro _ rfl; constructor <;> simp) (fun _ _ _ => bootInv_step) k hk

lemma off_socket {a : BootAction} (hs : BootInv s) (hm : s.main = .after)
    (h : bootStep s a = some s') :
    s'.main = .after ∧ s'.reads = s.reads ∧ s'.result = s.result := by
  obtain ⟨hp, hj, -, -⟩ := hs
  have hboot : s.boot ≠ .onSocket := by grind
  cases a with
  | start => simp [bootStep, tinylinkStunProbeStart, hm] at h
  | probe => grind [bootStep, stunBootRun, BootWorld.setDone]
  | read =>
    simp only [bootStep, stunBootRead, stunBootMayRead, hboot] at h
    grind
  | main => simp [bootStep, stunBootJoin, hm] at h

/-- Once `stun_boot_join` has returned and `wg_rx` may be spawned, the probe neither reads the socket
nor publishes; a push without an endpoint has asked for the re-probe. -/
theorem boot_probe_leaves_socket (E : BootRun) {i j : ℕ} (hij : i ≤ j) (hj : j ≤ E.length)
    (hi : (E.state i).main = .after) :
    (E.state j).reads = (E.state i).reads ∧ (E.state j).result = (E.state i).result ∧
      ((E.state i).result.isSome ∨ (E.state i).reprobeNow = true) := by
  have hstill : (E.state j).main = .after ∧ (E.state j).reads = (E.state i).reads ∧
      (E.state j).result = (E.state i).result := by
    refine stretch hij ⟨hi, rfl, rfl⟩ ?_
    rintro k _ hkj ⟨hm, hreads, hresult⟩
    have hstep := off_socket (boot_inv E (by omega)) hm (E.steps k (by omega))
    exact ⟨hstep.1, hstep.2.1.trans hreads, hstep.2.2.trans hresult⟩
  exact ⟨hstill.2.1, hstill.2.2, (boot_inv E (hij.trans hj)).informed hi⟩

/-- The semaphore is never used behind its deletion, it is deleted once both sides are through, and a
main task that waits for it without a limit is two steps of the probe from the signal at most. -/
theorem boot_signal_kept (E : BootRun) {k : ℕ} (hk : k ≤ E.length) :
    (E.state k).misuse = false ∧
      ((E.state k).main = .after → (E.state k).probe = .ended → (E.state k).done = .deleted) ∧
      ((E.state k).main = .take → ∃ n ≤ 2, ∀ ok, allEnabled bootStep (E.state k)
        (List.replicate n (.probe ok) ++ [.main false]) = true) := by
  obtain ⟨hp, hm, hu, -⟩ := boot_inv E hk
  generalize E.state k = s at *
  refine ⟨hu, by grind [Owes], fun hmain => ?_⟩
  simp only [hmain, Owes] at hm
  -- the state is DONE: the probe is at its finish, at its signal or behind it
  refine ⟨if s.probe = .finish then 2 else if s.probe = .last true then 1 else 0,
    by split_ifs <;> simp, fun ok => ?_⟩
  cases hpc : s.probe <;> simp_all [allEnabled, bootStep, stunBootRun, stunBootFinish,
    stunBootJoin, BootWorld.takeDone, BootWorld.setDone]

def lateRun : BootRun := runOf {} rfl (.probe true)
  [.start true, .probe true, .probe true, .read none, .main true, .main true, .main true,
    .main true, .read (some ⟨#v[192, 0, 2, 1], 4000⟩), .probe true, .probe true] rfl

theorem late_answer_is_dropped : (lateRun.state 11).reads = 1 ∧ (lateRun.state 11).result = none :=
  have h := boot_probe_leaves_socket lateRun (i := 8) (j := 11) (by decide) le_rfl rfl
  ⟨h.1, h.2.1⟩

theorem late_probe_deletes : (lateRun.state 11).done = .deleted :=
  (boot_signal_kept lateRun (k := 11) le_rfl).2.1 rfl rfl

end TinyLink.Proofs
