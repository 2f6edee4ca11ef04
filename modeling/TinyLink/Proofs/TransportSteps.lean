import TinyLink.TransportSystem
import TinyLink.Proofs.ReplayWindow

/-!
# What one step of a task can do

Inversion of `transportStep` for the session, the receive tickets and the send tickets.
-/

namespace TinyLink.Proofs
open StepSystem SlidingWindow TransportRun

variable {aead : Aead} {σ σ' : TransportSystem} {a : TransportStep}

lemma setSlotAt_eq_some {α : Type} {f : ℕ → Option α} {id j : ℕ} {v : Option α} {x : α} :
    setSlotAt f id v j = some x ↔ (j = id ∧ v = some x) ∨ (j ≠ id ∧ f j = some x) := by
  by_cases h : j = id <;> simp [setSlotAt, h]

lemma setSlotAt_none {α : Type} {f : ℕ → Option α} {id j : ℕ} {x : α}
    (h : setSlotAt f id none j = some x) : j ≠ id ∧ f j = some x := by
  rcases setSlotAt_eq_some.mp h with ⟨_, hv⟩ | hf
  · cases hv
  · exact hf

inductive TransportMove (aead : Aead) (σ : TransportSystem) :
    TransportStep → TransportSystem → Prop
  | init (li ri sk rk) :
      TransportMove aead σ (.sessionInit li ri sk rk)
        { σ with
          nextGen := newGen σ.nextGen
          session := wgTransportSessionInit (newGen σ.nextGen) li ri sk rk }
  | scrub :
      TransportMove aead σ .sessionScrub
        { σ with nextGen := newGen σ.nextGen, session := wgTransportSessionScrub (newGen σ.nextGen) }
  | otherGen : TransportMove aead σ .otherGen { σ with nextGen := newGen σ.nextGen }
  | full (id) (hfree : σ.tx id = none) (hfull : wgTransportTxReserve σ.session = none) :
      TransportMove aead σ (.txReserve id) σ
  | reserve (id t s) (hres : wgTransportTxReserve σ.session = some (t, s)) :
      TransportMove aead σ (.txReserve id) { σ with session := s, tx := setSlotAt σ.tx id (some t) }
  | txSeal (id outSize plaintext) :
      TransportMove aead σ (.txSeal id outSize plaintext) { σ with tx := setSlotAt σ.tx id none }
  | rxBegin (id wire maxPlen) (hfree : σ.rx id = none) :
      TransportMove aead σ (.rxBegin id wire maxPlen)
        { σ with
          rx := setSlotAt σ.rx id ((wgTransportRxBegin σ.session wire maxPlen).map .begun) }
  | rxOpen (id wire t) (ht : σ.rx id = some (.begun t)) :
      TransportMove aead σ (.rxOpen id wire)
        { σ with
          rx := setSlotAt σ.rx id
            ((wgTransportRxOpen aead t wire).map fun _ => .opened t.wiped) }
  | commit (id t) (ht : σ.rx id = some (.opened t)) :
      TransportMove aead σ (.rxCommit id)
        { σ with
          session := (wgTransportRxCommit σ.session t).2
          rx := setSlotAt σ.rx id none }
  | ticketScrub (id) :
      TransportMove aead σ (.ticketScrub id) { σ with rx := setSlotAt σ.rx id none }

lemma transportStep_move (h : transportStep aead σ a = some σ') : TransportMove aead σ a σ' := by
  cases a with
  | sessionInit li ri sk rk =>
    cases h
    exact .init li ri sk rk
  | sessionScrub =>
    cases h
    exact .scrub
  | otherGen =>
    cases h
    exact .otherGen
  | txReserve id =>
    simp only [transportStep] at h
    split at h
    · cases h
    · split at h <;> cases h
      · exact .full id (by assumption) (by assumption)
      · exact .reserve id _ _ (by assumption)
  | txSeal id outSize plaintext =>
    simp only [transportStep] at h
    split at h <;> cases h
    exact .txSeal id outSize plaintext
  | rxBegin id wire maxPlen =>
    simp only [transportStep] at h
    split at h <;> cases h
    exact .rxBegin id wire maxPlen (by assumption)
  | rxOpen id wire =>
    simp only [transportStep] at h
    split at h <;> cases h
    exact .rxOpen id wire _ (by assumption)
  | rxCommit id =>
    simp only [transportStep] at h
    split at h <;> cases h
    exact .commit id _ (by assumption)
  | ticketScrub id =>
    simp only [transportStep] at h
    split at h <;> cases h
    exact .ticketScrub id

lemma transportStep_rx (h : transportStep aead σ a = some σ') {id : ℕ} {p : RxPhase}
    (hp : σ'.rx id = some p) :
    σ.rx id = some p ∨
    (∃ wire maxPlen t, a = .rxBegin id wire maxPlen ∧ σ.rx id = none ∧
      wgTransportRxBegin σ.session wire maxPlen = some t ∧ p = .begun t) ∨
    (∃ wire plaintext t, a = .rxOpen id wire ∧ σ.rx id = some (.begun t) ∧
      wgTransportRxOpen aead t wire = some plaintext ∧ p = .opened t.wiped) := by
  cases transportStep_move h with
  | init | scrub | otherGen | full | reserve | txSeal => exact .inl hp
  | rxBegin _ wire maxPlen hfree =>
    rcases setSlotAt_eq_some.mp hp with ⟨rfl, hv⟩ | ⟨_, hf⟩
    · obtain ⟨t, ht, rfl⟩ := Option.map_eq_some_iff.mp hv
      exact .inr (.inl ⟨wire, maxPlen, t, rfl, hfree, ht, rfl⟩)
    · exact .inl hf
  | rxOpen _ wire t ht =>
    rcases setSlotAt_eq_some.mp hp with ⟨rfl, hv⟩ | ⟨_, hf⟩
    · obtain ⟨m, hm, rfl⟩ := Option.map_eq_some_iff.mp hv
      exact .inr (.inr ⟨wire, m, t, rfl, ht, hm, rfl⟩)
    · exact .inl hf
  | commit | ticketScrub => exact .inl (setSlotAt_none hp).2

lemma wgTransportTxReserve_some {s s' : WgTransportSession} {t : WgTxTicket}
    (h : wgTransportTxReserve s = some (t, s')) :
    s.valid = true ∧ s.sendCounter ≠ wgCounterRejectAt ∧
      t = ⟨s.sendKey, s.sendCounter, s.remoteIndex⟩ ∧
      s' = { s with sendCounter := s.sendCounter + 1 } := by
  unfold wgTransportTxReserve at h
  split_ifs at h with hv hc
  simp only [Option.some.injEq, Prod.mk.injEq] at h
  exact ⟨by simpa using hv, hc, h.1.symm, h.2.symm⟩

lemma wgTransportRxCommit_cases (s : WgTransportSession) (t : WgRxTicket) :
    ((wgTransportRxCommit s t).1 = 0 ∧ s.valid = true ∧ s.gen = t.gen ∧
      wgReplayCheck s.replay t.counter = 0 ∧
      (wgTransportRxCommit s t).2 = { s with replay := wgReplayUpdate s.replay t.counter }) ∨
    ((wgTransportRxCommit s t).1 ≠ 0 ∧ (wgTransportRxCommit s t).2 = s) := by
  unfold wgTransportRxCommit
  split_ifs with h1 h2
  · exact .inr ⟨by simp [wgTransportRxStale], rfl⟩
  · exact .inr ⟨by simp [wgTransportRxReplay], rfl⟩
  · simp only [Bool.not_eq_true', not_or, Bool.not_eq_false, ne_eq, not_not] at h1 h2
    exact .inl ⟨rfl, h1.1, h1.2, h2, rfl⟩

lemma commitAccepts_check {id : ℕ} {t : WgRxTicket} (h : CommitAccepts σ a id t) :
    σ.session.valid = true ∧ σ.session.gen = t.gen ∧ wgReplayCheck σ.session.replay t.counter = 0 := by
  rcases wgTransportRxCommit_cases σ.session t with ⟨_, hv, hg, hc, _⟩ | ⟨h0, _⟩
  · exact ⟨hv, hg, hc⟩
  · exact absurd h.2.2 h0

lemma wgTransportRxBegin_gen {s : WgTransportSession} {wire : Bytes} {maxPlen : ℕ} {t : WgRxTicket}
    (h : wgTransportRxBegin s wire maxPlen = some t) : t.gen = s.gen := by
  simp only [wgTransportRxBegin] at h
  split_ifs at h
  cases h
  rfl

lemma transportStep_replay (h : transportStep aead σ a = some σ') (hr : a.rekeys = false) :
    σ'.session.gen = σ.session.gen ∧ σ'.session.valid = σ.session.valid ∧
      ((∃ id t, CommitAccepts σ a id t ∧
          σ'.session.replay = wgReplayUpdate σ.session.replay t.counter) ∨
        (∀ id t, ¬CommitAccepts σ a id t) ∧ σ'.session.replay = σ.session.replay) := by
  cases transportStep_move h with
  | init | scrub => cases hr
  | reserve _ _ _ hres =>
    obtain ⟨_, _, _, rfl⟩ := wgTransportTxReserve_some hres
    exact ⟨rfl, rfl, .inr ⟨by rintro _ _ ⟨⟨⟩, _⟩, rfl⟩⟩
  | commit id t ht =>
    rcases wgTransportRxCommit_cases σ.session t with ⟨h0, _, _, _, heq⟩ | ⟨h0, heq⟩
    · rw [heq]
      exact ⟨rfl, rfl, .inl ⟨id, t, ⟨rfl, ht, h0⟩, rfl⟩⟩
    · rw [heq]
      refine ⟨rfl, rfl, .inr ⟨?_, rfl⟩⟩
      rintro _ t' ⟨⟨⟩, ht', h0'⟩
      rw [ht] at ht'
      cases ht'
      exact h0 h0'
  | otherGen | full | txSeal | rxBegin | rxOpen | ticketScrub =>
    exact ⟨rfl, rfl, .inr ⟨by rintro _ _ ⟨⟨⟩, _⟩, rfl⟩⟩

lemma transportStep_rekey (h : transportStep aead σ a = some σ') (hr : a.rekeys) :
    σ'.session.gen = newGen σ.nextGen ∧ σ'.session.replay = .zero := by
  cases transportStep_move h with
  | init | scrub => exact ⟨rfl, rfl⟩
  | _ => cases hr

lemma takesGen_of_rekeys (hr : a.rekeys) : a.takesGen = true := by
  cases a <;> first | rfl | cases hr

lemma transportStep_nextGen (h : transportStep aead σ a = some σ') :
    σ'.nextGen = if a.takesGen then newGen σ.nextGen else σ.nextGen := by
  cases transportStep_move h <;> rfl

lemma newGen_toNat {g : UInt32} (h : g.toNat + 1 < 2 ^ 32) : (newGen g).toNat = g.toNat + 1 := by
  unfold newGen
  rw [UInt32.toNat_add]
  exact Nat.mod_eq_of_lt h

section
variable (h : transportStep aead σ a = some σ')
include h

lemma transportStep_send (hr : a.rekeys = false) :
    σ'.session.sendKey = σ.session.sendKey ∧ σ'.session.remoteIndex = σ.session.remoteIndex ∧
      σ'.session.valid = σ.session.valid ∧
      σ'.session.sendCounter =
        if σ.reserves a then σ.session.sendCounter + 1 else σ.session.sendCounter := by
  cases transportStep_move h with
  | init | scrub => cases hr
  | full _ _ hfull =>
    simp [TransportSystem.reserves, hfull]
  | reserve _ _ _ hres =>
    obtain ⟨_, _, _, rfl⟩ := wgTransportTxReserve_some hres
    simp [TransportSystem.reserves, hres]
  | commit id t =>
    rcases wgTransportRxCommit_cases σ.session t with ⟨_, _, _, _, heq⟩ | ⟨_, heq⟩
    · rw [heq]
      exact ⟨rfl, rfl, rfl, rfl⟩
    · rw [heq]
      exact ⟨rfl, rfl, rfl, rfl⟩
  | otherGen | txSeal | rxBegin | rxOpen | ticketScrub => exact ⟨rfl, rfl, rfl, rfl⟩

lemma transportStep_tx {id : ℕ} {t : WgTxTicket}
    (ht : σ'.tx id = some t) :
    (σ.tx id = some t ∧ (∀ outSize plaintext, a ≠ .txSeal id outSize plaintext) ∧
      a ≠ .txReserve id) ∨
    (a = .txReserve id ∧ ∃ s, wgTransportTxReserve σ.session = some (t, s)) := by
  cases transportStep_move h with
  | full _ hfree =>
    refine .inl ⟨ht, nofun, ?_⟩
    rintro ⟨rfl⟩
    rw [ht] at hfree
    cases hfree
  | reserve _ _ s hres =>
    rcases setSlotAt_eq_some.mp ht with ⟨rfl, hv⟩ | ⟨hne, hf⟩
    · cases hv
      exact .inr ⟨rfl, s, hres⟩
    · exact .inl ⟨hf, nofun, fun hc => hne (by cases hc; rfl)⟩
  | txSeal =>
    obtain ⟨hne, hf⟩ := setSlotAt_none ht
    exact .inl ⟨hf, fun _ _ hc => hne (by cases hc; rfl), nofun⟩
  | _ => exact .inl ⟨ht, nofun, nofun⟩

/-- Only a session that was installed can be used again. -/
lemma transportStep_valid (hr : a.rekeys)
    (hv : σ'.session.valid) : ∃ li ri sk rk, a = .sessionInit li ri sk rk ∧
      σ'.session = wgTransportSessionInit (newGen σ.nextGen) li ri sk rk := by
  cases transportStep_move h with
  | init li ri sk rk => exact ⟨li, ri, sk, rk, rfl, rfl⟩
  | scrub => cases hv
  | _ => cases hr

end

lemma sameKeys_succ {E : TransportRun aead} {i k : ℕ} (h : SameKeys E i k)
    (hk : (E.act k).rekeys = false) :
    SameKeys E i (k + 1) := by
  intro l hil hl
  rcases Nat.lt_succ_iff_lt_or_eq.mp hl with hl | rfl
  · exact h l hil hl
  · exact hk

lemma sameKeys_of_succ {E : TransportRun aead} {i k : ℕ} (h : SameKeys E i (k + 1)) :
    SameKeys E i k :=
  fun l hil hl => h l hil (by omega)

end TinyLink.Proofs
