import TinyLink.Proofs.PathHistory
import TinyLink.Proofs.RescueRing

/-!
# A rekey INIT spares the frames still to be re-sent

The ring, the memory of re-sent keypairs and the keypair slots of the peer in one invariant.
-/

namespace TinyLink.Proofs
open StepSystem

variable {s : PeerSlots} {e : RekeyEvent} {σ σ' : RekeyState} {now : ℕ}

section Fields
variable (p : WgPath) (now : ℤ)

lemma resolve_keys : (wgPathResolve p now).1.peerTrUs = p.peerTrUs ∧
    (wgPathResolve p now).1.hsUs = p.hsUs ∧ (wgPathResolve p now).1.initHoldUs = p.initHoldUs := by
  grind [wgPathResolve, wgPathConfirm]

lemma handshake_keys : (wgPathOnHandshake p now).1.peerTrUs = p.peerTrUs ∧
    (wgPathOnHandshake p now).1.hsUs = now ∧ (wgPathOnHandshake p now).1.initHoldUs = 0 := by
  grind [wgPathOnHandshake, resolve_keys]

lemma keepalive_keys : (wgPathOnKeepalive p now).1.peerTrUs = now ∧
    (wgPathOnKeepalive p now).1.hsUs = p.hsUs ∧
    (wgPathOnKeepalive p now).1.initHoldUs = p.initHoldUs := by
  grind [wgPathOnKeepalive, resolve_keys]

lemma peerData_keys : (wgPathOnPeerData p now).1.peerTrUs = now ∧
    (wgPathOnPeerData p now).1.hsUs = p.hsUs ∧
    (wgPathOnPeerData p now).1.initHoldUs = p.initHoldUs := by
  grind [wgPathOnPeerData, resolve_keys]

lemma local_keys {e : PathEvent} (he : e.isLocal) (hs : ¬ StartsOverAt p e) :
    (pathEvent p now e).1.peerTrUs = p.peerTrUs ∧ (pathEvent p now e).1.hsUs = p.hsUs ∧
      (pathEvent p now e).1.initHoldUs = p.initHoldUs := by
  have hmove := pathEvent_move p now e
  generalize pathEvent p now e = r at hmove ⊢
  cases hmove with
  | startsOver h => exact absurd h hs
  | tests _ hr | silent _ hr | dies _ _ hr | moves _ hr => cases hr <;> exact ⟨rfl, rfl, rfl⟩
  | resolves hp | undelivered hp | heard hp | restarts hp => cases hp <;> cases he
  | proves => cases he
  | confirms => grind [wgPathConfirm]
  | roams _ _ _ hr => cases hr <;> grind [wgPathConfirm]
  | _ => exact ⟨rfl, rfl, rfl⟩

end Fields

section Peer

def Foreign (s : PeerSlots) : Prop :=
  ∀ g, s.previous ≠ some (.ours g) ∧ s.current ≠ some (.ours g) ∧ s.next ≠ some (.ours g)

/-- Where our keypairs are at the peer: the newest in `next` or promoted, the others older. -/
structure PeerShape (g : UInt32) (s : PeerSlots) : Prop where
  next : ∀ d, s.next = some (.ours d) → d = g ∧ g ≠ 0 ∧ s.current ≠ some (.ours g)
  current : ∀ d, s.current = some (.ours d) → d ≠ 0 ∧ d.toNat ≤ g.toNat
  previous : ∀ d, s.previous = some (.ours d) → d ≠ 0 ∧ d.toNat < g.toNat

/-- No keypair that an INIT may delete is older than the last but one. -/
structure Recent (g : UInt32) (s : PeerSlots) : Prop where
  current : ∀ d x, s.next = some (.ours x) → s.current = some (.ours d) → g.toNat ≤ d.toNat + 1
  previous : ∀ d, s.previous = some (.ours d) → g.toNat ≤ d.toNat + 1 ∧ s.next = none

/-- What one event does to our newest generation and to the slots of the peer. -/
inductive PeerMove (g : UInt32) (s : PeerSlots) : RekeyEvent → UInt32 → PeerSlots → Prop where
  | consumes : PeerMove g s .peerInit g s.consumeInit
  | answers (hn : s.next = some .other) (hg : g + 1 ≠ 0) :
      PeerMove g s .handshake (g + 1) (s.answered (g + 1))
  | receives (d : UInt32) : PeerMove g s (.peerReceives d) g (s.receive d)
  | keeps {e : RekeyEvent} (he : e ≠ .handshake) : PeerMove g s e g s

lemma peerMove_event (hs : rekeyEvent σ now e = some σ') :
    PeerMove σ.gen σ.peer e σ'.gen σ'.peer := by
  cases e with
  | peerInit =>
    cases hs
    exact .consumes
  | handshake =>
    obtain ⟨hc, rfl⟩ := guarded hs
    simp only [Bool.and_eq_true, decide_eq_true_eq] at hc
    exact .answers hc.1 hc.2
  | peerReceives gen =>
    cases hs
    exact .receives gen
  | peerSeals =>
    simp only [rekeyEvent] at hs
    split at hs <;> cases hs
    exact .keeps (by rintro ⟨⟩)
  | keepalive | payload | keep _ _ _ | resend _ _ | path _ =>
    obtain ⟨_, rfl⟩ := guarded hs
    exact .keeps (by rintro ⟨⟩)
  | route =>
    cases hs
    exact .keeps (by rintro ⟨⟩)

variable {g g' : UInt32} {s s' : PeerSlots}

lemma gen_succ (hg : g + 1 ≠ 0) : (g + 1).toNat = g.toNat + 1 := by
  have hlt := g.toNat_lt
  have hne : (g + 1).toNat ≠ 0 := fun h0 => hg (UInt32.toNat_inj.mp h0)
  rw [UInt32.toNat_add, UInt32.toNat_one] at hne ⊢
  omega

lemma Foreign.shape (h : Foreign s) (g : UInt32) : PeerShape g s :=
  ⟨fun d hd => absurd hd (h d).2.2, fun d hd => absurd hd (h d).2.1, fun d hd => absurd hd (h d).1⟩

lemma Foreign.recent (h : Foreign s) (g : UInt32) : Recent g s :=
  ⟨fun d _ _ hd => absurd hd (h d).2.1, fun d hd => absurd hd (h d).1⟩

lemma Foreign.move (h : Foreign s) (hm : PeerMove g s e g' s') (he : e ≠ .handshake) :
    Foreign s' := by
  cases hm with
  | consumes => exact fun g => ⟨by (rintro ⟨⟩), (h g).2.1, by rintro ⟨⟩⟩
  | answers => exact absurd rfl he
  | receives d =>
    rw [PeerSlots.receive, if_neg (h d).2.2]
    exact h
  | keeps => exact h

lemma PeerShape.move (h : PeerShape g s) (hm : PeerMove g s e g' s') : PeerShape g' s' := by
  cases hm with
  | consumes => exact ⟨by (rintro d ⟨⟩), h.current, by rintro d ⟨⟩⟩
  | answers _ hg =>
    have hsucc := gen_succ hg
    refine ⟨?_, ?_, ?_⟩
    · rintro d ⟨⟩
      refine ⟨rfl, hg, fun hc => ?_⟩
      have := (h.current _ hc).2
      omega
    · intro d hd
      obtain ⟨hd0, hle⟩ := h.current d hd
      exact ⟨hd0, by omega⟩
    · intro d hd
      obtain ⟨hd0, hlt⟩ := h.previous d hd
      exact ⟨hd0, by omega⟩
  | receives d =>
    unfold PeerSlots.receive
    split
    · next hnext =>
      obtain ⟨rfl, hg, hne⟩ := h.next d hnext
      refine ⟨by (rintro x ⟨⟩), ?_, ?_⟩
      · intro x hx
        change s.next = _ at hx
        rw [hnext] at hx
        cases hx
        exact ⟨hg, le_rfl⟩
      · intro x hx
        obtain ⟨hx0, hle⟩ := h.current x hx
        refine ⟨hx0, lt_of_le_of_ne hle fun heq => ?_⟩
        rw [UInt32.toNat_inj.mp heq] at hx
        exact hne hx
    · exact h
  | keeps => exact h

lemma Recent.move (h : Recent g s) (hm : PeerMove g s e g' s')
    (hnew : e = .handshake → s.current = some (.ours g) ∨ Foreign s) : Recent g' s' := by
  cases hm with
  | consumes => exact ⟨by (rintro d x ⟨⟩), by rintro d ⟨⟩⟩
  | answers hn hg =>
    have hsucc := gen_succ hg
    refine ⟨?_, ?_⟩
    · intro d _ _ hd
      change s.current = _ at hd
      rcases hnew rfl with hcur | hf
      · rw [hcur] at hd
        cases hd
        omega
      · exact absurd hd (hf d).2.1
    · intro d hd
      obtain ⟨_, hnone⟩ := h.previous d hd
      rw [hn] at hnone
      cases hnone
  | receives d =>
    unfold PeerSlots.receive
    split
    · next hnext =>
      refine ⟨by (rintro d x ⟨⟩), ?_⟩
      intro x hx
      exact ⟨h.current x d hnext hx, rfl⟩
    · exact h
  | keeps => exact h

lemma receive_current (h : PeerShape g s) (hc : s.current = some (.ours g)) (d : UInt32) :
    (s.receive d).current = some (.ours g) := by
  rw [PeerSlots.receive, if_neg]
  · exact hc
  · intro hnext
    exact (h.next d hnext).2.2 hc

end Peer

section Joint

structure RekeyInv (σ : RekeyState) : Prop where
  shape : PeerShape σ.gen σ.peer
  sealedLe : ∀ x ∈ σ.peerSealed, x.toNat ≤ σ.gen.toNat
  sealedCur : σ.gen ∈ σ.peerSealed → σ.peer.current = some (.ours σ.gen)
  confirmed : wgPathKeysConfirmed σ.path = true → σ.gen ∈ σ.peerSealed
  heard : σ.path.peerTrUs ≤ σ.clock
  ring : RingInv σ.ring σ.lastUs σ.lastGen.toNat
  lastGen : σ.lastGen.toNat ≤ σ.gen.toNat
  sentUs : SentBefore σ.ring σ.clock
  resent : ∀ d t, (d, t) ∈ σ.resent → d.toNat ≠ 0 → Resent σ.ring d.toNat t

lemma atRisk_of_mayDelete (h : RekeyInv σ) {d : UInt32} (hd : σ.peer.mayDelete d)
    (hnew : σ.gen.toNat ≤ d.toNat + 1) :
    wgRescueGenAtRisk d σ.gen (wgPathKeysConfirmed σ.path) = true := by
  rw [genAtRisk_iff]
  have hpred (hlt : d.toNat < σ.gen.toNat) : d = σ.gen - 1 := by
    apply UInt32.toNat_inj.mp
    rw [UInt32.toNat_sub, UInt32.toNat_one]
    have := σ.gen.toNat_lt
    omega
  rcases hd with hd | hd | ⟨x, hx, hd⟩
  · obtain ⟨hd0, hlt⟩ := h.shape.previous d hd
    exact ⟨hd0, .inl (hpred hlt)⟩
  · obtain ⟨rfl, hg, hne⟩ := h.shape.next d hd
    refine ⟨hg, .inr ⟨?_, rfl⟩⟩
    by_contra hconf
    exact hne (h.sealedCur (h.confirmed (by simpa using hconf)))
  · obtain ⟨hd0, hle⟩ := h.shape.current d hd
    obtain ⟨_, _, hne⟩ := h.shape.next x hx
    refine ⟨hd0, .inl (hpred (lt_of_le_of_ne hle fun heq => ?_))⟩
    rw [UInt32.toNat_inj.mp heq] at hd
    exact hne hd

lemma rekeyStep_eq {a : RekeyStep} (h : rekeyStep σ a = some σ') :
    σ.clock ≤ a.now ∧ rekeyEvent { σ with clock := a.now } a.now a.event = some σ' := by
  unfold rekeyStep at h
  split_ifs at h with hle
  exact ⟨Nat.le_of_not_lt hle, h⟩

section
variable (h : RekeyInv σ)
include h

lemma rekeyInv_clock (hle : σ.clock ≤ now) : RekeyInv { σ with clock := now } := by
  have hcast : (σ.clock : ℤ) ≤ now := Int.ofNat_le.mpr hle
  exact ⟨h.shape, h.sealedLe, h.sealedCur, h.confirmed, h.heard.trans hcast, h.ring, h.lastGen,
    ⟨fun h0 => (h.sentUs.1 h0).trans hcast, fun h0 => (h.sentUs.2 h0).trans hcast⟩, h.resent⟩

lemma rekeyInv_path {q : WgPath} (htr : q.peerTrUs ≤ σ.clock)
    (hconf : wgPathKeysConfirmed q = true → σ.gen ∈ σ.peerSealed) : RekeyInv { σ with path := q } :=
  ⟨h.shape, h.sealedLe, h.sealedCur, hconf, htr, h.ring, h.lastGen, h.sentUs, h.resent⟩

lemma rekeyInv_peer (hs : PeerShape σ.gen s)
    (hcur : σ.peer.current = some (.ours σ.gen) → s.current = some (.ours σ.gen)) :
    RekeyInv { σ with peer := s } :=
  ⟨hs, h.sealedLe, fun hg => hcur (h.sealedCur hg), h.confirmed, h.heard, h.ring, h.lastGen, h.sentUs,
    h.resent⟩

lemma rekeyInv_handshake (hnow : σ.clock = now)
    (hnext : σ.peer.next = some .other) (hgen : σ.gen + 1 ≠ 0) : RekeyInv { σ with
      gen := σ.gen + 1
      peer := σ.peer.answered (σ.gen + 1)
      path := (wgPathOnHandshake σ.path now).1 } := by
  obtain ⟨htr, hhs, _⟩ := handshake_keys σ.path now
  have hheard := h.heard
  rw [hnow] at hheard
  have hsucc := gen_succ hgen
  have hnot : σ.gen + 1 ∉ σ.peerSealed := by
    intro hmem
    have := h.sealedLe _ hmem
    omega
  refine ⟨h.shape.move (.answers hnext hgen), ?_, fun hmem => absurd hmem hnot, ?_, ?_, h.ring, ?_,
    h.sentUs, h.resent⟩
  · intro x hx
    have := h.sealedLe x hx
    change x.toNat ≤ (σ.gen + 1).toNat
    omega
  · intro hconf
    simp only [wgPathKeysConfirmed, decide_eq_true_eq, htr, hhs] at hconf
    omega
  · change (wgPathOnHandshake σ.path now).1.peerTrUs ≤ σ.clock
    rw [htr]
    exact h.heard
  · have := h.lastGen
    change σ.lastGen.toNat ≤ (σ.gen + 1).toNat
    omega

lemma rekeyInv_keep (buf : Bytes) {atUs : ℕ} {gen : UInt32}
    (hus : σ.lastUs ≤ atUs) (hpos : atUs ≠ 0) (hlast : σ.lastGen ≤ gen) (hgen : gen ≤ σ.gen) :
    RekeyInv { σ with ring := wgRescueKeep σ.ring buf atUs gen, lastUs := atUs, lastGen := gen } := by
  have hsent := keep_sent σ.ring buf atUs gen
  refine ⟨h.shape, h.sealedLe, h.sealedCur, h.confirmed, h.heard, ?_, UInt32.le_iff_toNat_le.mp hgen, ?_, ?_⟩
  · exact ringInv_keep h.ring buf (by omega) (Int.ofNat_le.mpr hus) (UInt32.le_iff_toNat_le.mp hlast)
  · change SentBefore (wgRescueKeep σ.ring buf atUs gen) σ.clock
    rw [SentBefore, hsent.1, hsent.2]
    exact h.sentUs
  · intro d t hd h0
    rw [Resent, hsent.1, hsent.2]
    exact h.resent d t hd h0

lemma rekeyInv_local (now : ℤ) {e : PathEvent}
    (he : e.isLocal) : RekeyInv { σ with path := (pathEvent σ.path now e).1 } := by
  by_cases hs : StartsOverAt σ.path e
  · obtain ⟨_, _, hq⟩ := startsOver_eq σ.path now hs
    rw [hq]
    refine rekeyInv_path h (Int.natCast_nonneg _) ?_
    intro hconf
    simp [wgPathKeysConfirmed, wgPathInit] at hconf
  · obtain ⟨htr, hhs, _⟩ := local_keys σ.path now he hs
    refine rekeyInv_path h (htr ▸ h.heard) ?_
    intro hconf
    apply h.confirmed
    simpa only [wgPathKeysConfirmed, htr, hhs] using hconf

lemma rekeyInv_resend {leftUs : ℕ} (hnow : σ.clock = now)
    (hle : now ≤ leftUs) (accepts : ℕ → Bool)
    (hs : rekeyEvent σ now (.resend leftUs accepts) = some σ') : RekeyInv σ' := by
  have hcast : (now : ℤ) ≤ leftUs := Int.ofNat_le.mpr hle
  have hus := h.sentUs
  rw [hnow] at hus
  obtain ⟨f, hf⟩ : ∃ f, wgRescueFlush σ.ring now (wgPathRescueFrom σ.path) wgPathRescueMaxUs accepts = f :=
    ⟨_, rfl⟩
  obtain ⟨r', hr'⟩ : ∃ r', r' = if f.sent.length > 0 then wgRescueSentBy f.ring now leftUs else f.ring :=
    ⟨_, rfl⟩
  simp only [rekeyEvent, if_pos hle, hf, ← hr', Option.some.injEq] at hs
  obtain ⟨hring, hsent, hold, hnew⟩ := resend_spec h.ring hus hcast hf hr'
  subst hs
  refine ⟨h.shape, h.sealedLe, h.sealedCur, h.confirmed, ?_, hring, h.lastGen, hsent, ?_⟩
  · have hheard := h.heard
    rw [hnow] at hheard
    exact hheard.trans hcast
  · intro d t hd h0
    rcases List.mem_append.mp hd with hd | hd
    · obtain ⟨g, hg, heq⟩ := List.mem_map.mp hd
      cases heq
      exact hnew d hg h0
    · exact hold d.toNat t h0 (h.resent d t hd h0)

lemma rekeyInv_event (hnow : σ.clock = now)
    (hs : rekeyEvent σ now e = some σ') : RekeyInv σ' := by
  cases e with
  | peerInit =>
    cases hs
    exact rekeyInv_peer h (h.shape.move .consumes) id
  | handshake =>
    obtain ⟨hc, rfl⟩ := guarded hs
    simp only [Bool.and_eq_true, decide_eq_true_eq] at hc
    exact rekeyInv_handshake h hnow hc.1 hc.2
  | peerReceives gen =>
    cases hs
    exact rekeyInv_peer h (h.shape.move (.receives gen)) fun hc => receive_current h.shape hc gen
  | peerSeals =>
    simp only [rekeyEvent] at hs
    split at hs
    · next gen hc =>
      cases hs
      refine ⟨h.shape, ?_, ?_, fun hconf => List.mem_cons_of_mem _ (h.confirmed hconf), h.heard, h.ring,
        h.lastGen, h.sentUs, h.resent⟩
      · intro x hx
        rcases List.mem_cons.mp hx with rfl | hx
        · exact (h.shape.current _ hc).2
        · exact h.sealedLe x hx
      · intro hmem
        rcases List.mem_cons.mp hmem with heq | hmem
        · change σ.gen = gen at heq
          rw [heq]
          exact hc
        · exact h.sealedCur hmem
    · cases hs
  | keepalive =>
    obtain ⟨hmem, rfl⟩ := guarded hs
    exact rekeyInv_path h (by rw [(keepalive_keys σ.path now).1, hnow]) fun _ => hmem
  | payload =>
    obtain ⟨hmem, rfl⟩ := guarded hs
    exact rekeyInv_path h (by rw [(peerData_keys σ.path now).1, hnow]) fun _ => hmem
  | keep buf =>
    obtain ⟨hc, rfl⟩ := guarded hs
    simp only [Bool.and_eq_true, decide_eq_true_eq] at hc
    obtain ⟨⟨⟨⟨hus, _⟩, hpos⟩, hlast⟩, hgen⟩ := hc
    exact rekeyInv_keep h buf hus hpos hlast hgen
  | resend leftUs accepts => exact rekeyInv_resend h hnow (guarded hs).1 accepts hs
  | route rekey relayUp =>
    obtain ⟨hold, hq⟩ := wgPathInitRoute_path σ.path (wgRescueSummarize σ.ring) rekey relayUp now σ.gen
    cases hs
    rw [hq]
    exact rekeyInv_path h h.heard h.confirmed
  | path =>
    obtain ⟨he, rfl⟩ := guarded hs
    exact rekeyInv_local h now he

end

end Joint

section Runs
variable {E : RekeyRun} {k : ℕ}

lemma rekeyEvent_at (hk : k < E.length) :
    (E.state k).clock ≤ (E.act k).now ∧ rekeyEvent { E.state k with clock := (E.act k).now }
      (E.act k).now (E.act k).event = some (E.state (k + 1)) :=
  rekeyStep_eq (E.steps k hk)

lemma peerMove_at (hk : k < E.length) : PeerMove (E.state k).gen (E.state k).peer (E.act k).event
    (E.state (k + 1)).gen (E.state (k + 1)).peer :=
  peerMove_event (σ := { E.state k with clock := (E.act k).now }) (rekeyEvent_at hk).2

lemma foreign_at : ∀ k, k ≤ E.length → (∀ j, j < k → (E.act j).event ≠ .handshake) →
    Foreign (E.state k).peer := by
  refine E.along ?_ ?_
  · obtain ⟨now, managed, gen, peer, hpeer, hs⟩ := E.starts
    intro _
    rw [hs]
    exact hpeer
  · intro k hk ih hno
    exact (ih fun j hj => hno j (by omega)).move (peerMove_at hk) (hno k (Nat.lt_succ_self k))

lemma rekeyInv_at : ∀ k, k ≤ E.length → RekeyInv (E.state k) := by
  refine E.along ?_ ?_
  · obtain ⟨now, managed, gen, peer, hpeer, hs⟩ := E.starts
    rw [hs]
    have hpos : (0 : ℤ) ≤ now := Int.natCast_nonneg now
    refine ⟨Foreign.shape hpeer gen, fun x hx => by (cases hx), fun hx => by (cases hx), ?_, hpos,
      ringInv_empty, Nat.zero_le _, ⟨fun _ => hpos, fun _ => hpos⟩, fun d t hd => by cases hd⟩
    intro hconf
    simp [wgPathKeysConfirmed, wgPathInit] at hconf
  · intro k hk ih
    obtain ⟨hle, hs⟩ := rekeyEvent_at hk
    exact rekeyInv_event (rekeyInv_clock ih hle) rfl hs

lemma recent_at (hin : ∀ k, k < E.length → (E.act k).event = .handshake → E.NewestReceived k) :
    ∀ k, k ≤ E.length → Recent (E.state k).gen (E.state k).peer := by
  refine E.along ?_ ?_
  · obtain ⟨now, managed, gen, peer, hpeer, hs⟩ := E.starts
    rw [hs]
    exact Foreign.recent hpeer gen
  · intro k hk ih
    refine ih.move (peerMove_at hk) fun he => ?_
    rcases hin k hk he with hcur | hnone
    · exact .inl hcur
    · exact .inr (foreign_at k hk.le hnone)

lemma Recent.gen_le {g d : UInt32} (h : Recent g s) (hs : PeerShape g s) (hd : s.mayDelete d) :
    g.toNat ≤ d.toNat + 1 := by
  rcases hd with hd | hd | ⟨x, hx, hd⟩
  · exact (h.previous d hd).1
  · obtain ⟨rfl, _⟩ := hs.next d hd
    exact Nat.le_succ _
  · exact h.current d x hx hd

lemma initRoute_cases (p : WgPath) (ring : WgRescueSum) (now : ℤ) (curGen : UInt32) (risk : Bool)
    (hrisk : wgRescueInitRisk ring now (wgPathRescueFrom p) wgPathRescueMaxUs curGen
      (wgPathKeysConfirmed p) = risk) :
    (risk = false ∧ wgPathInitRoute p ring true true now curGen = ({ p with initHoldUs := 0 }, .anyPath)) ∨
      (risk = true ∧ p.initHoldUs = 0 ∧
        wgPathInitRoute p ring true true now curGen = ({ p with initHoldUs := now }, .derpBehindResend)) ∨
      (risk = true ∧ p.initHoldUs ≠ 0 ∧ (wgPathInitRoute p ring true true now curGen).1 = p ∧
        ((wgPathInitRoute p ring true true now curGen).2 = .anyPath →
          p.initHoldUs + wgPathInitHoldUs < now)) := by
  unfold wgPathInitRoute
  rw [hrisk]
  cases risk with
  | false => exact .inl ⟨rfl, rfl⟩
  | true =>
    right
    simp only [Bool.not_true, Bool.or_self, Bool.false_eq_true, if_false]
    by_cases h0 : p.initHoldUs = 0
    · left
      refine ⟨trivial, h0, ?_⟩
      have hnot : wgTimerDue now now wgPathInitHoldUs = false := by
        rw [wgTimerDue_eq_false_iff]
        simp only [wgPathInitHoldUs]
        omega
      simp [h0, hnot]
    · right
      rw [if_neg h0]
      refine ⟨trivial, h0, rfl, ?_⟩
      intro hany
      by_contra hlt
      rw [if_neg (by simpa [wgTimerDue_iff] using hlt)] at hany
      cases hany

lemma hold_event
    (hr : ∀ rekey relayUp, e ≠ .route rekey relayUp) (hs : rekeyEvent σ now e = some σ') :
    σ'.path.initHoldUs = 0 ∨ (σ'.path.initHoldUs = σ.path.initHoldUs ∧ e ≠ .handshake ∧
      ¬ (e = .path (.setManaged true) ∧ σ.path.managed = false)) := by
  cases e with
  | route rekey relayUp => exact absurd rfl (hr rekey relayUp)
  | handshake =>
    obtain ⟨_, rfl⟩ := guarded hs
    exact .inl (handshake_keys σ.path now).2.2
  | path event =>
    obtain ⟨he, rfl⟩ := guarded hs
    by_cases hover : StartsOverAt σ.path event
    · obtain ⟨_, _, hq⟩ := startsOver_eq σ.path now hover
      left
      rw [hq]
      rfl
    · right
      refine ⟨(local_keys σ.path now he hover).2.2, by (rintro ⟨⟩), ?_⟩
      rintro ⟨h, hm⟩
      cases h
      exact hover (.inr ⟨rfl, hm⟩)
  | peerInit | peerReceives _ =>
    cases hs
    exact .inr ⟨rfl, by (rintro ⟨⟩), by rintro ⟨⟨⟩, _⟩⟩
  | peerSeals =>
    simp only [rekeyEvent] at hs
    split at hs <;> cases hs
    exact .inr ⟨rfl, by (rintro ⟨⟩), by rintro ⟨⟨⟩, _⟩⟩
  | keep | resend =>
    obtain ⟨_, rfl⟩ := guarded hs
    exact .inr ⟨rfl, by (rintro ⟨⟩), by rintro ⟨⟨⟩, _⟩⟩
  | keepalive =>
    obtain ⟨_, rfl⟩ := guarded hs
    exact .inr ⟨(keepalive_keys σ.path now).2.2, by (rintro ⟨⟩), by rintro ⟨⟨⟩, _⟩⟩
  | payload =>
    obtain ⟨_, rfl⟩ := guarded hs
    exact .inr ⟨(peerData_keys σ.path now).2.2, by (rintro ⟨⟩), by rintro ⟨⟨⟩, _⟩⟩

lemma route_path_at (hk : k < E.length) {rekey relayUp : Bool}
    (he : (E.act k).event = .route rekey relayUp) : (E.state (k + 1)).path =
      (wgPathInitRoute (E.state k).path (wgRescueSummarize (E.state k).ring) rekey relayUp (E.timeAt k)
        (E.state k).gen).1 := by
  have hs := (rekeyEvent_at hk).2
  rw [he] at hs
  rw [← Option.some.inj hs]
  rfl

lemma hold_at : ∀ k, k ≤ E.length → (E.state k).path.initHoldUs ≠ 0 →
    ∃ i, Since (fun j => E.Routes j .derpBehindResend) E.EndsHold k i ∧
      (E.state k).path.initHoldUs = E.timeAt i := by
  refine E.along ?_ ?_
  · obtain ⟨now, managed, gen, peer, _, hs⟩ := E.starts
    intro h
    rw [hs] at h
    exact absurd rfl h
  · intro k hk ih hne
    by_cases hroute : ∃ rekey relayUp, (E.act k).event = .route rekey relayUp
    · obtain ⟨rekey, relayUp, he⟩ := hroute
      rw [route_path_at hk he] at hne ⊢
      by_cases hup : rekey = true ∧ relayUp = true
      · obtain ⟨rfl, rfl⟩ := hup
        rcases initRoute_cases (E.state k).path (wgRescueSummarize (E.state k).ring) (E.timeAt k)
          (E.state k).gen (E.riskAt k) rfl with ⟨_, hq⟩ | ⟨_, _, hq⟩ | ⟨hrisk, h0, hq, _⟩
        · rw [hq] at hne
          exact absurd rfl hne
        · rw [hq]
          refine ⟨k, since_self ⟨hk, he, ?_⟩, rfl⟩
          rw [RekeyRun.routeAt, hq]
        · rw [hq]
          obtain ⟨i, hi, ht⟩ := ih h0
          refine ⟨i, hi.succ ?_, ht⟩
          rintro (h | ⟨h, _⟩ | ⟨rekey, relayUp, h, hnot⟩)
          · rw [he] at h
            cases h
          · rw [he] at h
            cases h
          · rw [he] at h
            cases h
            exact hnot ⟨rfl, rfl, hrisk⟩
      · -- no rekey, or the relay is down
        have hreset : (wgPathInitRoute (E.state k).path (wgRescueSummarize (E.state k).ring) rekey
            relayUp (E.timeAt k) (E.state k).gen).1.initHoldUs = 0 := by
          unfold wgPathInitRoute
          rw [if_pos]
          cases rekey <;> cases relayUp <;> simp_all
        exact absurd hreset hne
    · have hno : ∀ rekey relayUp, (E.act k).event ≠ .route rekey relayUp :=
        fun rekey relayUp h => hroute ⟨rekey, relayUp, h⟩
      rcases hold_event hno (rekeyEvent_at hk).2 with h0 | ⟨hsame, hhs, hman⟩
      · exact absurd h0 hne
      · rw [hsame] at hne ⊢
        obtain ⟨i, hi, ht⟩ := ih hne
        refine ⟨i, hi.succ ?_, ht⟩
        rintro (h | h | ⟨rekey, relayUp, h, _⟩)
        · exact hhs h
        · exact hman h
        · exact hno rekey relayUp h

/-- Where the peer has received a packet under our newest keypair whenever a handshake completes, or
no frame of a keypair older than the last but one is still to be re-sent or just re-sent, an INIT
that may take any path deletes no keypair of such a frame, unless held long enough. -/
theorem init_spares_pending_frames (E : RekeyRun) {k : ℕ}
    (hin : (∀ j, j < E.length → (E.act j).event = .handshake → E.NewestReceived j) ∨
      ∀ d, (E.state k).Endangered (E.timeAt k) d → (E.state k).gen.toNat ≤ d.toNat + 1)
    (hroute : E.Routes k .anyPath) :
    (∀ d, (E.state k).peer.mayDelete d → ¬ (E.state k).Endangered (E.timeAt k) d) ∨ E.HeldFor k := by
  obtain ⟨hk, _, hany⟩ := hroute
  have hinv := rekeyInv_at k hk.le
  rcases initRoute_cases (E.state k).path (wgRescueSummarize (E.state k).ring) (E.timeAt k)
    (E.state k).gen (E.riskAt k) rfl with ⟨hrisk, _⟩ | ⟨_, _, hq⟩ | ⟨_, h0, _, hlong⟩
  · left
    intro d hd hdanger
    have hnew : (E.state k).gen.toNat ≤ d.toNat + 1 := by
      rcases hin with hin | hold
      · exact (recent_at hin k hk.le).gen_le hinv.shape hd
      · exact hold d hdanger
    have hat := atRisk_of_mayDelete hinv hd hnew
    have hd0 : d.toNat ≠ 0 := fun h0 => (genAtRisk_iff.mp hat).1 (UInt32.toNat_inj.mp h0)
    obtain ⟨hring, hsent⟩ := no_risk_spec hinv.ring hinv.lastGen hat hrisk
    rcases hdanger with ⟨s, hs, hsd, hp⟩ | ⟨t, ht, hle⟩
    · simp [hring s hs hsd] at hp
    · have := hsent t (hinv.resent d t ht hd0)
      omega
  · rw [RekeyRun.routeAt, hq] at hany
    cases hany
  · right
    obtain ⟨i, hi, ht⟩ := hold_at k hk.le h0
    have := hlong hany
    exact ⟨i, hi, by omega⟩

/-- Keys that the path takes as confirmed are those the peer seals with. -/
theorem confirmed_keys_are_current (E : RekeyRun) {k : ℕ}
    (hk : k ≤ E.length) (hconf : wgPathKeysConfirmed (E.state k).path = true) :
    (E.state k).gen ∈ (E.state k).peerSealed ∧
      (E.state k).peer.current = some (.ours (E.state k).gen) := by
  have hinv := rekeyInv_at k hk
  have hsealed := hinv.confirmed hconf
  exact ⟨hsealed, hinv.sealedCur hsealed⟩

end Runs

section Sample

def rekeyStart : RekeyState :=
  ⟨wgPathInit 500000 true, .empty, 500000, 0, ⟨none, none, none⟩, [], 0, 0, []⟩

lemma rekeyStart_started : rekeyStart.Started := by
  refine ⟨500000, true, 0, ⟨none, none, none⟩, ?_, rfl⟩
  intro g
  exact ⟨fun h => by (cases h), fun h => by (cases h), fun h => by cases h⟩

def keepaliveRun : RekeyRun := runOf rekeyStart rekeyStart_started ⟨0, .peerInit⟩
  [⟨1000000, .peerInit⟩, ⟨1100000, .handshake⟩, ⟨1200000, .peerReceives 1⟩, ⟨1300000, .peerSeals⟩,
    ⟨1400000, .keepalive⟩] rfl

theorem keepalive_confirms_keys : (keepaliveRun.state 5).peer.current = some (.ours 1) :=
  (confirmed_keys_are_current keepaliveRun (k := 5) le_rfl rfl).2

/-- A frame is kept under the first keypair, no packet under the second arrives, and one under the
third does: the first keypair is `previous` at the peer. -/
def skippedKeypair : List RekeyStep :=
  [⟨1000000, .peerInit⟩, ⟨1100000, .handshake⟩, ⟨1200000, .peerReceives 1⟩,
    ⟨2000000, .keep [4] 2000000 1⟩, ⟨2900000, .route true false⟩, ⟨3000000, .peerInit⟩,
    ⟨3100000, .handshake⟩, ⟨9000000, .route true false⟩, ⟨9100000, .peerInit⟩, ⟨9200000, .handshake⟩,
    ⟨9300000, .peerReceives 3⟩, ⟨10000000, .peerSeals⟩, ⟨10100000, .keepalive⟩,
    ⟨20000000, .route true true⟩]

def skippedKeypairRun :
    RekeyRun := runOf rekeyStart rekeyStart_started ⟨0, .peerInit⟩ skippedKeypair rfl

theorem skipped_keypair_loses_frame : ¬ ∀ (E : RekeyRun) (k : ℕ), E.Routes k .anyPath →
    (∀ d, (E.state k).peer.mayDelete d → ¬ (E.state k).Endangered (E.timeAt k) d) ∨ E.HeldFor k := by
  intro h
  rcases h skippedKeypairRun 13 ⟨by decide, rfl, rfl⟩ with hsafe | ⟨i, ⟨hi, ⟨_, he, _⟩, _⟩, _⟩
  · apply hsafe 1 (.inl rfl)
    left
    exact ⟨⟨2000000, 1, false, [4]⟩, (mem_oldestFirst _).mpr ⟨9, by decide, rfl⟩, rfl, rfl⟩
  · interval_cases i <;> cases he

def heldInit : List RekeyStep :=
  [⟨1000000, .peerInit⟩, ⟨1100000, .handshake⟩, ⟨1200000, .peerReceives 1⟩,
    ⟨2000000, .keep [4] 2000000 1⟩, ⟨3000000, .peerInit⟩, ⟨3100000, .handshake⟩,
    ⟨20000000, .route true true⟩, ⟨26000000, .route true true⟩]

def heldInitRun : RekeyRun := runOf rekeyStart rekeyStart_started ⟨0, .peerInit⟩ heldInit rfl

theorem held_init_goes : (∀ d, (heldInitRun.state 7).peer.mayDelete d →
    ¬ (heldInitRun.state 7).Endangered 26000000 d) ∨ heldInitRun.HeldFor 7 := by
  refine init_spares_pending_frames heldInitRun (.inl ?_) ⟨by decide, rfl, rfl⟩
  intro k hk he
  change k < 8 at hk
  by_cases h1 : k = 1
  · right
    subst h1
    intro j hj h
    interval_cases j
    cases h
  · by_cases h5 : k = 5
    · subst h5
      exact .inl rfl
    · interval_cases k <;> first | exact absurd rfl h1 | exact absurd rfl h5 | cases he

end Sample

end TinyLink.Proofs
