import TinyLink.Proofs.PathAnswer

/-!
# What the fields of the path remember

`peer_wg_us`, `doubts` and `lapse_from_us` in terms of the events of the run.
-/

namespace TinyLink.Proofs
open StepSystem

variable {e : PathEvent}

section Fields
variable (p : WgPath) (now : ℤ)

lemma peerWgUs_packet (he : e.isWgPacket) :
    (pathEvent p now e).1.peerWgUs = now := by
  have hresolve : ∀ q : WgPath, (wgPathResolve q now).1.peerWgUs = q.peerWgUs := by
    grind [wgPathResolve, wgPathConfirm]
  cases e with
  | keepalive => grind [pathEvent, wgPathOnKeepalive]
  | peerData => grind [pathEvent, wgPathOnPeerData]
  | handshake => grind [pathEvent, wgPathOnHandshake]
  | _ => cases he

lemma peerWgUs_other (he : e.isWgPacket = false) (hs : ¬ StartsOverAt p e) :
    (pathEvent p now e).1.peerWgUs = p.peerWgUs := by
  have hmove := pathEvent_move p now e
  generalize pathEvent p now e = r at hmove ⊢
  cases hmove with
  | startsOver h => exact absurd h hs
  | tests _ hr | silent _ hr | dies _ _ hr | moves _ hr => cases hr <;> rfl
  | resolves hp | undelivered hp | heard hp | restarts hp => cases hp <;> cases he
  | proves => cases he
  | confirms => exact confirm_peerWgUs p now
  | roams _ _ _ hr => cases hr <;> exact confirm_peerWgUs _ now
  | _ => rfl

lemma peerWgUs_startsOver (h : StartsOverAt p e) :
    (pathEvent p now e).1.peerWgUs = 0 ∧ (pathEvent p now e).1.doubts = 0 ∧
      (pathEvent p now e).1.inDoubt = false := by
  obtain ⟨managed, stats, hq⟩ := startsOver_eq p now h
  rw [hq]
  exact ⟨rfl, rfl, rfl⟩

lemma startsOverAt_not_packet (h : StartsOverAt p e) : e.isWgPacket = false := by
  rcases h with ⟨managed, endpoint, rfl⟩ | ⟨rfl, _⟩ <;> rfl

end Fields

section Doubts
variable (p : WgPath) (now : ℤ)

def SameDoubts (p q : WgPath) : Prop := (q.inDoubt = true → p.inDoubt = true) ∧ q.doubts = p.doubts

/-- The event counts a doubt, or leaves the count alone and opens none. -/
def CountsDoubt (p q : WgPath) : Prop :=
  (p.inDoubt = false ∧ q.inDoubt = true ∧ q.doubts = if p.doubts < 255 then p.doubts + 1 else p.doubts) ∨
    SameDoubts p q

lemma sameDoubts_direct {q : WgPath} (hm : q.mode = .direct) (hd : q.doubts = p.doubts) :
    SameDoubts p q := by
  refine ⟨fun hq => ?_, hd⟩
  rw [not_inDoubt_of_direct q hm] at hq
  cases hq

lemma countsDoubt_pathEvent (hs : ¬ StartsOverAt p e)
    (hp : ¬ (e = .keepalive ∧ p.mode = .direct ∧ wgPathProvesDirect p now = true)) :
    CountsDoubt p (pathEvent p now e).1 := by
  have hmove := pathEvent_move p now e
  generalize pathEvent p now e = r at hmove ⊢
  cases hmove with
  | startsOver h => exact absurd h hs
  | lapses | sendsLapsed hl => grind [CountsDoubt, SameDoubts, WgPath.inDoubt, wgPathNoteData, LapsesFrom]
  | tests hd hr | silent hd hr => cases hr <;> exact .inr ⟨fun _ => hd, rfl⟩
  | resolves hp hd =>
    refine .inr (sameDoubts_direct p (confirm_mode _ now) ?_)
    cases hp <;> exact confirm_doubts _ now
  | undelivered hp hd => cases hp <;> exact .inr ⟨fun _ => hd, rfl⟩
  | heard hp | restarts hp => cases hp <;> exact .inr ⟨id, rfl⟩
  | proves hm hproves => exact absurd ⟨rfl, hm, hproves⟩ hp
  | dies _ _ hr | moves _ hr => cases hr <;> exact .inr ⟨by rintro ⟨⟩, rfl⟩
  | doubts _ ho =>
    obtain ⟨hdual, hwhy, _⟩ := ho
    exact .inl ⟨by simp [WgPath.inDoubt, hwhy], (inDoubt_iff _).mpr ⟨hdual, rfl⟩, rfl⟩
  | confirms => exact .inr (sameDoubts_direct p (confirm_mode p now) (confirm_doubts p now))
  | roams _ _ _ hr =>
    refine .inr (sameDoubts_direct p (confirm_mode _ now) ?_)
    cases hr <;> exact confirm_doubts _ now
  | _ => exact .inr ⟨id, rfl⟩

lemma doubts_of_proves (hm : p.mode = .direct) (hp : wgPathProvesDirect p now) :
    (wgPathOnKeepalive p now).1.doubts = 0 ∧ (wgPathOnKeepalive p now).1.inDoubt = false := by
  rcases keepalive_cases p now with ⟨hd, _⟩ | ⟨_, hne, _⟩ | ⟨_, _, h⟩ | ⟨_, hno, _⟩
  · rw [not_inDoubt_of_direct p hm] at hd
    cases hd
  · exact absurd hm hne
  · rw [h]
    exact ⟨rfl, not_inDoubt_of_direct _ hm⟩
  · rw [hp] at hno
    cases hno

end Doubts

section Frame
variable (p : WgPath) (now : ℤ)

def OldFrame (p q : WgPath) : Prop :=
  (q.mode = .direct → q.awaitUs ≠ 0 → p.mode = .direct ∧ p.awaitUs = q.awaitUs) ∧
    (q.mode = .dual → q.why = .answer →
      (p.mode = .dual ∧ p.why = .answer ∧ p.lapseFromUs = q.lapseFromUs) ∨
        (p.mode = .direct ∧ p.awaitUs ≠ 0 ∧ p.awaitUs = q.lapseFromUs))

lemma oldFrame_refl : OldFrame p p := ⟨fun h _ => ⟨h, rfl⟩, fun h h' => .inl ⟨h, h', rfl⟩⟩

lemma oldFrame_pathEvent (he : e ≠ .send true) : OldFrame p
    (pathEvent p now e).1 := by
  have hmove := pathEvent_move p now e
  generalize pathEvent p now e = r at hmove ⊢
  cases hmove with
  | startsOver => grind [OldFrame]
  | lapses _ hl => grind [OldFrame, LapsesFrom]
  | sends | sendsLapsed => exact absurd rfl he
  | tests hd hr | silent hd hr =>
    rw [inDoubt_iff] at hd
    cases hr <;> grind [OldFrame, wgPathSilent]
  | resolves hp hd | undelivered hp hd =>
    rw [inDoubt_iff] at hd
    cases hp <;> grind [OldFrame, wgPathConfirm]
  | heard hp | restarts hp => cases hp <;> grind [OldFrame]
  | dies _ _ hr | moves _ hr | roams _ _ _ hr => cases hr <;> grind [OldFrame, wgPathConfirm]
  | doubts | confirms | proves => grind [OldFrame, wgPathConfirm]
  | _ => exact oldFrame_refl p

lemma onSend_frame (hm : p.managed) :
    ((wgPathOnSend p now true).2.2 = .direct ∧ (wgPathOnSend p now true).1.mode = .direct ∧
        (wgPathOnSend p now true).1.awaitUs = now) ∨ OldFrame p (wgPathOnSend p now true).1 := by
  have hmode : (wgPathOnSend p now true).2.2 = (wgPathOnSend p now true).1.mode := by
    rw [onSend_data p now hm]
    rfl
  have hmove := send_move p now true
  rw [hmode]
  generalize (wgPathOnSend p now true).1 = q, (wgPathOnSend p now true).2.1 = act at hmove ⊢
  cases hmove with
  | startsOver hs => simp [StartsOverAt] at hs
  | still _ hno => exact absurd rfl (hno hm)
  | lapses he => simp at he
  | sends =>
    by_cases hnew : p.mode = .direct ∧ p.awaitUs = 0
    · exact .inl ⟨hnew.1, hnew.1, by simp [wgPathNoteData, hnew.1, hnew.2]⟩
    · grind [OldFrame, wgPathNoteData, WgPath.inDoubt]
  | sendsLapsed hl => grind [OldFrame, wgPathNoteData, WgPath.inDoubt, LapsesFrom]
  | resolves hp | undelivered hp | heard hp | restarts hp => cases hp

end Frame

section Run
variable {E : PathRun} {k : ℕ}

lemma clock_mono {i : ℕ} : ∀ k, k ≤ E.length → i ≤ k → (E.state i).clock ≤ (E.state k).clock := by
  intro k hk hik
  apply E.mono PathState.clock hik
  intro j _ hjk
  have hstep := clock_le (E := E) (show j < E.length by omega)
  rw [← clock_succ (by omega)] at hstep
  exact Int.ofNat_le.mp hstep

lemma timeAt_mono {i : ℕ} (hik : i < k) (hk : k < E.length) : E.timeAt i ≤ E.timeAt k := by
  rw [← clock_succ (by omega : i < E.length)]
  exact (Int.ofNat_le.mpr (clock_mono k hk.le hik)).trans (clock_le hk)

def PacketIn (E : PathRun) (k i : ℕ) : Prop :=
  Since (fun j => (E.act j).event.isWgPacket = true) E.StartsOver k i

/-- `peer_wg_us` is a packet of the session, and none is later. -/
def HeardInv (E : PathRun) (k : ℕ) : Prop :=
  ((E.pathAt k).peerWgUs ≠ 0 → ∃ i, PacketIn E k i ∧ E.timeAt i = (E.pathAt k).peerWgUs) ∧
    ∀ i, PacketIn E k i → E.timeAt i ≤ (E.pathAt k).peerWgUs

lemma heardInv_along (E : PathRun) : ∀ k, k ≤ E.length → HeardInv E k := by
  refine E.along ?_ ?_
  · obtain ⟨now, managed, endpoint, hstart⟩ := E.starts
    refine ⟨?_, fun i hi => absurd hi not_since_zero⟩
    intro hne
    rw [PathRun.pathAt, hstart] at hne
    exact absurd rfl hne
  · intro k hk ih
    unfold HeardInv
    rw [pathAt_succ hk]
    by_cases hs : E.StartsOver k
    · rw [(peerWgUs_startsOver _ _ hs).1]
      refine ⟨fun h => absurd rfl h, ?_⟩
      intro i hi
      rcases Since.of_succ hi with ⟨_, hp⟩ | ⟨_, hno⟩
      · rw [startsOverAt_not_packet _ hs] at hp
        cases hp
      · exact absurd hs hno
    · cases hp : (E.act k).event.isWgPacket with
      | true =>
        rw [peerWgUs_packet _ _ hp]
        refine ⟨fun _ => ⟨k, since_self hp, rfl⟩, ?_⟩
        intro i hi
        rcases Since.of_succ hi with ⟨rfl, _⟩ | ⟨hold, _⟩
        · exact le_rfl
        · exact timeAt_mono hold.1 hk
      | false =>
        rw [peerWgUs_other _ _ hp hs]
        refine ⟨?_, ?_⟩
        · intro hne
          obtain ⟨i, hi, ht⟩ := ih.1 hne
          exact ⟨i, hi.succ hs, ht⟩
        · intro i hi
          rcases Since.of_succ hi with ⟨_, hp'⟩ | ⟨hold, _⟩
          · rw [hp] at hp'
            cases hp'
          · exact ih.2 i hold

lemma heardSince_iff {t : ℤ} (hk : k ≤ E.length) (ht : 0 < t) :
    E.HeardSince k t ↔ t ≤ (E.pathAt k).peerWgUs := by
  obtain ⟨hex, hall⟩ := heardInv_along E k hk
  constructor
  · rintro ⟨i, hi, hle⟩
    exact hle.trans (hall i hi)
  · intro hle
    obtain ⟨i, hi, hti⟩ := hex (by omega)
    exact ⟨i, hi, by rw [hti]; exact hle⟩

def DoubtsReset (E : PathRun) (k : ℕ) : Prop := E.ProvesDirect k ∨ E.StartsOver k

lemma doubts_reset (hk : k < E.length) (h : DoubtsReset E k) :
    (E.pathAt (k + 1)).doubts = 0 ∧ ¬ E.EntersDoubt k := by
  have hpath := pathAt_succ hk
  have hend : (E.pathAt (k + 1)).doubts = 0 ∧ (E.pathAt (k + 1)).inDoubt = false := by
    rcases h with ⟨hact, hm, hp⟩ | hs
    · rw [hpath, hact]
      exact doubts_of_proves _ _ hm hp
    · rw [hpath]
      exact (peerWgUs_startsOver _ _ hs).2
  refine ⟨hend.1, ?_⟩
  intro hd
  have hin := hd.2
  rw [hend.2] at hin
  cases hin

lemma doubts_step (hk : k < E.length) (h : ¬ DoubtsReset E k) :
    (E.EntersDoubt k ∧ (E.pathAt (k + 1)).doubts =
        if (E.pathAt k).doubts < 255 then (E.pathAt k).doubts + 1 else (E.pathAt k).doubts) ∨
      (¬ E.EntersDoubt k ∧ (E.pathAt (k + 1)).doubts = (E.pathAt k).doubts) := by
  have hcount : CountsDoubt (E.pathAt k) (E.pathAt (k + 1)) := by
    rw [pathAt_succ hk]
    exact countsDoubt_pathEvent _ _ (fun hs => h (.inr hs)) (fun hp => h (.inl hp))
  rcases hcount with ⟨h1, h2, h3⟩ | ⟨h1, h2⟩
  · exact .inl ⟨⟨h1, h2⟩, h3⟩
  · right
    refine ⟨?_, h2⟩
    intro hd
    have := h1 hd.2
    rw [hd.1] at this
    cases this

def DoubtsInv (E : PathRun) (k : ℕ) : Prop :=
  (1 ≤ (E.pathAt k).doubts ↔ ∃ i, E.DoubtSince k i) ∧
    (2 ≤ (E.pathAt k).doubts ↔ ∃ i j, i < j ∧ E.DoubtSince k i ∧ E.DoubtSince k j)

lemma doubtsInv_of_zero (h : (E.pathAt k).doubts = 0) (hno : ∀ i, ¬ E.DoubtSince k i) :
    DoubtsInv E k := by
  refine ⟨⟨fun hd => by omega, ?_⟩, ⟨fun hd => by omega, ?_⟩⟩
  · rintro ⟨i, hi⟩
    exact absurd hi (hno i)
  · rintro ⟨i, _, _, hi, _⟩
    exact absurd hi (hno i)

lemma doubtsInv_succ (hk : k < E.length) (h : DoubtsInv E k) : DoubtsInv E (k + 1) := by
  by_cases hreset : DoubtsReset E k
  · obtain ⟨hzero, hnot⟩ := doubts_reset hk hreset
    apply doubtsInv_of_zero hzero
    intro i hi
    rcases Since.of_succ hi with ⟨_, hd⟩ | ⟨_, hno⟩
    · exact hnot hd
    · exact hno hreset
  · obtain ⟨hone, htwo⟩ := h
    have hold : ∀ i, E.DoubtSince k i → E.DoubtSince (k + 1) i := fun i hi => Since.succ hi hreset
    rcases doubts_step hk hreset with ⟨hd, hcount⟩ | ⟨hd, hcount⟩
    · have hself : E.DoubtSince (k + 1) k := since_self hd
      refine ⟨⟨fun _ => ⟨k, hself⟩, fun _ => by rw [hcount]; split <;> omega⟩, ?_⟩
      have hiff : 2 ≤ (E.pathAt (k + 1)).doubts ↔ 1 ≤ (E.pathAt k).doubts := by
        rw [hcount]
        split <;> omega
      rw [hiff, hone]
      constructor
      · rintro ⟨i, hi⟩
        exact ⟨i, k, hi.1, hold i hi, hself⟩
      · rintro ⟨i, j, hij, hi, hj⟩
        rcases Since.of_succ hi with ⟨rfl, _⟩ | ⟨hi, _⟩
        · have hjk := hj.1
          omega
        · exact ⟨i, hi⟩
    · have hback : ∀ i, E.DoubtSince (k + 1) i → E.DoubtSince k i := by
        intro i hi
        rcases Since.of_succ hi with ⟨_, hd'⟩ | ⟨hi, _⟩
        · exact absurd hd' hd
        · exact hi
      unfold DoubtsInv
      rw [hcount, hone, htwo]
      refine ⟨⟨?_, ?_⟩, ⟨?_, ?_⟩⟩
      · rintro ⟨i, hi⟩
        exact ⟨i, hold i hi⟩
      · rintro ⟨i, hi⟩
        exact ⟨i, hback i hi⟩
      · rintro ⟨i, j, hij, hi, hj⟩
        exact ⟨i, j, hij, hold i hi, hold j hj⟩
      · rintro ⟨i, j, hij, hi, hj⟩
        exact ⟨i, j, hij, hback i hi, hback j hj⟩

lemma fewDoubts_iff (hk : k ≤ E.length) : E.FewDoubts k ↔ (E.pathAt k).doubts < 2 := by
  have hinv : ∀ k, k ≤ E.length → DoubtsInv E k := by
    refine E.along ?_ ?_
    · obtain ⟨now, managed, endpoint, hstart⟩ := E.starts
      apply doubtsInv_of_zero
      · rw [PathRun.pathAt, hstart]
        rfl
      · exact fun i => not_since_zero
    · intro k hk h
      exact doubtsInv_succ hk h
  rw [PathRun.FewDoubts, ← (hinv k hk).2, Nat.not_le]

def FrameInv (E : PathRun) (k : ℕ) : Prop :=
  ((E.pathAt k).mode = .direct → (E.pathAt k).awaitUs ≠ 0 → E.FrameAt k (E.pathAt k).awaitUs) ∧
    ((E.pathAt k).mode = .dual → (E.pathAt k).why = .answer →
      (E.pathAt k).lapseFromUs ≠ 0 ∧ E.FrameAt k (E.pathAt k).lapseFromUs)

lemma frameInv_of_old (h : FrameInv E k) (hold : OldFrame (E.pathAt k) (E.pathAt (k + 1))) :
    FrameInv E (k + 1) := by
  have hmono : ∀ t, E.FrameAt k t → E.FrameAt (k + 1) t := by
    rintro t ⟨i, hi, hs, ht⟩
    exact ⟨i, by omega, hs, ht⟩
  refine ⟨?_, ?_⟩
  · intro hm hne
    obtain ⟨hp, ha⟩ := hold.1 hm hne
    rw [← ha] at hne ⊢
    exact hmono _ (h.1 hp hne)
  · intro hm hw
    rcases hold.2 hm hw with ⟨hp, hpw, hl⟩ | ⟨hp, hne, hl⟩
    · rw [← hl]
      obtain ⟨hne, hf⟩ := h.2 hp hpw
      exact ⟨hne, hmono _ hf⟩
    · rw [← hl]
      exact ⟨hne, hmono _ (h.1 hp hne)⟩

lemma frameInv_succ (hk : k < E.length) (h : FrameInv E k) : FrameInv E (k + 1) := by
  have hpath := pathAt_succ hk
  by_cases he : (E.act k).event = .send true
  · rw [he, pathEvent] at hpath
    cases hm : (E.pathAt k).managed with
    | false =>
      apply frameInv_of_old h
      rw [hpath, onSend_unmanaged _ _ true hm]
      exact oldFrame_refl _
    | true =>
      rcases onSend_frame (E.pathAt k) (E.timeAt k) hm with ⟨hret, hdir, hnow⟩ | hold
      · rw [← hpath] at hdir hnow
        refine ⟨?_, ?_⟩
        · intro _ _
          exact ⟨k, Nat.lt_succ_self k, ⟨hk, he, hret⟩, hnow.symm⟩
        · intro hdual
          rw [hdir] at hdual
          cases hdual
      · apply frameInv_of_old h
        rw [hpath]
        exact hold
  · apply frameInv_of_old h
    rw [hpath]
    exact oldFrame_pathEvent _ _ he

lemma frameInv_along (E : PathRun) : ∀ k, k ≤ E.length → FrameInv E k := by
  refine E.along ?_ ?_
  · obtain ⟨now, managed, endpoint, hstart⟩ := E.starts
    unfold FrameInv PathRun.pathAt
    rw [hstart]
    refine ⟨?_, ?_⟩
    · intro hm
      cases hm
    · intro _ hw
      cases hw
  · intro k hk h
    exact frameInv_succ hk h

lemma lapseFrom_frame (hk : k ≤ E.length) (hm : (E.pathAt k).mode = .dual)
    (hw : (E.pathAt k).why = .answer) :
    0 < (E.pathAt k).lapseFromUs ∧ E.FrameAt k (E.pathAt k).lapseFromUs := by
  obtain ⟨hne, hf⟩ := (frameInv_along E k hk).2 hm hw
  refine ⟨?_, hf⟩
  obtain ⟨i, _, _, ht⟩ := hf
  have hnonneg : (0 : ℤ) ≤ E.timeAt i := Int.natCast_nonneg _
  omega

end Run

end TinyLink.Proofs
