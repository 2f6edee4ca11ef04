import TinyLink.Proofs.TransportSteps

/-!
# Sending: no nonce is used twice under one keypair

The counter of a session is the number of reservations since its keys were installed.
-/

namespace TinyLink.Proofs
open StepSystem TransportRun

variable {aead : Aead}

lemma wgTransportTxReserve_eq_none_iff (s : WgTransportSession) :
    wgTransportTxReserve s = none ↔ s.valid = false ∨ s.sendCounter = wgCounterRejectAt := by
  unfold wgTransportTxReserve
  split_ifs with hv hc <;> simp_all

lemma sendCounter_lt_of_reserves {σ : TransportSystem} {a : TransportStep}
    (h : σ.reserves a) : σ.session.sendCounter.toNat + 1 < 2 ^ 64 := by
  cases a <;> try cases h
  obtain ⟨⟨t, s⟩, hres⟩ := Option.isSome_iff_exists.mp h
  obtain ⟨_, hne, _, _⟩ := wgTransportTxReserve_some hres
  have hlt := σ.session.sendCounter.toNat_lt
  have hmax : σ.session.sendCounter.toNat ≠ wgCounterRejectAt.toNat :=
    fun heq => hne (UInt64.toNat_inj.mp heq)
  have hval : wgCounterRejectAt.toNat = 2 ^ 64 - 1 := rfl
  omega

lemma sendCounter_step {σ σ' : TransportSystem} {a : TransportStep}
    (h : transportStep aead σ a = some σ') (hr : a.rekeys = false) :
    σ'.session.sendCounter.toNat =
      σ.session.sendCounter.toNat + if σ.reserves a then 1 else 0 := by
  obtain ⟨_, _, _, hc⟩ := transportStep_send h hr
  rw [hc]
  split
  · rename_i hres
    rw [UInt64.toNat_add]
    exact Nat.mod_eq_of_lt (sendCounter_lt_of_reserves hres)
  · rfl

section Run

variable {E : TransportRun aead}

lemma reservedBetween_succ {i k : ℕ} (hik : i < k) :
    reservedBetween E i (k + 1) =
      reservedBetween E i k + if (E.state k).reserves (E.act k) then 1 else 0 := by
  unfold reservedBetween
  have hset : Finset.Ioo i (k + 1) = insert k (Finset.Ioo i k) := by
    ext l
    simp only [Finset.mem_Ioo, Finset.mem_insert]
    omega
  rw [hset, Finset.filter_insert]
  split
  · rw [Finset.card_insert_of_notMem (by simp)]
  · rfl

lemma reservedBetween_self_succ (i : ℕ) : reservedBetween E i (i + 1) = 0 := by
  unfold reservedBetween
  have hset : Finset.Ioo i (i + 1) = ∅ := by
    ext l
    simp only [Finset.mem_Ioo, Finset.notMem_empty, iff_false]
    omega
  rw [hset]
  rfl

lemma session_installed :
    ∀ k, k ≤ E.length → (E.state k).session.valid = true → ∃ i li ri sk rk, i < k ∧
      E.act i = .sessionInit li ri sk rk ∧ SameKeys E i k ∧ (E.state k).session.sendKey = sk ∧
      (E.state k).session.remoteIndex = ri ∧
      (E.state k).session.sendCounter.toNat = reservedBetween E i k := by
  refine E.along ?_ fun k hk ih hv => ?_
  · intro hv
    rw [E.starts] at hv
    cases hv
  · have hs := E.steps k hk
    by_cases hr : (E.act k).rekeys = true
    · obtain ⟨li, ri, sk, rk, ha, hinit⟩ := transportStep_valid hs hr hv
      rw [hinit]
      refine ⟨k, li, ri, sk, rk, by omega, ha, fun l h1 h2 => by omega, rfl, rfl, ?_⟩
      rw [reservedBetween_self_succ]
      rfl
    · have hr' : (E.act k).rekeys = false := by simpa using hr
      obtain ⟨hkey, hri, hval, _⟩ := transportStep_send hs hr'
      obtain ⟨i, li, ri, sk, rk, hik, ha, hsame, hk', hri', hc⟩ := ih (hval ▸ hv)
      refine ⟨i, li, ri, sk, rk, by omega, ha, sameKeys_succ hsame hr', ?_, ?_, ?_⟩
      · rw [hkey, hk']
      · rw [hri, hri']
      · rw [sendCounter_step hs hr', reservedBetween_succ hik, hc]

lemma reserved_ticket {j id : ℕ} {t : WgTxTicket} (h : TxReserves E j id t) :
    (∃ i li ri sk rk, i < j ∧ E.act i = .sessionInit li ri sk rk ∧ SameKeys E i j ∧
      t.key = sk ∧ t.remoteIndex = ri ∧ t.counter.toNat = reservedBetween E i j) ∧
    t.counter ≠ wgCounterRejectAt := by
  obtain ⟨hlen, _, s, hres⟩ := h
  obtain ⟨hv, hne, rfl, _⟩ := wgTransportTxReserve_some hres
  exact ⟨session_installed j hlen.le hv, hne⟩

lemma sendCounter_mono {i : ℕ} :
    ∀ j, i ≤ j → j ≤ E.length → (∀ k, i ≤ k → k < j → (E.act k).rekeys = false) →
      (E.state i).session.sendCounter.toNat ≤ (E.state j).session.sendCounter.toNat := by
  intro j hij hj hsame
  apply E.mono (fun σ => σ.session.sendCounter.toNat) hij
  intro k hik hkj
  rw [sendCounter_step (E.steps k (by omega)) (hsame k hik hkj)]
  exact Nat.le_add_right _ _

lemma reserved_counters_ne {i j id id' : ℕ} {t t' : WgTxTicket} (hij : i < j)
    (hi : TxReserves E i id t) (hj : TxReserves E j id' t') (hsame : SameKeys E i j) :
    t.counter ≠ t'.counter := by
  obtain ⟨hleni, hact, s, hres⟩ := hi
  obtain ⟨hlenj, _, s', hres'⟩ := hj
  have hreserves : (E.state i).reserves (E.act i) = true := by
    rw [hact]
    simp [TransportSystem.reserves, hres]
  have hrek : (E.act i).rekeys = false := by
    rw [hact]
    rfl
  have hstep := sendCounter_step (E.steps i hleni) hrek
  rw [if_pos hreserves] at hstep
  have hmono := sendCounter_mono (E := E) j (show i + 1 ≤ j by omega) hlenj.le
    fun k h1 h2 => hsame k (by omega) h2
  obtain ⟨_, _, rfl, _⟩ := wgTransportTxReserve_some hres
  obtain ⟨_, _, rfl, _⟩ := wgTransportTxReserve_some hres'
  intro heq
  have hnat := congrArg UInt64.toNat heq
  dsimp only at hnat
  omega

lemma reserve_none_until_init {i : ℕ} (h0 : wgTransportTxReserve (E.state i).session = none) :
    ∀ j, i ≤ j → j ≤ E.length → NoInit E i j → wgTransportTxReserve (E.state j).session = none := by
  intro j hij hj hno
  refine stretch hij h0 fun k hik hkj hprev => ?_
  have hstep := E.steps k (by omega)
  have hres : (E.state k).reserves (E.act k) = false := by
    cases E.act k <;> simp [TransportSystem.reserves, hprev]
  rw [wgTransportTxReserve_eq_none_iff] at hprev ⊢
  cases hr : (E.act k).rekeys with
  | true =>
    refine .inl (Bool.eq_false_of_not_eq_true fun hv => ?_)
    obtain ⟨li, ri, sk, rk, ha, -⟩ := transportStep_valid hstep hr hv
    exact hno k hik hkj li ri sk rk ha
  | false =>
    obtain ⟨-, -, hval, hcount⟩ := transportStep_send hstep hr
    rw [hval, hcount, hres]
    exact hprev

lemma tx_descends :
    ∀ k, k ≤ E.length → ∀ id t, (E.state k).tx id = some t → ∃ i, i < k ∧ TxReserves E i id t ∧
      ∀ l, i < l → l < k →
        E.act l ≠ .txReserve id ∧ ∀ outSize plaintext, E.act l ≠ .txSeal id outSize plaintext := by
  refine E.along ?_ fun k hk ih id t ht => ?_
  · intro id t ht
    rw [E.starts] at ht
    cases ht
  · rcases transportStep_tx (E.steps k hk) ht with ⟨hold, hseal, hres⟩ | ⟨ha, s, hres⟩
    · obtain ⟨i, hik, hi, hbetween⟩ := ih id t hold
      refine ⟨i, by omega, hi, fun l h1 h2 => ?_⟩
      rcases Nat.lt_succ_iff_lt_or_eq.mp h2 with hl | rfl
      · exact hbetween l h1 hl
      · exact ⟨hres, hseal⟩
    · exact ⟨k, by omega, ⟨hk, ha, s, hres⟩, fun l h1 h2 => by omega⟩

end Run

lemma wgWireLen_eq (plaintext : Buf) :
    wgWireLen plaintext.val.length = wgTransportHeaderLen + plaintext.val.length + wgTagLen := by
  refine Nat.mod_eq_of_lt ?_
  simp only [wgTransportHeaderLen, wgTagLen]
  omega

theorem tx_never_reuses_nonce (E : TransportRun aead) :
    (∀ i j id id' t t', i < j → TxReserves E i id t → TxReserves E j id' t' → SameKeys E i j →
      t.counter ≠ t'.counter) ∧
    (∀ j id t, TxReserves E j id t →
      (∃ i li ri sk rk, i < j ∧ E.act i = .sessionInit li ri sk rk ∧ SameKeys E i j ∧
        t.key = sk ∧ t.remoteIndex = ri ∧ t.counter.toNat = reservedBetween E i j) ∧
      t.counter ≠ wgCounterRejectAt) ∧
    (∀ j id outSize plaintext, j < E.length → E.act j = .txSeal id outSize plaintext →
      ∃ i t, i < j ∧ TxReserves E i id t ∧ (E.state j).tx id = some t ∧
        ∀ l, i < l → l < j → ∀ outSize' plaintext', E.act l ≠ .txSeal id outSize' plaintext') ∧
    (∀ i, i < E.length → E.act i = .sessionScrub →
      wgTransportTxReserve (E.state (i + 1)).session = none) ∧
    (∀ i j, i ≤ j → j < E.length → NoInit E i j →
      wgTransportTxReserve (E.state i).session = none →
      wgTransportTxReserve (E.state j).session = none ∧
        ∀ id, E.act j = .txReserve id → E.state (j + 1) = E.state j) ∧
    (∀ s, s.sendCounter = wgCounterRejectAt → wgTransportTxReserve s = none) ∧
    (∀ s (outSize : ObjSize) (plaintext : Buf),
      outSize.val < wgTransportHeaderLen + plaintext.val.length + wgTagLen →
      wgTransportEncrypt aead s outSize plaintext = (none, s)) := by
  refine ⟨fun i j id id' t t' => reserved_counters_ne, fun j id t => reserved_ticket, ?_, ?_, ?_,
    fun s hs => (wgTransportTxReserve_eq_none_iff s).mpr (.inr hs), ?_⟩
  · intro j id outSize plaintext hj ha
    have hs := E.steps j hj
    rw [ha] at hs
    cases ht : (E.state j).tx id with
    | none => simp [transportStep, ht] at hs
    | some t =>
      obtain ⟨i, hij, hres, hbetween⟩ := tx_descends j hj.le id t ht
      exact ⟨i, t, hij, hres, rfl, fun l h1 h2 => (hbetween l h1 h2).2⟩
  · intro i hi ha
    have hs := E.steps i hi
    rw [ha] at hs
    rw [← Option.some.inj hs]
    rfl
  · intro i j hij hj hno h0
    have hnone := reserve_none_until_init h0 j hij hj.le hno
    refine ⟨hnone, fun id ha => ?_⟩
    have hs := E.steps j hj
    rw [ha] at hs
    simp only [transportStep, hnone] at hs
    split at hs
    · cases hs
    · exact (Option.some.inj hs).symm
  · intro s outSize plaintext hsmall
    rw [wgTransportEncrypt, wgWireLen_eq, if_pos hsmall]

end TinyLink.Proofs
