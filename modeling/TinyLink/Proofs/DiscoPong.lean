import TinyLink.DiscoSystem
import TinyLink.Proofs.ByteFields
import TinyLink.Proofs.ProberTable

/-!
# Solicited pongs

An accepted pong names a ping of ours. The box key is symmetric, so it was sealed by the peer only as
long as no pong of our own comes back to us.
-/

namespace TinyLink.Proofs
open StepSystem DiscoRun

variable {buf nonce pt : Bytes} {m : DiscoPong} {log : List BoxRecord} {table : ProberTable}
  {txid : Txid} {cap : ℕ}

lemma discoParse_ping (v : UInt8) (txid : Txid) (rest : Bytes) :
    ∃ m, discoParse (discoTypePing :: v :: (txid.toList ++ rest)) = some (.ping m) ∧ m.txid = txid := by
  have hlen : ¬(txid.toList ++ rest).length < discoTxidLen := by
    simp [discoTxidLen]
  simp only [discoParse, List.length_cons, List.drop_succ_cons, List.drop_zero, discoInnerHdrLen,
    List.getD_cons_zero, if_true, hlen, if_false, readVec_append]
  rw [if_neg (by omega)]
  split
  · exact ⟨_, rfl, rfl⟩
  · exact ⟨_, rfl, rfl⟩

lemma discoParse_pong (v : UInt8) (txid : Txid) (rest : Bytes) (h : 18 ≤ rest.length) :
    ∃ m, discoParse (discoTypePong :: v :: (txid.toList ++ rest)) = some (.pong m) ∧ m.txid = txid := by
  have hlen : ¬(txid.toList ++ rest).length < discoTxidLen + 16 + 2 := by
    simp [discoTxidLen]
    omega
  have htype : discoTypePong ≠ discoTypePing := by decide
  simp only [discoParse, List.length_cons, List.drop_succ_cons, List.drop_zero, discoInnerHdrLen,
    List.getD_cons_zero, if_true, hlen, if_false, readVec_append, htype]
  rw [if_neg (by omega)]
  exact ⟨_, rfl, rfl⟩

lemma pingTxid_encodePing {m : DiscoPing} {inner : Bytes}
    (h : discoEncodePing cap m = some inner) : pingTxid inner = some m.txid := by
  simp only [discoEncodePing] at h
  split_ifs at h
  cases h
  obtain ⟨m', hm, ht⟩ := discoParse_ping 0 m.txid
    ((m.nodeKey.map Vector.toList).getD [] ++ List.replicate m.padding 0)
  simp [pingTxid, hm, ht]

lemma pingTxid_encodePong {inner : Bytes}
    (h : discoEncodePong cap m = some inner) : pingTxid inner = none := by
  simp only [discoEncodePong] at h
  split_ifs at h
  cases h
  obtain ⟨m', hm, _⟩ := discoParse_pong 0 m.txid (m.srcAddr.toList ++ putU16Be m.srcPort)
    (by simp [putU16Be])
  simp [pingTxid, hm]

lemma finishDiscoRecv_reply {sealBox : Bytes → Bytes → Bytes} {pub : Key}
    {reply : DiscoReply} (h : (finishDiscoRecv sealBox pt pub nonce).2 = some reply) :
    pingTxid reply.inner = none := by
  unfold finishDiscoRecv at h
  split at h
  · cases h
  · split at h
    · cases h
    · rename_i inner henc
      obtain ⟨wire, _, rfl⟩ := Option.map_eq_some_iff.mp h
      exact pingTxid_encodePong henc
  · cases h

lemma handle_reply {p : DiscoSetup} {reply : DiscoReply}
    (h : (p.handle log buf nonce).2 = some reply) : pingTxid reply.inner = none := by
  unfold DiscoSetup.handle discoHandleRecv at h
  split_ifs at h
  split at h
  · cases h
  · exact finishDiscoRecv_reply h

lemma finishDiscoRecv_pong {sealBox : Bytes → Bytes → Bytes} {pub : Key}
    (h : (finishDiscoRecv sealBox pt pub nonce).1 = some (.pong m)) :
    discoParse pt = some (.pong m) := by
  unfold finishDiscoRecv at h
  split at h
  · cases h
  · split at h
    · cases h
    · cases h
  · rename_i msg _ hparse
    rw [hparse]
    exact h

lemma discoOpen_some {f : Bytes → Bytes → Option Bytes}
    (h : discoOpen f cap buf = some pt) : f (frameNonce buf) (frameBox buf) = some pt := by
  unfold discoOpen at h
  split_ifs at h
  · split at h <;> cases h
  · split at h
    · cases h
    · rename_i pt' hf
      cases h
      exact hf

lemma openBox_some {box : Bytes} (h : openBox log nonce box = some pt) :
    ∃ r ∈ log, r.nonce = nonce ∧ r.box = box ∧ r.plaintext = pt := by
  obtain ⟨r, hfind, hpt⟩ := Option.map_eq_some_iff.mp h
  have hr := List.find?_some hfind
  simp only [decide_eq_true_eq] at hr
  exact ⟨r, List.mem_of_find?_eq_some hfind, hr.1, hr.2, hpt⟩

lemma handle_pong {p : DiscoSetup} (h : (p.handle log buf nonce).1 = some (.pong m)) :
    ∃ r ∈ log, r.nonce = frameNonce buf ∧ r.box = frameBox buf ∧
      discoParse r.plaintext = some (.pong m) := by
  unfold DiscoSetup.handle discoHandleRecv at h
  split_ifs at h
  split at h
  · cases h
  · rename_i pt hopen
    obtain ⟨r, hr, hn, hb, rfl⟩ := openBox_some (discoOpen_some hopen)
    exact ⟨r, hr, hn, hb, finishDiscoRecv_pong h⟩

lemma discoProberTake_isSome {v4 : UInt32} {port : UInt16}
    {now : Int} (h : (discoProberTake table txid v4 port now).1.isSome) :
    ∃ i : Fin discoProberTableSize, (table.get i).valid = true ∧ (table.get i).txid = txid := by
  have hmove := take_move table txid v4 port now
  generalize discoProberTake table txid v4 port now = res at hmove h
  cases hmove with
  | missing | foreign => cases h
  | @consumed i _ hv ht => exact ⟨i, hv, ht⟩

def SlotsIn (table : ProberTable) (s : Txid → Prop) : Prop :=
  ∀ i : Fin discoProberTableSize, (table.get i).valid = true → s (table.get i).txid

lemma slotsIn_init (s : Txid → Prop) : SlotsIn discoProberInit s := by
  intro i hv
  have hzero : discoProberInit.get i = .zero := Vector.getElem_replicate i.isLt
  rw [hzero] at hv
  cases hv

lemma slotsIn_record {s : Txid → Prop} (h : SlotsIn table s)
    (ht : s txid) (v4 : UInt32) (port : UInt16) (now : Int) :
    SlotsIn (discoProberRecord table txid v4 port now) s := by
  obtain ⟨r, -, hget⟩ := discoProberRecord_get table txid v4 port now
  intro i hv
  rw [hget] at hv ⊢
  split
  · exact ht
  · next hi =>
    rw [if_neg hi] at hv
    exact h i hv

lemma slotsIn_take {s : Txid → Prop} (h : SlotsIn table s) (txid : Txid)
    (v4 : UInt32) (port : UInt16) (now : Int) :
    SlotsIn (discoProberTake table txid v4 port now).2 s := by
  intro i hv
  have hkeep := take_keeps (take_move table txid v4 port now) hv
  rw [hkeep] at hv ⊢
  exact h i hv

section Steps

variable {p : DiscoSetup} {σ σ' : DiscoState} {a : DiscoStep}

/-- What a step can do to the record of sealed boxes and to the prober. -/
inductive DiscoEffect (p : DiscoSetup) (σ : DiscoState) (a : DiscoStep) : DiscoState → Prop
  | idle : DiscoEffect p σ a σ
  | reset : DiscoEffect p σ a { σ with prober := discoProberInit }
  | record {txid : Txid} (v4 port now) (hown : ownPing σ.log txid = true) :
      DiscoEffect p σ a { σ with prober := discoProberRecord σ.prober txid v4 port now }
  | take (txid v4 port now) :
      DiscoEffect p σ a { σ with prober := (discoProberTake σ.prober txid v4 port now).2 }
  | ping {m : DiscoPing} {nonce inner : Bytes} (ha : a = .ping m nonce)
      (hfresh : freshTxid σ.log m.txid = true) (hinner : pingTxid inner = some m.txid) :
      DiscoEffect p σ a { σ with log := σ.log ++ [p.sealed .us nonce inner] }
  | peer {nonce plaintext : Bytes} (ha : a = .peerSeals nonce plaintext) :
      DiscoEffect p σ a { σ with log := σ.log ++ [p.sealed .peer nonce plaintext] }
  | answer (nonce : Bytes) {inner : Bytes} (hinner : pingTxid inner = none) :
      DiscoEffect p σ a { σ with log := σ.log ++ [p.sealed .us nonce inner] }

lemma discoEffect_reply {msg : Option DiscoMsg} {reply : Option DiscoReply}
    (h : p.handle σ.log buf nonce = (msg, reply)) :
    DiscoEffect p σ a { σ with log := p.logReply σ.log nonce reply } := by
  cases reply with
  | none => exact .idle
  | some => exact .answer nonce (handle_reply (congrArg Prod.snd h))

lemma discoEffect_ping {m : DiscoPing} (h : discoStep p σ (.ping m nonce) = some σ') :
    DiscoEffect p σ (.ping m nonce) σ' := by
  simp only [discoStep] at h
  split_ifs at h with hfresh
  simp only [Bool.or_eq_true, Bool.not_eq_true', not_or, Bool.not_eq_false] at hfresh
  split at h
  · cases h
  · rename_i inner henc
    split at h
    · cases h
    · cases h
      exact .ping rfl hfresh.2 (pingTxid_encodePing henc)

lemma discoEffect_direct {v4 : UInt32} {port : UInt16} {now : Int}
    (h : discoStep p σ (.direct buf v4 port now nonce) = some σ') :
    DiscoEffect p σ (.direct buf v4 port now nonce) σ' := by
  simp only [discoStep] at h
  split at h
  · cases h
  · split at h
    · cases h
      exact .idle
    · split at h
      · cases h
        exact .idle
      · rename_i hh
        cases h
        exact discoEffect_reply hh
      · cases h
        exact .take _ v4 port now
      · cases h
        exact .idle

lemma discoEffect_relayed (h : discoStep p σ (.relayed buf nonce) = some σ') :
    DiscoEffect p σ (.relayed buf nonce) σ' := by
  simp only [discoStep] at h
  split at h
  · cases h
  · split at h
    · cases h
      exact .idle
    · split at h
      · rename_i hh
        cases h
        exact discoEffect_reply hh
      · cases h
        exact .idle

lemma discoStep_effect (h : discoStep p σ a = some σ') : DiscoEffect p σ a σ' := by
  cases a with
  | ping => exact discoEffect_ping h
  | record _ v4 port now =>
    simp only [discoStep] at h
    split_ifs at h with hown
    cases h
    exact .record v4 port now (by simpa using hown)
  | proberReset =>
    cases h
    exact .reset
  | peerSeals =>
    simp only [discoStep] at h
    split_ifs at h
    cases h
    exact .peer rfl
  | direct => exact discoEffect_direct h
  | relayed => exact discoEffect_relayed h

lemma discoStep_log_subset (h : discoStep p σ a = some σ') : σ.log ⊆ σ'.log := by
  cases discoStep_effect h with
  | ping | peer | answer => exact List.subset_append_left _ _
  | _ => exact List.Subset.refl _

/-- The step sealed the box: as a ping, for the peer, or as an answer. -/
def SealedBy (p : DiscoSetup) (σ : DiscoState) (a : DiscoStep) (r : BoxRecord) : Prop :=
  (∃ m nonce, a = .ping m nonce ∧ freshTxid σ.log m.txid = true ∧
      r.sealer = .us ∧ pingTxid r.plaintext = some m.txid) ∨
    (∃ nonce plaintext, a = .peerSeals nonce plaintext ∧ r = p.sealed .peer nonce plaintext) ∨
    (r.sealer = .us ∧ pingTxid r.plaintext = none)

lemma discoStep_sealed (h : discoStep p σ a = some σ') {r : BoxRecord} (hr : r ∈ σ'.log) :
    r ∈ σ.log ∨ SealedBy p σ a r := by
  cases discoStep_effect h with
  | ping ha hfresh hinner =>
    rcases List.mem_append.mp hr with hold | hnew
    · exact .inl hold
    · obtain rfl := List.mem_singleton.mp hnew
      exact .inr (.inl ⟨_, _, ha, hfresh, rfl, hinner⟩)
  | peer ha =>
    rcases List.mem_append.mp hr with hold | hnew
    · exact .inl hold
    · obtain rfl := List.mem_singleton.mp hnew
      exact .inr (.inr (.inl ⟨_, _, ha, rfl⟩))
  | answer _ hinner =>
    rcases List.mem_append.mp hr with hold | hnew
    · exact .inl hold
    · obtain rfl := List.mem_singleton.mp hnew
      exact .inr (.inr (.inr ⟨rfl, hinner⟩))
  | _ => exact .inl hr

lemma discoStep_prober (h : discoStep p σ a = some σ')
    (hs : SlotsIn σ.prober fun t => ownPing σ.log t = true) :
    SlotsIn σ'.prober fun t => ownPing σ.log t = true := by
  cases discoStep_effect h with
  | reset => exact slotsIn_init _
  | record v4 port now hown => exact slotsIn_record hs hown v4 port now
  | take txid v4 port now => exact slotsIn_take hs txid v4 port now
  | _ => exact hs

end Steps

section Run

variable {p : DiscoSetup} {E : DiscoRun p}

lemma log_subset_succ {k : ℕ} (hk : k < E.length) : (E.state k).log ⊆ (E.state (k + 1)).log := by
  exact discoStep_log_subset (E.steps k hk)

lemma log_subset {i : ℕ} : ∀ j, i ≤ j → j ≤ E.length → (E.state i).log ⊆ (E.state j).log := by
  intro j hij hj
  apply E.mono (fun σ => {r | r ∈ σ.log}) hij
  intro k _ hkj
  exact log_subset_succ (by omega)

lemma ownPing_mono {log' : List BoxRecord} (h : log ⊆ log')
    (ho : ownPing log txid) : ownPing log' txid = true := by
  simp only [ownPing, decide_eq_true_eq] at ho ⊢
  obtain ⟨r, hr, hrest⟩ := ho
  exact ⟨r, h hr, hrest⟩

lemma prober_ownPing :
    ∀ k, k ≤ E.length → SlotsIn (E.state k).prober fun t => ownPing (E.state k).log t = true := by
  refine E.along ?_ fun k hk ih => ?_
  · rw [E.starts]
    exact slotsIn_init _
  · intro i hv
    exact ownPing_mono (log_subset_succ hk) (discoStep_prober (E.steps k hk) ih i hv)

def SealedAt (E : DiscoRun p) (i : ℕ) (r : BoxRecord) : Prop :=
  r ∈ (E.state (i + 1)).log ∧ SealedBy p (E.state i) (E.act i) r

lemma log_history : ∀ k, k ≤ E.length → ∀ r ∈ (E.state k).log, ∃ i, i < k ∧ SealedAt E i r := by
  refine E.along ?_ ?_
  · intro r hr
    rw [E.starts] at hr
    cases hr
  · intro k hk ih r hr
    rcases discoStep_sealed (E.steps k hk) hr with hold | hnew
    · obtain ⟨i, hi, hs⟩ := ih r hold
      exact ⟨i, Nat.lt_succ_of_lt hi, hs⟩
    · exact ⟨k, Nat.lt_succ_self k, hr, hnew⟩

end Run

theorem accepted_pong_is_authentic {p : DiscoSetup} (E : DiscoRun p) (hown : NoOwnPong E) :
    ∀ j buf m, AcceptsPong E j buf m → SealedByPeer E j buf m.txid := by
  rintro j buf m ⟨hj, v4, port, now, nonce, ha, _, hmsg, htake⟩
  obtain ⟨slot, hv, ht⟩ := discoProberTake_isSome htake
  have hping := prober_ownPing j hj.le slot hv
  rw [ht] at hping
  obtain ⟨r, hr, hn, hb, hpong⟩ := handle_pong hmsg
  have hpeer : r.sealer ≠ .us := by
    intro hus
    rw [hown j hj buf v4 port now nonce ha r hr hus hn hb m hpong] at hping
    cases hping
  obtain ⟨i, hi, hrec, hkind⟩ := log_history j hj.le r hr
  rcases hkind with ⟨_, _, _, _, hus, _⟩ | ⟨n, plaintext, hact, rfl⟩ | ⟨hus, _⟩
  · exact absurd hus hpeer
  · -- the ping is older: its transaction id was fresh when it was sealed
    simp only [ownPing, decide_eq_true_eq] at hping
    obtain ⟨q, hq, hqus, hqt⟩ := hping
    obtain ⟨k, hk, hqrec, hqkind⟩ := log_history j hj.le q hq
    rcases hqkind with ⟨ping, pn, hpact, hfresh, _, hpt⟩ | ⟨_, _, _, rfl⟩ | ⟨_, hnone⟩
    · rw [hqt, Option.some.injEq] at hpt
      have hki : k < i := by
        by_contra hle
        rcases Nat.lt_or_eq_of_le (Nat.not_lt.mp hle) with hlt | rfl
        · have hmem := log_subset (E := E) k (show i + 1 ≤ k by omega) (by omega) hrec
          simp only [freshTxid, decide_eq_true_eq] at hfresh
          refine hfresh _ hmem ?_
          rw [← hpt]
          simp only [discoTxid, hpong]
        · rw [hact] at hpact
          cases hpact
      subst hn
      exact ⟨k, i, ping, pn, plaintext, hki, hi, hpact, hpt.symm, hact, hb.symm⟩
    · cases hqus
    · rw [hqt] at hnone
      cases hnone
  · exact absurd hus hpeer

def sampleSetup : DiscoSetup where
  ourPub := Vector.replicate 32 1
  peerPub := Vector.replicate 32 2
  sealBox _ pt := List.replicate discoTagLen 0 ++ pt

def sampleNonce (n : UInt8) : Bytes := List.replicate discoNonceLen n

def samplePing : DiscoPing := ⟨Vector.replicate 12 7, some (Vector.replicate 32 3), 0⟩

def pingInner : Bytes := (discoEncodePing discoHandlerReplyMax samplePing).getD []

def pongInner : Bytes :=
  (discoEncodePong discoPongPlaintextMax ⟨samplePing.txid, Vector.replicate 16 0, 0⟩).getD []

def fromPeer (n : UInt8) (pt : Bytes) : Bytes :=
  discoMagic ++ sampleSetup.peerPub.toList ++ sampleNonce n ++ sampleSetup.sealBox (sampleNonce n) pt

def reflection : DiscoRun sampleSetup :=
  runOf .boot rfl .proberReset
    [.ping samplePing (sampleNonce 1), .record samplePing.txid 10 20 0,
      .direct (fromPeer 1 pingInner) 30 40 1 (sampleNonce 2),
      .direct (fromPeer 2 pongInner) 10 20 2 (sampleNonce 3)] (by decide +kernel)

theorem reflected_pong_is_accepted :
    ∃ buf m, AcceptsPong reflection 3 buf m ∧ ¬SealedByPeer reflection 3 buf m.txid := by
  refine ⟨fromPeer 2 pongInner, ⟨samplePing.txid, Vector.replicate 16 0, 0⟩,
    ⟨by decide, 10, 20, 2, sampleNonce 3, rfl, by decide +kernel, by decide +kernel,
      by decide +kernel⟩, ?_⟩
  rintro ⟨k, i, ping, pn, pt, _, hi, _, _, hact, _⟩
  interval_cases i <;> cases hact

def answered : DiscoRun sampleSetup :=
  runOf .boot rfl .proberReset
    [.ping samplePing (sampleNonce 1), .record samplePing.txid 10 20 0,
      .peerSeals (sampleNonce 2) pongInner, .direct (fromPeer 2 pongInner) 10 20 2 (sampleNonce 3)]
    (by decide +kernel)

theorem answered_pong_is_authentic :
    NoOwnPong answered ∧ ∃ buf m, AcceptsPong answered 3 buf m ∧ SealedByPeer answered 3 buf m.txid := by
  have hown : NoOwnPong answered := by
    intro k hk buf v4 port now nonce ha r hr hus hn
    change k < 4 at hk
    interval_cases k
    · cases ha
    · cases ha
    · cases ha
    · cases ha
      have hall : ∀ r ∈ (answered.state 3).log, r.sealer = .us →
          r.nonce ≠ frameNonce (fromPeer 2 pongInner) := by decide +kernel
      exact absurd hn (hall r hr hus)
  have hacc : AcceptsPong answered 3 (fromPeer 2 pongInner)
      ⟨samplePing.txid, Vector.replicate 16 0, 0⟩ :=
    ⟨by decide, 10, 20, 2, sampleNonce 3, rfl, by decide +kernel, by decide +kernel,
      by decide +kernel⟩
  exact ⟨hown, _, _, hacc, accepted_pong_is_authentic answered hown 3 _ _ hacc⟩

end TinyLink.Proofs
