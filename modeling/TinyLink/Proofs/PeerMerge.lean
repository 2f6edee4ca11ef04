import TinyLink.Netmap

/-!
# Merging peers refines a map by NodeID

Each loop of `merge_peers` is an operation on the finite map of the peers.
-/

namespace TinyLink.Proofs
open KeyedTable

variable {t : List Peer} {m : Merging} {p : Peer} {id : ℕ}

structure Valid (t : List Peer) : Prop where
  distinct : Distinct Peer.id t
  nonzero : ∀ p ∈ t, p.id ≠ 0
  room : t.length ≤ tlMaxPeers

lemma PeerTable.valid (t : PeerTable) : Valid t.peers := ⟨t.distinct, t.nonzero, t.room⟩

lemma peerIndex_none {key : Option Key} (hid : id ≠ 0) :
    peerIndex t id key = none ↔ id ∉ t.map Peer.id := by
  unfold peerIndex
  rw [List.findIdx?_eq_none_iff]
  simp [hid]

lemma peerIndex_some {j : ℕ} {key : Option Key} (hid : id ≠ 0)
    (hj : peerIndex t id key = some j) : ∃ p, t[j]? = some p ∧ p.id = id := by
  obtain ⟨hlt, hp, -⟩ := List.findIdx?_eq_some_iff_getElem.mp hj
  exact ⟨t[j], List.getElem?_eq_getElem hlt, by simpa [hid] using hp⟩

lemma peerIndex_zero (t : List Peer) : peerIndex t 0 none = none := by
  unfold peerIndex
  rw [List.findIdx?_eq_none_iff]
  simp

lemma removePeer_cases (m : Merging) (hid : id ≠ 0) : (id ∉ m.1.map Peer.id ∧ removePeer m id = m) ∨
    ∃ xs p ys, m.1 = xs ++ p :: ys ∧ p.id = id ∧ removePeer m id = (xs ++ ys, true) := by
  unfold removePeer
  rw [if_neg hid]
  cases hj : peerIndex m.1 id none with
  | none => exact .inl ⟨(peerIndex_none hid).mp hj, rfl⟩
  | some =>
    obtain ⟨p, hp, he⟩ := peerIndex_some hid hj
    obtain ⟨xs, ys, hl, herase, -⟩ := split_at hp
    exact .inr ⟨xs, p, ys, hl, he, congrArg (·, true) herase⟩

lemma upsertPeer_cases (m : Merging) (hid : p.id ≠ 0) :
    (p.id ∉ m.1.map Peer.id ∧ m.1.length ≥ tlMaxPeers ∧ upsertPeer m p = m) ∨
    (p.id ∉ m.1.map Peer.id ∧ m.1.length < tlMaxPeers ∧ upsertPeer m p = (m.1 ++ [p], true)) ∨
    ∃ xs q ys, m.1 = xs ++ q :: ys ∧ p.id = q.id ∧ upsertPeer m p = (xs ++ p :: ys, true) := by
  unfold upsertPeer
  cases hj : peerIndex m.1 p.id (some p.nodePub) with
  | none =>
    have hnew := (peerIndex_none hid).mp hj
    by_cases hfull : m.1.length ≥ tlMaxPeers
    · exact .inl ⟨hnew, hfull, if_pos hfull⟩
    · exact .inr (.inl ⟨hnew, Nat.lt_of_not_le hfull, if_neg hfull⟩)
  | some =>
    obtain ⟨q, hq, he⟩ := peerIndex_some hid hj
    obtain ⟨xs, ys, hl, -, hset⟩ := split_at hq
    exact .inr (.inr ⟨xs, q, ys, hl, he.symm, congrArg (·, true) (hset p)⟩)

section Patch
variable (pc : PeerPatch) (r : Peer × Bool)

lemma patchKey_eq :
    (patchKey pc r).1 = { r.1 with nodePub := if pc.hasKey then pc.nodePub else r.1.nodePub } ∧
      ((patchKey pc r).2 = false → r.2 = false ∧ (patchKey pc r).1 = r.1) := by
  obtain ⟨⟨id, nodePub, discoPub, hasDisco, derp, eps, addrs⟩, b⟩ := r
  unfold patchKey
  cases hk : pc.hasKey with
  | false => simp
  | true =>
    by_cases he : nodePub = pc.nodePub
    · simp [he]
    · simp [he]

lemma patchDisco_eq : (patchDisco pc r).1 = { r.1 with
        discoPub := if pc.hasDisco then pc.discoPub else r.1.discoPub
        hasDiscoPub := r.1.hasDiscoPub || pc.hasDisco } ∧
      ((patchDisco pc r).2 = false → r.2 = false ∧ (patchDisco pc r).1 = r.1) := by
  obtain ⟨⟨id, nodePub, discoPub, hasDisco, derp, eps, addrs⟩, b⟩ := r
  unfold patchDisco
  cases hk : pc.hasDisco with
  | false => simp
  | true =>
    cases hasDisco with
    | false => simp
    | true =>
      by_cases he : discoPub = pc.discoPub
      · simp [he]
      · simp [he]

lemma patchEndpoints_eq : (patchEndpoints pc r).1 =
        { r.1 with endpoints := if pc.hasEndpoints then pc.endpoints else r.1.endpoints } ∧
      ((patchEndpoints pc r).2 = false → r.2 = false ∧ (patchEndpoints pc r).1 = r.1) := by
  obtain ⟨⟨id, nodePub, discoPub, hasDisco, derp, eps, addrs⟩, b⟩ := r
  unfold patchEndpoints
  cases hk : pc.hasEndpoints with
  | false => simp
  | true =>
    by_cases he : eps = pc.endpoints
    · simp [he]
    · simp [he]

lemma patchDerp_eq : (patchDerp pc r).1 =
        { r.1 with homeDerp := if pc.derpRegion ≠ 0 then pc.derpRegion else r.1.homeDerp } ∧
      ((patchDerp pc r).2 = false → r.2 = false ∧ (patchDerp pc r).1 = r.1) := by
  obtain ⟨⟨id, nodePub, discoPub, hasDisco, derp, eps, addrs⟩, b⟩ := r
  unfold patchDerp
  by_cases hk : pc.derpRegion = 0
  · simp [hk]
  · by_cases he : derp = pc.derpRegion
    · simp [he]
    · simp [hk, he]

end Patch

lemma patch_fields (p : Peer) (pc : PeerPatch) (b : Bool) :
    (patchDerp pc (patchEndpoints pc (patchDisco pc (patchKey pc (p, b))))).1 = p.patched pc ∧
      ((patchDerp pc (patchEndpoints pc (patchDisco pc (patchKey pc (p, b))))).2 = false →
        b = false ∧ p.patched pc = p) := by
  obtain ⟨hkey, hkey'⟩ := patchKey_eq pc (p, b)
  obtain ⟨hdisco, hdisco'⟩ := patchDisco_eq pc (patchKey pc (p, b))
  obtain ⟨hends, hends'⟩ := patchEndpoints_eq pc (patchDisco pc (patchKey pc (p, b)))
  obtain ⟨hderp, hderp'⟩ := patchDerp_eq pc (patchEndpoints pc (patchDisco pc (patchKey pc (p, b))))
  have hall : (patchDerp pc (patchEndpoints pc (patchDisco pc (patchKey pc (p, b))))).1 =
      p.patched pc := by
    rw [hderp, hends, hdisco, hkey]
    rfl
  refine ⟨hall, fun hfalse => ?_⟩
  obtain ⟨h₃, he₃⟩ := hderp' hfalse
  obtain ⟨h₂, he₂⟩ := hends' h₃
  obtain ⟨h₁, he₁⟩ := hdisco' h₂
  obtain ⟨h₀, he₀⟩ := hkey' h₁
  exact ⟨h₀, by rw [← hall, he₃, he₂, he₁, he₀]⟩

lemma patchPeer_cases (m : Merging) (pc : PeerPatch) :
    ((pc.id = 0 ∨ pc.id ∉ m.1.map Peer.id) ∧ patchPeer m pc = m) ∨
    ∃ xs p ys b, m.1 = xs ++ p :: ys ∧ p.id = pc.id ∧
      patchPeer m pc = (xs ++ p.patched pc :: ys, b) ∧
      (b = false → m.2 = false ∧ p.patched pc = p) := by
  unfold patchPeer
  by_cases hid : pc.id = 0
  · rw [hid, peerIndex_zero]
    exact .inl ⟨.inl rfl, rfl⟩
  · cases hj : peerIndex m.1 pc.id none with
    | none => exact .inl ⟨.inr ((peerIndex_none hid).mp hj), rfl⟩
    | some =>
      obtain ⟨p, hp, he⟩ := peerIndex_some hid hj
      obtain ⟨xs, ys, hl, -, hset⟩ := split_at hp
      obtain ⟨hfields, hflag⟩ := patch_fields p pc m.2
      refine .inr ⟨xs, p, ys, _, hl, he, ?_, hflag⟩
      simp only [hp]
      rw [hset, hfields]

lemma Valid.remove (ht : Valid t) {xs ys : List Peer}
    (hl : t = xs ++ p :: ys) : Valid (xs ++ ys) := by
  subst hl
  refine ⟨ht.distinct.remove, fun q hq => ht.nonzero q ?_, ?_⟩
  · simp only [List.mem_append, List.mem_cons] at hq ⊢
    tauto
  · have := ht.room
    simp only [List.length_append, List.length_cons] at this ⊢
    omega

lemma Valid.replace (ht : Valid t) {xs ys : List Peer} {q : Peer}
    (hl : t = xs ++ p :: ys) (hid : q.id = p.id) : Valid (xs ++ q :: ys) := by
  subst hl
  refine ⟨ht.distinct.replace hid, fun r hr => ?_, by simpa using ht.room⟩
  simp only [List.mem_append, List.mem_cons] at hr
  rcases hr with hr | rfl | hr
  · exact ht.nonzero r (by simp [hr])
  · rw [hid]
    exact ht.nonzero p (by simp)
  · exact ht.nonzero r (by simp [hr])

def ids (t : List Peer) : List ℕ := t.map Peer.id

lemma Valid.zero_notMem (ht : Valid t) : 0 ∉ t.map Peer.id := by
  rw [List.mem_map]
  rintro ⟨p, hp, he⟩
  exact ht.nonzero p hp he

section Loops
variable {β : Type} {f : Merging → β → Merging}

lemma loop_refines {g : PeerMap → β → PeerMap} (xs : List β) (hstep : ∀ x ∈ xs, ∀ m, Valid m.1 →
      Valid (f m x).1 ∧ toMap Peer.id (f m x).1 = g (toMap Peer.id m.1) x) (ht : Valid m.1) :
    Valid (xs.foldl f m).1 ∧ toMap Peer.id (xs.foldl f m).1 = xs.foldl g (toMap Peer.id m.1) := by
  induction xs generalizing m with
  | nil => exact ⟨ht, rfl⟩
  | cons x _ ih =>
    obtain ⟨hv, hmap⟩ := hstep x (by simp) m ht
    obtain ⟨hv', hmap'⟩ := ih (fun y hy => hstep y (by simp [hy])) hv
    exact ⟨hv', by rw [List.foldl_cons, List.foldl_cons, hmap', hmap]⟩

lemma loop_unchanged (hstep : ∀ m x, (f m x).2 = false → f m x = m) (xs : List β)
    (hf : (xs.foldl f m).2 = false) : xs.foldl f m = m := by
  induction xs generalizing m with
  | nil => rfl
  | cons x _ ih =>
    have hsame := ih hf
    rw [List.foldl_cons] at hf ⊢
    rw [hsame] at hf ⊢
    exact hstep m x hf

end Loops

lemma Valid.removePeer_cases (ht : Valid m.1) (id : ℕ) :
    (id ∉ m.1.map Peer.id ∧ removePeer m id = m) ∨
    ∃ xs p ys, m.1 = xs ++ p :: ys ∧ p.id = id ∧ removePeer m id = (xs ++ ys, true) := by
  by_cases hid : id = 0
  · exact .inl ⟨hid ▸ ht.zero_notMem, if_pos hid⟩
  · exact Proofs.removePeer_cases m hid

lemma removePeer_step (ht : Valid m.1) (id : ℕ) : Valid (removePeer m id).1 ∧
      toMap Peer.id (removePeer m id).1 = (toMap Peer.id m.1).erase id := by
  rcases ht.removePeer_cases id with ⟨hno, he⟩ | ⟨xs, p, ys, hl, rfl, he⟩
  · rw [he]
    exact ⟨ht, (erase_absent hno).symm⟩
  · rw [he]
    refine ⟨ht.remove hl, ?_⟩
    rw [hl]
    exact toMap_remove (hl ▸ ht.distinct)

lemma removePeer_ids (ht : Valid m.1) (id : ℕ) :
    ids (removePeer m id).1 = (ids m.1).filter (· ≠ id) := by
  rcases ht.removePeer_cases id with ⟨hno, he⟩ | ⟨xs, p, ys, hl, rfl, he⟩
  · rw [he]
    refine (List.filter_eq_self.mpr fun k hk => ?_).symm
    exact decide_eq_true fun hk' => hno (hk' ▸ hk)
  · have hd : Distinct Peer.id (xs ++ p :: ys) := hl ▸ ht.distinct
    have hkeep : (ids (xs ++ ys)).filter (· ≠ p.id) = ids (xs ++ ys) := by
      refine List.filter_eq_self.mpr fun k hk => ?_
      obtain ⟨q, hq, rfl⟩ := List.mem_map.mp hk
      exact decide_eq_true (hd.other hq)
    rw [he, hl, ← hkeep]
    simp [ids]

lemma remove_loop_ids (rs : List ℕ) (ht : Valid m.1) :
    ids (rs.foldl removePeer m).1 = (ids m.1).filter (· ∉ rs) := by
  induction rs generalizing m with
  | nil => simp
  | cons id _ ih =>
    rw [List.foldl_cons, ih (removePeer_step ht id).1, removePeer_ids ht, List.filter_filter]
    refine List.filter_congr fun k _ => ?_
    simp [Bool.and_comm]

lemma removePeer_unchanged (m : Merging) (id : ℕ) (hf : (removePeer m id).2 = false) :
    removePeer m id = m := by
  by_cases hid : id = 0
  · exact if_pos hid
  · rcases removePeer_cases m hid with ⟨-, he⟩ | ⟨xs, p, ys, -, -, he⟩
    · exact he
    · rw [he] at hf
      cases hf

lemma upsertPeer_step (ht : Valid m.1) (hid : p.id ≠ 0) : Valid (upsertPeer m p).1 ∧
      toMap Peer.id (upsertPeer m p).1 = PeerMap.upsert (toMap Peer.id m.1) p := by
  have hcard := card_keys ht.distinct
  rcases upsertPeer_cases m hid with ⟨hnew, hfull, he⟩ | ⟨hnew, hroom, he⟩ | ⟨xs, q, ys, hl, hq, he⟩
  · rw [he, PeerMap.upsert, if_neg]
    · exact ⟨ht, rfl⟩
    · rw [mem_toMap, hcard, not_or]
      exact ⟨hnew, Nat.not_lt.mpr hfull⟩
  · rw [he, PeerMap.upsert, if_pos (.inr (by rw [hcard]; exact hroom))]
    refine ⟨⟨ht.distinct.concat hnew, fun r hr => ?_, ?_⟩, toMap_concat ht.distinct hnew⟩
    · rcases List.mem_append.mp hr with hr | hr
      · exact ht.nonzero r hr
      · rw [List.mem_singleton.mp hr]
        exact hid
    · rw [List.length_append]
      exact hroom
  · have hd : Distinct Peer.id (xs ++ q :: ys) := hl ▸ ht.distinct
    rw [he, PeerMap.upsert, if_pos (.inl ((mem_toMap _).mpr (by simp [hl, hq]))), hl, hq]
    exact ⟨ht.replace hl hq, toMap_replace hd hq⟩

lemma upsert_loop_ids (ps : List Peer) (hids : ∀ p ∈ ps, p.id ≠ 0) (m : Merging) :
    ∃ added, ids (ps.foldl upsertPeer m).1 = ids m.1 ++ added := by
  induction ps generalizing m with
  | nil => exact ⟨[], by simp⟩
  | cons p _ ih =>
    obtain ⟨ys, hys⟩ := ih (fun q hq => hids q (by simp [hq])) (upsertPeer m p)
    rw [List.foldl_cons, hys]
    rcases upsertPeer_cases m (hids p (by simp)) with
      ⟨-, -, he⟩ | ⟨-, -, he⟩ | ⟨xs, q, zs, hl, hq, he⟩
    · exact ⟨ys, by rw [he]⟩
    · exact ⟨p.id :: ys, by simp [he, ids]⟩
    · exact ⟨ys, by simp [he, hl, hq, ids]⟩

lemma upsertPeer_unchanged (m : Merging) (p : Peer) (hf : (upsertPeer m p).2 = false) :
    upsertPeer m p = m := by
  unfold upsertPeer at hf ⊢
  revert hf
  cases peerIndex m.1 p.id (some p.nodePub) with
  | none =>
    by_cases hfull : m.1.length ≥ tlMaxPeers
    · exact fun _ => if_pos hfull
    · simp [hfull]
  | some => exact fun hf => nomatch hf

lemma patchPeer_step (ht : Valid m.1) (pc : PeerPatch) : Valid (patchPeer m pc).1 ∧
      toMap Peer.id (patchPeer m pc).1 = PeerMap.patch (toMap Peer.id m.1) pc := by
  rcases patchPeer_cases m pc with ⟨hno, he⟩ | ⟨xs, p, ys, b, hl, hid, he, -⟩
  · have habsent : pc.id ∉ m.1.map Peer.id := by
      rcases hno with hz | hno
      · exact hz ▸ ht.zero_notMem
      · exact hno
    rw [he, PeerMap.patch, Finmap.lookup_eq_none.mpr (mt (mem_toMap _).mp habsent)]
    exact ⟨ht, rfl⟩
  · have hlook : (toMap Peer.id m.1).lookup pc.id = some p :=
      (lookup_eq_some ht.distinct).mpr ⟨by simp [hl], hid⟩
    rw [he, PeerMap.patch, hlook, hl, ← hid]
    exact ⟨ht.replace hl rfl, toMap_replace (hl ▸ ht.distinct) rfl⟩

lemma patch_loop_ids (pcs : List PeerPatch) (m : Merging) :
    ids (pcs.foldl patchPeer m).1 = ids m.1 := by
  induction pcs generalizing m with
  | nil => rfl
  | cons pc _ ih =>
    rw [List.foldl_cons, ih]
    rcases patchPeer_cases m pc with ⟨-, he⟩ | ⟨xs, p, ys, b, hl, hid, he, -⟩
    · rw [he]
    · simp [he, hl, ids, Peer.patched]

lemma patchPeer_unchanged (m : Merging) (pc : PeerPatch) (hf : (patchPeer m pc).2 = false) :
    patchPeer m pc = m := by
  rcases patchPeer_cases m pc with ⟨-, he⟩ | ⟨xs, p, ys, b, hl, -, he, hflag⟩
  · exact he
  · rw [he] at hf ⊢
    obtain ⟨hm, hsame⟩ := hflag hf
    rw [hsame, ← hl]
    exact Prod.ext rfl (hf.trans hm.symm)

lemma mergePeers_delta (t : List Peer) (d : PeerDelta) :
    mergePeers t d.nm = d.nm.patches.foldl patchPeer (d.nm.peers.foldl upsertPeer
      (d.nm.removedIds.foldl removePeer (t, false))) := by
  unfold mergePeers
  rw [if_neg]
  rcases d.delta with hp | hd
  · simp [hp]
  · simp [hd]

lemma mergePeers_refines (ht : Valid t) (d : PeerDelta) : Valid (mergePeers t d.nm).1 ∧
      toMap Peer.id (mergePeers t d.nm).1 = PeerMap.merge (toMap Peer.id t) d := by
  rw [mergePeers_delta]
  obtain ⟨hv₁, h₁⟩ := loop_refines (g := fun f id => f.erase id) d.nm.removedIds
    (fun id _ m hm => removePeer_step hm id) (m := (t, false)) ht
  obtain ⟨hv₂, h₂⟩ := loop_refines (g := PeerMap.upsert) d.nm.peers
    (fun p hp m hm => upsertPeer_step hm (d.nonzero p hp)) hv₁
  obtain ⟨hv₃, h₃⟩ := loop_refines (g := PeerMap.patch) d.nm.patches
    (fun pc _ m hm => patchPeer_step hm pc) hv₂
  exact ⟨hv₃, by rw [h₃, h₂, h₁]; rfl⟩

lemma mergePeers_ids (ht : Valid t) (d : PeerDelta) :
    ∃ added, ids (mergePeers t d.nm).1 = (ids t).filter (· ∉ d.nm.removedIds) ++ added := by
  obtain ⟨added, h⟩ := upsert_loop_ids d.nm.peers d.nonzero
    (d.nm.removedIds.foldl removePeer (t, false))
  refine ⟨added, ?_⟩
  rw [mergePeers_delta, patch_loop_ids, h, remove_loop_ids _ ht]

lemma mergePeers_unchanged (t : List Peer) (d : PeerDelta) (hf : (mergePeers t d.nm).2 = false) :
    (mergePeers t d.nm).1 = t := by
  rw [mergePeers_delta] at hf ⊢
  have h₃ := loop_unchanged patchPeer_unchanged d.nm.patches hf
  rw [h₃] at hf ⊢
  have h₂ := loop_unchanged upsertPeer_unchanged d.nm.peers hf
  rw [h₂] at hf ⊢
  exact congrArg Prod.fst (loop_unchanged removePeer_unchanged d.nm.removedIds hf)

lemma upsert_insert (ht : Valid m.1) (hid : p.id ≠ 0)
    (hroom : ¬(peerIndex m.1 p.id (some p.nodePub) = none ∧ m.1.length ≥ tlMaxPeers)) :
    PeerMap.upsert (toMap Peer.id m.1) p = (toMap Peer.id m.1).insert p.id p := by
  refine if_pos ?_
  rw [mem_toMap, card_keys ht.distinct]
  by_contra hno
  rw [not_or, Nat.not_lt] at hno
  exact hroom ⟨(peerIndex_none hid).mpr hno.1, hno.2⟩

lemma upsert_loop_insert (ps : List Peer) (hids : ∀ p ∈ ps, p.id ≠ 0)
    (ht : Valid m.1) (hd : droppedPeers m ps = []) : ps.foldl PeerMap.upsert (toMap Peer.id m.1) =
      ps.foldl (fun f p => f.insert p.id p) (toMap Peer.id m.1) := by
  induction ps generalizing m with
  | nil => rfl
  | cons p _ ih =>
    have hid := hids p (by simp)
    rw [droppedPeers] at hd
    split_ifs at hd with hfull
    obtain ⟨hv, hmap⟩ := upsertPeer_step ht hid
    have hrest := ih (fun q hq => hids q (by simp [hq])) hv hd
    rw [List.foldl_cons, List.foldl_cons, ← upsert_insert ht hid hfull, ← hmap]
    exact hrest

lemma merge_eq_mergeAll (ht : Valid t) (d : PeerDelta) (hd : d.dropped t = []) :
    PeerMap.merge (toMap Peer.id t) d = PeerMap.mergeAll (toMap Peer.id t) d := by
  obtain ⟨hv, h⟩ := loop_refines (g := fun f id => f.erase id) d.nm.removedIds
    (fun id _ m hm => removePeer_step hm id) (m := (t, false)) ht
  have h' := upsert_loop_insert d.nm.peers d.nonzero hv hd
  rw [h] at h'
  exact congrArg (d.nm.patches.foldl PeerMap.patch) h'

def mergedTable (t : PeerTable) (d : PeerDelta) : PeerTable :=
  have hv := (mergePeers_refines (PeerTable.valid t) d).1
  ⟨(mergePeers t.peers d.nm).1, hv.distinct, hv.nonzero, hv.room⟩

def NoneDropped : PeerTable → List PeerDelta → Prop
  | _, [] => True
  | t, d :: ds => d.dropped t.peers = [] ∧ NoneDropped (mergedTable t d) ds

lemma mergedTable_toMap (t : PeerTable) (d : PeerDelta) :
    (mergedTable t d).toMap = t.toMap.merge d :=
  (mergePeers_refines (PeerTable.valid t) d).2

lemma merge_sequence (t : PeerTable) (ds : List PeerDelta) :
    (ds.foldl mergedTable t).toMap = ds.foldl PeerMap.merge t.toMap := by
  induction ds generalizing t with
  | nil => rfl
  | cons _ _ ih => rw [List.foldl_cons, List.foldl_cons, ih, mergedTable_toMap]

lemma merge_sequence_all (t : PeerTable) (ds : List PeerDelta) (hd : NoneDropped t ds) :
    (ds.foldl mergedTable t).toMap = ds.foldl PeerMap.mergeAll t.toMap := by
  induction ds generalizing t with
  | nil => rfl
  | cons d _ ih =>
    have h : t.toMap.merge d = t.toMap.mergeAll d := merge_eq_mergeAll (PeerTable.valid t) d hd.1
    rw [List.foldl_cons, List.foldl_cons, ih _ hd.2, mergedTable_toMap, h]

/-- Merging a delta, and any sequence of them, is the merge of the map by NodeID; the order of the
peers that stay is kept, no NodeID is doubled, and an unchanged table is reported as such. -/
theorem merge_peers_refines_map (t : PeerTable) : (∀ d : PeerDelta,
      (mergedTable t d).peers = (mergePeers t.peers d.nm).1 ∧
      (mergedTable t d).toMap = t.toMap.merge d ∧ (∃ added, ids (mergedTable t d).peers =
        (ids t.peers).filter (· ∉ d.nm.removedIds) ++ added) ∧ (ids (mergedTable t d).peers).Nodup ∧
      (mergedTable t d).peers.length ≤ tlMaxPeers ∧
      ((mergePeers t.peers d.nm).2 = false → (mergedTable t d).peers = t.peers)) ∧
    ∀ ds : List PeerDelta, (ds.foldl mergedTable t).toMap = ds.foldl PeerMap.merge t.toMap ∧
      (NoneDropped t ds → (ds.foldl mergedTable t).toMap = ds.foldl PeerMap.mergeAll t.toMap) := by
  refine ⟨fun d => ⟨rfl, mergedTable_toMap t d, ?_, ?_, (mergedTable t d).room, ?_⟩, fun ds => ?_⟩
  · exact mergePeers_ids (PeerTable.valid t) d
  · exact (mergedTable t d).distinct
  · exact mergePeers_unchanged t.peers d
  · exact ⟨merge_sequence t ds, merge_sequence_all t ds⟩

def barePeer (id : ℕ) : Peer := ⟨id, zeroKey, zeroKey, false, 0, [], []⟩

def peerPair : PeerTable := ⟨[barePeer 1, barePeer 2], by (unfold Distinct; decide), by (decide), by decide⟩

def peerReplaced : PeerDelta where
  nm := { Netmap.cleared with peers := [barePeer 3], peersIsDelta := true, removedIds := [1] }
  delta := .inr rfl
  nonzero := by decide

theorem replaced_peer_merged :
    (mergedTable peerPair peerReplaced).toMap = peerPair.toMap.merge peerReplaced ∧
      ids (mergedTable peerPair peerReplaced).peers = [2, 3] :=
  ⟨((merge_peers_refines_map peerPair).1 peerReplaced).2.1, by decide⟩

end TinyLink.Proofs
