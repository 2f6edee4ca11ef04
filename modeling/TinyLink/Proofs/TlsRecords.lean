import TinyLink.TlsResume

/-!
# What the record functions do to RTC memory

Every function but `rtc_save` only zeroes records (`Shrinks`), and `rtc_save` writes one.
-/

namespace TinyLink.Proofs

variable {recs recs' recs'' : List TlsRtcRec} {r r' : TlsRtcRec} {host : CStr} {port i j : ℕ}

lemma length_takeWhile_lt {b : Bytes} {n : ℕ} (h : (0 : UInt8) ∈ b.take n) :
    (b.takeWhile (· != 0)).length < n := by
  induction b generalizing n with
  | nil => simp at h
  | cons x b ih =>
    cases n with
    | zero => simp at h
    | succ =>
      rw [List.take_succ_cons, List.mem_cons] at h
      by_cases hx : x = 0
      · simp [hx]
      · have hmem := h.resolve_left (Ne.symm hx)
        simpa [List.takeWhile_cons, hx] using ih hmem

lemma cstr_host_lt (hv : tlsRtcValid r) : (cstr r.host).1.length < tlsRtcHostMax := by
  simp only [tlsRtcValid, Bool.and_eq_true, List.contains_iff_mem] at hv
  exact length_takeWhile_lt hv.1.2

lemma tlsRtcFor_iff (hv : tlsRtcValid r) :
    tlsRtcFor r host port = true ↔ cstr r.host = host ∧ r.port = port := by
  have hlt := cstr_host_lt hv
  simp only [tlsRtcFor, strncmpEq, Bool.and_eq_true, decide_eq_true_eq, beq_iff_eq]
  rw [List.take_of_length_le (Nat.le_of_lt hlt)]
  constructor
  · rintro ⟨hp, hh⟩
    refine ⟨Subtype.ext ?_, hp⟩
    have hlen := congrArg List.length hh
    rw [List.length_take] at hlen
    rw [hh, List.take_of_length_le (by omega)]
  · rintro ⟨rfl, rfl⟩
    exact ⟨rfl, (List.take_of_length_le (Nat.le_of_lt hlt)).symm⟩

@[simp] lemma tlsRtcValid_clear : tlsRtcValid tlsRtcClear = false := rfl

lemma cstr_padded (h : CStr) (n : ℕ) (hn : 0 < n) : cstr (h.1 ++ List.replicate n 0) = h := by
  obtain ⟨s, hs⟩ := h
  refine Subtype.ext ?_
  obtain ⟨n, rfl⟩ := Nat.exists_eq_add_of_lt hn
  have hall : ∀ x ∈ s, (x != 0) = true := by
    intro x hx
    rw [bne_iff_ne]
    rintro rfl
    exact hs hx
  simp only [cstr, Nat.zero_add, List.replicate_succ]
  rw [List.takeWhile_append_of_pos hall]
  simp

structure SealedAs (r : TlsRtcRec) (host : CStr) (port born now : ℕ) (b : Bytes) : Prop where
  host : cstr r.host = host
  port : r.port = port
  born : r.bornRtcUs = born
  saved : r.savedRtcUs = now
  bytes : r.sess.take r.len = b

lemma tlsRtcSeal_sealed {born now : ℕ} {b rest : Bytes} (hr : r.sess = b ++ rest)
    (hv : tlsRtcValid (tlsRtcSeal r host port born now b.length).1) :
    SealedAs (tlsRtcSeal r host port born now b.length).1 host port born now b := by
  simp only [tlsRtcSeal] at hv ⊢
  split at hv
  · simp at hv
  · rename_i hcond
    simp only [Bool.or_eq_true, decide_eq_true_eq, not_or] at hcond
    obtain ⟨⟨⟨hhost, _⟩, _⟩, _⟩ := hcond
    have hlen : host.1.length < tlsRtcHostMax := by omega
    rw [if_neg (by simp only [Bool.or_eq_true, decide_eq_true_eq, not_or]; omega)]
    refine ⟨?_, rfl, rfl, rfl, ?_⟩
    · simp only [Nat.min_eq_left (Nat.le_of_lt hlen), List.take_length]
      exact cstr_padded host _ (by omega)
    · simp [hr]

/-- Each valid record of `recs'` is that of `recs` at the same place. -/
def Shrinks (recs recs' : List TlsRtcRec) : Prop :=
  ∀ (i : ℕ) r, recs'[i]? = some r → tlsRtcValid r = true → recs[i]? = some r

lemma Shrinks.rfl : Shrinks recs recs := fun _ _ h _ => h

lemma Shrinks.trans (h : Shrinks recs recs') (h' : Shrinks recs' recs'') : Shrinks recs recs'' :=
  fun i r hr hv => h i r (h' i r hr hv) hv

lemma Shrinks.mem (h : Shrinks recs recs') (hr : r ∈ recs') (hv : tlsRtcValid r) :
    r ∈ recs := by
  obtain ⟨i, hi⟩ := List.getElem?_of_mem hr
  exact List.mem_of_getElem? (h i r hi hv)

lemma shrinks_of_none_valid (h : ∀ r ∈ recs', tlsRtcValid r = false) : Shrinks recs recs' := by
  intro i r hr hv
  rw [h r (List.mem_of_getElem? hr)] at hv
  cases hv

lemma sweep_shrinks (recs : List TlsRtcRec) (warm : Bool) (now age : ℕ) :
    Shrinks recs (tlsRtcSweep recs warm now age).1 := by
  intro i r hr hv
  simp only [tlsRtcSweep, List.getElem?_map, Option.map_eq_some_iff] at hr
  obtain ⟨r₀, hr₀, hr⟩ := hr
  split at hr
  · rw [hr₀, hr]
  · simp [← hr] at hv

lemma clear_shrinks (recs : List TlsRtcRec) (i : ℕ) : Shrinks recs (recs.set i tlsRtcClear) := by
  intro j r hr hv
  rw [List.getElem?_set] at hr
  split at hr
  · split_ifs at hr
    cases hr
    simp at hv
  · exact hr

lemma rtcSweepLocked_shrinks (c : Clocks) (m : RtcStore) :
    Shrinks m.recs (rtcSweepLocked c m).recs := by
  unfold rtcSweepLocked
  split
  · exact .rfl
  · exact sweep_shrinks _ _ _ _

lemma rtcDrop_shrinks (c : Clocks) (host : CStr) (port : ℕ) (m : RtcStore) :
    Shrinks m.recs (rtcDrop c host port m).recs :=
  (rtcSweepLocked_shrinks c m).trans (clear_shrinks _ _)

/-- At most one valid record for each `host:port`. -/
def OnePerHost (recs : List TlsRtcRec) : Prop :=
  ∀ (i j : ℕ) r r', recs[i]? = some r → recs[j]? = some r' → tlsRtcValid r = true →
    tlsRtcValid r' = true → cstr r.host = cstr r'.host → r.port = r'.port → i = j

lemma OnePerHost.shrinks (h : OnePerHost recs) (hs : Shrinks recs recs') : OnePerHost recs' :=
  fun i j r r' hi hj hv hv' => h i j r r' (hs i r hi hv) (hs j r' hj hv') hv hv'

lemma onePerHost_nil : OnePerHost [] := fun _ _ _ _ h => by cases h

lemma find_for (h : recs[tlsRtcFind recs host port]? = some r) :
    tlsRtcValid r = true ∧ cstr r.host = host ∧ r.port = port := by
  obtain ⟨hlt, rfl⟩ := List.getElem?_eq_some_iff.mp h
  have hfind := List.findIdx_getElem (w := hlt)
  rw [Bool.and_eq_true] at hfind
  exact ⟨hfind.1, (tlsRtcFor_iff hfind.1).mp hfind.2⟩

lemma find_lt (h : recs[i]? = some r) (hv : tlsRtcValid r)
    (hfor : cstr r.host = host ∧ r.port = port) : tlsRtcFind recs host port < recs.length := by
  refine List.findIdx_lt_length_of_exists ⟨r, List.mem_of_getElem? h, ?_⟩
  rw [hv, (tlsRtcFor_iff hv).mpr hfor, Bool.and_self]

lemma OnePerHost.eq_find (hone : OnePerHost recs) (h : recs[i]? = some r)
    (hv : tlsRtcValid r) (hfor : cstr r.host = host ∧ r.port = port) :
    i = tlsRtcFind recs host port := by
  have hfound := List.getElem?_eq_getElem (find_lt h hv hfor)
  obtain ⟨hv', hhost, hport⟩ := find_for hfound
  exact hone _ _ _ _ h hfound hv hv' (hfor.1.trans hhost.symm) (hfor.2.trans hport.symm)

lemma rtcDrop_none (c : Clocks) {m : RtcStore} (hone : OnePerHost m.recs)
    (hr : r ∈ (rtcDrop c host port m).recs) (hv : tlsRtcValid r) :
    ¬ (cstr r.host = host ∧ r.port = port) := by
  intro hfor
  have hone' := hone.shrinks (rtcSweepLocked_shrinks c m)
  obtain ⟨i, hi⟩ := List.getElem?_of_mem hr
  obtain rfl := hone'.eq_find (clear_shrinks _ _ i r hi hv) hv hfor
  simp only [rtcDrop, RtcStore.clear] at hi
  rw [List.getElem?_set_self (find_lt (clear_shrinks _ _ _ r hi hv) hv hfor)] at hi
  cases hi
  cases hv

lemma pickLoop_for (all : List TlsRtcRec) (spare oldest : ℕ) : (∃ (k : ℕ) (r : TlsRtcRec),
      recs[k]? = some r ∧ tlsRtcValid r = true ∧ tlsRtcFor r host port = true) →
    ∃ k r, tlsRtcPickLoop all host port i spare oldest recs = i + k ∧ recs[k]? = some r ∧
      tlsRtcValid r = true ∧ tlsRtcFor r host port = true := by
  induction recs generalizing i spare oldest with
  | nil => rintro ⟨k, r, hr, _⟩; simp at hr
  | cons x recs ih =>
    rintro ⟨k, r, hr, hv, hfor⟩
    have hrest : ¬ (tlsRtcValid x = true ∧ tlsRtcFor x host port = true) → ∀ spare oldest,
        ∃ k r, tlsRtcPickLoop all host port (i + 1) spare oldest recs = i + k ∧
          (x :: recs)[k]? = some r ∧ tlsRtcValid r = true ∧ tlsRtcFor r host port = true := by
      intro hx spare oldest
      cases k with
      | zero =>
        cases hr
        exact absurd ⟨hv, hfor⟩ hx
      | succ k =>
        obtain ⟨k', r', hk', hr'⟩ := ih (i := i + 1) spare oldest ⟨k, r, hr, hv, hfor⟩
        exact ⟨k' + 1, r', by rw [hk']; omega, hr'⟩
    unfold tlsRtcPickLoop
    cases hx : tlsRtcValid x with
    | false => exact hrest (by simp [hx]) _ _
    | true =>
      cases hxf : tlsRtcFor x host port with
      | false => exact hrest (by simp [hxf]) _ _
      | true => exact ⟨0, x, rfl, rfl, hx, hxf⟩

lemma OnePerHost.eq_pick (hone : OnePerHost recs) (h : recs[i]? = some r)
    (hv : tlsRtcValid r) (hfor : cstr r.host = host ∧ r.port = port) :
    i = tlsRtcPick recs host port := by
  obtain ⟨k, r', hk, hr', hv', hfor'⟩ := pickLoop_for (i := 0) recs recs.length 0
    ⟨i, r, h, hv, (tlsRtcFor_iff hv).mpr hfor⟩
  obtain ⟨hhost, hport⟩ := (tlsRtcFor_iff hv').mp hfor'
  rw [tlsRtcPick, hk, Nat.zero_add]
  exact hone _ _ _ _ h hr' hv hv' (hfor.1.trans hhost.symm) (hfor.2.trans hport.symm)

section Functions
variable {S : TlsStack} {c : Clocks} {alloc : Bool} {m : RtcStore} {e e' : ResumeEntry S}

lemma rtcRestore_shrinks (S : TlsStack) (c : Clocks) (alloc : Bool) (host : CStr) (port : ℕ)
    (m : RtcStore) : Shrinks m.recs (rtcRestore S c alloc host port m).2.recs := by
  have hsweep := rtcSweepLocked_shrinks c m
  have hclear := hsweep.trans (clear_shrinks (rtcSweepLocked c m).recs
    (tlsRtcFind (rtcSweepLocked c m).recs host port))
  unfold rtcRestore
  dsimp only
  split
  · exact hsweep
  · split
    · exact hsweep
    · split
      · exact hclear
      · split
        · exact hsweep
        · split
          · exact hclear
          · exact hsweep

/-- `e` is the session of the valid record `r`, with its age. -/
structure RestoredFrom (c : Clocks) (r : TlsRtcRec) (e : ResumeEntry S) : Prop where
  valid : tlsRtcValid r = true
  host : e.host = cstr r.host
  port : e.port = r.port
  sess : S.load (r.sess.take r.len) = some e.sess
  age : (c.espUs : ℤ) - e.bornUs = c.rtcUs - r.bornRtcUs

lemma usable_age {now max age : ℕ} (h : tlsRtcUsable r host port now max = some age) :
    (age : ℤ) = now - r.bornRtcUs := by
  simp only [tlsRtcUsable, tlsRtcFresh] at h
  split at h
  · cases h
  · split at h
    · cases h
    · split at h
      · cases h
      · rename_i hlt
        simp only [Bool.or_eq_true, decide_eq_true_eq] at hlt
        split_ifs at h
        cases h
        omega

lemma rtcRestore_entry (h : (rtcRestore S c alloc host port m).1 = some e) :
    (∃ r ∈ m.recs, RestoredFrom c r e) ∧ e.host = host ∧ e.port = port := by
  unfold rtcRestore at h
  dsimp only at h
  split at h
  · cases h
  · rename_i r hr
    obtain ⟨hv, hhost, hport⟩ := find_for hr
    split at h
    · cases h
    · split at h
      · cases h
      · rename_i age hage
        split_ifs at h
        split at h
        · cases h
        · rename_i s hs
          cases h
          have hmem := (rtcSweepLocked_shrinks c m).mem (List.mem_of_getElem? hr) hv
          refine ⟨⟨r, hmem, hv, rfl, hport.symm, hs, ?_⟩, hhost, rfl⟩
          have hage' := usable_age hage
          dsimp only
          omega

lemma takeCheck_shrinks (S : TlsStack) (c : Clocks) (host : CStr) (port : ℕ)
    (e : Option (ResumeEntry S)) (m : RtcStore) :
    Shrinks m.recs (takeCheck S c host port e m).2.recs := by
  unfold takeCheck
  split
  · exact .rfl
  · dsimp only
    split
    · dsimp only
      split
      · exact rtcDrop_shrinks _ _ _ _
      · exact .rfl
    · exact .rfl

lemma takeCheck_entry {taken : Option (ResumeEntry S)}
    (h : (takeCheck S c host port taken m).1 = some e) :
    taken = some e ∧ e.host = host ∧ e.port = port ∧ (c.espUs : ℤ) - e.bornUs ≤ maxAgeUs := by
  unfold takeCheck at h
  split at h
  · cases h
  · dsimp only at h
    split_ifs at h with hcond
    cases h
    simp only [Bool.or_eq_true, decide_eq_true_eq, not_or, not_not, Int.not_lt] at hcond
    exact ⟨rfl, hcond.1.2, hcond.1.1, hcond.2⟩

/-- The record is that of `e`, with its age. -/
structure SavedFrom (c : Clocks) (e : ResumeEntry S) (r : TlsRtcRec) : Prop where
  host : cstr r.host = e.host
  port : r.port = e.port
  sess : ∃ b, S.save e.sess = some b ∧ r.sess.take r.len = b
  age : (c.rtcUs : ℤ) - r.bornRtcUs = c.espUs - e.bornUs

lemma sealSession_saved {age : ℕ} (hage : (age : ℤ) = c.espUs - e.bornUs) (hle : age ≤ c.rtcUs)
    (hv : tlsRtcValid (sealSession S c e age r)) :
    SavedFrom c e (sealSession S c e age r) := by
  unfold sealSession at hv ⊢
  split at hv
  · simp at hv
  · rename_i b hb
    split at hv
    · simp at hv
    · rename_i hlen
      rw [if_neg hlen]
      obtain ⟨hhost, hport, hborn, _, hbytes⟩ := tlsRtcSeal_sealed rfl hv
      refine ⟨hhost, hport, ⟨b, hb, hbytes⟩, ?_⟩
      rw [hborn]
      omega

lemma rtcSave_effect (S : TlsStack) (c : Clocks) (e : ResumeEntry S) {m : RtcStore}
    (hone : OnePerHost m.recs) : ∃ k, ∀ (i : ℕ) r, (rtcSave S c e m).recs[i]? = some r →
      tlsRtcValid r = true → (i = k ∧ SavedFrom c e r) ∨
        (m.recs[i]? = some r ∧ (i ≠ k → ¬ (cstr r.host = e.host ∧ r.port = e.port))) := by
  have hsweep : Shrinks m.recs (tlsRtcSweep (rtcSweepLocked c m).recs true c.rtcUs maxAgeUs).1 :=
    (rtcSweepLocked_shrinks c m).trans (sweep_shrinks _ _ _ _)
  have hone' := hone.shrinks hsweep
  unfold rtcSave
  dsimp only
  split
  · refine ⟨tlsRtcFind (tlsRtcSweep (rtcSweepLocked c m).recs true c.rtcUs maxAgeUs).1 e.host e.port,
      fun i r hi hv => ?_⟩
    have hi' := clear_shrinks _ _ i r hi hv
    exact .inr ⟨hsweep i r hi' hv, fun hne hfor => hne (hone'.eq_find hi' hv hfor)⟩
  · rename_i hage
    simp only [Bool.or_eq_true, decide_eq_true_eq, not_or, Int.not_lt] at hage
    refine ⟨tlsRtcPick (tlsRtcSweep (rtcSweepLocked c m).recs true c.rtcUs maxAgeUs).1 e.host e.port,
      fun i r hi hv => ?_⟩
    rw [List.getElem?_modify] at hi
    obtain ⟨r₀, hr₀, hr⟩ := Option.map_eq_some_iff.mp hi
    split at hr
    · rename_i hk
      subst hr
      exact .inl ⟨hk.symm, sealSession_saved (by omega) (by omega) hv⟩
    · subst hr
      exact .inr ⟨hsweep i r₀ hr₀ hv, fun hne hfor => hne (hone'.eq_pick hr₀ hv hfor)⟩

lemma OnePerHost.save (hone : OnePerHost m.recs) (c : Clocks) (e : ResumeEntry S) :
    OnePerHost (rtcSave S c e m).recs := by
  obtain ⟨k, hk⟩ := rtcSave_effect S c e hone
  intro i j r r' hi hj hv hv' hhost hport
  rcases hk i r hi hv with ⟨hik, hsaved⟩ | ⟨hold, hother⟩
  · rcases hk j r' hj hv' with ⟨hjk, _⟩ | ⟨_, hother'⟩
    · rw [hik, hjk]
    · by_contra hne
      exact hother' (fun hjk => hne (hik.trans hjk.symm))
        ⟨hhost.symm.trans hsaved.host, hport.symm.trans hsaved.port⟩
  · rcases hk j r' hj hv' with ⟨hjk, hsaved⟩ | ⟨hold', _⟩
    · by_contra hne
      exact hother (fun hik => hne (hik.trans hjk.symm))
        ⟨hhost.trans hsaved.host, hport.trans hsaved.port⟩
    · exact hone i j r r' hold hold' hv hv' hhost hport

end Functions

end TinyLink.Proofs
