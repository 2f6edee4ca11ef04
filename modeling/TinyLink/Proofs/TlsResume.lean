import TinyLink.Proofs.TlsRecords

/-!
# TLS sessions are offered where and while they are valid

Every session in RAM and every valid record comes from a full handshake with its `host:port`
(`EntryOk`, `RecOk`). A master secret that is nowhere (`Absent`) stays nowhere.
-/

namespace TinyLink.Proofs
open StepSystem

variable {S : TlsStack} {w w' : ResumeWorld S} {E : ResumeRun S} {i : ℕ}
    {derived : List S.Secret} {a : ResumeAction S} {x : ResumeSide S} {st : RtcStore}
  {s : S.Session} {j kept : ℕ}

section Steps
variable {t : ResumeTask} {x : ResumeSide S}

def sideMoved (w : ResumeWorld S) (t : ResumeTask) (x : ResumeSide S) (m : RtcStore)
    (used : List S.Secret) : ResumeWorld S :=
  { w.setSide t x with store := m, used := used }

@[simp] lemma sideMoved_side_self (w : ResumeWorld S) (t : ResumeTask) (x : ResumeSide S)
    (m : RtcStore) (used : List S.Secret) : (sideMoved w t x m used).side t = x := if_pos rfl

lemma sideMoved_side_ne (w : ResumeWorld S) {t u : ResumeTask} (h : u ≠ t) (x : ResumeSide S)
    (m : RtcStore) (used : List S.Secret) : (sideMoved w t x m used).side u = w.side u := if_neg h

/-- What a task does: its side, RTC memory and the secrets derived behind the step. -/
inductive TaskMove (w : ResumeWorld S) (t : ResumeTask) :
    ResumeAction S → ResumeSide S → RtcStore → List S.Secret → Prop
  | takeSlot (host port alloc e) (hpc : (w.side t).pc = .idle) (hslot : (w.side t).slot = some e) :
      TaskMove w t (.take t host port alloc) ⟨none, .checking host port (some e)⟩ w.store w.used
  | restore (host port alloc) (hpc : (w.side t).pc = .idle) (hslot : (w.side t).slot = none) :
      TaskMove w t (.take t host port alloc)
        ⟨none, .checking host port (rtcRestore S w.clocks alloc host port w.store).1⟩
        (rtcRestore S w.clocks alloc host port w.store).2 w.used
  | check (host port e) (hpc : (w.side t).pc = .checking host port e) :
      TaskMove w t (.check t)
        ⟨(w.side t).slot, .connecting host port (takeCheck S w.clocks host port e w.store).1⟩
        (takeCheck S w.clocks host port e w.store).2 w.used
  | failed (host port taken) (hpc : (w.side t).pc = .connecting host port taken) :
      TaskMove w t (.connect t .failed) ⟨(w.side t).slot, .connected host port taken none⟩ w.store
        w.used
  | full (host port taken s)
      (hpc : (w.side t).pc = .connecting host port taken) (hnew : S.master s ∉ w.used) :
      TaskMove w t (.connect t (.full s)) ⟨(w.side t).slot, .connected host port taken (some s)⟩
        w.store (S.master s :: w.used)
  | resumed (host port e s) (hpc : (w.side t).pc = .connecting host port (some e))
      (hsame : S.master s = S.master e.sess) :
      TaskMove w t (.connect t (.resumed s))
        ⟨(w.side t).slot, .connected host port (some e) (some s)⟩ w.store w.used
  | drop (host port taken tls exported alloc) (hpc : (w.side t).pc = .connected host port taken tls) :
      TaskMove w t (.keep t exported alloc) ⟨(w.side t).slot, .idle⟩
        (rtcDrop w.clocks host port w.store) w.used
  | giveUp (host port s exported alloc) (hpc : (w.side t).pc = .connected host port none (some s)) :
      TaskMove w t (.keep t exported alloc) ⟨(w.side t).slot, .idle⟩ w.store w.used
  | kept (host port taken s born exported alloc) (hpc : (w.side t).pc = .connected host port taken (some s))
      (hborn : (∃ e, taken = some e ∧ S.master e.sess = S.master s ∧ born = e.bornUs) ∨
        (born = w.clocks.espUs ∧ ∀ e, taken = some e → S.master e.sess ≠ S.master s)) :
      TaskMove w t (.keep t exported alloc) ⟨(w.side t).slot, .saving ⟨s, born, port, host⟩⟩ w.store
        w.used
  | save (e) (hpc : (w.side t).pc = .saving e) :
      TaskMove w t (.save t) ⟨(w.side t).slot, .storing e⟩ (rtcSave S w.clocks e w.store) w.used
  | store (e) (hpc : (w.side t).pc = .storing e) :
      TaskMove w t (.store t) ⟨some e, .idle⟩ w.store w.used

inductive ResumeMove (w : ResumeWorld S) : ResumeAction S → ResumeWorld S → Prop
  | pass (us) :
      ResumeMove w (.pass us)
        { w with
          nowUs := w.nowUs + us
          clocks := { w.clocks with rtcUs := w.clocks.rtcUs + us, espUs := w.clocks.espUs + us } }
  | warm (mem rtcUs) :
      ResumeMove w (.boot true mem rtcUs) (w.booted true w.store.recs w.clocks.rtcUs)
  | cold (mem rtcUs) :
      ResumeMove w (.boot false mem rtcUs) (w.booted false mem rtcUs)
  | task (t a x m used) (h : TaskMove w t a x m used) : ResumeMove w a (sideMoved w t x m used)

lemma keepBegin_cases (c : Clocks) (exported alloc : Bool) (taken : Option (ResumeEntry S))
    (tls : Option S.Session) (host : CStr) (port : ℕ) :
    keepBegin S c exported alloc taken tls host port = .drop ∨ ∃ s, tls = some s ∧
      ((taken = none ∧ keepBegin S c exported alloc taken tls host port = .giveUp) ∨
      ∃ born result, keepBegin S c exported alloc taken tls host port =
          .save ⟨s, born, port, host⟩ result ∧
        ((∃ e, taken = some e ∧ S.master e.sess = S.master s ∧ born = e.bornUs) ∨
          (born = c.espUs ∧ ∀ e, taken = some e → S.master e.sess ≠ S.master s))) := by
  unfold keepBegin
  dsimp only
  split
  · exact .inl rfl
  · rename_i s hs
    right
    obtain ⟨htls, -⟩ := Option.filter_eq_some_iff.mp hs
    have htls' : tls = some s := by
      split_ifs at htls
      exact htls
    refine ⟨s, htls', ?_⟩
    cases taken with
    | none =>
      cases alloc with
      | false => exact .inl ⟨rfl, rfl⟩
      | true => exact .inr ⟨_, _, rfl, .inr ⟨rfl, fun e he => by cases he⟩⟩
    | some e =>
      right
      dsimp only
      split
      · rename_i hsame
        exact ⟨_, _, rfl, .inl ⟨e, rfl, hsame, rfl⟩⟩
      · rename_i hne
        exact ⟨_, _, rfl, .inr ⟨rfl, fun e' he' => by cases he'; exact hne⟩⟩

lemma resumeStep_cases (h : resumeStep w a = some w') : ResumeMove w a w' := by
  cases a with
  | pass us =>
    cases h
    exact .pass us
  | boot warm mem rtcUs =>
    cases warm with
    | true => cases h; exact .warm mem rtcUs
    | false => cases h; exact .cold mem rtcUs
  | take t host port alloc =>
    simp only [resumeStep] at h
    split at h <;> try cases h
    next hpc =>
      split at h <;> cases h
      next hslot => exact .task t _ _ _ _ (.takeSlot host port alloc _ hpc hslot)
      next hslot => exact .task t _ _ _ _ (.restore host port alloc hpc hslot)
  | check t =>
    simp only [resumeStep] at h
    split at h <;> cases h
    next hpc => exact .task t _ _ _ _ (.check _ _ _ hpc)
  | connect t hs =>
    simp only [resumeStep] at h
    split at h <;> try cases h
    next host port taken hpc =>
      cases hs with
      | failed =>
        cases h
        exact .task t _ _ _ _ (.failed host port taken hpc)
      | full s =>
        simp only [connectStep] at h
        split at h <;> cases h
        next hnew => exact .task t _ _ _ _ (.full host port taken s hpc hnew)
      | resumed s =>
        cases taken with
        | none => cases h
        | some e =>
          simp only [connectStep] at h
          split at h <;> cases h
          next hsame => exact .task t _ _ _ _ (.resumed host port e s hpc hsame)
  | keep t exported alloc =>
    simp only [resumeStep] at h
    split at h <;> try cases h
    next host port taken tls hpc =>
      rcases keepBegin_cases w.clocks exported alloc taken tls host port
        with hk | ⟨s, rfl, ⟨rfl, hk⟩ | ⟨born, result, hk, hborn⟩⟩
      · rw [hk] at h
        cases h
        exact .task t _ _ _ _ (.drop host port taken tls exported alloc hpc)
      · rw [hk] at h
        cases h
        exact .task t _ _ _ _ (.giveUp host port s exported alloc hpc)
      · rw [hk] at h
        cases h
        exact .task t _ _ _ _ (.kept host port taken s born exported alloc hpc hborn)
  | save t =>
    simp only [resumeStep] at h
    split at h <;> cases h
    next hpc => exact .task t _ _ _ _ (.save _ hpc)
  | store t =>
    simp only [resumeStep] at h
    split at h <;> cases h
    next hpc => exact .task t _ _ _ _ (.store _ hpc)

end Steps

section Origin
variable {t u : ResumeTask} {host : CStr} {port : ℕ} {e : ResumeEntry S} {r : TlsRtcRec}
  {x : ResumeSide S} {m : RtcStore} {used : List S.Secret}

def EndedFull (E : ResumeRun S) (i : ℕ) (t : ResumeTask) (host : CStr) (port : ℕ) (s : S.Session) :
    Prop :=
  ∃ j, j < i ∧ E.DerivesAt j t host port s ∧
    ∀ l, j < l → l ≤ i → ∃ taken, E.pc l t = .connected host port taken (some s)

/-- A full handshake with `host:port` derived `m`, and was kept at the time `kept`. -/
def Known (E : ResumeRun S) (i : ℕ) (host : CStr) (port : ℕ) (m : S.Secret) (kept : ℕ) : Prop :=
  ∃ j k t s, E.DerivesAt j t host port s ∧ E.KeepsAt j k t host port s ∧ k < i ∧ S.master s = m ∧
    (E.state k).nowUs = kept

lemma Known.succ {m : S.Secret} (h : Known E i host port m kept) :
    Known E (i + 1) host port m kept := by
  obtain ⟨j, k, t, s, hj, hk, hlt, hrest⟩ := h
  exact ⟨j, k, t, s, hj, hk, Nat.lt_succ_of_lt hlt, hrest⟩

/-- The entry's age on `esp_timer` is the time since the keep of its full handshake. -/
def EntryOk (E : ResumeRun S) (i : ℕ) (e : ResumeEntry S) : Prop :=
  ∃ kept, Known E i e.host e.port (S.master e.sess) kept ∧
    ((E.state i).clocks.espUs : ℤ) - e.bornUs = (E.state i).nowUs - kept

/-- The same for a record, on the RTC timer. -/
def RecOk (E : ResumeRun S) (i : ℕ) (r : TlsRtcRec) : Prop :=
  ∃ s b kept, S.save s = some b ∧ r.sess.take r.len = b ∧
    Known E i (cstr r.host) r.port (S.master s) kept ∧
    ((E.state i).clocks.rtcUs : ℤ) - r.bornRtcUs = (E.state i).nowUs - kept

def PcOk (E : ResumeRun S) (i : ℕ) (t : ResumeTask) : ResumePc S → Prop
  | .connecting host port taken => ∀ e, taken = some e → e.host = host ∧ e.port = port
  | .connected host port taken tls =>
    (∀ e, taken = some e → e.host = host ∧ e.port = port) ∧
      ∀ s, tls = some s → (∃ e, taken = some e ∧ S.master s = S.master e.sess) ∨
        EndedFull E i t host port s
  | _ => True

structure ResumeOk (E : ResumeRun S) (i : ℕ) : Prop where
  entries : ∀ t, ∀ e ∈ ((E.state i).side t).entries, EntryOk E i e
  pc : ∀ t, PcOk E i t (E.pc i t)
  recs : ∀ r ∈ (E.state i).store.recs, tlsRtcValid r = true → RecOk E i r
  one : OnePerHost (E.state i).store.recs
  busy : ∀ t, E.pc i t ≠ .idle → ((E.state i).side t).slot = none

lemma PcOk.succ {pc : ResumePc S} (h : PcOk E i t pc) (hpc : E.pc (i + 1) t = pc) :
    PcOk E (i + 1) t pc := by
  cases pc with
  | connected _ _ taken =>
    refine ⟨h.1, fun s hs => ?_⟩
    rcases h.2 s hs with hres | ⟨j, hj, hder, hall⟩
    · exact .inl hres
    · refine .inr ⟨j, Nat.lt_succ_of_lt hj, hder, fun l hl hle => ?_⟩
      rcases Nat.lt_or_eq_of_le hle with hlt | rfl
      · exact hall l hl (Nat.le_of_lt_succ hlt)
      · exact ⟨taken, hs ▸ hpc⟩
  | _ => exact h

lemma EntryOk.acted (h : EntryOk E i e) (hw : E.state (i + 1) = sideMoved (E.state i) t x m used) :
    EntryOk E (i + 1) e := by
  obtain ⟨kept, hknown, hage⟩ := h
  refine ⟨kept, hknown.succ, ?_⟩
  rw [hw]
  exact hage

lemma RecOk.acted (h : RecOk E i r) (hw : E.state (i + 1) = sideMoved (E.state i) t x m used) :
    RecOk E (i + 1) r := by
  obtain ⟨s, b, kept, hs, hb, hknown, hage⟩ := h
  refine ⟨s, b, kept, hs, hb, hknown.succ, ?_⟩
  rw [hw]
  exact hage

lemma ResumeOk.acted (h : ResumeOk E i) (hw : E.state (i + 1) = sideMoved (E.state i) t x m used)
    (hx : ∀ e ∈ x.entries, EntryOk E i e ∨ EntryOk E (i + 1) e) (hpc : PcOk E (i + 1) t x.pc)
    (hrecs : ∀ r ∈ m.recs, tlsRtcValid r = true → RecOk E i r) (hone : OnePerHost m.recs)
    (hbusy : x.pc ≠ .idle → x.slot = none) : ResumeOk E (i + 1) := by
  have hself : (E.state (i + 1)).side t = x := by rw [hw, sideMoved_side_self]
  have hother : ∀ u, u ≠ t → (E.state (i + 1)).side u = (E.state i).side u := fun u hu => by
    rw [hw, sideMoved_side_ne _ hu]
  have hstore : (E.state (i + 1)).store = m := by rw [hw]; rfl
  refine ⟨fun u e he => ?_, fun u => ?_, fun r hr hv => ?_, hstore ▸ hone, fun u hu => ?_⟩
  · by_cases hu : u = t
    · subst hu
      rcases hx e (hself ▸ he) with hok | hok
      · exact hok.acted hw
      · exact hok
    · exact (h.entries u e (hother u hu ▸ he)).acted hw
  · by_cases hu : u = t
    · subst hu
      rw [ResumeRun.pc, hself]
      exact hpc
    · have hsame : E.pc (i + 1) u = E.pc i u := congrArg ResumeSide.pc (hother u hu)
      rw [hsame]
      exact (h.pc u).succ hsame
  · exact (hrecs r (hstore ▸ hr) hv).acted hw
  · by_cases hut : u = t
    · subst hut
      rw [ResumeRun.pc, hself] at hu
      rw [hself]
      exact hbusy hu
    · rw [ResumeRun.pc, hother u hut] at hu
      rw [hother u hut]
      exact h.busy u hu

lemma entryOk_of_restored (hfaith : S.Faithful) (hrec : RecOk E i r)
    (hfrom : RestoredFrom (E.state i).clocks r e) : EntryOk E i e := by
  obtain ⟨s, b, kept, hsave, hbytes, hknown, hage⟩ := hrec
  obtain ⟨_, hhost, hport, hload, hages⟩ := hfrom
  obtain rfl := hfaith s b e.sess hsave (hbytes ▸ hload)
  refine ⟨kept, ?_, hages.trans hage⟩
  rw [hhost, hport]
  exact hknown

lemma recOk_of_saved (he : EntryOk E i e) (hfrom : SavedFrom (E.state i).clocks e r) :
    RecOk E i r := by
  obtain ⟨kept, hknown, hage⟩ := he
  obtain ⟨hhost, hport, ⟨b, hsave, hbytes⟩, hages⟩ := hfrom
  refine ⟨e.sess, b, kept, hsave, hbytes, ?_, hages.trans hage⟩
  rw [hhost, hport]
  exact hknown

lemma mem_entries_pc {pc : ResumePc S} (hpc : x.pc = pc) (h : e ∈ pc.entries) : e ∈ x.entries :=
  List.mem_append_right _ (hpc ▸ h)

lemma mem_entries_slot (h : x.slot = some e) : e ∈ x.entries :=
  List.mem_append_left _ (by rw [h]; exact List.mem_singleton_self e)

lemma entryOk_kept (h : ResumeOk E i) (hi : i < E.length) {exported alloc : Bool}
    (ha : E.act i = .keep t exported alloc) {taken : Option (ResumeEntry S)}
    {born : ℤ} (hpc : E.pc i t = .connected host port taken (some s))
    (hborn : (∃ e, taken = some e ∧ S.master e.sess = S.master s ∧ born = e.bornUs) ∨
      (born = (E.state i).clocks.espUs ∧ ∀ e, taken = some e → S.master e.sess ≠ S.master s))
    (hw : E.state (i + 1) = sideMoved (E.state i) t x m used) :
    EntryOk E (i + 1) ⟨s, born, port, host⟩ := by
  have hok := h.pc t
  rw [hpc] at hok
  rcases hborn with ⟨e, rfl, hsame, rfl⟩ | ⟨rfl, hne⟩
  · obtain ⟨rfl, rfl⟩ := hok.1 e rfl
    have he := h.entries t e (mem_entries_pc hpc (List.mem_singleton_self e))
    obtain ⟨kept, hknown, hage⟩ := he.acted hw
    exact ⟨kept, hsame ▸ hknown, hage⟩
  · rcases hok.2 s rfl with ⟨e, he, hsame⟩ | ⟨j, hj, hder, hall⟩
    · exact absurd hsame.symm (hne e he)
    · refine ⟨(E.state i).nowUs, ⟨j, i, t, s, hder, ⟨hj, hi, hall, exported, alloc, ha⟩,
        Nat.lt_succ_self i, rfl, rfl⟩, ?_⟩
      rw [hw]
      simp [sideMoved, ResumeWorld.setSide]

lemma ResumeOk.task (hfaith : S.Faithful) (h : ResumeOk E i) (hi : i < E.length)
    (hmove : TaskMove (E.state i) t (E.act i) x m used)
    (hw : E.state (i + 1) = sideMoved (E.state i) t x m used) : ResumeOk E (i + 1) := by
  have hself : E.pc (i + 1) t = x.pc := by rw [ResumeRun.pc, hw, sideMoved_side_self]
  have hpcok := h.pc t
  -- the sessions of a side whose slot stays as it was
  have hside : ∀ pc, (∀ e ∈ pc.entries, EntryOk E i e ∨ EntryOk E (i + 1) e) →
      ∀ e ∈ (⟨((E.state i).side t).slot, pc⟩ : ResumeSide S).entries,
        EntryOk E i e ∨ EntryOk E (i + 1) e := by
    intro pc hpc e he
    rcases List.mem_append.mp he with hslot | hin
    · exact .inl (h.entries t e (List.mem_append_left _ hslot))
    · exact hpc e hin
  have hshrunk : ∀ recs, Shrinks (E.state i).store.recs recs →
      ∀ r ∈ recs, tlsRtcValid r = true → RecOk E i r :=
    fun recs hs r hr hv => h.recs r (hs.mem hr hv) hv
  generalize ha : E.act i = a at hmove
  cases hmove with
  | takeSlot _ _ _ _ _ hslot =>
    refine h.acted hw (fun e' he' => ?_) trivial h.recs h.one (fun _ => rfl)
    obtain rfl := List.mem_singleton.mp he'
    exact .inl (h.entries t _ (mem_entries_slot hslot))
  | restore host port alloc =>
    have hshrinks := rtcRestore_shrinks S (E.state i).clocks alloc host port (E.state i).store
    refine h.acted hw (fun e he => ?_) trivial (hshrunk _ hshrinks) (h.one.shrinks hshrinks)
      (fun _ => rfl)
    obtain ⟨⟨r, hr, hfrom⟩, _⟩ := rtcRestore_entry (Option.mem_toList.mp he)
    exact .inl (entryOk_of_restored hfaith (h.recs r hr hfrom.valid) hfrom)
  | check host port e hpc =>
    have hshrinks := takeCheck_shrinks S (E.state i).clocks host port e (E.state i).store
    refine h.acted hw (hside _ fun e' he' => ?_) (fun e' he' => ?_) (hshrunk _ hshrinks)
      (h.one.shrinks hshrinks) (fun _ => h.busy t (by rw [ResumeRun.pc, hpc]; nofun))
    · obtain ⟨rfl, _⟩ := takeCheck_entry (Option.mem_toList.mp he')
      exact .inl (h.entries t e' (mem_entries_pc hpc (List.mem_singleton_self e')))
    · obtain ⟨_, hhost, hport, _⟩ := takeCheck_entry he'
      exact ⟨hhost, hport⟩
  | failed _ _ _ hpc =>
    rw [ResumeRun.pc, hpc] at hpcok
    exact h.acted hw (hside _ fun e he => .inl (h.entries t e (mem_entries_pc hpc he)))
      ⟨hpcok, nofun⟩ h.recs h.one (fun _ => h.busy t (by rw [ResumeRun.pc, hpc]; nofun))
  | full _ _ taken _ hpc =>
    rw [ResumeRun.pc, hpc] at hpcok
    refine h.acted hw (hside _ fun e he => .inl (h.entries t e (mem_entries_pc hpc he)))
      ⟨hpcok, fun s' hs' => .inr ?_⟩ h.recs h.one
      (fun _ => h.busy t (by rw [ResumeRun.pc, hpc]; nofun))
    cases hs'
    refine ⟨i, Nat.lt_succ_self i, ⟨hi, ⟨taken, hpc⟩, ha⟩, fun l hl hle => ?_⟩
    obtain rfl : l = i + 1 := by omega
    exact ⟨taken, hself⟩
  | resumed _ _ e _ hpc hsame =>
    rw [ResumeRun.pc, hpc] at hpcok
    refine h.acted hw (hside _ fun e he => .inl (h.entries t e (mem_entries_pc hpc he)))
      ⟨hpcok, fun s' hs' => .inl ⟨e, rfl, ?_⟩⟩ h.recs h.one
      (fun _ => h.busy t (by rw [ResumeRun.pc, hpc]; nofun))
    cases hs'
    exact hsame
  | drop host port =>
    have hshrinks := rtcDrop_shrinks (E.state i).clocks host port (E.state i).store
    exact h.acted hw (hside _ nofun) trivial (hshrunk _ hshrinks) (h.one.shrinks hshrinks)
      (fun hne => absurd rfl hne)
  | giveUp =>
    exact h.acted hw (hside _ nofun) trivial h.recs h.one (fun hne => absurd rfl hne)
  | kept _ _ _ _ _ _ _ hpc hborn =>
    refine h.acted hw (hside _ fun e he => ?_) trivial h.recs h.one
      (fun _ => h.busy t (by rw [ResumeRun.pc, hpc]; nofun))
    obtain rfl := List.mem_singleton.mp he
    exact .inr (entryOk_kept h hi ha hpc hborn hw)
  | save e hpc =>
    have he := h.entries t e (mem_entries_pc hpc (List.mem_singleton_self e))
    refine h.acted hw (hside _ fun e' he' => ?_) trivial (fun r hr hv => ?_)
      (h.one.save (E.state i).clocks e) (fun _ => h.busy t (by rw [ResumeRun.pc, hpc]; nofun))
    · obtain rfl := List.mem_singleton.mp he'
      exact .inl he
    · obtain ⟨k, hk⟩ := rtcSave_effect S (E.state i).clocks e h.one
      obtain ⟨n, hn⟩ := List.getElem?_of_mem hr
      rcases hk n r hn hv with ⟨_, hsaved⟩ | ⟨hold, _⟩
      · exact recOk_of_saved he hsaved
      · exact h.recs r (List.mem_of_getElem? hold) hv
  | store e hpc =>
    refine h.acted hw (fun e' he' => ?_) trivial h.recs h.one (fun hne => absurd rfl hne)
    obtain rfl := List.mem_singleton.mp he'
    exact .inl (h.entries t e' (mem_entries_pc hpc he'))

end Origin

section Runs
variable {t u : ResumeTask} {host host' : CStr} {port port' : ℕ} {e : ResumeEntry S} {m : S.Secret}

lemma cold_cleared (w : ResumeWorld S) (mem : List TlsRtcRec) (rtcUs : ℕ) :
    ∀ r ∈ (w.booted false mem rtcUs).store.recs, r = tlsRtcClear := by
  intro r hr
  simp only [ResumeWorld.booted, rtcSweepLocked, tlsRtcSweep, Bool.false_eq_true, if_false,
    Bool.and_false, Bool.false_and, List.mem_map] at hr
  obtain ⟨_, _, hr⟩ := hr
  exact hr.symm

lemma cold_shrinks (recs : List TlsRtcRec) (w : ResumeWorld S) (mem : List TlsRtcRec) (rtcUs : ℕ) :
    Shrinks recs (w.booted false mem rtcUs).store.recs :=
  shrinks_of_none_valid fun r hr => by rw [cold_cleared w mem rtcUs r hr, tlsRtcValid_clear]

lemma warm_shrinks (w : ResumeWorld S) :
    Shrinks w.store.recs (w.booted true w.store.recs w.clocks.rtcUs).store.recs :=
  rtcSweepLocked_shrinks _ _

lemma resumeOk_booted {warm : Bool} {mem : List TlsRtcRec} {rtcUs : ℕ}
    (hw : E.state i = w.booted warm mem rtcUs)
    (hrecs : ∀ r ∈ (E.state i).store.recs, tlsRtcValid r = true → RecOk E i r)
    (hone : OnePerHost (E.state i).store.recs) : ResumeOk E i := by
  have hside : ∀ t, (E.state i).side t = ⟨none, .idle⟩ := fun t => by rw [hw]; rfl
  refine ⟨fun t e he => ?_, fun t => ?_, hrecs, hone, fun t _ => by rw [hside]⟩
  · rw [hside] at he
    cases he
  · rw [ResumeRun.pc, hside]
    trivial

lemma ResumeOk.step (hfaith : S.Faithful) (h : ResumeOk E i) (hi : i < E.length) :
    ResumeOk E (i + 1) := by
  have hmove := resumeStep_cases (E.steps i hi)
  generalize hw : E.state (i + 1) = w' at hmove
  generalize ha : E.act i = a at hmove
  cases hmove with
  | pass =>
    have hside : ∀ t, (E.state (i + 1)).side t = (E.state i).side t := fun t => by rw [hw]
    have hstore : (E.state (i + 1)).store = (E.state i).store := by rw [hw]
    refine ⟨fun t e he => ?_, fun t => ?_, fun r hr hv => ?_, hstore ▸ h.one, fun t ht => ?_⟩
    · obtain ⟨kept, hknown, hage⟩ := h.entries t e (hside t ▸ he)
      refine ⟨kept, hknown.succ, ?_⟩
      rw [hw]
      dsimp only
      omega
    · have hsame : E.pc (i + 1) t = E.pc i t := congrArg ResumeSide.pc (hside t)
      rw [hsame]
      exact (h.pc t).succ hsame
    · obtain ⟨s, b, kept, hs, hb, hknown, hage⟩ := h.recs r (hstore ▸ hr) hv
      refine ⟨s, b, kept, hs, hb, hknown.succ, ?_⟩
      rw [hw]
      dsimp only
      omega
    · rw [ResumeRun.pc, hside] at ht
      rw [hside]
      exact h.busy t ht
  | warm mem =>
    have hshrinks := hw ▸ warm_shrinks (E.state i)
    refine resumeOk_booted hw (fun r hr hv => ?_) (h.one.shrinks hshrinks)
    obtain ⟨s, b, kept, hs, hb, hknown, hage⟩ := h.recs r (hshrinks.mem hr hv) hv
    refine ⟨s, b, kept, hs, hb, hknown.succ, ?_⟩
    rw [hw]
    exact hage
  | cold mem rtcUs =>
    have hshrinks : Shrinks [] (E.state (i + 1)).store.recs := hw ▸ cold_shrinks [] _ mem rtcUs
    refine resumeOk_booted hw (fun r hr hv => ?_) (onePerHost_nil.shrinks hshrinks)
    cases hshrinks.mem hr hv
  | task _ _ _ _ _ hmove => exact h.task hfaith hi (ha ▸ hmove) hw

lemma resumeOk_along (hfaith : S.Faithful) (E : ResumeRun S) :
    ∀ i, i ≤ E.length → ResumeOk E i := by
  refine E.along ?_ fun i hi h => h.step hfaith hi
  obtain ⟨nowUs, c, m, sides, mem, rtcUs, hw⟩ := E.starts
  have hshrinks : Shrinks [] (E.state 0).store.recs := hw ▸ cold_shrinks [] _ mem rtcUs
  refine resumeOk_booted hw (fun r hr hv => ?_) (onePerHost_nil.shrinks hshrinks)
  cases hshrinks.mem hr hv

lemma mem_secrets : m ∈ x.secrets ↔ (∃ e ∈ x.entries, S.master e.sess = m) ∨
      ∃ s, x.pc.tls = some s ∧ S.master s = m := by
  simp [ResumeSide.secrets]

lemma TaskMove.secrets (h : TaskMove w t a x st derived) (hm : m ∈ x.secrets) :
    m ∈ (w.side t).secrets ∨ (m ∉ w.used ∧ m ∈ derived) ∨ ∃ r ∈ w.store.recs, tlsRtcValid r = true ∧
        ∃ s, S.load (r.sess.take r.len) = some s ∧ S.master s = m := by
  have hold : ∀ e ∈ (w.side t).entries, S.master e.sess = m → m ∈ (w.side t).secrets :=
    fun e he hem => mem_secrets.mpr (.inl ⟨e, he, hem⟩)
  have hslot : ∀ e ∈ (w.side t).slot.toList, S.master e.sess = m → m ∈ (w.side t).secrets :=
    fun e he => hold e (List.mem_append_left _ he)
  rcases mem_secrets.mp hm with ⟨e, he, hem⟩ | ⟨s, hs, hsm⟩
  · rcases List.mem_append.mp he with hin | hin
    · -- a slot holds what it held, or the entry of the keep
      cases h with
      | store _ hpc => exact .inl (hold e (mem_entries_pc hpc hin) hem)
      | takeSlot | restore => cases hin
      | _ => exact .inl (hslot e hin hem)
    · cases h with
      | takeSlot _ _ _ _ _ hsome =>
        obtain rfl := List.mem_singleton.mp hin
        exact .inl (hold e (mem_entries_slot hsome) hem)
      | restore =>
        obtain ⟨⟨r, hr, hfrom⟩, _⟩ := rtcRestore_entry (Option.mem_toList.mp hin)
        exact .inr (.inr ⟨r, hr, hfrom.valid, e.sess, hfrom.sess, hem⟩)
      | check _ _ _ hpc =>
        obtain ⟨rfl, _⟩ := takeCheck_entry (Option.mem_toList.mp hin)
        exact .inl (hold e (mem_entries_pc hpc (List.mem_singleton_self e)) hem)
      | failed _ _ _ hpc | full _ _ _ _ hpc | resumed _ _ _ _ hpc | save _ hpc =>
        exact .inl (hold e (mem_entries_pc hpc hin) hem)
      | drop | giveUp | store => cases hin
      | kept _ _ _ s _ _ _ hpc =>
        obtain rfl := List.mem_singleton.mp hin
        exact .inl (mem_secrets.mpr (.inr ⟨s, by rw [hpc]; rfl, hem⟩))
  · cases h with
    | full _ _ _ _ _ hnew =>
      cases hs
      subst hsm
      exact .inr (.inl ⟨hnew, List.mem_cons_self⟩)
    | resumed _ _ e _ hpc hsame =>
      cases hs
      exact .inl (hold e (mem_entries_pc hpc (List.mem_singleton_self e)) (hsame.symm.trans hsm))
    | _ => cases hs

lemma TaskMove.recs (hfaith : S.Faithful) (h : TaskMove w t a x st derived)
    (hone : OnePerHost w.store.recs)
    {r : TlsRtcRec} (hr : r ∈ st.recs) (hv : tlsRtcValid r) :
    r ∈ w.store.recs ∨ ∀ s, S.load (r.sess.take r.len) = some s →
      S.master s ∈ (w.side t).secrets := by
  cases h with
  | restore => exact .inl ((rtcRestore_shrinks _ _ _ _ _ _).mem hr hv)
  | check => exact .inl ((takeCheck_shrinks _ _ _ _ _ _).mem hr hv)
  | drop => exact .inl ((rtcDrop_shrinks _ _ _ _).mem hr hv)
  | save e hpc =>
    obtain ⟨k, hk⟩ := rtcSave_effect S w.clocks e hone
    obtain ⟨n, hn⟩ := List.getElem?_of_mem hr
    rcases hk n r hn hv with ⟨_, hsaved⟩ | ⟨hold, _⟩
    · obtain ⟨b, hb, hbytes⟩ := hsaved.sess
      refine .inr fun s hs => ?_
      obtain rfl := hfaith e.sess b s hb (hbytes ▸ hs)
      exact mem_secrets.mpr (.inl ⟨e, mem_entries_pc hpc (List.mem_singleton_self e), rfl⟩)
    · exact .inl (List.mem_of_getElem? hold)
  | _ => exact .inl hr

lemma TaskMove.used (h : TaskMove w t a x st derived) (hm : m ∈ w.used) : m ∈ derived := by
  cases h with
  | full => exact List.mem_cons_of_mem _ hm
  | _ => exact hm

lemma ResumeMove.used (h : ResumeMove w a w') (hm : m ∈ w.used) : m ∈ w'.used := by
  cases h with
  | task _ _ _ _ used hmove => exact hmove.used hm
  | _ => exact hm

/-- No task holds `m`, and no record would be loaded with it. -/
structure Absent (w : ResumeWorld S) (m : S.Secret) : Prop where
  used : m ∈ w.used
  sides : ∀ t, m ∉ (w.side t).secrets
  recs : ∀ r ∈ w.store.recs, tlsRtcValid r = true →
    ∀ s, S.load (r.sess.take r.len) = some s → S.master s ≠ m

lemma Absent.booted {warm : Bool} {mem : List TlsRtcRec} {rtcUs : ℕ} (h : Absent w m)
    (hshrinks : Shrinks w.store.recs (w.booted warm mem rtcUs).store.recs) :
    Absent (w.booted warm mem rtcUs) m :=
  ⟨h.used, fun _ => List.not_mem_nil, fun r hr hv => h.recs r (hshrinks.mem hr hv) hv⟩

lemma Absent.step (hfaith : S.Faithful) (hone : OnePerHost w.store.recs) (h : Absent w m)
    (hmove : ResumeMove w a w') : Absent w' m := by
  cases hmove with
  | pass => exact ⟨h.used, h.sides, h.recs⟩
  | warm => exact h.booted (warm_shrinks w)
  | cold mem rtcUs => exact h.booted (cold_shrinks _ w mem rtcUs)
  | task t _ _ _ used hmove =>
    refine ⟨hmove.used h.used, fun u hu => ?_, fun r hr hv s hs hsm => ?_⟩
    · by_cases hut : u = t
      · subst hut
        rw [sideMoved_side_self] at hu
        rcases hmove.secrets hu with hin | ⟨hnew, _⟩ | ⟨r, hr, hv, s, hs, hsm⟩
        · exact h.sides u hin
        · exact hnew h.used
        · exact h.recs r hr hv s hs hsm
      · rw [sideMoved_side_ne _ hut] at hu
        exact h.sides u hu
    · rcases hmove.recs hfaith hone hr hv with hin | hin
      · exact h.recs r hin hv s hs hsm
      · exact h.sides t (hsm ▸ hin s hs)

lemma taskMove_at (hi : i < E.length) (ha : E.act i = a)
    (hne : (∀ us, a ≠ .pass us) ∧ ∀ warm mem rtcUs, a ≠ .boot warm mem rtcUs) :
    ∃ t x st used, TaskMove (E.state i) t a x st used ∧
      E.state (i + 1) = sideMoved (E.state i) t x st used := by
  have hmove := resumeStep_cases (E.steps i hi)
  rw [ha] at hmove
  generalize hw : E.state (i + 1) = w' at hmove
  cases hmove with
  | pass us => exact absurd rfl (hne.1 us)
  | warm | cold => exact absurd rfl (hne.2 _ _ _)
  | task t a x st used hmove => exact ⟨t, x, st, used, hmove, rfl⟩

lemma derives_new (h : E.DerivesAt i t host port s) :
    S.master s ∉ (E.state i).used ∧ S.master s ∈ (E.state (i + 1)).used := by
  obtain ⟨hi, _, ha⟩ := h
  obtain ⟨t', x, st, used, hmove, hw⟩ := taskMove_at hi ha ⟨nofun, nofun⟩
  rw [hw]
  cases hmove with
  | full _ _ _ _ _ hnew => exact ⟨hnew, List.mem_cons_self⟩

lemma used_mono (hij : i ≤ j) (hj : j ≤ E.length) (hm : m ∈ (E.state i).used) :
    m ∈ (E.state j).used := by
  refine stretch hij hm fun k _ hkj hm => ?_
  exact (resumeStep_cases (E.steps k (by omega))).used hm

lemma derives_unique {s' : S.Session} (h : E.DerivesAt i t host port s)
    (h' : E.DerivesAt j u host' port' s') (hsame : S.master s = S.master s') :
    host = host' ∧ port = port' := by
  rcases Nat.lt_trichotomy i j with hlt | rfl | hlt
  · exact absurd (used_mono hlt (Nat.le_of_lt h'.1) (hsame ▸ (derives_new h).2)) (derives_new h').1
  · obtain ⟨_, ⟨_, hpc⟩, ha⟩ := h
    obtain ⟨_, ⟨_, hpc'⟩, ha'⟩ := h'
    cases ha.symm.trans ha'
    cases hpc.symm.trans hpc'
    exact ⟨rfl, rfl⟩
  · exact absurd (used_mono hlt (Nat.le_of_lt h.1) (hsame ▸ (derives_new h').2)) (derives_new h).1

lemma Known.unique {kept' : ℕ} (h : Known E i host port m kept)
    (h' : Known E i host' port' m kept') : host = host' ∧ port = port' := by
  obtain ⟨j, k, t, s, hder, _, _, hm, _⟩ := h
  obtain ⟨j', k', t', s', hder', _, _, hm', _⟩ := h'
  exact derives_unique hder hder' (hm.trans hm'.symm)

lemma Known.used (h : Known E i host port m kept) (hi : i ≤ E.length) : m ∈ (E.state i).used := by
  obtain ⟨j, k, t, s, hder, hkeep, hlt, rfl, _⟩ := h
  have hjk := hkeep.1
  exact used_mono (by omega) hi (derives_new hder).2

lemma returns_entry (h : E.ReturnsAt i t host port e) :
    E.pc i t = .checking host port (some e) ∧ e.host = host ∧ e.port = port ∧
      ((E.state i).clocks.espUs : ℤ) - e.bornUs ≤ maxAgeUs := by
  obtain ⟨hi, ha, hpc'⟩ := h
  obtain ⟨t', x, st, used, hmove, hw⟩ := taskMove_at hi ha ⟨nofun, nofun⟩
  rw [ResumeRun.pc, hw] at hpc'
  cases hmove with
  | check _ _ _ hpc =>
    rw [sideMoved_side_self] at hpc'
    obtain ⟨rfl, rfl, hres⟩ := ResumePc.connecting.inj hpc'
    obtain ⟨rfl, hhost, hport, hage⟩ := takeCheck_entry hres
    exact ⟨hpc, hhost, hport, hage⟩

lemma returns_known (h : ResumeOk E i) (hret : E.ReturnsAt i t host port e) :
    ∃ kept, Known E i host port (S.master e.sess) kept ∧ (E.state i).nowUs ≤ kept + maxAgeUs := by
  obtain ⟨hpc, rfl, rfl, hage⟩ := returns_entry hret
  obtain ⟨kept, hknown, hsince⟩ :=
    h.entries t e (mem_entries_pc hpc (List.mem_singleton_self e))
  exact ⟨kept, hknown, by omega⟩

lemma absent_of_fails (hfaith : S.Faithful) (h : ResumeOk E i) (hfail : E.FailsAt i t host port e)
    (hother : S.master e.sess ∉ ((E.state i).side t.other).secrets) :
    Absent (E.state (i + 1)) (S.master e.sess) := by
  obtain ⟨hi, hpc, exported, alloc, ha⟩ := hfail
  obtain ⟨t', x, st, used, hmove, hw⟩ := taskMove_at hi ha ⟨nofun, nofun⟩
  have haimed := h.pc t
  rw [hpc] at haimed
  obtain ⟨rfl, rfl⟩ := haimed.1 e rfl
  obtain ⟨kept, hknown, _⟩ := h.entries t e (mem_entries_pc hpc (List.mem_singleton_self e))
  have hused := hmove.used (hknown.used (Nat.le_of_lt hi))
  rw [ResumeRun.pc] at hpc
  rw [hw]
  cases hmove with
  | drop _ _ _ _ _ _ hpc' =>
    cases hpc.symm.trans hpc'
    refine ⟨hused, fun u hu => ?_, fun r hr hv s hs hsm => ?_⟩
    · by_cases hut : u = t
      · subst hut
        have hslot := h.busy u (by rw [ResumeRun.pc, hpc]; nofun)
        rw [sideMoved_side_self, hslot] at hu
        cases hu
      · have hu' : u = t.other := by cases u <;> cases t <;> first | rfl | exact absurd rfl hut
        rw [sideMoved_side_ne _ hut, hu'] at hu
        exact hother hu
    · have hin := (rtcDrop_shrinks _ _ _ _).mem hr hv
      obtain ⟨s', b, kept', hsave, hbytes, hknown', _⟩ := h.recs r hin hv
      obtain rfl := hfaith s' b s hsave (hbytes ▸ hs)
      exact rtcDrop_none _ h.one hr hv ((hsm ▸ hknown').unique hknown)
  | giveUp _ _ s _ _ hpc' | kept _ _ _ _ _ _ _ hpc' => cases hpc.symm.trans hpc'

lemma absent_along (hfaith : S.Faithful) (hij : i ≤ j) (hj : j ≤ E.length)
    (h : Absent (E.state i) m) : Absent (E.state j) m := by
  refine stretch hij h fun k _ hkj hk => ?_
  exact hk.step hfaith (resumeOk_along hfaith E k (by omega)).one
    (resumeStep_cases (E.steps k (by omega)))

end Runs

/-- A session that `tls_resume_take` returns comes from a full handshake with that host and port,
kept at most `TLS_RESUME_MAX_AGE_S` ago; the secret of a failed connect is not returned again if the
other task does not hold it; RTC memory holds at most one valid record for each, and none behind a
cold boot. -/
theorem resumption_secrets_bounded (hfaith : S.Faithful) (E : ResumeRun S) :
    (∀ i t host port e, E.ReturnsAt i t host port e → ∃ j k u s,
      E.DerivesAt j u host port s ∧ E.KeepsAt j k u host port s ∧ k < i ∧
        S.master s = S.master e.sess ∧ (E.state i).nowUs ≤ (E.state k).nowUs + maxAgeUs) ∧
    (∀ i t host port e, E.FailsAt i t host port e →
      S.master e.sess ∉ ((E.state i).side t.other).secrets →
      ∀ j u host' port' e', i < j → E.ReturnsAt j u host' port' e' →
        S.master e'.sess ≠ S.master e.sess) ∧
    (∀ i, i ≤ E.length → OnePerHost (E.state i).store.recs) ∧
    (∀ i mem rtcUs, i < E.length → E.act i = .boot false mem rtcUs →
      ∀ r ∈ (E.state (i + 1)).store.recs, tlsRtcValid r = false) := by
  have hok := resumeOk_along hfaith E
  refine ⟨fun i t host port e hret => ?_, fun i t host port e hfail hother j u host' port' e' hij
    hret heq => ?_, fun i hi => (hok i hi).one, fun i mem rtcUs hi ha r hr => ?_⟩
  · obtain ⟨kept, ⟨j, k, u, s, hder, hkeep, hlt, hm, rfl⟩, hage⟩ :=
      returns_known (hok i (Nat.le_of_lt hret.1)) hret
    exact ⟨j, k, u, s, hder, hkeep, hlt, hm, hage⟩
  · have habs := absent_along hfaith hij (Nat.le_of_lt hret.1)
      (absent_of_fails hfaith (hok i (Nat.le_of_lt hfail.1)) hfail hother)
    obtain ⟨hpc, _⟩ := returns_entry hret
    exact habs.sides u (mem_secrets.mpr
      (.inl ⟨e', mem_entries_pc hpc (List.mem_singleton_self e'), heq⟩))
  · have hstep := E.steps i hi
    rw [ha] at hstep
    rw [← Option.some.inj hstep] at hr
    rw [cold_cleared _ mem rtcUs r hr, tlsRtcValid_clear]

section Sample

def byteTls : TlsStack where
  Session := UInt8
  Secret := UInt8
  sessionEq := inferInstance
  secretEq := inferInstance
  master := id
  resumable _ := true
  save s := some [s]
  load b := b.head?

lemma byteTls_faithful : byteTls.Faithful := by
  rintro s b s' hsave hload
  cases hsave
  exact (Option.some.inj hload).symm

def relayHost : CStr := cstr (asciiBytes "relay")

def powerOn : ResumeWorld byteTls :=
  ResumeWorld.booted ⟨0, ⟨false, 0, 0⟩, ⟨[], [], false⟩, fun _ => ⟨none, .idle⟩, []⟩ false
    [tlsRtcClear, tlsRtcClear] 0

def restoredOnce : List (ResumeAction byteTls) :=
  [.take .derp relayHost 443 true, .check .derp, .connect .derp (.full (7 : UInt8)),
    .keep .derp true true, .save .derp, .store .derp, .boot true [] 0,
    .take .derp relayHost 443 true, .check .derp, .connect .derp .failed, .keep .derp true true,
    .take .derp relayHost 443 true, .check .derp, .connect .derp (.full (8 : UInt8)),
    .keep .derp true true, .save .derp, .store .derp,
    .take .derp relayHost 443 true, .check .derp, .boot false [tlsRtcClear, tlsRtcClear] 5]

def restoredOnceRun : ResumeRun byteTls :=
  runOf powerOn ⟨_, _, _, _, _, _, rfl⟩ (.pass 0) restoredOnce (by decide +kernel)

theorem failed_session_is_replaced : ∃ (E : ResumeRun byteTls) (e e' : ResumeEntry byteTls),
      E.ReturnsAt 8 .derp relayHost 443 e ∧ E.FailsAt 10 .derp relayHost 443 e ∧
      E.ReturnsAt 18 .derp relayHost 443 e' ∧ byteTls.master e'.sess ≠ byteTls.master e.sess ∧
      (∃ j k u s, E.DerivesAt j u relayHost 443 s ∧ E.KeepsAt j k u relayHost 443 s ∧ k < 8 ∧
        byteTls.master s = byteTls.master e.sess ∧
        (E.state 8).nowUs ≤ (E.state k).nowUs + maxAgeUs) ∧ OnePerHost (E.state 18).store.recs ∧
      ∀ r ∈ (E.state 20).store.recs, tlsRtcValid r = false := by
  have hret : restoredOnceRun.ReturnsAt 8 .derp relayHost 443 ⟨(7 : UInt8), 0, 443, relayHost⟩ :=
    ⟨by decide, rfl, by decide +kernel⟩
  have hfail : restoredOnceRun.FailsAt 10 .derp relayHost 443 ⟨(7 : UInt8), 0, 443, relayHost⟩ :=
    ⟨by decide, by decide +kernel, true, true, rfl⟩
  have hnext : restoredOnceRun.ReturnsAt 18 .derp relayHost 443 ⟨(8 : UInt8), 0, 443, relayHost⟩ :=
    ⟨by decide, rfl, by decide +kernel⟩
  obtain ⟨hknown, hdropped, hone, hcold⟩ :=
    resumption_secrets_bounded byteTls_faithful restoredOnceRun
  exact ⟨_, _, _, hret, hfail, hnext,
    hdropped 10 .derp relayHost 443 _ hfail (by decide +kernel) 18 .derp relayHost 443 _ (by decide)
      hnext,
    hknown 8 .derp relayHost 443 _ hret, hone 18 (by decide), hcold 19 _ _ (by decide) rfl⟩

def storedSecret : List (ResumeAction byteTls) :=
  [.take .derp relayHost 443 true, .check .derp, .connect .derp (.full (7 : UInt8)), .pass 1,
    .keep .derp true true, .save .derp, .store .derp]

def sharedHost : List (ResumeAction byteTls) := storedSecret ++
  [.take .control relayHost 443 true, .check .control, .connect .control .failed,
    .keep .control true true, .take .derp relayHost 443 true, .check .derp]

lemma sharedHost_enabled : allEnabled resumeStep powerOn sharedHost = true := by decide +kernel

def sharedHostRun : ResumeRun byteTls :=
  runOf powerOn ⟨_, _, _, _, _, _, rfl⟩ (.pass 0) sharedHost sharedHost_enabled

/-- The age of an entry counts from when it was kept. -/
def agedSecret : List (ResumeAction byteTls) :=
  storedSecret ++ [.pass maxAgeUs, .take .derp relayHost 443 true, .check .derp]

lemma agedSecret_enabled : allEnabled resumeStep powerOn agedSecret = true := by decide +kernel

def agedSecretRun : ResumeRun byteTls :=
  runOf powerOn ⟨_, _, _, _, _, _, rfl⟩ (.pass 0) agedSecret agedSecret_enabled

theorem secret_outlives_failed_connect :
    (∃ (E : ResumeRun byteTls) (e e' : ResumeEntry byteTls),
      E.FailsAt 10 .control relayHost 443 e ∧ E.ReturnsAt 12 .derp relayHost 443 e' ∧
      byteTls.master e.sess = byteTls.master e'.sess) ∧
    ∃ (E : ResumeRun byteTls) (e : ResumeEntry byteTls) (s : byteTls.Session),
      E.DerivesAt 2 .derp relayHost 443 s ∧ E.ReturnsAt 9 .derp relayHost 443 e ∧
      byteTls.master s = byteTls.master e.sess ∧
      (E.state 2).nowUs + maxAgeUs < (E.state 9).nowUs := by
  refine ⟨⟨sharedHostRun, ⟨(7 : UInt8), 1, 443, relayHost⟩, ⟨(7 : UInt8), 1, 443, relayHost⟩,
    ⟨by decide, by decide +kernel, true, true, rfl⟩, ⟨by decide, rfl, by decide +kernel⟩, rfl⟩, ?_⟩
  exact ⟨agedSecretRun, ⟨(7 : UInt8), 1, 443, relayHost⟩, (7 : UInt8),
    ⟨by decide, ⟨none, by decide +kernel⟩, rfl⟩, ⟨by decide, rfl, by decide +kernel⟩, rfl,
    by decide +kernel⟩

end Sample

end TinyLink.Proofs
