import TinyLink.Library.History
import TinyLink.Proofs.WarmSteps

/-!
# The decision on a warm session

A session is pending from one successful start until a netmap confirms it, and meanwhile the record
it runs on stands.
-/

namespace TinyLink.Proofs
open WarmDevice History

variable {cfg : WarmConfig} {s s' : WarmDevice} {r : WarmRec} {e : WarmEvent} {nm : Netmap}

lemma smPoll_cases (sm : WarmSm) (lp : Bool) (m : ℕ) (c : WarmClock) :
    (tlWarmSmPoll sm lp m c = (sm, .nothing) ∧ (lp = true → sm.restart = false)) ∨
    (tlWarmSmPoll sm lp m c = (sm, .netmap) ∧ lp = true ∧ sm.restart = true) ∨
    ∃ why, (why = .boundTime ∨ why = .boundAge) ∧ sm.state = .pending ∧ sm.pendingS ≠ 0 ∧
      sm.boundFired = false ∧ (lp = true → sm.restart = false) ∧
      tlWarmSmPoll sm lp m c = ({ sm with boundFired := true, pendingS := 0 }, why) := by
  unfold tlWarmSmPoll
  by_cases hr : lp = true ∧ sm.restart = true
  · right
    left
    simp [hr]
  have hr' : (lp && sm.restart) = false := by
    cases lp <;> cases h : sm.restart <;> simp_all
  have hlp : lp = true → sm.restart = false := by
    intro h
    cases hre : sm.restart
    · rfl
    · exact absurd ⟨h, hre⟩ hr
  rw [hr']
  simp only [Bool.false_eq_true, if_false, tlWarmSmBound]
  by_cases hp : sm.state = .pending ∧ sm.pendingS ≠ 0 ∧ sm.boundFired = false
  · obtain ⟨hst, hne, hb⟩ := hp
    simp only [hst, hne, hb, ne_eq, not_true_eq_false, decide_false, Bool.or_self, Bool.false_eq_true,
      if_false]
    split_ifs
    · exact .inr (.inr ⟨_, .inl rfl, trivial, not_false, trivial, hlp, rfl⟩)
    · exact .inr (.inr ⟨_, .inr rfl, trivial, not_false, trivial, hlp, rfl⟩)
    · exact .inl ⟨rfl, hlp⟩
  · left
    refine ⟨if_pos ?_, hlp⟩
    simp only [Bool.or_eq_true, decide_eq_true_eq]
    by_contra hno
    simp only [not_or, not_not, Bool.not_eq_true] at hno
    exact hp ⟨hno.1.1, hno.1.2, hno.2⟩

lemma smNetmap_cases (sm : WarmSm) (was : WarmRec) (i : WarmNm) :
    (∃ act why, (act = .cold ∨ act = .late ∨ act = .wait) ∧
      tlWarmSmNetmap sm was i = (sm, act, why)) ∨
    (∃ now why, sm.state = .pending ∧ sm.boundFired = false ∧ i.now = some now ∧
      (tlWarmDiff was now).restart = false ∧ tlWarmSmNetmap sm was i =
        ({ sm with state := .confirmed, pendingS := 0, unsettled := true }, .confirm, why)) ∨
    ∃ why, sm.state = .pending ∧ tlWarmSmNetmap sm was i =
      ({ sm with restart := true, pendingS := 0 }, .restart, why) := by
  unfold tlWarmSmNetmap
  by_cases hst : sm.state = .pending
  swap
  · exact .inl ⟨_, _, .inl rfl, if_pos hst⟩
  rw [if_neg (not_not.mpr hst)]
  by_cases hb : sm.boundFired = true
  · exact .inl ⟨_, _, .inr (.inl rfl), if_pos hb⟩
  rw [if_neg hb]
  cases hn : i.now with
  | none =>
    split_ifs
    · exact .inr (.inr ⟨_, hst, rfl⟩)
    · exact .inr (.inr ⟨_, hst, rfl⟩)
    · exact .inl ⟨_, _, .inr (.inr rfl), rfl⟩
    · exact .inr (.inr ⟨_, hst, rfl⟩)
  | some now =>
    dsimp only
    split_ifs with _ _ hd
    · exact .inr (.inr ⟨_, hst, rfl⟩)
    · exact .inr (.inr ⟨_, hst, rfl⟩)
    · exact .inr (.inl ⟨now, _, hst, by simpa using hb, rfl, by simpa using hd, rfl⟩)
    · exact .inr (.inr ⟨_, hst, rfl⟩)

def beforeGate (s : WarmDevice) : Bool :=
  match s.lp with
  | .gate _ | .mark true | .shut true | .halted true _ => true
  | .frame _ | .handle _ _ | .cold | .stage => false
  | _ => !s.gateLp

def atGate : LpPc → Bool
  | .gate _ | .frame _ | .handle _ _ | .cold | .stage => true
  | _ => false

def waits : LpPc → Bool
  | .cold | .stage => false
  | .handle _ warm => warm
  | _ => true

def writes : TelPc → Bool
  | .wait _ _ | .store _ _ | .settle _ => true
  | _ => false

def gaveUp : LpPc → Bool
  | .shut true | .halted true _ => true
  | _ => false

/-- A store with this outcome followed a confirmation. -/
def StoredAfter (l : List WarmEvent) (rc : StoreRc) : Prop :=
  ∃ past e rest, l = past ++ e :: rest ∧ e.isConfirm = true ∧ .stored rc ∈ rest

structure RunsOn (l : List WarmEvent) (w : WarmRec) : Prop where
  begun : ∃ r, .began r ∈ l
  record : ∀ r, .began r ∈ l → r = w
  address : w.self ≠ []

/-- What is known of an event from what came before it. -/
def Decided (nodePub controlPub : Key) (past : List WarmEvent) : WarmEvent → Prop
  | .polled held why =>
    (why = .boundTime ∨ why = .boundAge →
      ∀ f ∈ past, f.isBound = false ∧ f.isConfirm = false ∧ f.isRefusal = false) ∧
    (held = true → (∃ f ∈ past, f.isRefusal = true) → why = .netmap)
  | .answered .confirm self t =>
    (∀ f ∈ past, f.isBound = false) ∧ (∃ r, .began r ∈ past) ∧
      ∃ p, t = some p ∧ ∀ r, .began r ∈ past → r.RunsAgainst self p nodePub controlPub
  | .settled => ∃ rc, rc ≠ .failed ∧ StoredAfter past rc
  | _ => True

structure Session (s : WarmDevice) : Prop where
  blank : s.main = .booting → s.log = []
  gated : beforeGate s = true → s.sm.restart = false ∧ s.sm.state ≠ .confirmed ∧ s.staged = none
  shut : beforeGate s = false →
    s.gateShut = true ∧ s.main ≠ .booting ∧ s.main ≠ .holding ∧ s.main ≠ .starting
  heard : atGate s.lp = true → s.gateLp = true
  early : s.main ≠ .leaving → s.main ≠ .done → s.sm.state ≠ .pending ∧ s.sm.boundFired = false
  unbegun : s.main = .booting ∨ s.main = .idle ∨ s.main = .holding → ∀ r, .began r ∉ s.log
  begun : s.main = .starting → RunsOn s.log s.nvs.record
  staged : s.staged = none → writes s.tel = false
  pending : s.sm.state = .pending → RunsOn s.log s.nvs.record ∧ s.staged = none ∧ waits s.lp = true
  record : s.nvs.valid = true → s.nvs.record.self ≠ []
  bound : ∀ e ∈ s.log, e.isBound = true → s.sm.boundFired = true
  confirm : ∀ e ∈ s.log, e.isConfirm = true → s.sm.state = .confirmed
  refusal : ∀ e ∈ s.log, e.isRefusal = true → s.sm.restart = true ∧ s.sm.pendingS = 0
  unsettled : s.sm.unsettled = true → ∃ e ∈ s.log, e.isConfirm = true
  stored : ∀ rc, s.tel = .settle rc → (∃ e ∈ s.log, e.isConfirm = true) → StoredAfter s.log rc
  hung : .restarted true ∈ s.log → gaveUp s.lp = true
  decided : Each (Decided s.nodePub s.controlPub) s.log

lemma session_boot (rtc : WarmRtc) (reason : ℕ) (h : List WarmBoot) :
    Session (.boot rtc reason h) := by
  constructor
  case gated => exact fun _ => ⟨rfl, nofun, rfl⟩
  case shut => nofun
  case early => exact fun _ _ => ⟨nofun, rfl⟩
  case decided => exact each_nil
  all_goals simp [WarmDevice.boot, WarmSm.zero, writes, atGate, WarmNvs.empty]

lemma Session.gateOpen (hs : Session s)
    (h : s.gateShut ≠ true ∨ s.main = .holding ∨ s.main = .starting) : beforeGate s = true := by
  by_contra hb
  obtain ⟨hshut, -, hh, hst⟩ := hs.shut (by simpa using hb)
  exact h.elim (· hshut) fun h => h.elim hh hst

lemma Session.writing (hs : Session s) (hw : writes s.tel) : s.staged ≠ none :=
  fun h => absurd (hs.staged h) (by simp [hw])

lemma Session.not_waiting (hs : Session s) (hw : waits s.lp = false) : s.sm.state ≠ .pending :=
  fun h => absurd (hs.pending h).2.2 (by simp [hw])

lemma Session.heardWork (hs : Session s) (hl : atGate s.lp) (hn : ∀ nm, s.lp ≠ .gate nm) :
    beforeGate s = false ∧ s.gateLp = true ∧ gaveUp s.lp = false := by
  refine ⟨?_, hs.heard hl, ?_⟩
  · unfold beforeGate
    cases hlp : s.lp <;> simp_all [atGate]
  · cases hlp : s.lp <;> simp_all [atGate, gaveUp]

lemma warmGetAll_length {α : Type} {get : Bytes → Option α} {size n : ℕ} {b : Bytes} {l : List α}
    (h : warmGetAll get size n b = some l) : l.length = n := by
  induction n generalizing b l with
  | zero =>
    obtain rfl := Option.some.inj h
    rfl
  | succ n ih =>
    rw [warmGetAll, Option.bind_eq_bind, Option.bind_eq_some_iff] at h
    obtain ⟨a, -, h⟩ := h
    rw [Option.bind_eq_bind, Option.bind_eq_some_iff] at h
    obtain ⟨l', hl', h⟩ := h
    obtain rfl := Option.some.inj h
    rw [List.length_cons, ih hl']

lemma decode_self {b : Bytes} (h : tlWarmDecode b = some r) : r.self ≠ [] := by
  unfold tlWarmDecode at h
  dsimp only at h
  split_ifs at h with _ hc
  simp only [Option.bind_eq_bind, Option.bind_eq_some_iff] at h
  obtain ⟨self, hself, addr, -, ep, -, h⟩ := h
  obtain rfl := Option.some.inj h
  intro hnil
  have hlen := warmGetAll_length hself
  rw [show self = [] from hnil, List.length_nil] at hlen
  refine hc ?_
  rw [← hlen]
  rfl

lemma loaded_record (rtc : WarmRtc) (reason : ℕ) (eraseOk : Bool) (read : WarmRead)
    (hv : (tlWarmLoad rtc reason eraseOk read).nvs.valid) :
    (tlWarmLoad rtc reason eraseOk read).nvs.record.self ≠ [] := by
  unfold tlWarmLoad at hv ⊢
  dsimp only at hv ⊢
  split at hv
  case isTrue => cases hv
  case isFalse hne =>
    rw [if_neg hne]
    cases read with
    | absent | tooLong => cases hv
    | blob b =>
      dsimp only at hv ⊢
      cases hd : tlWarmDecode b with
      | none =>
        rw [hd] at hv
        cases hv
      | some => exact decode_self hd

lemma Session.lp (hs : Session s) {lp : LpPc} {gateLp gateShut nvsShut dataplaneStarted : Bool}
    {tables : WarmTables} {selfV4 : ℕ}
    (hb : let t := { s with lp, gateLp, gateShut, nvsShut, dataplaneStarted, tables, selfV4 }
      (beforeGate t = true → beforeGate s = true) ∧
      (beforeGate t = false → gateShut = true ∧ s.main ≠ .booting ∧ s.main ≠ .holding ∧
        s.main ≠ .starting))
    (hg : atGate lp = true → gateLp = true)
    (hw : s.sm.state = .pending → waits s.lp = true → waits lp = true)
    (hh : gaveUp s.lp = true → gaveUp lp = true) :
    Session { s with lp, gateLp, gateShut, nvsShut, dataplaneStarted, tables, selfV4 } :=
  { hs with
    gated := fun h => hs.gated (hb.1 h)
    shut := hb.2
    heard := hg
    pending := fun h =>
      have ⟨hr, hst, hlp⟩ := hs.pending h
      ⟨hr, hst, hw h hlp⟩
    hung := fun h => hh (hs.hung h) }

lemma Session.tel (hs : Session s) {tel : TelPc} {nvsShut : Bool}
    (hw : s.staged = none → writes tel = false) (hr : ∀ rc, tel ≠ .settle rc) :
    Session { s with tel, nvsShut } :=
  { hs with
    staged := hw
    stored := fun rc h => absurd h (hr rc) }

lemma Session.leave (hs : Session s) {main : MainPc} (hm : main = .leaving ∨ main = .done) :
    Session { s with main } := by
  have hno : main ≠ .booting ∧ main ≠ .holding ∧ main ≠ .starting ∧ main ≠ .idle := by
    rcases hm with rfl | rfl <;> simp
  exact
    { hs with
      blank := fun h => absurd h hno.1
      shut := fun h => ⟨(hs.shut h).1, hno.1, hno.2.1, hno.2.2.1⟩
      early := fun h h' => (hm.elim h h').elim
      unbegun := fun h => (h.elim hno.1 fun h => h.elim hno.2.2.2 hno.2.1).elim
      begun := fun h => absurd h hno.2.2.1 }

lemma Session.takeStart (hs : Session s) (hm : s.main = .idle) : Session s.takeStart := by
  unfold WarmDevice.takeStart
  split_ifs with hg
  · exact hs.leave (.inr rfl)
  · have hbefore := hs.gateOpen (.inl hg)
    refine
      { hs with
        blank := nofun
        shut := fun h => ?_
        early := fun _ _ => hs.early (by simp [hm]) (by simp [hm])
        unbegun := fun _ => hs.unbegun (by simp [hm])
        begun := nofun }
    exact absurd (h.symm.trans hbefore) (by simp)

lemma Session.load (hs : Session s) (hm : s.main = .booting) (np cp : Key) (eraseOk : Bool)
    (read : WarmRead) : Session (s.load np cp eraseOk read) := by
  have hst := (hs.early (by simp [hm]) (by simp [hm])).1
  exact
    { hs with
      blank := nofun
      shut := fun h => absurd hm (hs.shut h).2.1
      early := fun _ _ => hs.early (by simp [hm]) (by simp [hm])
      unbegun := fun _ => hs.unbegun (by simp [hm])
      begun := nofun
      pending := fun h => absurd h hst
      record := fun h => loaded_record s.rtc s.resetReason eraseOk read h
      decided := by
        have hlog : (s.load np cp eraseOk read).log = [] := hs.blank hm
        rw [hlog]
        exact each_nil }

lemma runsOn_append {l : List WarmEvent} {w : WarmRec} (h : RunsOn l w)
    (he : ∀ r, e ≠ .began r) : RunsOn (l ++ [e]) w := by
  obtain ⟨⟨r, hr⟩, hrec, haddr⟩ := h
  refine ⟨⟨r, by simp [hr]⟩, fun r' hr' => ?_, haddr⟩
  rcases List.mem_append.mp hr' with h | h
  · exact hrec r' h
  · exact absurd (List.mem_singleton.mp h).symm (he r')

lemma storedAfter_append {l : List WarmEvent} {rc : StoreRc} (h : StoredAfter l rc)
    (es : List WarmEvent) : StoredAfter (l ++ es) rc := by
  obtain ⟨past, e, rest, rfl, he, hrc⟩ := h
  exact ⟨past, e, rest ++ es, by simp, he, by simp [hrc]⟩

section
variable (hs : Session s)
include hs

lemma Session.undecided (hb : s.sm.boundFired = false)
    (hst : s.sm.state ≠ .confirmed) (hre : s.sm.restart = false ∨ s.sm.pendingS ≠ 0) :
    ∀ e ∈ s.log, e.isBound = false ∧ e.isConfirm = false ∧ e.isRefusal = false := by
  intro e he
  refine ⟨?_, ?_, ?_⟩
  · by_contra h
    exact absurd (hs.bound e he (by simpa using h)) (by simp [hb])
  · by_contra h
    exact hst (hs.confirm e he (by simpa using h))
  · by_contra h
    obtain ⟨hr, hp⟩ := hs.refusal e he (by simpa using h)
    rcases hre with hno | hno
    · exact absurd hr (by simp [hno])
    · exact hno hp

lemma Session.note (hm : s.main ≠ .booting)
    (hbegan : ∀ r, e ≠ .began r) (hb : e.isBound = true → s.sm.boundFired = true)
    (hc : e.isConfirm = false) (hr : e.isRefusal = true → s.sm.restart = true ∧ s.sm.pendingS = 0)
    (hh : e = .restarted true → gaveUp s.lp = true)
    (hd : Decided s.nodePub s.controlPub s.log e) : Session (s.note e) :=
  { hs with
    blank := fun h => absurd h hm
    unbegun := fun h r hr =>
      (List.mem_append.mp hr).elim (hs.unbegun h r) fun h =>
        hbegan r (List.mem_singleton.mp h).symm
    begun := fun h => runsOn_append (hs.begun h) hbegan
    pending := fun h =>
      have ⟨hr, hst, hlp⟩ := hs.pending h
      ⟨runsOn_append hr hbegan, hst, hlp⟩
    bound := List.forall_mem_append.mpr ⟨hs.bound, List.forall_mem_singleton.mpr hb⟩
    confirm := List.forall_mem_append.mpr ⟨hs.confirm, by simp [hc]⟩
    refusal := List.forall_mem_append.mpr ⟨hs.refusal, List.forall_mem_singleton.mpr hr⟩
    unsettled := fun h =>
      have ⟨f, hf, hfc⟩ := hs.unsettled h
      ⟨f, List.mem_append_left _ hf, hfc⟩
    stored := fun rc h ⟨f, hf, hfc⟩ => by
      have hold : f ∈ s.log := by
        rcases List.mem_append.mp hf with hf | hf
        · exact hf
        · rw [List.mem_singleton.mp hf, hc] at hfc
          cases hfc
      exact storedAfter_append (hs.stored rc h ⟨f, hold, hfc⟩) [e]
    hung := fun h => (List.mem_append.mp h).elim hs.hung fun h => hh (List.mem_singleton.mp h).symm
    decided := each_concat.mpr ⟨hs.decided, hd⟩ }

lemma Session.go (hm : s.main = .holding) (regReused heapOk : Bool)
    (nowUnix : ℤ) : Session (s.go regReused heapOk nowUnix) := by
  rcases go_cases s regReused heapOk nowUnix with he | ⟨-, hv, he⟩
  · rw [he]
    exact hs.leave (.inl rfl)
  rw [he]
  have hearly := hs.early (by simp [hm]) (by simp [hm])
  have hbefore := hs.gateOpen (.inr (.inl hm))
  obtain ⟨hre, hst, hstaged⟩ := hs.gated hbefore
  have hnone := hs.undecided hearly.2 hst (.inl hre)
  have hnew : ∀ r, .began r ∉ s.log := hs.unbegun (by simp [hm])
  constructor
  case blank => nofun
  case gated => exact fun _ => ⟨rfl, nofun, hstaged⟩
  case shut => exact fun h => absurd (h.symm.trans hbefore) (by simp)
  case heard => exact hs.heard
  case early => exact fun _ _ => ⟨nofun, rfl⟩
  case unbegun => simp
  case begun =>
    refine fun _ => ⟨⟨_, List.mem_append_right _ (List.mem_singleton.mpr rfl)⟩, ?_, hs.record hv⟩
    intro r hr
    rcases List.mem_append.mp hr with h | h
    · exact absurd h (hnew r)
    · exact WarmEvent.began.inj (List.mem_singleton.mp h)
  case staged => exact hs.staged
  case pending => nofun
  case record => exact hs.record
  case bound =>
    exact List.forall_mem_append.mpr
      ⟨fun e he h => absurd h (by simp [hnone e he]), by simp [WarmEvent.isBound]⟩
  case confirm =>
    exact List.forall_mem_append.mpr
      ⟨fun e he h => absurd h (by simp [hnone e he]), by simp [WarmEvent.isConfirm]⟩
  case refusal =>
    exact List.forall_mem_append.mpr
      ⟨fun e he h => absurd h (by simp [hnone e he]), by simp [WarmEvent.isRefusal]⟩
  case unsettled => nofun
  case stored => exact fun rc hrc => absurd hstaged (hs.writing (congrArg writes hrc))
  case hung => exact fun h => hs.hung (by simpa using h)
  case decided => exact each_concat.mpr ⟨hs.decided, trivial⟩

lemma Session.start (hm : s.main = .starting) (ok : Bool) (nowS selfV4 : ℕ) :
    Session (s.start ok nowS selfV4) := by
  have hbefore := hs.gateOpen (.inr (.inr hm))
  obtain ⟨hre, hst, hstaged⟩ := hs.gated hbefore
  have hnone := hs.undecided (hs.early (by simp [hm]) (by simp [hm])).2 hst (.inl hre)
  have hleft : Session { s with main := .leaving } := hs.leave (.inl rfl)
  cases ok with
  | true =>
    have hwaits : waits s.lp = true := by
      revert hbefore
      unfold beforeGate
      cases s.lp <;> simp [waits]
    have hpend : Session { s with
        sm := { s.sm with
          state := .pending, pendingS := (nowS + 1) % 2 ^ 32, written := s.nvs.record.written }
        dataplaneStarted := s.dataplaneStarted || true
        selfV4
        main := .leaving } :=
      { hleft with
        gated := fun _ => ⟨hre, nofun, hstaged⟩
        early := fun h => absurd rfl h
        pending := fun _ => ⟨hs.begun hm, hstaged, hwaits⟩
        confirm := fun e he h => absurd h (by simp [hnone e he])
        refusal := fun e he h => absurd h (by simp [hnone e he]) }
    exact hpend.note (e := .started true) nofun nofun nofun rfl nofun nofun trivial
  | false =>
    have hoff : Session { s with
        sm := { s.sm with state := .off, seeded := false }
        rtc := tlWarmRtcSeal { s.rtc with attempt := 0 }
        tables := .empty
        dataplaneStarted := s.dataplaneStarted || false
        main := .leaving } :=
      { hleft with
        gated := fun _ => ⟨hre, nofun, hstaged⟩
        early := fun h => absurd rfl h
        pending := nofun
        confirm := fun e he h => absurd h (by simp [hnone e he]) }
    exact hoff.note (e := .started false) nofun nofun nofun rfl nofun nofun trivial

lemma Session.poll (hm : s.main ≠ .booting) (lp : Bool) (m : ℕ) (c : WarmClock) :
    Session ({ s with sm := (tlWarmSmPoll s.sm lp m c).1 }.note
      (.polled lp (tlWarmSmPoll s.sm lp m c).2)) := by
  rcases smPoll_cases s.sm lp m c with ⟨he, hre⟩ | ⟨he, rfl, hre⟩ |
    ⟨why, hwhy, hst, hp, hb, hre, he⟩
  · rw [he]
    refine hs.note hm nofun nofun rfl nofun nofun ⟨nofun, fun hlp ⟨f, hf, hfr⟩ => ?_⟩
    exact absurd (hs.refusal f hf hfr).1 (by simp [hre hlp])
  · rw [he]
    exact hs.note hm nofun nofun rfl nofun nofun ⟨nofun, fun _ _ => rfl⟩
  · rw [he]
    have hnone := hs.undecided hb (by simp [hst]) (.inr hp)
    have hbound : Session { s with sm := { s.sm with boundFired := true, pendingS := 0 } } :=
      { hs with
        early := fun h h' => absurd hst (hs.early h h').1
        bound := fun _ _ _ => rfl
        refusal := fun e he h => ⟨(hs.refusal e he h).1, rfl⟩ }
    refine hbound.note hm nofun (fun _ => rfl) (by rcases hwhy with rfl | rfl <;> rfl) nofun nofun
      ⟨fun _ => hnone, fun _ ⟨f, hf, hfr⟩ => absurd hfr (by simp [hnone f hf])⟩

lemma Session.rtc (rtc : WarmRtc) : Session { s with rtc } := { hs with }

lemma Session.between {lp : LpPc}
    (hl : beforeGate s = !s.gateLp) (hgave : gaveUp s.lp = false)
    (hn : lp = .loop ∨ lp = .connect ∨ lp = .stream ∨ lp = .ended ∨ lp = .mark false) :
    Session { s with lp } := by
  obtain ⟨hb, hg, hw⟩ : beforeGate { s with lp } = beforeGate s ∧ atGate lp = false ∧
      waits lp = true := by
    rw [hl]
    rcases hn with rfl | rfl | rfl | rfl | rfl <;> exact ⟨rfl, rfl, rfl⟩
  exact hs.lp ⟨fun h => hb ▸ h, fun h => hs.shut (hb ▸ h)⟩ (by simp [hg]) (fun _ _ => hw)
    (by simp [hgave])

lemma Session.receive (nm : Netmap) (hl : s.lp = .stream) :
    Session { s with gateLp := true, lp := if s.gateLp then .frame nm else .gate nm } := by
  have hb : beforeGate s = !s.gateLp := by simp [beforeGate, hl]
  cases hg : s.gateLp with
  | true =>
    rw [hg] at hb
    exact hs.lp ⟨nofun, fun _ => hs.shut hb⟩ (fun _ => rfl) (fun _ _ => rfl) (by simp [gaveUp, hl])
  | false =>
    rw [hg] at hb
    exact hs.lp ⟨fun _ => hb, nofun⟩ (fun _ => rfl) (fun _ _ => rfl) (by simp [gaveUp, hl])

lemma Session.past {lp : LpPc} {dataplaneStarted : Bool} {tables : WarmTables}
    {selfV4 : ℕ} (hl : beforeGate s = false) (hg : s.gateLp)
    (hn : beforeGate { s with lp } = false)
    (hw : s.sm.state = .pending → waits s.lp = true → waits lp = true)
    (hgave : gaveUp s.lp = false) : Session { s with lp, dataplaneStarted, tables, selfV4 } := by
  refine hs.lp ⟨fun h => ?_, fun _ => hs.shut hl⟩ (fun _ => hg) hw (by simp [hgave])
  exact absurd (hn.symm.trans h) (by simp)

end

lemma runsAgainst_of_diff {self : List Bytes} {p : Peer} {np cp : Key}
    (hself : r.self ≠ []) (hd : (tlWarmDiff r (tlWarmRecBuild self p np cp)).restart = false) :
    r.RunsAgainst self p np cp := by
  have hhead : (tlWarmRecBuild self p np cp).self.head? = self.head?.bind tlWarmCidrParse := by
    unfold tlWarmRecBuild
    cases self.head?.bind tlWarmCidrParse <;> rfl
  simp only [tlWarmDiff, WarmDiff.restart, Bool.or_eq_false_iff, Bool.not_eq_false',
    decide_eq_false_iff_not, ne_eq, not_not, hhead] at hd
  obtain ⟨⟨hpeer, haddr⟩, htags⟩ := hd
  obtain ⟨c, l, hr⟩ := List.exists_cons_of_ne_nil hself
  refine ⟨?_, ⟨c, by rw [hr]; rfl, by rw [← haddr, hr]; rfl⟩, htags⟩
  unfold tlWarmSamePeer at hpeer
  split_ifs at hpeer ⊢ with hid
  · exact (of_decide_eq_true hpeer).symm
  · exact (of_decide_eq_true hpeer).symm

section
variable (hs : Session s)
include hs

lemma Session.answer {warm : Bool} (hl : s.lp = .handle nm warm)
    (tables : WarmTables) (nm' : Netmap) (our : Option Ipv4) (expired moved : Bool) :
    Session ({ s with tables }.warmNetmap nm' our expired moved) := by
  obtain ⟨hb, hg, hgave⟩ := hs.heardWork (congrArg atGate hl) (by simp [hl])
  have hboot := (hs.shut hb).2.1
  unfold WarmDevice.warmNetmap
  dsimp only
  generalize ht : (if (expired || moved) = true then none
    else WarmDevice.target { s with tables } our) = t
  generalize hi : (⟨expired, nm'.haveSelf, moved,
    t.map fun p => tlWarmRecBuild tables.self p s.nodePub s.controlPub⟩ : WarmNm) = i
  rcases smNetmap_cases s.sm s.nvs.record i with ⟨act, why, hact, he⟩ |
    ⟨now, why, hst, hbf, hnow, hd, he⟩ | ⟨why, hst, he⟩
  · rw [he]
    have hlp : Session { s with tables, lp := .stream } :=
      hs.past hb hg (by simp [beforeGate, hg]) (fun _ _ => rfl) hgave
    rcases hact with rfl | rfl | rfl <;>
      exact hlp.note hboot nofun nofun rfl nofun nofun trivial
  · rw [he]
    obtain ⟨hruns, hstaged, -⟩ := hs.pending hst
    obtain ⟨p, rfl, rfl⟩ : ∃ p, t = some p ∧
        tlWarmRecBuild tables.self p s.nodePub s.controlPub = now := by
      rw [← hi] at hnow
      exact Option.map_eq_some_iff.mp hnow
    have hdec : Decided s.nodePub s.controlPub s.log (.answered .confirm tables.self (some p)) := by
      refine ⟨fun f hf => ?_, hruns.begun, p, rfl, fun r hr => ?_⟩
      · by_contra h
        exact absurd (hs.bound f hf (by simpa using h)) (by simp [hbf])
      · rw [hruns.record r hr]
        exact runsAgainst_of_diff hruns.address hd
    exact
      { hs with
        blank := fun h => absurd h hboot
        gated := nofun
        shut := fun _ => hs.shut hb
        heard := fun _ => hg
        early := fun h h' => absurd hst (hs.early h h').1
        unbegun := fun h r hr =>
          (List.mem_append.mp hr).elim (hs.unbegun h r) fun h => nomatch List.mem_singleton.mp h
        begun := fun h => absurd h (hs.shut hb).2.2.2
        pending := nofun
        bound := List.forall_mem_append.mpr ⟨hs.bound, List.forall_mem_singleton.mpr nofun⟩
        confirm := fun _ _ _ => rfl
        refusal := List.forall_mem_append.mpr
          ⟨fun e he h => ⟨(hs.refusal e he h).1, rfl⟩, List.forall_mem_singleton.mpr nofun⟩
        unsettled := fun _ => ⟨_, List.mem_append_right _ (List.mem_singleton.mpr rfl), rfl⟩
        stored := fun rc h => absurd hstaged (hs.writing (congrArg writes h))
        hung := fun h => (List.mem_append.mp h).elim
          (fun h => absurd (hs.hung h) (by simp [hgave])) fun h => nomatch List.mem_singleton.mp h
        decided := each_concat.mpr ⟨hs.decided, hdec⟩ }
  · rw [he]
    have hlp : Session { s with tables, lp := .ended } :=
      hs.past hb hg (by simp [beforeGate, hg]) (fun _ _ => rfl) hgave
    have href : Session { s with
        tables, lp := .ended, sm := { s.sm with restart := true, pendingS := 0 } } :=
      { hlp with
        gated := fun h => absurd h (by simp [beforeGate, hg])
        refusal := fun _ _ _ => ⟨rfl, rfl⟩ }
    exact href.note hboot nofun nofun rfl (fun _ => ⟨rfl, rfl⟩) nofun trivial

lemma Session.handle {warm : Bool} (hl : s.lp = .handle nm warm)
    (h : HandleMove s warm s') : Session s' := by
  obtain ⟨hb, hg, hgave⟩ := hs.heardWork (congrArg atGate hl) (by simp [hl])
  cases h with
  | answer tables nm' our expired moved => exact hs.answer hl tables nm' our expired moved
  | leave => exact hs.past hb hg (by simp [beforeGate, hg]) (fun _ _ => rfl) hgave
  | moved tables =>
    have hlp : Session { s with tables, lp := .ended } :=
      hs.past hb hg (by simp [beforeGate, hg]) (fun _ _ => rfl) hgave
    exact
      { hlp with
        gated := fun h => absurd h (by simp [beforeGate, hg])
        refusal := fun e he h => ⟨rfl, (hs.refusal e he h).2⟩ }
  | apply _ _ _ _ hw hn =>
    refine hs.past hb hg ?_ (fun _ h => ?_) hgave
    · rcases hn with rfl | rfl | rfl <;> simp [beforeGate, hg]
    · rw [hl, hw] at h
      cases h

lemma Session.frame (hl : s.lp = .frame nm) : Session { s with
      sm := (tlWarmSmFrame s.sm s.tables).1
      tables := (tlWarmSmFrame s.sm s.tables).2.1
      lp := .handle nm (tlWarmSmFrame s.sm s.tables).2.2 } := by
  obtain ⟨hb, hg, hgave⟩ := hs.heardWork (congrArg atGate hl) (by simp [hl])
  have hlp : ∀ tables, Session { s with tables, lp := .handle nm (decide (s.sm.state = .pending)) } :=
    fun tables => hs.past hb hg rfl (fun h _ => by simp [waits, h]) hgave
  unfold tlWarmSmFrame
  split_ifs
  · exact { hlp .empty with }
  · exact hlp s.tables

lemma Session.cold (hl : s.lp = .cold) :
    Session { s with sm := tlWarmSmCold s.sm, lp := .stage } := by
  obtain ⟨hb, hg, hgave⟩ := hs.heardWork (congrArg atGate hl) (by simp [hl])
  have hst := hs.not_waiting (congrArg waits hl)
  have hlp : Session { s with lp := .stage } :=
    hs.past hb hg rfl (fun h => absurd h hst) hgave
  unfold tlWarmSmCold
  split_ifs
  · exact
      { hlp with
        gated := nofun
        early := fun h h' => ⟨nofun, (hs.early h h').2⟩
        pending := nofun
        confirm := fun _ _ _ => rfl }
  · exact hlp

lemma Session.stage (hl : s.lp = .stage) (our : Option Ipv4) :
    Session (s.stage our) := by
  obtain ⟨hb, hg, hgave⟩ := hs.heardWork (congrArg atGate hl) (by simp [hl])
  have hst := hs.not_waiting (congrArg waits hl)
  have hlp : Session { s with lp := .stream } :=
    hs.past hb hg (by simp [beforeGate, hg]) (fun _ _ => rfl) hgave
  unfold WarmDevice.stage
  cases s.target our with
  | none => exact hlp
  | some =>
    refine
      { hlp with
        gated := fun h => absurd h (by simp [beforeGate, hg])
        staged := fun h => hs.staged ?_
        pending := fun h => absurd h hst }
    revert h
    dsimp only
    split_ifs
    · nofun
    · exact id

lemma Session.lpMove (hm : s.main ≠ .booting) (h : LpMove cfg s s') :
    Session s' := by
  cases h with
  | poll c _ hl =>
    have hb : beforeGate s = !s.gateLp := by
      rcases hl with ⟨hl, -⟩ | ⟨hl, -⟩ <;> simp [beforeGate, hl]
    have hgave : gaveUp s.lp = false := by
      rcases hl with ⟨hl, -⟩ | ⟨hl, -⟩ <;> simp [gaveUp, hl]
    refine (hs.poll hm true cfg.maxS c).between hb hgave ?_
    split_ifs
    · rcases hl with ⟨-, rfl⟩ | ⟨-, rfl⟩ <;> simp
    · simp
  | goOn _ hl hn =>
    refine hs.between ?_ ?_ ?_
    · rcases hl with hl | hl <;> simp [beforeGate, hl]
    · rcases hl with hl | hl <;> simp [gaveUp, hl]
    · rcases hn with rfl | rfl | rfl <;> simp
  | receive nm hl => exact hs.receive nm hl
  | gatePass _ hl hmx =>
    have hmain : s.main.holds = false := by
      simp only [mxFree, Bool.and_eq_true, Bool.not_eq_true'] at hmx
      exact hmx.1.1
    have hg : s.gateLp = true := hs.heard (by simp [atGate, hl])
    refine hs.lp ⟨nofun, fun _ => ⟨rfl, hm, ?_, ?_⟩⟩ (fun _ => hg) (fun _ _ => rfl) ?_
    · intro h
      rw [h] at hmain
      cases hmain
    · intro h
      rw [h] at hmain
      cases hmain
    · simp [gaveUp, hl]
  | gateHang _ hl =>
    exact hs.lp ⟨fun _ => by simp [beforeGate, hl], nofun⟩ nofun (fun _ _ => rfl)
      (by simp [gaveUp, hl])
  | frame _ hl => exact hs.frame hl
  | handle nm warm e hl => exact hs.handle hl (handle_move s nm warm e)
  | cold hl => exact hs.cold hl
  | stage our hl => exact hs.stage hl our
  | mark hung hl =>
    have hb : beforeGate { s with lp := .shut hung } = beforeGate s := by
      cases hung <;> simp [beforeGate, hl]
    have hlp : Session { s with lp := .shut hung } :=
      hs.lp ⟨fun h => hb ▸ h, fun h => hs.shut (hb ▸ h)⟩ nofun (fun _ _ => rfl)
        (by simp [gaveUp, hl])
    refine (hlp.rtc _).note hm nofun nofun rfl nofun (fun h => ?_) trivial
    obtain rfl := WarmEvent.restarted.inj h
    rfl
  | shut hung got hl =>
    have hb : beforeGate { s with nvsShut := true, lp := .halted hung got } = beforeGate s := by
      cases hung <;> simp [beforeGate, hl]
    refine hs.lp ⟨fun h => hb ▸ h, fun h => hs.shut (hb ▸ h)⟩ nofun (fun _ _ => rfl) ?_
    cases hung <;> simp [gaveUp, hl]

end

lemma store_nvs (m : WarmNvs) (r : WarmRec) (nowUnix : ℕ) (nowUs : ℤ) (fresh writeOk : Bool) :
    (tlWarmStore m r nowUnix nowUs fresh writeOk).1 = m ∨ tlWarmRecStorable r = true ∧
        (tlWarmStore m r nowUnix nowUs fresh writeOk).1.record.self = r.self := by
  unfold tlWarmStore
  dsimp only
  split
  · exact .inl rfl
  next hst =>
    split
    · exact .inl rfl
    · cases tlWarmEncode { r with written := nowUnix } tlWarmBlobMax with
      | none => exact .inl rfl
      | some => exact .inr ⟨by simpa using hst, rfl⟩

lemma stored_record {m : WarmNvs} {nowUnix : ℕ} {nowUs : ℤ} {fresh writeOk : Bool}
    (hm : m.valid = true → m.record.self ≠ [])
    (hv : (tlWarmStore m r nowUnix nowUs fresh writeOk).1.valid) :
    (tlWarmStore m r nowUnix nowUs fresh writeOk).1.record.self ≠ [] := by
  rcases store_nvs m r nowUnix nowUs fresh writeOk with he | ⟨hst, he⟩
  · rw [he] at hv ⊢
    exact hm hv
  · rw [he]
    intro h
    simp [tlWarmRecStorable, h] at hst

lemma Session.store (hs : Session s) (hm : s.main ≠ .booting) {sm : WarmSm}
    (ht : s.tel = .store r sm) (e : StoreEnv) : Session (s.store r sm e) := by
  have hstaged := hs.writing (congrArg writes ht)
  have hnp : s.sm.state ≠ .pending := fun h => hstaged (hs.pending h).2.1
  have hns : s.main ≠ .starting := by
    intro h
    exact hstaged (hs.gated (hs.gateOpen (.inr (.inr h)))).2.2
  -- the store is noted while the task is between the two steps, where no outcome is pending
  have hidle : Session { s with tel := .idle } := hs.tel (fun _ => rfl) nofun
  have hnoted := hidle.note
    (e := .stored (tlWarmStore s.nvs r e.nowUnix e.nowUs
      (tlWarmSmFresh sm e.nowS e.controlRxS) e.writeOk).2) hm nofun nofun rfl nofun nofun trivial
  exact
    { hnoted with
      begun := fun h => absurd h hns
      staged := fun h => absurd h hstaged
      pending := fun h => absurd h hnp
      record := stored_record hs.record
      stored := fun rc h ⟨f, hf, hfc⟩ => by
        obtain rfl := TelPc.settle.inj h
        have hold : f ∈ s.log := by
          rcases List.mem_append.mp hf with hf | hf
          · exact hf
          · rw [List.mem_singleton.mp hf] at hfc
            cases hfc
        obtain ⟨past, rest, hl⟩ := List.append_of_mem hold
        refine ⟨past, f, rest ++ [_], ?_, hfc, List.mem_append_right _ (List.mem_singleton.mpr rfl)⟩
        rw [WarmDevice.store, WarmDevice.note]
        simp [hl] }

lemma Session.settle (hs : Session s) (hm : s.main ≠ .booting) {rc : StoreRc}
    (ht : s.tel = .settle rc) : Session (s.settle rc) := by
  have hidle : Session { s with tel := .leaving } := hs.tel (fun _ => rfl) nofun
  rcases settle_cases s rc with he | ⟨hst, hu, hrc, he⟩
  · rw [he]
    exact hidle
  · rw [he]
    have hnoted := hidle.note (e := .settled) hm nofun nofun rfl nofun nofun
      ⟨rc, hrc, hs.stored rc ht (hs.unsettled hu)⟩
    exact { hnoted with unsettled := nofun }

lemma Session.telMove (hs : Session s) (hm : s.main ≠ .booting) (h : TelMove cfg s s') :
    Session s' := by
  cases h with
  | poll c =>
    refine (hs.poll hm false cfg.maxS c).tel (fun _ => ?_) ?_
    · split_ifs <;> rfl
    · intro rc
      split_ifs <;> nofun
  | idle | shut => exact hs.tel (fun _ => rfl) nofun
  | snapshot r hr => exact hs.tel (fun h => nomatch hr.symm.trans h) nofun
  | take _ _ ht =>
    refine hs.tel (fun h => absurd h (hs.writing (congrArg writes ht))) ?_
    intro rc
    split_ifs <;> nofun
  | store _ _ e ht => exact hs.store hm ht e
  | settle _ ht => exact hs.settle hm ht
  | mark =>
    have htel : Session { s with tel := .shut } := hs.tel (fun _ => rfl) nofun
    exact (htel.rtc _).note hm nofun nofun rfl nofun nofun trivial

lemma Session.move (hs : Session s) (h : WarmMove cfg s s') : Session s' := by
  cases h with
  | load np cp eraseOk read hm => exact hs.load hm np cp eraseOk read
  | takeStart hm => exact hs.takeStart hm
  | go regReused heapOk nowUnix hm => exact hs.go hm regReused heapOk nowUnix
  | start ok nowS selfV4 hm => exact hs.start hm ok nowS selfV4
  | giveStart => exact hs.leave (.inr rfl)
  | lp hm h => exact hs.lpMove hm h
  | tel hm h => exact hs.telMove hm h

lemma session (E : WarmRun cfg) {k : ℕ} (hk : k ≤ E.length) : Session (E.state k) := by
  refine E.invariant (P := Session) ?_ ?_ k hk
  · rintro s ⟨rtc, rfl⟩
    exact session_boot _ _ _
  · intro s a s' hs h
    rcases warmStep_cases h with ⟨reason, garbage, -, rfl⟩ | h
    · exact session_boot _ _ _
    · exact hs.move h

lemma Session.confirmed_begun (hs : Session s) (he : e ∈ s.log)
    (hc : e.isConfirm) : hasBegun s.log = true := by
  obtain ⟨past, rest, hl⟩ := List.append_of_mem he
  have hd := hs.decided past e rest hl
  obtain ⟨r, hr⟩ : ∃ r, WarmEvent.began r ∈ past := by
    cases e with
    | answered act => cases act <;> first | exact hd.2.1 | cases hc
    | _ => cases hc
  refine List.any_eq_true.mpr ⟨.began r, ?_, rfl⟩
  rw [hl]
  exact List.mem_append_left _ hr

/-- Behind `warm_load` the mark says whether a warm start is under way. -/
def Attempting (s : WarmDevice) : Prop :=
  s.main ≠ .booting → s.rtc.attempt = (underWay s.log).toNat

lemma attempting_move (hs : s.rtc.attempt = (underWay s.log).toNat) (h : GuardMove s s') :
    s'.rtc.attempt = (underWay s'.log).toNat := by
  cases h with
  | quiet _ hq hrtc hlog => rw [hrtc, hlog, underWay_quiet _ hq, hs]
  | began _ _ hrtc hlog | settled _ hrtc hlog =>
    rw [hrtc, hlog, underWay_concat]
    rfl
  | failed hrtc hlog =>
    rw [hrtc, hlog, underWay_concat, WarmEvent.opens, Bool.and_false]
    rfl
  | restarted hung hrtc hlog =>
    rw [hrtc, hlog, underWay_concat]
    cases hung <;> rfl

lemma attempting (E : WarmRun cfg) {k : ℕ} (hk : k ≤ E.length) :
    (E.state k).main ≠ .booting → (E.state k).rtc.attempt = (underWay (E.state k).log).toNat := by
  refine E.along (P := fun k => Attempting (E.state k)) ?_ (fun k hk hs => ?_) k hk
  · obtain ⟨rtc, hs⟩ := E.starts
    rw [hs]
    exact fun h => absurd rfl h
  · rcases warmStep_cases (E.steps k hk) with ⟨reason, garbage, -, he⟩ | hmove
    · rw [he]
      exact fun h => absurd rfl h
    · intro _
      rcases hmove.guard with ⟨hm, np, cp, eraseOk, read, he⟩ | ⟨hm, hstep⟩
      · have hlog : (E.state (k + 1)).log = [] := by
          rw [he]
          exact (session E hk.le).blank hm
        have hload := (tlWarmLoad_marks (E.state k).rtc (E.state k).resetReason eraseOk read).1
        rw [hlog, he]
        exact (congrArg WarmRtc.attempt hload).trans (rtcBoot_spec _ _).2.1
      · exact attempting_move (hs hm) hstep.move

/-- The decision is made once, and a session is confirmed only by a netmap that it can follow; the
attempt mark stands until the session failed, settled or ended in a restart. -/
theorem warm_decision_is_unique (E : WarmRun cfg) (k : ℕ) (hk : k ≤ E.length) :
    (∀ past e rest, (E.state k).log = past ++ e :: rest → (e.isBound = true →
        ∀ f ∈ past, f.isBound = false ∧ f.isConfirm = false ∧ f.isRefusal = false) ∧
      (e.isConfirm = true → ∀ f ∈ past, f.isBound = false) ∧
      (∀ why, e = .polled true why → (∃ f ∈ past, f.isRefusal = true) → why = .netmap) ∧
      (∀ self t, e = .answered .confirm self t → (∃ r, .began r ∈ past) ∧ ∃ p, t = some p ∧
          ∀ r, .began r ∈ past → r.RunsAgainst self p (E.state k).nodePub (E.state k).controlPub) ∧
      (e = .settled → ∃ rc, rc ≠ .failed ∧ StoredAfter past rc)) ∧
    (underWay (E.state k).log = true → (E.state k).rtc.attempt = 1) := by
  have hs := session E hk
  refine ⟨fun past e rest hl => ?_, fun hu => ?_⟩
  · have hd := hs.decided past e rest hl
    refine ⟨fun hb => ?_, fun hc => ?_, ?_, ?_, ?_⟩
    · cases e with
      | polled _ why =>
        refine hd.1 ?_
        cases why <;> simp [WarmEvent.isBound] at hb ⊢
      | _ => cases hb
    · cases e with
      | answered act => cases act <;> first | exact hd.1 | cases hc
      | _ => cases hc
    · rintro why rfl hr
      exact hd.2 rfl hr
    · rintro self t rfl
      exact hd.2
    · rintro rfl
      exact hd
  · have hm : (E.state k).main ≠ .booting := by
      intro hm
      rw [hs.blank hm] at hu
      cases hu
    rw [attempting E hk hm, hu]
    rfl

def smallConfig : WarmConfig := ⟨60, fun _ => 0⟩

def smallAddress : WarmCidr := ⟨ipv4Of 100 64 0 1, 32⟩

def smallRecord : WarmRec where
  written := 0
  selfTag := warmTag zeroKey
  ctlTag := warmTag zeroKey
  self := [smallAddress]
  peer := ⟨7, zeroKey, zeroKey, false, [], [⟨ipv4Of 8 8 8 8, 1⟩]⟩

def smallBlob : WarmRead := .blob ((tlWarmEncode smallRecord tlWarmBlobMax).getD [])

def smallNetmap : Netmap :=
  { Netmap.cleared with
    haveSelf := true
    selfAddresses := [tlWarmCidrStr smallAddress]
    peers := [tlWarmPeerTo smallRecord.peer] }

def confirmedActs : List WarmAction :=
  [.load zeroKey zeroKey true smallBlob, .takeStart, .go true true 0, .start true 1 0, .giveStart,
    .lpPoll ⟨2, false, 0⟩, .connect true, .receive smallNetmap, .gatePass, .frame,
    .handle ⟨0, none, true, 0⟩, .stage none, .telPoll ⟨3, false, 0⟩, .snapshot, .telTake true,
    .store ⟨0, 4, 4, 4, true⟩, .settle]

lemma poweron_warmStart : WarmStart (.boot .zero tlWarmRstPoweron []) := ⟨_, rfl⟩

def confirmedRun : WarmRun smallConfig :=
  StepSystem.runOf (.boot .zero tlWarmRstPoweron []) poweron_warmStart .settle confirmedActs
    (by decide +kernel)

theorem confirmed_session_settles : ((confirmedRun.state 15).log.any WarmEvent.isConfirm = true ∧
      (confirmedRun.state 15).rtc.attempt = 1) ∧
    (confirmedRun.state 17).log = (confirmedRun.state 16).log ++ [.settled] ∧
    ∃ rc, rc ≠ .failed ∧ StoredAfter (confirmedRun.state 16).log rc :=
  ⟨⟨by decide +kernel,
      (warm_decision_is_unique confirmedRun 15 (by decide)).2 (by decide +kernel)⟩,
    by decide +kernel,
    ((warm_decision_is_unique confirmedRun 17 (by decide)).1 _ .settled []
      (by decide +kernel)).2.2.2.2 rfl⟩

end TinyLink.Proofs
