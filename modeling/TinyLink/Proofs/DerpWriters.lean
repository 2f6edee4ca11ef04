import TinyLink.Library.Mutex
import TinyLink.Proofs.DerpSteps

/-!
# DERP writers never corrupt the stream

Each program point that holds the lock carries an assertion about the connection (`Asserts`), which
the steps of the other tasks keep.
-/

namespace TinyLink.Proofs
open DerpWorld

variable {ι : Type} {cfg : DerpConfig} {s s' : DerpWorld ι} {i : ι}
    {p : Bytes} {f : DerpFrame} {w : DerpWait} {t : DerpWorld ι} {pc : WriterPc}

/-- The frames begun on the connection are on it, in their order. -/
def Whole (c : DerpConn) : Prop := c.stream = (c.frames.map DerpFrame.encode).flatten

/-- Of the last frame `f` begun on the connection, `p` is on it. -/
def Amid (f : DerpFrame) (p : Bytes) (c : DerpConn) : Prop :=
  ∃ fs, c.frames = fs ++ [f] ∧ c.stream = (fs.map DerpFrame.encode).flatten ++ p

/-- No frame is missing bytes, or a write of the last one failed. -/
def Settled (c : DerpConn) : Prop :=
  Whole c ∨ c.broken = true ∧ ∃ f p, Amid f p c ∧ p <+: f.encode

lemma Whole.begin {c : DerpConn} (h : Whole c) (f : DerpFrame) :
    Amid f [] { c with frames := c.frames ++ [f] } :=
  ⟨c.frames, rfl, h.trans (List.append_nil _).symm⟩

lemma Amid.append {c : DerpConn} (h : Amid f p c) (b : Bytes) :
    Amid f (p ++ b) { c with stream := c.stream ++ b } := by
  obtain ⟨fs, hfs, hp⟩ := h
  exact ⟨fs, hfs, by rw [hp, List.append_assoc]⟩

lemma Amid.whole {c : DerpConn} (h : Amid f f.encode c) : Whole c := by
  obtain ⟨fs, hfs, hp⟩ := h
  rw [Whole, hfs, hp]
  simp

lemma SameStream.settled {c c' : DerpConn} (h : SameStream c c') (hc : Settled c) : Settled c' := by
  obtain ⟨-, hstream, hframes, hbroken⟩ := h
  unfold Settled Whole Amid at hc ⊢
  rwa [hstream, hframes, hbroken]

lemma derpFrame_length (f : DerpFrame) :
    f.encode.length = derpFrameHdrLen + f.body.length := by
  simp [DerpFrame.encode, DerpFrame.header, derpFrameHdrLen]
  omega

def left (s : DerpWorld ι) : List DerpBuf → ℕ → Bytes
  | [], _ => []
  | b :: bs, sent => (s.bufBytes b).drop sent ++ (bs.map s.bufBytes).flatten

lemma left_zero (s : DerpWorld ι) (bufs : List DerpBuf) :
    left s bufs 0 = (bufs.map s.bufBytes).flatten := by
  cases bufs <;> rfl

lemma left_writes (s : DerpWorld ι) (f : DerpFrame) : left
    (assembled s f) f.writes 0 = f.encode := by
  rw [left_zero]
  unfold DerpFrame.writes
  by_cases hb : f.body.length ≤ derpTxStageMax
  · rw [if_pos hb, List.map_singleton, List.flatten_singleton, bufBytes, assembled, if_pos hb,
      ← derpFrame_length, List.take_left]
  · rw [if_neg hb]
    simp only [DerpFrame.encode, DerpFrame.body]
    split_ifs with hk hp hp <;> simp [bufBytes, hk, hp]

lemma nextWrite_cases (s : DerpWorld ι) (f : DerpFrame) (g : ℕ) (bufs : List DerpBuf)
    (sent idle : ℕ) :
    s.nextWrite f g bufs sent idle = .gives .ok ∧ left s bufs sent = [] ∨
      ∃ bufs' sent' idle', s.nextWrite f g bufs sent idle = .polls f g bufs' sent' idle' ∧
        left s bufs' sent' = left s bufs sent := by
  induction bufs generalizing sent idle with
  | nil => exact .inl ⟨rfl, rfl⟩
  | cons b bs ih =>
    by_cases hlt : sent < (s.bufBytes b).length
    · exact .inr ⟨b :: bs, sent, idle, by rw [nextWrite, if_pos hlt], rfl⟩
    · have hleft : left s (b :: bs) sent = left s bs 0 := by
        rw [left, List.drop_eq_nil_of_le (by omega), left_zero, List.nil_append]
      rw [nextWrite, if_neg hlt, hleft]
      exact ih 0 0

lemma nextWrite_sendBytes (s : DerpWorld ι) (b : DerpBuf) (start n : ℕ) (f : DerpFrame) (g : ℕ)
    (bufs : List DerpBuf) (sent idle : ℕ) :
    (s.sendBytes b start n).nextWrite f g bufs sent idle = s.nextWrite f g bufs sent idle := by
  induction bufs generalizing sent idle with
  | nil => rfl
  | cons _ _ ih =>
    rw [nextWrite, nextWrite, ih]
    rfl

/-- Feeds, and then at most one overdue report, which no feed follows. -/
def Polite (told : List WaitEvent) : Prop :=
  ∃ n, told = List.replicate n .feed ∨ told = List.replicate n .feed ++ [.overdue]

def FedUntil (fedMaxMs : ℕ) (w : DerpWait) : Prop :=
  ∃ n, w.told = List.replicate n .feed ∨
    fedMaxMs ≤ w.total ∧ w.told = List.replicate n .feed ++ [.overdue]

lemma FedUntil.polite {fedMaxMs : ℕ} (h : FedUntil fedMaxMs w) : Polite w.told := by
  obtain ⟨n, h | ⟨-, h⟩⟩ := h
  · exact ⟨n, .inl h⟩
  · exact ⟨n, .inr h⟩

lemma FedUntil.waited {fedMaxMs : ℕ} (h : FedUntil fedMaxMs w) (ms : ℕ) :
    FedUntil fedMaxMs (derpWlWaited w ms fedMaxMs) := by
  by_cases hmax : w.total ≥ fedMaxMs
  · rwa [derpWlWaited, if_pos hmax]
  · obtain ⟨n, h | ⟨hle, -⟩⟩ := h
    · rw [derpWlWaited, if_neg hmax]
      simp only [h]
      generalize (if ms > fedMaxMs - w.total then fedMaxMs else w.total + ms) = total
      by_cases hlt : total < fedMaxMs
      · exact ⟨n + 1, .inl (by rw [if_pos hlt, List.replicate_succ'])⟩
      · exact ⟨n, .inr ⟨Nat.le_of_not_lt hlt, by rw [if_neg hlt]⟩⟩
    · exact absurd hle hmax

lemma FedUntil.move {w' : DerpWait} (h : FedUntil cfg.fedMaxMs w) (hm : WaitMove cfg w w') :
    FedUntil cfg.fedMaxMs w' := by
  obtain rfl | rfl | ⟨ms, rfl⟩ := hm
  · exact h
  · exact ⟨0, .inl rfl⟩
  · exact h.waited ms

def Serves (s : DerpWorld ι) (c : DerpConn) : Prop :=
  current s = some c ∧ c.gen = s.gen ∧ c.loggedIn = true ∧ c.destroyed = false ∧
    serving s.sup = true

/-- No write on the connection has failed, and its stream is as `P` says. -/
def Unbroken (s : DerpWorld ι) (P : DerpConn → Prop) : Prop := ∃ c, Serves s c ∧ c.broken = false ∧ P c

/-- What a writer knows at its program point. -/
def Asserts (s : DerpWorld ι) : WriterPc → Prop
  | .tookUp _ _ _ _ => Unbroken s Whole
  | .held _ _ g => g = s.gen ∧ Unbroken s Whole
  | .polls f g bufs sent _ | .writes f g bufs sent _ =>
    g = s.gen ∧ ∃ p, Unbroken s (Amid f p) ∧ p ++ left s bufs sent = f.encode
  | .failed _ g | .failedUp _ g => g = s.gen ∧ ∃ c, Serves s c
  | .aborts _ g => g = s.gen ∧ (∃ c, Serves s c) ∧ s.connected = false
  | _ => True

/-- The connection as `login` has it: new, and no frame on it. -/
def LoggingIn (s : DerpWorld ι) (loggedIn : Bool) : Prop :=
  ∃ c, current s = some c ∧ c.gen = s.gen ∧ c.loggedIn = loggedIn ∧
    (c.stream = [] ∧ c.frames = []) ∧ c.broken = false ∧ c.destroyed = false

def holding (s : DerpWorld ι) : Option ι → Bool
  | none => s.sup.holds
  | some i => (s.writers i).holds

/-- The lock has one owner, its owner can rely on what it knows, and a stream that no writer works on
is settled. -/
structure WriteSafe (cfg : DerpConfig) (s : DerpWorld ι) : Prop where
  owned : Mutex.Owned s.holder (holding s)
  made : s.lockMade = false → ∀ i, ∃ r, s.writers i = .idle r
  writer : ∀ i, Asserts s (s.writers i)
  between : s.connected = true → (∀ i, midFrame (s.writers i) = false) → Unbroken s Whole
  up : s.connected = true → admitting s.sup = true
  login : ∀ b, s.sup = .login b → LoggingIn s false
  setUp : s.sup = .setUp → LoggingIn s true
  streams : ∀ (n : ℕ) (c : DerpConn), s.conns[n]? = some c →
    (s.tls = some n → ∀ i, writing (s.writers i) = false) → Settled c
  fed : ∀ i, FedUntil cfg.fedMaxMs (s.writers i).wait
  supFed : FedUntil cfg.fedMaxMs s.sup.wait

lemma asserts_of_outside (h : pc.holds = false) : Asserts s pc := by
  cases pc <;> trivial

structure SameView (s t : DerpWorld ι) : Prop where
  gen : t.gen = s.gen
  cur : current t = current s
  stage : t.txStage = s.txStage
  sup : serving t.sup = serving s.sup
  shut : s.connected = false → t.connected = false

lemma Serves.view {c : DerpConn} (h : Serves s c) (hv : SameView s t) : Serves t c := by
  obtain ⟨hcur, hgen, hin, hkept, hsup⟩ := h
  exact ⟨hv.cur.trans hcur, hgen.trans hv.gen.symm, hin, hkept, hv.sup.trans hsup⟩

lemma Unbroken.view {P : DerpConn → Prop} (h : Unbroken s P) (hv : SameView s t) : Unbroken t P := by
  obtain ⟨c, hc, hb, hp⟩ := h
  exact ⟨c, hc.view hv, hb, hp⟩

lemma left_view (hv : SameView s t) (bufs : List DerpBuf) (sent : ℕ) :
    left t bufs sent = left s bufs sent := by
  have hb : t.bufBytes = s.bufBytes := by
    funext b
    cases b with
    | staged len => exact congrArg (List.take len) hv.stage
    | plain => rfl
  cases bufs with
  | nil => rfl
  | cons => rw [left, left, hb]

lemma Asserts.view (h : Asserts s pc) (hv : SameView s t) : Asserts t pc := by
  have hserves : (∃ c, Serves s c) → ∃ c, Serves t c := fun ⟨c, hc⟩ => ⟨c, hc.view hv⟩
  cases pc with
  | tookUp => exact Unbroken.view h hv
  | held => exact ⟨h.1.trans hv.gen.symm, h.2.view hv⟩
  | polls | writes =>
    obtain ⟨hg, p, hp, hl⟩ := h
    exact ⟨hg.trans hv.gen.symm, p, hp.view hv, by rw [left_view hv, hl]⟩
  | failed | failedUp => exact ⟨h.1.trans hv.gen.symm, hserves h.2⟩
  | aborts => exact ⟨h.1.trans hv.gen.symm, hserves h.2.1, hv.shut h.2.2⟩
  | _ => trivial

lemma midFrame_of_outside (h : pc.holds = false) : midFrame pc = false := by
  cases pc <;> first | rfl | cases h

lemma writing_of_midFrame (h : midFrame pc = false) : writing pc = false := by
  cases pc <;> first | rfl | cases h

lemma serves_of_inside (h : Asserts s pc) (hin : pc.inside) : ∃ c, Serves s c := by
  cases pc with
  | held =>
    obtain ⟨-, c, hc, -⟩ := h
    exact ⟨c, hc⟩
  | polls | writes =>
    obtain ⟨-, p, ⟨c, hc, -⟩, -⟩ := h
    exact ⟨c, hc⟩
  | failed | failedUp => exact h.2
  | aborts => exact h.2.1
  | _ => cases hin

lemma not_serves_offline (h : serving s.sup = false) : ¬ ∃ c, Serves s c := by
  rintro ⟨c, -, -, -, -, hsup⟩
  rw [h] at hsup
  cases hsup

lemma WriteSafe.none_inside (hs : WriteSafe cfg s) (h : serving s.sup = false) (i : ι) :
    (s.writers i).inside = false := by
  by_contra hin
  exact not_serves_offline h (serves_of_inside (hs.writer i) (Bool.eq_true_of_not_eq_false hin))

lemma writing_of_inside (h : pc.inside = false) : writing pc = false := by
  cases pc <;> first | rfl | cases h

lemma WriteSafe.lock_made (hs : WriteSafe cfg s) (hpc : s.writers i = pc)
    (h : ∀ r, pc ≠ .idle r) : s.lockMade = true := by
  by_contra hm
  obtain ⟨r, hr⟩ := hs.made (Bool.eq_false_of_not_eq_true hm) i
  exact h r (hpc.symm.trans hr)

lemma WriteSafe.others_outside (hs : WriteSafe cfg s) (hh : (s.writers i).holds) {j : ι}
    (hj : j ≠ i) : (s.writers j).holds = false :=
  hs.owned.other (t := some i) (u := some j) hh fun h => hj (Option.some.inj h)

lemma left_send (s : DerpWorld ι) (b : DerpBuf) (bs : List DerpBuf) (sent n : ℕ) :
    ((s.bufBytes b).drop sent).take n ++ left s (b :: bs) (sent + n) = left s (b :: bs) sent := by
  rw [left, left, ← List.append_assoc, ← List.drop_drop, List.take_append_drop]

lemma Unbroken.sendBytes {b : DerpBuf} {bs : List DerpBuf} {sent : ℕ}
    (hp : Unbroken s (Amid f p)) (hl : p ++ left s (b :: bs) sent = f.encode) (n : ℕ) :
    ∃ q, Unbroken (s.sendBytes b sent n) (Amid f q) ∧ q ++ left s (b :: bs) (sent + n) = f.encode := by
  obtain ⟨c, ⟨hcur, hgen, hin, hkept, hsup⟩, hb, hfol⟩ := hp
  set out := ((s.bufBytes b).drop sent).take n with hout
  have hq : (p ++ out) ++ left s (b :: bs) (sent + n) = f.encode := by
    rw [List.append_assoc, left_send, hl]
  have hwrite : c.write out = { c with stream := c.stream ++ out } := if_pos hin
  refine ⟨p ++ out, ⟨c.write out, ⟨?_, ?_⟩, ?_⟩, hq⟩
  · exact (current_onConn s _).trans (by rw [hcur]; rfl)
  · rw [hwrite]
    exact ⟨hgen, hin, hkept, hsup⟩
  · rw [hwrite]
    exact ⟨hb, hfol.append out⟩

def AllSettled (conns : List DerpConn) : Prop :=
  ∀ (n : ℕ) (c : DerpConn), conns[n]? = some c → Settled c

lemma ConnsKept.streams {conns conns' : List DerpConn} (hk : ConnsKept conns conns')
    (h : AllSettled conns) : AllSettled conns' := by
  intro n c' hc'
  rcases hk.new n c' hc' with ⟨gen, rfl⟩ | ⟨c, hc, hsame⟩
  · exact .inl rfl
  · exact hsame.settled (h n c hc)

lemma Asserts.offline (h : Asserts s pc) (hoff : serving s.sup = false) (t : DerpWorld ι) :
    Asserts t pc := by
  have hno := not_serves_offline hoff
  cases pc with
  | tookUp =>
    obtain ⟨c, hc, -⟩ := h
    exact absurd ⟨c, hc⟩ hno
  | held | polls | writes | failed | failedUp | aborts =>
    exact absurd (serves_of_inside h rfl) hno
  | _ => trivial

section
variable (hs : WriteSafe cfg s)
include hs

lemma WriteSafe.asserts_of_offline (h : serving s.sup = false)
    (t : DerpWorld ι) (i : ι) : Asserts t (s.writers i) := (hs.writer i).offline h t

lemma WriteSafe.settled (h : ∀ i, writing (s.writers i) = false) : AllSettled s.conns :=
  fun n c hc => hs.streams n c hc fun _ => h

lemma WriteSafe.settled_offline (h : serving s.sup = false) : AllSettled s.conns :=
  hs.settled fun i => writing_of_inside (hs.none_inside h i)

/-- Only on the current connection can a frame be under way. -/
lemma WriteSafe.onConn_settled {g : DerpConn → DerpConn} (n : ℕ) (c : DerpConn)
    (hc : (s.onConn g)[n]? = some c) : s.tls = some n ∨ Settled c := by
  obtain ⟨d, hd, ⟨htls, -⟩ | ⟨htls, rfl⟩⟩ := onConn_cases hc
  · exact .inl htls
  · exact .inr (hs.streams n _ hd fun h => absurd h htls)

lemma WriteSafe.between_others (hc : s.connected)
    (hi : midFrame (s.writers i) = false) (hother : ∀ j, j ≠ i → midFrame (s.writers j) = false) :
    Unbroken s Whole := by
  apply hs.between hc
  intro j
  by_cases hj : j = i
  · rw [hj]
    exact hi
  · exact hother j hj

lemma WriteSafe.hello_kept {byAddr : Bool} (hp : s.sup = .login byAddr)
    (b : Bytes) : ConnsKept s.conns (s.onConn fun c => c.write b) := by
  obtain ⟨c, hcur, -, hin, -⟩ := hs.login byAddr hp
  refine .onConn s fun d hd => ?_
  obtain rfl : d = c := Option.some.inj (hd.symm.trans hcur)
  rw [DerpConn.write, hin]
  exact ⟨rfl, rfl, rfl, rfl⟩

lemma WriteSafe.down_of_not_admitting (h : admitting s.sup = false) :
    s.connected = false := by
  by_contra hc
  have hup := hs.up (Bool.eq_true_of_not_eq_false hc)
  rw [h] at hup
  cases hup

lemma WriteSafe.down_of_offline (h : serving s.sup = false) :
    s.connected = false := by
  apply hs.down_of_not_admitting
  cases hp : s.sup <;> rw [hp] at h <;> first | rfl | cases h

end

lemma writeSafe_init : WriteSafe cfg (init : DerpWorld ι) where
  owned := by
    intro u
    cases u <;> exact ⟨nofun, nofun⟩
  made := fun _ _ => ⟨none, rfl⟩
  writer := fun _ => trivial
  between := nofun
  up := nofun
  login := nofun
  setUp := nofun
  streams := nofun
  fed := fun _ => ⟨0, .inl rfl⟩
  supFed := ⟨0, .inl rfl⟩

section Writers
variable [DecidableEq ι]

lemma holding_goTo (s : DerpWorld ι) (i : ι) (pc : WriterPc) :
    holding (s.goTo i pc) = Function.update (holding s) (some i) pc.holds := by
  funext t
  cases t with
  | none => rfl
  | some j =>
    by_cases hj : j = i
    · subst hj
      simp [holding, goTo]
    · simp [holding, goTo, Function.update_of_ne, hj]

section
variable (hs : WriteSafe cfg s)
include hs

lemma WriteSafe.writers_after
    (ht : (s.writers i).holds = true ∨ SameView s t) (hpc : Asserts t pc) :
    ∀ j, Asserts t (Function.update s.writers i pc j) := by
  refine (Function.forall_update_iff _ fun _ => Asserts t).mpr ⟨hpc, fun j hj => ?_⟩
  rcases ht with hh | hv
  · have hne : some j ≠ some i := fun h => hj (Option.some.inj h)
    exact asserts_of_outside (hs.owned.other (t := some i) hh hne)
  · exact (hs.writer j).view hv

lemma WriteSafe.goTo (ht : t = { s with
      holder := t.holder, connected := t.connected, abortReads := t.abortReads,
      txStage := t.txStage, conns := t.conns })
    (hup : t.connected = true → s.connected = true)
    (howned : Mutex.Owned t.holder (Function.update (holding s) (some i) pc.holds))
    (hmade : s.lockMade = true ∨ ∃ r, pc = .idle r)
    (hview : (s.writers i).holds = true ∨ SameView s t)
    (hcur : current t = current s ∨ serving s.sup = true) (hpc : Asserts t pc)
    (hbetween : t.connected = true → midFrame pc = false →
      (∀ j, j ≠ i → midFrame (s.writers j) = false) → Unbroken t Whole)
    (hstreams : ∀ (n : ℕ) (c : DerpConn), t.conns[n]? = some c →
      (t.tls = some n → writing pc = false ∧ ∀ j, j ≠ i → writing (s.writers j) = false) →
        Settled c) (hfed : FedUntil cfg.fedMaxMs pc.wait) : WriteSafe cfg (t.goTo i pc) := by
  have hw : t.writers = s.writers := by rw [ht]
  have hsup : t.sup = s.sup := by rw [ht]
  have hgen : t.gen = s.gen := by rw [ht]
  have hlock : t.lockMade = s.lockMade := by rw [ht]
  have hholding : holding t = holding s := by
    funext u
    cases u with
    | none => exact congrArg DerpSupPc.holds hsup
    | some j => exact congrArg (fun w => (w j).holds) hw
  have hlogin {b : Bool} (hns : serving s.sup = false) (h : LoggingIn s b) :
      LoggingIn (t.goTo i pc) b := by
    obtain ⟨c, hc, hg, h⟩ := h
    rcases hcur with hcur | hsv
    · exact ⟨c, hcur.trans hc, hg.trans hgen.symm, h⟩
    · rw [hsv] at hns
      cases hns
  exact
    { owned := by
        rw [holding_goTo, hholding]
        exact howned
      made := by
        intro hm
        have hm' : s.lockMade = false := hlock.symm.trans hm
        rcases hmade with hmade | hidle
        · rw [hmade] at hm'
          cases hm'
        · change ∀ j, ∃ r, Function.update t.writers i pc j = .idle r
          rw [hw]
          exact (Function.forall_update_iff _ fun _ x => ∃ r, x = WriterPc.idle r).mpr
            ⟨hidle, fun j _ => hs.made hm' j⟩
      writer := by
        intro j
        have hj := hs.writers_after hview hpc j
        rw [← hw] at hj
        exact hj.view ⟨rfl, rfl, rfl, rfl, id⟩
      between := by
        intro hc hall
        change ∀ j, midFrame (Function.update t.writers i pc j) = false at hall
        rw [hw] at hall
        obtain ⟨hmid, hother⟩ :=
          (Function.forall_update_iff _ fun _ x => midFrame x = false).mp hall
        exact hbetween hc hmid hother
      up := fun hc => (congrArg admitting hsup).trans (hs.up (hup hc))
      login := fun b hb =>
        have hb' : s.sup = .login b := hsup.symm.trans hb
        hlogin (by rw [hb']; rfl) (hs.login b hb')
      setUp := fun hb =>
        have hb' : s.sup = .setUp := hsup.symm.trans hb
        hlogin (by rw [hb']; rfl) (hs.setUp hb')
      streams := by
        intro n c hc hq
        refine hstreams n c hc fun htls => ?_
        rw [← hw]
        exact (Function.forall_update_iff _ fun _ x => writing x = false).mp (hq htls)
      fed := by
        change ∀ j, FedUntil cfg.fedMaxMs (Function.update t.writers i pc j).wait
        rw [hw]
        exact (Function.forall_update_iff _ fun _ x => FedUntil cfg.fedMaxMs (WriterPc.wait x)).mpr
          ⟨hfed, fun j _ => hs.fed j⟩
      supFed := by
        change FedUntil cfg.fedMaxMs t.sup.wait
        rw [hsup]
        exact hs.supFed }

lemma WriteSafe.streams_after (hw : writing pc = false → writing (s.writers i) = false) (n : ℕ)
    (c : DerpConn) (hc : s.conns[n]? = some c)
    (hq : s.tls = some n → writing pc = false ∧ ∀ j, j ≠ i → writing (s.writers j) = false) :
    Settled c := by
  refine hs.streams n c hc fun htls j => ?_
  by_cases hj : j = i
  · rw [hj]
    exact hw (hq htls).1
  · exact (hq htls).2 j hj

lemma WriteSafe.moveTo
    (hh : pc.holds = (s.writers i).holds) (hmade : s.lockMade = true ∨ ∃ r, pc = .idle r)
    (hpc : Asserts s pc)
    (hmid : s.connected = true → midFrame pc = false → midFrame (s.writers i) = false)
    (hw : writing pc = false → writing (s.writers i) = false)
    (hfed : FedUntil cfg.fedMaxMs pc.wait) : WriteSafe cfg (s.goTo i pc) := by
  refine hs.goTo rfl id (hs.owned.keep hh) hmade (.inr ⟨rfl, rfl, rfl, rfl, id⟩) (.inl rfl) hpc ?_
    (hs.streams_after hw) hfed
  exact fun hc hpcmid hother => hs.between_others hc (hmid hc hpcmid) hother

lemma WriteSafe.moveIdly
    (hh : pc.holds = (s.writers i).holds) (hmade : s.lockMade = true ∨ ∃ r, pc = .idle r)
    (hpc : Asserts s pc) (hmid : midFrame (s.writers i) = false)
    (hfed : FedUntil cfg.fedMaxMs pc.wait) : WriteSafe cfg (s.goTo i pc) :=
  hs.moveTo hh hmade hpc (fun _ _ => hmid) (fun _ => writing_of_midFrame hmid) hfed

lemma WriteSafe.broke {u : DerpWorld ι} {g : ℕ}
    (hu : u = { s with conns := u.conns }) (hh : (s.writers i).holds)
    (hm : s.lockMade) (hg : g = s.gen) (hp : Unbroken u (Amid f p)) (hcut : p <+: f.encode)
    (hstreams : ∀ (n : ℕ) (c : DerpConn), u.conns[n]? = some c → u.tls = some n ∨ Settled c) :
    WriteSafe cfg (u.broke i f g) := by
  obtain ⟨c, ⟨hcur, hgen, hin, hkept, hsup⟩, -, hamid⟩ := hp
  have hgen' : u.gen = s.gen := by rw [hu]
  have hsup' : u.sup = s.sup := by rw [hu]
  have hlost : current { u with conns := u.onConn fun c => { c with broken := true } } =
      some { c with broken := true } := by
    rw [current_onConn, hcur]
    rfl
  refine hs.goTo (t := { u with conns := u.onConn fun c => { c with broken := true } })
    (by rw [hu]) (by rw [hu]; exact id) ?_ (.inl hm) (.inl hh) (.inr (hsup' ▸ hsup))
    ⟨hg.trans hgen'.symm, _, hlost, hgen, hin, hkept, hsup⟩ nofun ?_ ⟨0, .inl rfl⟩
  · rw [hu]
    exact hs.owned.keep hh.symm
  · intro n c' hc' _
    obtain ⟨d, hd, ⟨htls, rfl⟩ | ⟨htls, rfl⟩⟩ := onConn_cases hc'
    · obtain rfl : d = c := Option.some.inj ((current_of_tls htls hd).symm.trans hcur)
      exact .inr ⟨rfl, f, p, hamid, hcut⟩
    · exact (hstreams n _ hd).resolve_left htls

lemma WriteSafe.next {u : DerpWorld ι} {g : ℕ}
    {bufs : List DerpBuf} {sent idle : ℕ}
    (hu : u = { s with txStage := u.txStage, conns := u.conns })
    (hh : (s.writers i).holds) (hm : s.lockMade) (hg : g = s.gen)
    (hp : Unbroken u (Amid f p)) (hl : p ++ left u bufs sent = f.encode)
    (hstreams : ∀ (n : ℕ) (c : DerpConn), u.conns[n]? = some c → u.tls = some n ∨ Settled c) :
    WriteSafe cfg (u.goTo i (u.nextWrite f g bufs sent idle)) := by
  have hgen : u.gen = s.gen := by rw [hu]
  have hsup : u.sup = s.sup := by rw [hu]
  have hup : u.connected = true → s.connected = true := by rw [hu]; exact id
  have hsv : serving s.sup = true := by
    obtain ⟨c, ⟨-, -, -, -, hsv⟩, -⟩ := hp
    exact hsup ▸ hsv
  have howned : Mutex.Owned u.holder (Function.update (holding s) (some i) true) := by
    rw [hu]
    exact hs.owned.keep hh.symm
  rcases nextWrite_cases u f g bufs sent idle with ⟨hn, hnil⟩ | ⟨bufs', sent', idle', hn, hleft⟩
  · rw [hnil, List.append_nil] at hl
    subst hl
    obtain ⟨c, hc, hb, hfol⟩ := hp
    rw [hn]
    refine hs.goTo (by rw [hu]) hup howned (.inl hm) (.inl hh) (.inr hsv) trivial
      (fun _ _ _ => ⟨c, hc, hb, hfol.whole⟩) (fun n d hd _ => ?_) ⟨0, .inl rfl⟩
    rcases hstreams n d hd with htls | hset
    · obtain rfl : d = c := Option.some.inj ((current_of_tls htls hd).symm.trans hc.1)
      exact .inl hfol.whole
    · exact hset
  · rw [hn]
    refine hs.goTo (by rw [hu]) hup howned (.inl hm) (.inl hh) (.inr hsv)
      ⟨hg.trans hgen.symm, p, hp, by rw [hleft, hl]⟩ nofun (fun n d hd hq => ?_) ⟨0, .inl rfl⟩
    exact (hstreams n d hd).resolve_left fun htls => absurd (hq htls).1 (by simp [writing])

lemma WriteSafe.writer_step {a : WriterAction}
    (hm : WriterMove cfg s i a s') : WriteSafe cfg s' := by
  have hfed : FedUntil cfg.fedMaxMs .begin := ⟨0, .inl rfl⟩
  have hw := hs.writer i
  have hwait := hs.fed i
  cases hm with
  | refuse _ _ r hpc =>
    exact hs.moveIdly (by rw [hpc]; rfl) (.inr ⟨r, rfl⟩) trivial (by rw [hpc]; rfl) hfed
  | setOut _ _ _ hpc hm =>
    exact hs.moveIdly (by rw [hpc]; rfl) (.inl hm) trivial (by rw [hpc]; rfl) hfed
  | outside _ _ hh hh' hf _ hwm =>
    refine hs.moveIdly (hh'.trans hh.symm) (.inl (hs.lock_made (i := i) rfl ?_))
      (asserts_of_outside hh') (midFrame_of_outside hh) (hwait.move hwm)
    intro r hr
    rw [hr] at hf
    exact hf rfl
  | take _ _ _ _ _ hpc hfree =>
    rw [hpc] at hwait
    refine hs.goTo rfl id ?_ (.inl (hs.lock_made hpc nofun))
      (.inr ⟨rfl, rfl, rfl, rfl, id⟩) (.inl rfl) trivial ?_
      (hs.streams_after fun _ => by rw [hpc]; rfl) hwait
    · have hnone := hs.owned
      rw [hfree] at hnone
      exact hnone.take
    · exact fun hc _ hother => hs.between_others hc (by rw [hpc]; rfl) hother
  | seeUp a _ _ _ _ hpc hup =>
    have hh : (s.writers i).holds = true := by rw [hpc]; rfl
    rw [hpc] at hwait
    refine hs.moveIdly hh.symm (.inl (hs.lock_made hpc nofun)) ?_
      (by rw [hpc]; rfl) hwait
    -- no one else is in a frame, since the lock is here
    exact hs.between_others hup (by rw [hpc]; rfl) fun j hj =>
      midFrame_of_outside (hs.others_outside hh hj)
  | hold _ _ _ _ _ hpc hg =>
    rw [hpc] at hw
    exact hs.moveIdly (by rw [hpc]; rfl) (.inl (hs.lock_made hpc nofun))
      ⟨hg.symm, hw⟩ (by rw [hpc]; rfl) hfed
  | enter _ f _ _ hpc =>
    rw [hpc] at hw
    obtain ⟨hg, c, ⟨hcur, hserves⟩, hb, hwhole⟩ := hw
    have hcur' : current (assembled s f) = some { c with frames := c.frames ++ [f] } :=
      (current_onConn s _).trans (by rw [hcur]; rfl)
    exact hs.next (u := assembled s f) rfl (by rw [hpc]; rfl)
      (hs.lock_made hpc nofun) hg (p := [])
      ⟨_, ⟨hcur', hserves⟩, hb, hwhole.begin f⟩ (left_writes s f) hs.onConn_settled
  | poll _ _ _ _ _ _ hpc | again _ _ _ _ _ _ hpc | failUp a f g hpc =>
    rw [hpc] at hw
    exact hs.moveTo (by rw [hpc]; rfl) (.inl (hs.lock_made hpc nofun)) hw
      nofun (by simp [writing, hpc]) hfed
  | wrote _ f _ b bs sent _ n hpc =>
    rw [hpc] at hw
    obtain ⟨hg, p, hp, hl⟩ := hw
    obtain ⟨q, hq, hl'⟩ := hp.sendBytes hl n
    rw [← nextWrite_sendBytes s b sent n]
    have hnext : q ++ left (s.sendBytes b sent n) (b :: bs) (sent + n) = f.encode := hl'
    exact hs.next (u := s.sendBytes b sent n) rfl (by rw [hpc]; rfl)
      (hs.lock_made hpc nofun) hg hq hnext hs.onConn_settled
  | fail _ _ _ b _ sent _ n hpc =>
    rw [hpc] at hw
    obtain ⟨hg, p, hp, hl⟩ := hw
    obtain ⟨q, hq, hl'⟩ := hp.sendBytes hl n
    exact hs.broke (u := s.sendBytes b sent n) rfl (by rw [hpc]; rfl)
      (hs.lock_made hpc nofun) hg hq ⟨_, hl'⟩ hs.onConn_settled
  | cut _ f g _ _ idle hpc =>
    have hin : (s.writers i).holds = true ∧ (∀ r, s.writers i ≠ .idle r) ∧ g = s.gen ∧
        ∃ p, Unbroken s (Amid f p) ∧ p <+: f.encode := by
      rcases hpc with hpc | hpc
      all_goals
        rw [hpc] at hw ⊢
        obtain ⟨hg, p, hp, hl⟩ := hw
        exact ⟨rfl, fun _ => nofun, hg, p, hp, _, hl⟩
    obtain ⟨hh, hbusy, hg, p, hp, hcut⟩ := hin
    refine hs.broke (u := s) rfl hh (hs.lock_made rfl hbusy) hg hp hcut fun n c hc => ?_
    by_cases htls : s.tls = some n
    · exact .inl htls
    · exact .inr (hs.streams n c hc fun h => absurd h htls)
  | shut a f g hpc =>
    rw [hpc] at hw
    have hh : (s.writers i).holds = true := by rw [hpc]; rfl
    exact hs.goTo rfl nofun (hs.owned.keep hh.symm)
      (.inl (hs.lock_made hpc nofun)) (.inl hh) (.inl rfl)
      ⟨hw.1, hw.2, rfl⟩ nofun (hs.streams_after fun _ => by rw [hpc]; rfl) hfed
  | abort a f g hpc =>
    rw [hpc] at hw
    have hh : (s.writers i).holds = true := by rw [hpc]; rfl
    refine hs.goTo rfl id (hs.owned.keep hh.symm)
      (.inl (hs.lock_made hpc nofun)) (.inl hh) (.inl rfl) trivial ?_
      (hs.streams_after fun _ => by rw [hpc]; rfl) hfed
    intro hc
    rw [hw.2.2] at hc
    cases hc
  | leave a r hh hwr hq =>
    refine hs.moveTo hh.symm (.inl (hs.lock_made (i := i) rfl ?_)) trivial ?_ (fun _ => hwr) hfed
    · intro r hr
      rw [hr] at hh
      cases hh
    · intro hc _
      rcases hq with hq | hq
      · exact hq
      · rw [hq] at hc
        cases hc
  | give a r hpc =>
    have hh : (s.writers i).holds = true := by rw [hpc]; rfl
    refine hs.goTo rfl id (hs.owned.give (t := some i) hh)
      (.inl (hs.lock_made hpc nofun)) (.inl hh) (.inl rfl) trivial ?_
      (hs.streams_after fun _ => by rw [hpc]; rfl) hfed
    exact fun hc _ hother => hs.between_others hc (by rw [hpc]; rfl) hother

end

lemma holding_sup (hw : t.writers = s.writers) :
    holding t = Function.update (holding s) none t.sup.holds := by
  funext u
  cases u with
  | none => simp [holding]
  | some => simp [holding, hw]

lemma WriteSafe.owned_sup (hs : WriteSafe cfg s) (hw : t.writers = s.writers)
    (hholder : t.holder = s.holder) (hh : t.sup.holds = s.sup.holds) :
    Mutex.Owned t.holder (holding t) := by
  rw [holding_sup hw, hholder]
  exact hs.owned.keep hh

lemma WriteSafe.offline (hs : WriteSafe cfg s) (hw : t.writers = s.writers)
    (hasserts : ∀ i, Asserts t (s.writers i))
    (howned : Mutex.Owned t.holder (Function.update (holding s) none t.sup.holds))
    (hmade : s.lockMade = true → t.lockMade = true) (hdown : t.connected = false)
    (hlogin : ∀ b, t.sup = .login b → LoggingIn t false) (hsetUp : t.sup = .setUp → LoggingIn t true)
    (hstreams : AllSettled t.conns) (hfed : FedUntil cfg.fedMaxMs t.sup.wait) :
    WriteSafe cfg t where
  owned := holding_sup hw ▸ howned
  made := by
    intro hm
    rw [hw]
    apply hs.made
    by_contra hne
    rw [hmade (Bool.eq_true_of_not_eq_false hne)] at hm
    cases hm
  writer := hw ▸ hasserts
  between := fun hc => by rw [hdown] at hc; cases hc
  up := fun hc => by rw [hdown] at hc; cases hc
  login := hlogin
  setUp := hsetUp
  streams := fun n c hc _ => hstreams n c hc
  fed := hw ▸ hs.fed
  supFed := hfed

lemma AfterClose.apart (next : AfterClose) : Apart next.pc := by
  cases next with
  | byName | down => exact ⟨rfl, rfl, fun _ => nofun, nofun⟩

lemma WriteSafe.sup_step (hs : WriteSafe cfg s) (hm : SupMove cfg s s') : WriteSafe cfg s' := by
  have hfed : FedUntil cfg.fedMaxMs .begin := ⟨0, .inl rfl⟩
  have houtside (t : DerpWorld ι) (hh : s.sup.holds = true) (i : ι) : Asserts t (s.writers i) :=
    asserts_of_outside (hs.owned.other (t := none) (u := some i) hh nofun)
  cases hm with
  | serve connected pc hp hp' hc hwm =>
    have hv : SameView s { s with connected, sup := pc } := by
      refine ⟨rfl, rfl, rfl, hp'.trans hp.symm, fun hdown => ?_⟩
      by_contra hne
      rw [(hc (Bool.eq_true_of_not_eq_false hne)).1] at hdown
      cases hdown
    have hh : pc.holds = s.sup.holds := by
      have hno {pc : DerpSupPc} (h : serving pc = true) : pc.holds = false := by
        cases pc <;> first | rfl | cases h
      rw [hno hp, hno hp']
    exact
      { owned := hs.owned_sup rfl rfl hh
        made := hs.made
        writer := fun i => (hs.writer i).view hv
        between := fun hup hmid => (hs.between (hc hup).1 hmid).view hv
        up := fun hup => (hc hup).2 (hs.up (hc hup).1)
        login := by
          rintro b rfl
          cases hp'
        setUp := by
          rintro rfl
          cases hp'
        streams := hs.streams
        fed := hs.fed
        supFed := hs.supFed.move hwm }
  | take _ hp _ hfree =>
    have hnone := hs.owned
    rw [hfree] at hnone
    exact hs.offline rfl (fun i => asserts_of_outside (hnone.unheld (some i))) hnone.take id
      (hs.down_of_not_admitting hp) nofun nofun
      (hs.settled fun i => writing_of_midFrame (midFrame_of_outside (hnone.unheld (some i)))) hfed
  | unmade next hm hp =>
    have hpc := AfterClose.apart next
    have hidle (i : ι) : Asserts { s with connected := false, sup := next.pc } (s.writers i) := by
      obtain ⟨r, hr⟩ := hs.made hm i
      rw [hr]
      trivial
    have hkeep : next.pc.holds = s.sup.holds := by
      rw [hpc.holds]
      cases hs : s.sup <;> rw [hs] at hp <;> first | rfl | cases hp
    refine hs.offline rfl hidle (hs.owned.keep hkeep) id rfl (fun b hb => absurd hb (hpc.login b))
      (fun hb => absurd hb hpc.setUp) (hs.settled fun i => ?_) (hpc.wait ▸ hfed)
    obtain ⟨r, hr⟩ := hs.made hm i
    rw [hr]
    rfl
  | destroy _ hp =>
    have hh : s.sup.holds = true := by rw [hp]; rfl
    have hoff : serving s.sup = false := by rw [hp]; rfl
    exact hs.offline rfl (houtside _ hh) (hs.owned.keep hh.symm) id (hs.down_of_offline hoff) nofun
      nofun ((ConnsKept.destroyed s).streams (hs.settled_offline hoff)) hfed
  | give next hp =>
    have hh : s.sup.holds = true := by rw [hp]; rfl
    have hpc := AfterClose.apart next
    have howned := hs.owned.give (t := none) hh
    rw [← hpc.holds] at howned
    have hoff : serving s.sup = false := by rw [hp]; rfl
    exact hs.offline rfl (houtside _ hh) howned id (hs.down_of_offline hoff)
      (fun b hb => absurd hb (hpc.login b)) (fun hb => absurd hb hpc.setUp)
      (hs.settled_offline hoff) (hpc.wait ▸ hfed)
  | connect connected _ _ _ _ _ _ hp hh hpc hc hm hk =>
    have hdown : connected = false := by
      by_contra hne
      have hup := hc (Bool.eq_true_of_not_eq_false hne)
      rw [hs.down_of_offline hp] at hup
      cases hup
    exact hs.offline rfl (hs.asserts_of_offline hp _) (hs.owned.keep (hpc.holds.trans hh.symm)) hm
      hdown (fun b hb => absurd hb (hpc.login b)) (fun hb => absurd hb hpc.setUp)
      (hk.streams (hs.settled_offline hp)) (hpc.wait ▸ hfed)
  | opened _ _ hp hh hk =>
    refine hs.offline rfl (hs.asserts_of_offline hp _) (hs.owned.keep hh.symm) id
      (hs.down_of_offline hp) ?_ nofun ((hk.push s.gen).streams (hs.settled_offline hp)) hfed
    intro b _
    exact ⟨.opened s.gen, List.getElem?_concat_length, rfl, rfl, ⟨rfl, rfl⟩, rfl, rfl⟩
  | loginWrite b byAddr hp =>
    obtain ⟨c, hcur, hgen, hin, hstream, hbroken, hkept⟩ := hs.login byAddr hp
    have hoff : serving s.sup = false := by rw [hp]; rfl
    have hwrite : c.write b = { c with hello := c.hello ++ b } := by
      rw [DerpConn.write, hin]
      rfl
    have hcur' : current { s with conns := s.onConn fun c => c.write b } = some (c.write b) := by
      rw [current_onConn, hcur]
      rfl
    refine hs.offline rfl (hs.asserts_of_offline hoff _) (hs.owned.keep rfl) id
      (hs.down_of_offline hoff) ?_ ?_ ((hs.hello_kept hp b).streams (hs.settled_offline hoff))
      hs.supFed
    · intro _ _
      refine ⟨_, hcur', ?_⟩
      rw [hwrite]
      exact ⟨hgen, hin, hstream, hbroken, hkept⟩
    · intro hset
      rw [hp] at hset
      cases hset
  | loggedIn byAddr hp =>
    obtain ⟨c, hcur, hgen, hin, hstream, hbroken, hkept⟩ := hs.login byAddr hp
    have hoff : serving s.sup = false := by rw [hp]; rfl
    refine hs.offline rfl (hs.asserts_of_offline hoff _)
      (hs.owned.keep (congrArg DerpSupPc.holds hp).symm) id (hs.down_of_offline hoff) nofun ?_
      ((ConnsKept.loggedIn s).streams (hs.settled_offline hoff)) hfed
    intro _
    refine ⟨{ c with loggedIn := true }, ?_, hgen, rfl, hstream, hbroken, hkept⟩
    have hcur' := current_onConn s fun c => { c with loggedIn := true }
    rw [hcur] at hcur'
    exact hcur'
  | setUp hp =>
    obtain ⟨c, hcur, hgen, hin, hstream, hbroken, hkept⟩ := hs.setUp hp
    have hoff : serving s.sup = false := by rw [hp]; rfl
    exact
      { owned := hs.owned_sup rfl rfl (congrArg DerpSupPc.holds hp).symm
        made := hs.made
        writer := hs.asserts_of_offline hoff _
        between := fun _ _ => ⟨c, ⟨hcur, hgen, hin, hkept, rfl⟩, hbroken, by
          rw [Whole, hstream.1, hstream.2]
          rfl⟩
        up := fun _ => rfl
        login := nofun
        setUp := nofun
        streams := hs.streams
        fed := hs.fed
        supFed := hfed }

lemma WriteSafe.step (hs : WriteSafe cfg s) {a : DerpAction ι} (h : derpStep cfg s a = some s') :
    WriteSafe cfg s' := by
  cases a with
  | writer => exact hs.writer_step (writerStep_cases h)
  | sup => exact hs.sup_step (supStep_cases h)

theorem write_safe (E : DerpRun ι cfg) {k : ℕ} (hk : k ≤ E.length) : WriteSafe cfg (E.state k) := by
  refine E.invariant ?_ (fun s a s' hs h => hs.step h) k hk
  rintro s rfl
  exact writeSafe_init

end Writers

end TinyLink.Proofs
