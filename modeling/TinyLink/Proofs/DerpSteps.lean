import TinyLink.DerpWrite

/-!
# Steps of the DERP writers and of the supervisor

What a step means for the lock, the connection and the frame on it.
-/

namespace TinyLink.Proofs
open DerpWorld

variable {ι : Type} {cfg : DerpConfig} {s s' : DerpWorld ι} {i : ι}

def midFrame : WriterPc → Bool
  | .polls _ _ _ _ _ | .writes _ _ _ _ _ | .failed _ _ | .failedUp _ _ | .aborts _ _ => true
  | _ => false

/-- The writer is between two bytes of a frame. -/
def writing : WriterPc → Bool
  | .polls _ _ _ _ _ | .writes _ _ _ _ _ => true
  | _ => false

def WaitMove (cfg : DerpConfig) (w w' : DerpWait) : Prop :=
  w' = w ∨ w' = .begin ∨ ∃ ms, w' = derpWlWaited w ms cfg.fedMaxMs

def assembled (s : DerpWorld ι) (f : DerpFrame) : DerpWorld ι :=
  { s with
    txStage :=
      if f.body.length ≤ derpTxStageMax then f.encode ++ s.txStage.drop f.encode.length
      else s.txStage
    conns := s.onConn fun c => { c with frames := c.frames ++ [f] } }

section Writers
variable [DecidableEq ι]

inductive WriterMove (cfg : DerpConfig) (s : DerpWorld ι) (i : ι) :
    WriterAction → DerpWorld ι → Prop
  | refuse (a last r) (hpc : s.writers i = .idle last) :
      WriterMove cfg s i a (s.goTo i (.idle r))
  | setOut (f noWait last) (hpc : s.writers i = .idle last) (hm : s.lockMade = true) :
      WriterMove cfg s i (.send f noWait) (s.goTo i (.admits f noWait s.gen))
  /-- a step without the lock -/
  | outside (a pc) (hh : (s.writers i).holds = false)
      (hh' : pc.holds = false) (hf : (s.writers i).flight ≠ none)
      (hf' : pc.flight = none ∨ pc.flight = (s.writers i).flight)
      (hw : WaitMove cfg (s.writers i).wait pc.wait) : WriterMove cfg s i a (s.goTo i pc)
  | take (a f noWait g w) (hpc : s.writers i = .takes f noWait g w) (hfree : s.holder = none) :
      WriterMove cfg s i a ({ s with holder := some (some i) }.goTo i (.took f noWait g w))
  | seeUp (a f noWait g w) (hpc : s.writers i = .took f noWait g w) (hup : s.connected = true) :
      WriterMove cfg s i a (s.goTo i (.tookUp f noWait g w))
  | hold (a f noWait g w) (hpc : s.writers i = .tookUp f noWait g w) (hg : s.gen = g) :
      WriterMove cfg s i a (s.goTo i (.held f noWait g))
  | enter (writable f noWait g) (hpc : s.writers i = .held f noWait g) :
      WriterMove cfg s i (.enter writable)
        ((assembled s f).goTo i ((assembled s f).nextWrite f g f.writes 0 0))
  | poll (a f g bufs sent idle) (hpc : s.writers i = .polls f g bufs sent idle) :
      WriterMove cfg s i a (s.goTo i (.writes f g bufs sent idle))
  | again (a f g bufs sent idle) (hpc : s.writers i = .writes f g bufs sent idle) :
      WriterMove cfg s i a (s.goTo i (.polls f g bufs sent (idle + 1)))
  | wrote (r f g b bs sent idle n) (hpc : s.writers i = .writes f g (b :: bs) sent idle) :
      WriterMove cfg s i (.write r)
        ((s.sendBytes b sent n).goTo i (s.nextWrite f g (b :: bs) (sent + n) 0))
  /-- the write fails behind `n` more bytes -/
  | fail (r f g b bs sent idle n) (hpc : s.writers i = .writes f g (b :: bs) sent idle) :
      WriterMove cfg s i (.write r) ((s.sendBytes b sent n).broke i f g)
  /-- the write fails, or is cut, with no byte -/
  | cut (a f g bufs sent idle)
      (hpc : s.writers i = .polls f g bufs sent idle ∨ s.writers i = .writes f g bufs sent idle) :
      WriterMove cfg s i a (s.broke i f g)
  | failUp (a f g) (hpc : s.writers i = .failed f g) :
      WriterMove cfg s i a (s.goTo i (.failedUp f g))
  | shut (a f g) (hpc : s.writers i = .failedUp f g) :
      WriterMove cfg s i a ({ s with connected := false }.goTo i (.aborts f g))
  | abort (a f g) (hpc : s.writers i = .aborts f g) :
      WriterMove cfg s i a ({ s with abortReads := true }.goTo i (.gives .fail))
  /-- the turn ends without a frame, or behind one that a close has cut -/
  | leave (a r) (hh : (s.writers i).holds = true) (hw : writing (s.writers i) = false)
      (hq : midFrame (s.writers i) = false ∨ s.connected = false) :
      WriterMove cfg s i a (s.goTo i (.gives r))
  | give (a r) (hpc : s.writers i = .gives r) :
      WriterMove cfg s i a ({ s with holder := none }.goTo i (.idle (some r)))

lemma writerStep_cases {a : WriterAction} (h : writerStep cfg s i a = some s') :
    WriterMove cfg s i a s' := by
  -- every action is enabled at its own places of the writer only
  cases a <;> cases hpc : s.writers i <;>
    simp only [writerStep, hpc, reduceCtorEq] at h <;> try cases h
  case send.idle f noWait last =>
    cases hm : s.lockMade with
    | true => exact .setOut f noWait last hpc hm
    | false => exact .refuse _ last _ hpc
  case loadUp.admits f noWait g =>
    refine .outside _ _ (by rw [hpc]; rfl) (by split <;> rfl) (by rw [hpc]; nofun) ?_ ?_
    · rw [hpc]
      split
      · exact .inr rfl
      · exact .inl rfl
    · split <;> exact .inr (.inl rfl)
  case loadUp.took f noWait g w =>
    cases hup : s.connected with
    | true => exact .seeUp _ f noWait g w hpc hup
    | false => exact .leave _ _ (by rw [hpc]; rfl) (by rw [hpc]; rfl) (.inr hup)
  case loadUp.missed f noWait g w =>
    refine .outside _ _ (by rw [hpc]; rfl) (by split <;> rfl) (by rw [hpc]; nofun) ?_ ?_
    · rw [hpc]
      split
      · exact .inr rfl
      · exact .inl rfl
    · rw [hpc]
      split
      · exact .inl rfl
      · exact .inr (.inl rfl)
  case take.takes got f noWait g w =>
    cases got with
    | false =>
      cases h
      exact .outside _ _ (by rw [hpc]; rfl) rfl (by rw [hpc]; nofun) (.inr (by rw [hpc]; rfl))
        (.inl (by rw [hpc]; rfl))
    | true =>
      simp only [Bool.not_true, Bool.false_eq_true, if_false] at h
      split_ifs at h with hfree
      cases h
      exact .take _ f noWait g w hpc hfree
  case loadGen.tookUp f noWait g w =>
    by_cases hg : s.gen = g
    · rw [if_pos hg]
      exact .hold _ f noWait g w hpc hg
    · rw [if_neg hg]
      exact .leave _ _ (by rw [hpc]; rfl) (by rw [hpc]; rfl) (.inl (by rw [hpc]; rfl))
  case loadGen.missedUp f noWait g w =>
    refine .outside _ _ (by rw [hpc]; rfl) (by split_ifs <;> rfl) (by rw [hpc]; nofun) ?_ ?_
    · rw [hpc]
      split_ifs
      · exact .inl rfl
      · exact .inl rfl
      · exact .inr rfl
    · rw [hpc]
      split_ifs
      · exact .inr (.inl rfl)
      · exact .inr (.inl rfl)
      · exact .inr (.inr ⟨cfg.sliceMs, rfl⟩)
  case enter.held f noWait g =>
    split at h
    · cases h
      exact .leave _ _ (by rw [hpc]; rfl) (by rw [hpc]; rfl) (.inl (by rw [hpc]; rfl))
    · cases h
      exact .enter _ f noWait g hpc
  case poll.polls f g bufs sent idle =>
    split at h
    · cases h
      exact .poll _ f g bufs sent idle hpc
    · cases h
      exact .cut _ f g bufs sent idle (.inl hpc)
  case write.writes r f g bufs sent idle =>
    cases bufs with
    | nil => cases h
    | cons b bs =>
      cases h
      cases r with
      | wrote =>
        simp only [writeCall]
        split
        · exact .cut _ f g _ sent idle (.inr hpc)
        · exact .wrote _ f g b bs sent idle _ hpc
      | again =>
        simp only [writeCall]
        split
        · exact .cut _ f g _ sent idle (.inr hpc)
        · exact .again _ f g _ sent idle hpc
      | failed n => exact .fail _ f g b bs sent idle n hpc
  case fail.failed f g =>
    cases hup : s.connected with
    | true => exact .failUp _ f g hpc
    | false => exact .leave _ _ (by rw [hpc]; rfl) (by rw [hpc]; rfl) (.inr hup)
  case fail.failedUp f g => exact .shut _ f g hpc
  case fail.aborts f g => exact .abort _ f g hpc
  case give.gives r => exact .give _ r hpc

end Writers

def serving : DerpSupPc → Bool
  | .up | .closing _ | .grace _ | .cut _ _ | .slice _ _ => true
  | _ => false

def admitting : DerpSupPc → Bool
  | .up | .closing _ => true
  | _ => false

/-- The same generation, and the same frames and bytes behind the login. -/
def SameStream (c c' : DerpConn) : Prop :=
  c'.gen = c.gen ∧ c'.stream = c.stream ∧ c'.frames = c.frames ∧ c'.broken = c.broken

/-- No byte is written behind a login: what was there is there, and what is new is empty. -/
structure ConnsKept (conns conns' : List DerpConn) : Prop where
  old : ∀ (k : ℕ) (c : DerpConn), conns[k]? = some c → ∃ c' : DerpConn,
    conns'[k]? = some c' ∧ SameStream c c'
  new : ∀ (k : ℕ) (c' : DerpConn), conns'[k]? = some c' →
    (∃ gen, c' = .opened gen) ∨ ∃ c : DerpConn, conns[k]? = some c ∧ SameStream c c'

def current (s : DerpWorld ι) : Option DerpConn := s.tls.bind (s.conns[·]?)

lemma current_of_tls {k : ℕ} {c : DerpConn} (htls : s.tls = some k) (hc : s.conns[k]? = some c) :
    current s = some c := by
  rw [current, htls]
  exact hc

lemma getElem?_onConn (s : DerpWorld ι) (g : DerpConn → DerpConn) (k : ℕ) :
    (s.onConn g)[k]? = (s.conns[k]?).map fun c => if s.tls = some k then g c else c := by
  unfold onConn
  split
  · rename_i h
    simp [h]
  · rename_i n h
    rw [List.getElem?_modify, h]
    by_cases hk : n = k
    · simp [hk]
    · simp [hk]

lemma current_onConn (s : DerpWorld ι) (g : DerpConn → DerpConn) :
    current { s with conns := s.onConn g } = (current s).map g := by
  unfold current
  cases htls : s.tls with
  | none => rfl
  | some k =>
    have hk := getElem?_onConn s g k
    simp only [if_pos htls] at hk
    exact hk

/-- Another connection than the current one is as it was. -/
lemma onConn_cases {g : DerpConn → DerpConn} {k : ℕ} {c' : DerpConn}
    (h : (s.onConn g)[k]? = some c') :
    ∃ c, s.conns[k]? = some c ∧ (s.tls = some k ∧ c' = g c ∨ s.tls ≠ some k ∧ c' = c) := by
  rw [getElem?_onConn, Option.map_eq_some_iff] at h
  obtain ⟨c, hc, rfl⟩ := h
  refine ⟨c, hc, ?_⟩
  split
  · rename_i htls
    exact .inl ⟨htls, rfl⟩
  · rename_i htls
    exact .inr ⟨htls, rfl⟩

namespace ConnsKept

lemma refl (conns : List DerpConn) : ConnsKept conns conns :=
  ⟨fun _ c hc => ⟨c, hc, rfl, rfl, rfl, rfl⟩, fun _ c hc => .inr ⟨c, hc, rfl, rfl, rfl, rfl⟩⟩

lemma onConn (s : DerpWorld ι) {g : DerpConn → DerpConn}
    (hg : ∀ c, current s = some c → SameStream c (g c)) : ConnsKept s.conns (s.onConn g) where
  old k c hc := by
    rw [getElem?_onConn, hc]
    refine ⟨_, rfl, ?_⟩
    split
    · rename_i htls
      exact hg c (current_of_tls htls hc)
    · exact ⟨rfl, rfl, rfl, rfl⟩
  new k c' hc' := by
    obtain ⟨c, hc, ⟨htls, rfl⟩ | ⟨-, rfl⟩⟩ := onConn_cases hc'
    · exact .inr ⟨c, hc, hg c (current_of_tls htls hc)⟩
    · exact .inr ⟨_, hc, rfl, rfl, rfl, rfl⟩

lemma destroyed (s : DerpWorld ι) :
    ConnsKept s.conns (s.onConn fun c => { c with destroyed := true }) :=
  .onConn s fun _ _ => ⟨rfl, rfl, rfl, rfl⟩

lemma loggedIn (s : DerpWorld ι) :
    ConnsKept s.conns (s.onConn fun c => { c with loggedIn := true }) :=
  .onConn s fun _ _ => ⟨rfl, rfl, rfl, rfl⟩

lemma push {conns conns' : List DerpConn} (h : ConnsKept conns conns') (gen : ℕ) :
    ConnsKept conns (conns' ++ [.opened gen]) where
  old k c hc := by
    obtain ⟨c', hc', hkept⟩ := h.old k c hc
    exact ⟨c', List.getElem?_append_left (List.getElem?_eq_some_iff.mp hc').1 ▸ hc', hkept⟩
  new k c' hc' := by
    rcases Nat.lt_or_ge k conns'.length with hk | hk
    · exact h.new k c' (List.getElem?_append_left hk ▸ hc')
    · rw [List.getElem?_append_right hk] at hc'
      exact .inl ⟨gen, List.mem_singleton.mp (List.mem_of_getElem? hc')⟩

end ConnsKept

/-- Outside the lock, and outside the login. -/
structure Apart (pc : DerpSupPc) : Prop where
  holds : pc.holds = false
  wait : pc.wait = .begin
  login : ∀ b, pc ≠ .login b
  setUp : pc ≠ .setUp

inductive SupMove (cfg : DerpConfig) (s : DerpWorld ι) : DerpWorld ι → Prop
  /-- from the first step of a close to the lock -/
  | serve (connected pc) (hp : serving s.sup = true) (hp' : serving pc = true)
      (hc : connected = true → s.connected = true ∧ (admitting s.sup = true → admitting pc = true))
      (hw : WaitMove cfg s.sup.wait pc.wait) : SupMove cfg s { s with connected, sup := pc }
  | take (next) (hp : admitting s.sup = false) (hh : s.sup.holds = false)
      (hfree : s.holder = none) :
      SupMove cfg s { s with holder := some none, sup := .destroy next }
  /-- a close before the lock exists -/
  | unmade (next : AfterClose) (hm : s.lockMade = false) (hp : serving s.sup = true) :
      SupMove cfg s { s with connected := false, sup := next.pc }
  | destroy (next) (hp : s.sup = .destroy next) :
      SupMove cfg s
        { s with
          conns := s.onConn fun c => { c with destroyed := true }
          tls := none
          sup := .gives next }
  | give (next : AfterClose) (hp : s.sup = .gives next) :
      SupMove cfg s { s with holder := none, sup := next.pc }
  /-- a step of a connect that no login is part of -/
  | connect (connected lockMade abortReads gen tls conns pc) (hp : serving s.sup = false)
      (hh : s.sup.holds = false) (hpc : Apart pc) (hc : connected = true → s.connected = true)
      (hm : s.lockMade = true → lockMade = true) (hk : ConnsKept s.conns conns) :
      SupMove cfg s { s with connected, lockMade, abortReads, gen, tls, conns, sup := pc }
  | opened (conns byAddr) (hp : serving s.sup = false)
      (hh : s.sup.holds = false) (hk : ConnsKept s.conns conns) :
      SupMove cfg s
        { s with
          tls := some conns.length
          conns := conns ++ [.opened s.gen]
          sup := .login byAddr }
  | loginWrite (b byAddr) (hp : s.sup = .login byAddr) :
      SupMove cfg s { s with conns := s.onConn fun c => c.write b }
  | loggedIn (byAddr) (hp : s.sup = .login byAddr) :
      SupMove cfg s
        { s with conns := s.onConn fun c => { c with loggedIn := true }, sup := .setUp }
  | setUp (hp : s.sup = .setUp) : SupMove cfg s { s with connected := true, sup := .up }

lemma dialed_cases {conns : List DerpConn} {byAddr : Bool} (refused : DerpSupPc)
    (hp : serving s.sup = false) (hh : s.sup.holds = false) (hk : ConnsKept s.conns conns)
    (hr : Apart refused) (r : DialOutcome) :
    SupMove cfg s ({ s with conns }.dialed byAddr refused r) := by
  cases r with
  | noMem => exact .connect _ _ _ _ _ _ _ hp hh ⟨rfl, rfl, nofun, nofun⟩ id id hk
  | refused => exact .connect _ _ _ _ _ _ _ hp hh hr id id (hk.push s.gen)
  | opened => exact .opened conns byAddr hp hh hk

lemma supStep_cases {a : SupAction} (h : supStep cfg s a = some s') : SupMove cfg s s' := by
  have hquiet {pc' : DerpSupPc} {gen : ℕ} (hp : serving s.sup = false) (hh : s.sup.holds = false)
      (hpc : Apart pc') : SupMove cfg s { s with gen, sup := pc' } :=
    .connect _ _ _ _ _ _ _ hp hh hpc id id (.refl _)
  have htake (next : AfterClose) (hp : admitting s.sup = false) (hh : s.sup.holds = false)
      (ht : (if s.holder = none then
        some { s with holder := some none, sup := .destroy next } else none) = some s') :
      SupMove cfg s s' := by
    split at ht <;> cases ht
    exact .take next hp hh (by assumption)
  -- every action is enabled at its own places of the supervisor only
  cases a <;> cases hp : s.sup <;> simp only [supStep, hp, reduceCtorEq] at h <;> try cases h
  case connect.down =>
    exact .connect _ _ _ _ _ _ _ (by rw [hp]; rfl) (by rw [hp]; rfl) ⟨rfl, rfl, nofun, nofun⟩
      nofun id (.refl _)
  case bump.bump => exact hquiet (by rw [hp]; rfl) (by rw [hp]; rfl) ⟨rfl, rfl, nofun, nofun⟩
  case reset.reset =>
    refine .connect _ _ _ _ _ _ _ (by rw [hp]; rfl) (by rw [hp]; rfl) ?_ id ?_ (.refl _)
    · split <;> exact ⟨rfl, rfl, nofun, nofun⟩
    · intro hm
      rw [hm, Bool.true_or]
  case dial.dial r byAddr =>
    exact dialed_cases (.refused byAddr) (by rw [hp]; rfl) (by rw [hp]; rfl) (.refl s.conns)
      ⟨rfl, rfl, fun _ => nofun, nofun⟩ r
  case fallback.refused r byAddr =>
    exact dialed_cases (.closing (afterDial byAddr)) (by rw [hp]; rfl) (by rw [hp]; rfl)
      (.destroyed s) ⟨rfl, rfl, fun _ => nofun, nofun⟩ r
  case giveUp.refused byAddr => exact hquiet (by rw [hp]; rfl) (by rw [hp]; rfl) ⟨rfl, rfl, nofun, nofun⟩
  case loginWrite.login b byAddr =>
    have hmove : SupMove cfg s _ := .loginWrite b byAddr hp
    rwa [hp] at hmove
  case login.login ok byAddr =>
    cases ok with
    | true =>
      cases h
      exact .loggedIn byAddr hp
    | false =>
      cases h
      exact hquiet (by rw [hp]; rfl) (by rw [hp]; rfl) ⟨rfl, rfl, nofun, nofun⟩
  case setUp.setUp => exact .setUp hp
  case close.up =>
    exact .serve _ _ (by rw [hp]; rfl) rfl (fun hc => ⟨hc, fun _ => rfl⟩) (.inr (.inl rfl))
  case close.down => exact hquiet (by rw [hp]; rfl) (by rw [hp]; rfl) ⟨rfl, rfl, nofun, nofun⟩
  case drop.closing next =>
    split
    · exact .serve false _ (by rw [hp]; rfl) rfl nofun (.inr (.inl rfl))
    · rename_i hm
      exact .unmade next (Bool.eq_false_of_not_eq_true hm) (by rw [hp]; rfl)
  case take.grace got next =>
    cases got with
    | false =>
      cases h
      exact .serve _ _ (by rw [hp]; rfl) rfl (fun hc => ⟨hc, by rw [hp]; nofun⟩)
        (.inr (.inr ⟨cfg.graceMs, by rw [hp]; rfl⟩))
    | true => exact htake next (by rw [hp]; rfl) (by rw [hp]; rfl) h
  case take.slice got next w =>
    cases got with
    | false =>
      cases h
      exact .serve _ _ (by rw [hp]; rfl) rfl (fun hc => ⟨hc, by rw [hp]; nofun⟩)
        (.inr (.inr ⟨cfg.sliceMs, by rw [hp]; rfl⟩))
    | true => exact htake next (by rw [hp]; rfl) (by rw [hp]; rfl) h
  case cut.cut next w =>
    exact .serve _ _ (by rw [hp]; rfl) rfl (fun hc => ⟨hc, by rw [hp]; nofun⟩)
      (.inl (by rw [hp]; rfl))
  case destroy.destroy next => exact .destroy next hp
  case give.gives next => exact .give next hp

end TinyLink.Proofs
