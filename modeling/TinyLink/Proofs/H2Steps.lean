import TinyLink.Proofs.H2Feed

/-!
# What the HTTP/2 engine can do

Every call of the engine is a sequence of steps on the state and the frames in the lent buffer.
-/

namespace TinyLink.Proofs

def opening (h : H2Core) (w : H2Slot) (body : Bytes) : H2Core :=
  ({ h with nextId := h.nextId + 2, lastId := h.nextId, sentSizeUpdate := true } : H2Core).setStream w
    (.fresh h.nextId h.peer.initialWin body)

def opened (h : H2Core) (w : H2Slot) (body : Bytes) : H2Core :=
  (opening h w body).note (.opened h.nextId body)

lemma opened_stream (h : H2Core) (w v : H2Slot) (body : Bytes) : (opened h w body).stream v =
    if v = w then .fresh h.nextId h.peer.initialWin body else h.stream v := by
  cases v <;> cases w <;> rfl

def helloFrames : List OutFrame := [.preface, .frame .settings 0 0 h2OurSettings]

/-- What the engine can do on its own, with the frames in the lent buffer. -/
inductive H2Act (io : H2Io) : H2Core × List OutFrame → H2Core × List OutFrame → Prop where
  | wire {h h'} (hw : H2Wire io h h') : H2Act io (h, []) (h', [])
  | start (h : H2Core) (hs : h.started = false) : H2Act io (h, [])
      ({ h with
        ctl := []
        log := h.log ++ [.send helloFrames]
        settingsUnacked := 1
        started := true }, [])
  | startFail (h : H2Core) (hs : h.started = false) : H2Act io (h, [])
      ({ h with ctl := [], log := h.log ++ [.send helloFrames], dead := true }, [])
  | cancel (h : H2Core) (ho : h.side.isOpen = true) :
      H2Act io (h, []) (closeStream h .side h2Cancel, [])
  | begin (h : H2Core) : H2Act io (h, []) ({ h with ctl := [] }, h.ctl)
  | data (h b w) (n : ℕ) (hd : h.dead = false) (ho : (h.stream w).isOpen = true)
      (hend : (h.stream w).localEnd = false) (hrem : n ≤ (h.stream w).bodyRem)
      (hall : n = 0 → (h.stream w).bodyRem = 0)
      (hwin : n = 0 ∨ (n : ℤ) ≤ h.sendWindow w) (hmax : n ≤ h.peer.maxFrame) :
      H2Act io (h, b) ((putDataFrame h w n).1, b ++ [(putDataFrame h w n).2])
  | send (h b) (hd : h.dead = false) (hs : io.txSend h.log = true) :
      H2Act io (h, b) (h.emit (.txSend b), [])
  | fail (h b) (hd : h.dead = false) (hs : io.txSend h.log = false) :
      H2Act io (h, b) ({ h.emit (.txSend b) with dead := true }, [])

/-- What a request does to the streams. -/
inductive H2Open : H2Core × List OutFrame → H2Core × List OutFrame → Prop where
  | opened (h b w body block) (hclosed : (h.stream w).isOpen = false) (hd : h.dead = false)
      (hid : h.nextId ≤ 0x7fffffff) (hfit : block.length ≤ h.peer.maxFrame) :
      H2Open (h, b) (opened h w body, b ++ [.frame .headers h2FEndHeaders h.nextId block])
  -- a pair that failed forgets the stream before it
  | forget (h : H2Core) (ho : h.side.isOpen = false) (hd : h.dead = false) :
      H2Open (h, []) ({ h with side := .zero }, [])

/-- What sending can do. -/
inductive H2Sending (io : H2Io) (x y : H2Core × List OutFrame) : Prop where
  | act (ha : H2Act io x y)
  | opens (ho : H2Open x y)

/-- What the engine can do. -/
inductive H2Step (io : H2Io) : H2Core × List OutFrame → H2Core × List OutFrame → Prop where
  | receive {h h'} (hm : H2Move io h h') : H2Step io (h, []) (h', [])
  | send {x y} (hs : H2Sending io x y) : H2Step io x y

abbrev H2Acts (io : H2Io) : H2Core × List OutFrame → H2Core × List OutFrame → Prop :=
  Relation.ReflTransGen (H2Act io)

abbrev H2Sends (io : H2Io) : H2Core × List OutFrame → H2Core × List OutFrame → Prop :=
  Relation.ReflTransGen (H2Sending io)

abbrev H2Steps (io : H2Io) : H2Core × List OutFrame → H2Core × List OutFrame → Prop :=
  Relation.ReflTransGen (H2Step io)

variable {h h' : H2Core} {r : H2Req} {w : H2Slot} {b b' : List OutFrame} {cap : ℕ}
  {P : H2Core × List OutFrame → Prop} {x y : H2Core × List OutFrame}

lemma acts_sends {io : H2Io} (ha : H2Acts io x y) : H2Sends io x y := ha.lift id fun _ _ => .act

lemma sends_steps {io : H2Io} (hs : H2Sends io x y) : H2Steps io x y := hs.lift id fun _ _ => .send

lemma wires_acts {io : H2Io} (hw : H2Wires io h h') : H2Acts io (h, []) (h', []) :=
  hw.lift (fun g => (g, [])) fun _ _ => .wire

lemma moves_steps {io : H2Io} (hm : H2Moves io h h') : H2Steps io (h, []) (h', []) :=
  hm.lift (fun g => (g, [])) fun _ _ => .receive

section Send
variable (io : H2Io)

lemma dataLen_le (h : H2Core) (w : H2Slot) (room : ℕ) :
    dataLen h w room ≤ (h.stream w).bodyRem ∧ dataLen h w room ≤ h.peer.maxFrame ∧
      dataLen h w room ≤ room - h2FrameHdrLen ∧
      ((h.stream w).bodyRem > 0 → (dataLen h w room : ℤ) ≤ max 0 (h.sendWindow w)) := by
  unfold dataLen
  generalize (h.stream w).bodyRem = rem
  generalize h.sendWindow w = win
  generalize room - h2FrameHdrLen = left
  simp only [Bool.and_eq_true, decide_eq_true_eq]
  split_ifs <;> omega

lemma putDataLoop_eq (w : H2Slot) (cap fuel : ℕ) (h : H2Core) (b : List OutFrame) :
    ∃ win off swin e, (putDataLoop w cap fuel h b).1 =
      ({ h with connSendWin := win } : H2Core).setStream w
        { h.stream w with bodyOff := off, sendWin := swin, localEnd := e } := by
  induction fuel generalizing h b with
  | zero => exact ⟨h.connSendWin, _, _, _, (setStream_stream h w).symm⟩
  | succ _ ih =>
    have hsame : ∃ win off swin e, h = ({ h with connSendWin := win } : H2Core).setStream w
        { h.stream w with bodyOff := off, sendWin := swin, localEnd := e } :=
      ⟨h.connSendWin, _, _, _, (setStream_stream h w).symm⟩
    unfold putDataLoop
    dsimp only
    split_ifs
    · exact hsame
    · exact hsame
    · obtain ⟨win, off, swin, e, he⟩ :=
        ih (putDataFrame h w (dataLen h w (cap - framesLen b))).1
          (b ++ [(putDataFrame h w (dataLen h w (cap - framesLen b))).2])
      refine ⟨win, off, swin, e, he.trans ?_⟩
      cases w <;> rfl
    · exact hsame

lemma putDataLoop_acts (w : H2Slot) (cap fuel : ℕ) (h : H2Core) (b : List OutFrame)
    (l : List H2Event) (hd : h.dead = false) : H2Acts io ({ h with log := l }, b)
      ({ (putDataLoop w cap fuel h b).1 with log := l }, (putDataLoop w cap fuel h b).2) := by
  induction fuel generalizing h b with
  | zero => exact .refl
  | succ _ ih =>
    unfold putDataLoop
    dsimp only
    split
    case isTrue hgo =>
      simp only [Bool.and_eq_true, Bool.not_eq_true', decide_eq_true_eq] at hgo
      split
      case isTrue => exact .refl
      case isFalse hwin =>
        split
        case isTrue => exact .refl
        case isFalse hall =>
          simp only [Bool.and_eq_true, decide_eq_true_eq, not_and] at hwin hall
          generalize hn : dataLen h w (cap - framesLen b) = n at *
          obtain ⟨hrem, hmax, -, hle⟩ := dataLen_le h w (cap - framesLen b)
          rw [hn] at hrem hmax hle
          have hstep : H2Act io ({ h with log := l }, b)
              ({ (putDataFrame h w n).1 with log := l }, b ++ [(putDataFrame h w n).2]) := by
            have hs : H2Act io _ _ := .data { h with log := l } b w n hd
              (hgo.1.1) (hgo.1.2)
              (hrem) ?_ ?_ hmax
            · cases w <;> exact hs
            · intro hz
              have : (h.stream w).bodyRem = 0 := by
                by_contra hne
                exact hall (Nat.pos_of_ne_zero hne) hz
              exact this
            · rcases Nat.eq_zero_or_pos n with hz | hpos
              · exact .inl hz
              · have hle := hle (by omega)
                have : (n : ℤ) ≤ h.sendWindow w := by omega
                exact .inr (this)
          exact (Relation.ReflTransGen.single hstep).trans (ih _ _ (by simpa [putDataFrame] using hd))
    case isFalse => exact .refl

lemma putData_log (w : H2Slot) (cap : ℕ) (h : H2Core) (b : List OutFrame) :
    (putData h w cap b).1.log = h.log := by
  obtain ⟨win, off, swin, e, he⟩ := putDataLoop_eq w cap ((h.stream w).bodyRem + 1) h b
  unfold putData
  rw [he, setStream_log]

lemma putData_acts (w : H2Slot) (cap : ℕ) (h : H2Core) (b : List OutFrame) (hd : h.dead = false) :
    H2Acts io (h, b) (putData h w cap b) := by
  have hsteps : H2Acts io ({ h with log := (putData h w cap b).1.log }, b) (putData h w cap b) :=
    putDataLoop_acts io w cap ((h.stream w).bodyRem + 1) h b _ hd
  rwa [putData_log] at hsteps

lemma txEnd_acts (h : H2Core) (b : List OutFrame) (hd : h.dead = false) :
    H2Acts io (h, b) ((txEnd io h b).1, []) := by
  unfold txEnd
  split
  case isTrue he =>
    rw [List.isEmpty_iff.mp he]
  case isFalse =>
    cases hs : io.txSend h.log with
    | true => exact .single (.send h b hd hs)
    | false => exact .single (.fail h b hd hs)

lemma txEnd_ok (hok : (txEnd io h b).2 = .ok) :
    (txEnd io h b).1 = { h with log := h.log ++ (if b = [] then [] else [.txSend b]) } := by
  unfold txEnd at hok ⊢
  split
  case isTrue he => simp [List.isEmpty_iff.mp he]
  case isFalse he =>
    have hne : b ≠ [] := fun h => he (List.isEmpty_iff.mpr h)
    rw [if_neg hne]
    rw [if_neg he] at hok
    split at hok
    case isTrue hs =>
      rw [if_pos hs]
      rfl
    case isFalse hs => cases hok

lemma txBegin_some {h₀ : H2Core} (ht : txBegin io h = some (cap, h₀, b)) :
    h₀ = { h with ctl := [] } ∧ b = h.ctl ∧ h2CtlCap + h2FrameHdrLen + 1 ≤ cap := by
  obtain ⟨c, -, hc⟩ := Option.bind_eq_some_iff.mp ht
  split at hc
  · cases hc
  case isFalse hcap =>
    cases hc
    exact ⟨rfl, rfl, Nat.le_of_not_lt hcap⟩

lemma putData_dead (w : H2Slot) (cap : ℕ) (h : H2Core) (b : List OutFrame) :
    (putData h w cap b).1.dead = h.dead := by
  obtain ⟨win, off, swin, e, he⟩ := putDataLoop_eq w cap ((h.stream w).bodyRem + 1) h b
  unfold putData
  rw [he, setStream_dead]

lemma pumpPass_acts (hd : h.dead = false) : H2Acts io (h, []) ((pumpPass io h).1, []) := by
  unfold pumpPass
  split
  · exact .refl
  case h_2 cap h₀ b ht =>
    obtain ⟨rfl, rfl, -⟩ := txBegin_some io ht
    exact .head (.begin h) ((putData_acts io .main cap { h with ctl := [] } h.ctl hd).trans
      (txEnd_acts io _ _ ((putData_dead _ _ _ _).trans hd)))

lemma pumpPass_alive (hok : (pumpPass io h).2 = .ok) (hd : h.dead = false) :
    (pumpPass io h).1.dead = false := by
  unfold pumpPass at hok ⊢
  cases ht : txBegin io h with
  | none =>
    rw [ht] at hok
    cases hok
  | some x =>
    obtain ⟨cap, h₀, b⟩ := x
    simp only [ht] at hok ⊢
    obtain ⟨rfl, -⟩ := txBegin_some io ht
    rw [txEnd_ok io hok]
    exact (putData_dead _ _ _ _).trans hd

lemma pumpLoop_acts (fuel : ℕ) (h : H2Core) (hd : h.dead = false) {r : H2Res}
    (hr : pumpLoop io fuel h = some r) : H2Acts io (h, []) (r.1, []) := by
  induction fuel generalizing h with
  | zero =>
    unfold pumpLoop at hr
    split_ifs at hr
    cases hr
    exact .refl
  | succ _ ih =>
    unfold pumpLoop at hr
    dsimp only at hr
    split at hr
    · cases hr
      exact .refl
    · split at hr
      case isTrue hok => exact (pumpPass_acts io hd).trans (ih _ (pumpPass_alive io hok hd) hr)
      case isFalse =>
        cases hr
        exact pumpPass_acts io hd

lemma h2cPump_acts (h : H2Core) : H2Acts io (h, []) ((h2cPump io h).1, []) := by
  unfold h2cPump
  split
  · exact .refl
  case isFalse hd =>
    cases hr : pumpLoop io (h.s.bodyRem + 1) h with
    | none => exact .refl
    | some => exact pumpLoop_acts io _ h (by simpa using hd) hr

section
variable (ho : openStream h w r cap b = some (h', b'))
include ho

lemma openStream_some
    : ∃ block, block.length ≤ h.peer.maxFrame ∧
    (h', b') = putData (opening h w r.body) w cap
      (b ++ [.frame .headers h2FEndHeaders h.nextId block]) := by
  unfold openStream at ho
  split at ho
  · cases ho
  · dsimp only at ho
    generalize (if h.sentSizeUpdate = true then ([] : Bytes) else [0x20]) = upd at ho
    obtain ⟨flds, -, ho⟩ := Option.bind_eq_some_iff.mp ho
    split at ho
    case isTrue => cases ho
    case isFalse hfit => exact ⟨_, Nat.le_of_not_lt hfit, (Option.some.inj ho).symm⟩

lemma openStream_sends (l : List H2Event)
    (hclosed : (h.stream w).isOpen = false) (hd : h.dead = false) (hid : h.nextId ≤ 0x7fffffff) :
    H2Sends io ({ h with log := l }, b)
      ({ h' with log := l ++ [.note (.opened h.nextId r.body)] }, b') := by
  obtain ⟨block, hfit, he⟩ := openStream_some ho
  have hstep := H2Open.opened { h with log := l } b w r.body block (hclosed)
    hd hid hfit
  have hdata := putDataLoop_acts io w cap (((opening h w r.body).stream w).bodyRem + 1)
    (opening h w r.body) (b ++ [.frame .headers h2FEndHeaders h.nextId block])
    (l ++ [.note (.opened h.nextId r.body)]) (by simpa [opening] using hd)
  refine .trans (.single (.opens hstep)) (.trans ?_ ((acts_sends hdata).trans ?_))
  · cases w <;> exact .refl
  · rw [← show (h', b').1 = h' from rfl, ← show (h', b').2 = b' from rfl, he]
    exact .refl

lemma openStream_kept : ∃ win off swin e,
    h' = ({ opening h w r.body with connSendWin := win } : H2Core).setStream w
      { (opening h w r.body).stream w with bodyOff := off, sendWin := swin, localEnd := e } := by
  obtain ⟨block, -, he⟩ := openStream_some ho
  obtain ⟨win, off, swin, e, heq⟩ := putDataLoop_eq w cap
    (((opening h w r.body).stream w).bodyRem + 1) (opening h w r.body)
    (b ++ [.frame .headers h2FEndHeaders h.nextId block])
  exact ⟨win, off, swin, e, (congrArg Prod.fst he).trans heq⟩

end

lemma openSide_cases (h : H2Core) (side : Option H2Req) (cap : ℕ) (b : List OutFrame) :
    (side = none ∧ openSide h side cap b = (h, b, true)) ∨
    (∃ r, side = some r ∧ openSide h side cap b = (h, b, false)) ∨
    ∃ r h' b', side = some r ∧ openStream h .side r cap b = some (h', b') ∧
      openSide h side cap b = (h', b', h'.side.localEnd) := by
  unfold openSide
  cases side with
  | none => exact .inl ⟨rfl, rfl⟩
  | some r =>
    refine .inr ?_
    dsimp only
    cases ho : openStream h .side r cap b with
    | none => exact .inl ⟨r, rfl, rfl⟩
    | some x => exact .inr ⟨r, x.1, x.2, rfl, ho, rfl⟩

def refused (h : H2Core) (paired : Bool) : H2Core :=
  { h with side := if paired then .zero else h.side }

lemma rollback_eq (h : H2Core) (side : Option H2Req) (cap : ℕ) (ctl : List OutFrame)
    (hs : h.s.isOpen = false) :
    rollback h (openSide h side cap ctl).1 side.isSome = refused h side.isSome := by
  have hmain : ({ h.s with isOpen := false } : H2Stream) = h.s := by rw [← hs]
  unfold rollback refused
  rcases openSide_cases h side cap ctl with ⟨rfl, ho⟩ | ⟨r, rfl, ho⟩ | ⟨r, h', b', rfl, hopen, ho⟩
  · rw [ho, hmain]
  · rw [ho, hmain]
  · obtain ⟨win, off, swin, e, rfl⟩ := openStream_kept hopen
    rw [ho]
    simp only [H2Core.setStream, opening, Option.isSome_some, if_true]
    rw [hmain]

lemma requestCheck_ok {paired : Bool} (hok : requestCheck h paired = .ok) :
    h.started = true ∧ h.dead = false ∧ h.goaway = false ∧ h.s.isOpen = false ∧
      (paired = true → h.side.isOpen = false) ∧ h.nextId ≤ 0x7fffffff ∧
      (paired = true → h.nextId + 2 ≤ 0x7fffffff ∧ 2 ≤ h.peer.maxStreams) := by
  unfold requestCheck at hok
  cases paired <;> simp at hok ⊢ <;> split_ifs at hok <;> simp_all; omega

lemma refuse_sends (hd : h.dead = false) (paired : Bool)
    (hs : paired = true → h.side.isOpen = false) : H2Sends io (h, []) ((txEnd io (refused { h with ctl := [] } paired) h.ctl).1, []) := by
  cases paired with
  | false => exact acts_sends (.head (.begin h) (txEnd_acts io _ _ hd))
  | true =>
    exact .head (.opens (.forget h (hs rfl) hd)) (acts_sends (.head (.begin _) (txEnd_acts io _ _ hd)))

lemma accept_sends {h₂ : H2Core} {side : Option H2Req} {req : H2Req}
    {b₂ : List OutFrame} (hok : requestCheck h side.isSome = .ok)
    (hopen : openStream (openSide { h with ctl := [] } side cap h.ctl).1 .main req cap
      (openSide { h with ctl := [] } side cap h.ctl).2.1 = some (h₂, b₂))
    (hwhole : (openSide { h with ctl := [] } side cap h.ctl).2.2) :
    H2Sends io (h, []) (noteOpened h₂ side.isSome, b₂) := by
  obtain ⟨-, hd, -, hs, hside, hid, hpair⟩ := requestCheck_ok hok
  refine .head (.act (.begin h)) ?_
  rcases openSide_cases { h with ctl := [] } side cap h.ctl with
    ⟨rfl, ho⟩ | ⟨r, rfl, ho⟩ | ⟨r, h₁, b₁, rfl, hopen₁, ho⟩
  · rw [ho] at hopen
    refine (openStream_sends io hopen h.log hs hd hid).trans ?_
    obtain ⟨win, off, swin, e, rfl⟩ := openStream_kept hopen
    exact .refl
  · simp [ho] at hwhole
  · rw [ho] at hopen
    have hfirst := openStream_sends io hopen₁ h.log (hside rfl) hd hid
    obtain ⟨win₁, off₁, swin₁, e₁, rfl⟩ := openStream_kept hopen₁
    have hsecond := openStream_sends io hopen (h.log ++ [.note (.opened h.nextId r.body)]) hs hd
      (hpair rfl).1
    obtain ⟨win, off, swin, e, rfl⟩ := openStream_kept hopen
    exact hfirst.trans hsecond

lemma openStream_dead (hopen : openStream h w r cap b = some (h', b')) : h'.dead = h.dead := by
  obtain ⟨win, off, swin, e, rfl⟩ := openStream_kept hopen
  cases w <;> rfl

lemma openSide_dead (h : H2Core) (side : Option H2Req) (cap : ℕ) (b : List OutFrame) :
    (openSide h side cap b).1.dead = h.dead := by
  rcases openSide_cases h side cap b with ⟨-, ho⟩ | ⟨r, -, ho⟩ | ⟨r, h', b', -, hopen, ho⟩
  · rw [ho]
  · rw [ho]
  · rw [ho]
    exact openStream_dead hopen

lemma h2cRequestPair_sends (h : H2Core) (side : Option H2Req) (req : H2Req) :
    H2Sends io (h, []) ((h2cRequestPair io h side req).1, []) := by
  unfold h2cRequestPair
  dsimp only
  split
  · exact .refl
  case isFalse hrc =>
    have hok := not_not.mp hrc
    obtain ⟨-, hd, -, hs, hside, -⟩ := requestCheck_ok hok
    split
    · exact .refl
    case h_2 cap h₀ ctl ht =>
      obtain ⟨rfl, rfl, -⟩ := txBegin_some io ht
      split
      case h_1 =>
        rw [rollback_eq { h with ctl := [] } side cap h.ctl hs]
        exact refuse_sends io hd _ hside
      case h_2 h₂ b₂ hopen =>
        split at hopen
        case isFalse => cases hopen
        case isTrue hwhole =>
          have hd₂ : h₂.dead = false := (openStream_dead hopen).trans ((openSide_dead _ _ _ _).trans hd)
          have hsent := (accept_sends io hok hopen hwhole).trans (acts_sends
            (txEnd_acts io _ _ (by cases side.isSome <;> exact hd₂)))
          unfold H2Res.andThen
          split
          · exact hsent.trans (acts_sends (h2cPump_acts io _))
          · exact hsent

lemma h2cCancelSide_acts (h : H2Core) : H2Acts io (h, []) ((h2cCancelSide io h).1, []) := by
  unfold h2cCancelSide
  split
  · exact .refl
  case isFalse ho =>
    split
    · exact .refl
    case isFalse hd =>
      have hd : h.dead = false := by simpa using hd
      obtain ⟨c, l, d, hq, hr⟩ := (ctlU32_stages io h .rstStream h.side.id h2Cancel (by decide)).map
        (fun g => closeStream g .side h2Cancel) fun c l d => rfl
      have hm : H2Acts io (h, []) _ := .head (.cancel h (by simpa using ho))
        (wires_acts (hq (closeStream h .side h2Cancel) rfl rfl rfl hd))
      dsimp only at hr ⊢
      rw [hr]
      cases d with
      | true => exact hm
      | false => exact hm.trans (wires_acts (ctlFlush_wires io hd))

lemma h2cStart_eq (hs : h.started = false) : h2cStart io h = if io.send h.log then
    ({ h with
      ctl := []
      log := h.log ++ [.send helloFrames]
      settingsUnacked := 1
      started := true }, .ok)
    else ({ h with ctl := [], log := h.log ++ [.send helloFrames], dead := true }, .errIo) := by
  cases hsend : io.send h.log <;> simp [h2cStart, ctlFrame, ctlFlush, H2Res.andThen, hs, hsend,
    framesLen, OutFrame.size, h2OurSettings, h2CtlCap, h2FrameHdrLen, h2PrefaceLen, helloFrames]

lemma h2cStart_acts (h : H2Core) : H2Acts io (h, []) ((h2cStart io h).1, []) := by
  cases hs : h.started with
  | true =>
    unfold h2cStart
    rw [if_pos hs]
  | false =>
    rw [h2cStart_eq io hs]
    split
    · exact .single (.start h hs)
    · exact .single (.startFail h hs)

lemma feed_moves (h : H2Core) (p : Bytes) : H2Moves io h (feed io h p).1 := by
  cases hd : h.dead with
  | true =>
    unfold feed
    rw [if_pos hd]
  | false => exact (feed_does io hd p).moves

lemma h2cFeed_moves (h : H2Core) (p : Bytes) : H2Moves io h (h2cFeed io h p).1 := by
  cases hd : h.dead with
  | true =>
    have hf : (h2cFeed io h p).1 = h := by simp [h2cFeed, feed, hd, H2Res.andThen]
    rw [hf]
  | false =>
    have hfeed := feed_does io hd p
    unfold h2cFeed H2Res.andThen
    split
    case isTrue hok =>
      exact hfeed.moves.trans (contents_moves (wires_contents (ctlFlush_wires io (hfeed.lives.mp hok))))
    case isFalse => exact hfeed.moves

/-- Every call of the engine is a sequence of steps. -/
theorem h2Call_steps (h : H2Core) (a : H2Call) : H2Steps io (h, []) ((h2Call io h a).1, []) := by
  cases a with
  | start => exact sends_steps (acts_sends (h2cStart_acts io h))
  | request side req => exact sends_steps (h2cRequestPair_sends io h side req)
  | pump => exact sends_steps (acts_sends (h2cPump_acts io h))
  | feed p => exact moves_steps (h2cFeed_moves io h p)
  | feedStaged p => exact moves_steps (feed_moves io h p)
  | cancelSide => exact sends_steps (acts_sends (h2cCancelSide_acts io h))

end Send

lemma steps_invariant {io : H2Io} (hstep : ∀ x y, H2Step io x y → P x → P y)
    {x y : H2Core × List OutFrame} (hxy : H2Steps io x y) (hx : P x) : P y := by
  induction hxy with
  | refl => exact hx
  | tail _ hs ih => exact hstep _ _ hs ih

/-- What every step keeps holds throughout a session. -/
theorem session_invariant {io : H2Io} (E : H2Run io)
    (h0 : P (h2cInit, [])) (hstep : ∀ x y, H2Step io x y → P x → P y) {n : ℕ} (hn : n ≤ E.length) :
    P (E.state n, []) := by
  refine E.invariant (P := fun h => P (h, [])) ?_ ?_ n hn
  · rintro s rfl
    exact h0
  · intro h a h' hh hs
    cases hs
    exact steps_invariant hstep (h2Call_steps io h a) hh

end TinyLink.Proofs
