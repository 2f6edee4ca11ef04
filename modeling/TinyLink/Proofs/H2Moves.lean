import TinyLink.Proofs.H2Slots
import TinyLink.Proofs.HpackFeed
import Mathlib.Logic.Relation

/-!
# What the HTTP/2 receiver can do

Every function of the receiving half is a sequence of a few kinds of moves on the engine's state;
invariants are proved move by move.
-/

namespace TinyLink.Proofs

/-- A window and the bytes consumed since its last renewal, after `n` more. -/
def renew (win used : ℤ) (n : ℕ) (hold : Bool) : ℤ × ℤ :=
  if used + n ≥ h2WuThreshold && !hold then (win + (used + n), 0) else (win, used + n)

def renewStream (s : H2Stream) (n : ℕ) (hold : Bool) : H2Stream :=
  { s with
    recvWin := (renew s.recvWin s.consumed n hold).1
    consumed := (renew s.recvWin s.consumed n hold).2 }

/-- `data_consumed` without the frames it sends: the connection's window. -/
def connRenewed (h : H2Core) (n : ℕ) : H2Core :=
  { h with
    connRecvWin := (renew h.connRecvWin h.connConsumed n false).1
    connConsumed := (renew h.connRecvWin h.connConsumed n false).2 }

def streamRenewed (h : H2Core) (n : ℕ) : H2Core :=
  match h.dataStream with
  | none => h
  | some w => h.setStream w (renewStream (h.stream w) n (hasFlag h.f.flags h2FEndStream))

def consume (h : H2Core) (n : ℕ) : H2Core := streamRenewed (connRenewed h n) n

/-- A new SETTINGS_INITIAL_WINDOW_SIZE moves the window of an open stream. -/
def shifted (s : H2Stream) (delta : ℤ) : H2Stream :=
  if s.isOpen then { s with sendWin := s.sendWin + delta } else s

/-- What the engine can do to the wire, beside the rest of the state. -/
inductive H2Wire (io : H2Io) : H2Core → H2Core → Prop where
  | stage (h type flags sid payload) (hc : type ≠ .data ∧ type ≠ .headers ∧ type ≠ .goaway)
      (hfit : framesLen (h.ctl ++ [.frame type flags sid payload]) ≤ h2CtlCap) :
      H2Wire io h { h with ctl := h.ctl ++ [.frame type flags sid payload] }
  | flush (h) (hd : h.dead = false) (hs : io.send h.log = true) :
      H2Wire io h { h with ctl := [], log := h.log ++ [.send h.ctl] }
  | fail (h) (hd : h.dead = false) (hs : io.send h.log = false) :
      H2Wire io h { h with ctl := [], log := h.log ++ [.send h.ctl], dead := true }

def goawayFrame (code : ℕ) : OutFrame := .frame .goaway 0 0 (put32 0 ++ put32 code)

/-- What a connection error sends: the GOAWAY behind the staged frames, unless these are sent first
and that fails. -/
inductive LastSends (io : H2Io) (log : List H2Event) (ctl : List OutFrame) (code : ℕ) :
    List H2Event → Prop where
  | joined : LastSends io log ctl code [.send (ctl ++ [goawayFrame code])]
  | behind (hs : io.send log = true) :
      LastSends io log ctl code [.send ctl, .send [goawayFrame code]]
  | failed (hs : io.send log = false) : LastSends io log ctl code [.send ctl]

/-- A refused SETTINGS_INITIAL_WINDOW_SIZE may have moved the main stream's window already. -/
def HalfShifted (h : H2Core) (s : H2Stream) : Prop :=
  s = h.s ∨ ∃ v : ℕ, (v : ℤ) ≤ h2MaxWindow ∧ s = shifted h.s (v - h.peer.initialWin) ∧
    (h.s.isOpen = true → h.s.sendWin + (v - h.peer.initialWin) ≤ h2MaxWindow)

/-- A note of what was received; a new frame is noted behind the one in progress. -/
def Inbound (f : H2Frame) : H2Note → Prop
  | .accepted _ _ => False
  | .opened _ _ => False
  | .field _ _ => False
  | .head _ _ => False
  | .frame _ _ _ => f.fh.length < h2FrameHdrLen
  | _ => True

/-- The hook that `field_cb` calls for the field `f`. -/
def FieldEvents (w : H2Slot) (r : H2Stream × FieldVerdict) (f : HpackField) (evs : List H2Event) :
    Prop :=
  (r.2 ≠ .status ∧ evs = []) ∨ (r.2 = .status ∧ evs = [w.statusEvent r.1.id r.1.status]) ∨
    (r.2 = .header ∧ evs = [w.headerEvent r.1.id f])

def BlockEvents (r : H2Stream × BlockVerdict) (evs : List H2Event) : Prop :=
  (r.2 ≠ .final ∧ evs = []) ∨ (r.2 = .final ∧ evs = [.note (.accepted r.1.id r.1.status)])

/-- What the frame in progress can do to the open stream in slot `w`, with the events it logs. -/
inductive Touch (h : H2Core) (w : H2Slot) : H2Stream → List H2Event → Prop where
  | close (n : ℕ) (code) (hcode : code ≠ 0) :
      Touch h w (({ h.stream w with recvLen := n } : H2Stream).close code) []
  | reset (code) (hid : (h.stream w).id = h.f.sid) :
      Touch h w ((h.stream w).close code) [.note (.rstStream h.f.sid code)]
  | finish (hid : (h.stream w).id = h.f.sid)
      (hfinal : (h.stream w).final = true)
      (hlen : (h.stream w).contentLength < 0 ∨ (h.stream w).contentLength = (h.stream w).recvLen)
      (hend : (h.f.type = .data ∧ hasFlag h.f.flags h2FEndStream = true) ∨
        ((h.f.type = .headers ∨ h.f.type = .continuation) ∧ h.blk.endStream = true)) :
      Touch h w (({ h.stream w with remoteEnd := true } : H2Stream).close h2NoError) []
  | data (p : Bytes) (b evs)
      (hevs : (evs = [] ∧ (w = .main → (h.stream w).stop = true ∨ p = []) ∧ b = (h.stream w).stop) ∨
        (w = .main ∧ (h.stream w).stop = false ∧ evs = [.onData (h.stream w).id p])) :
      Touch h w { h.stream w with recvLen := (h.stream w).recvLen + p.length, stop := b } evs
  | field (f evs) (hid : (h.stream w).id = h.f.sid)
      (hin : h.f.phase = .body ∧ h.f.type ≠ .data)
      (hevs : FieldEvents w (streamField (h.stream w) h.blk.trailer f) f evs) :
      Touch h w (streamField (h.stream w) h.blk.trailer f).1
        (.note (.field (h.stream w).id f) :: evs)
  | block (evs) (hid : (h.stream w).id = h.f.sid)
      (ht : h.f.type = .headers ∨ h.f.type = .continuation)
      (hevs : BlockEvents (responseBlock (h.stream w) h.blk.endStream) evs) :
      Touch h w (responseBlock (h.stream w) h.blk.endStream).1
        (.note (.head (h.stream w).id h.blk.endStream) :: evs)
  | grant (inc : ℕ) (hid : (h.stream w).id = h.f.sid)
      (hmax : (h.stream w).sendWin + inc ≤ h2MaxWindow) :
      Touch h w { h.stream w with sendWin := (h.stream w).sendWin + inc }
        [.note (.windowUpdate h.f.sid inc)]

def touched (h : H2Core) (w : H2Slot) (s : H2Stream) (evs : List H2Event) : H2Core :=
  { h.setStream w s with log := h.log ++ evs }

/-- A body is still to come. -/
def Loaded (p : H2Phase) : Prop := p = .padlen ∨ p = .prio ∨ p = .body

/-- No open stream is the one of the frame in progress. -/
def Gone (h : H2Core) : Prop :=
  h.streamOf h.f.sid = none ∨ ∃ w, (h.stream w).id = h.f.sid ∧ (h.stream w).isOpen = false

/-- What the content of a frame can do. -/
inductive H2Content (io : H2Io) : H2Core → H2Core → Prop where
  | wire {h h'} (hw : H2Wire io h h') : H2Content io h h'
  | quit (h) (notes : List H2Note) (sent code s) (hd : h.dead = false)
      (hn : ∀ n ∈ notes, Inbound h.f n)
      (hsent : LastSends io (h.log ++ notes.map .note) h.ctl code sent) (hs : HalfShifted h s) :
      H2Content io h { h with
        ctl := []
        log := h.log ++ notes.map .note ++ sent
        dead := true
        s := s }
  | noteGrant (h) (inc : ℕ) (ht : h.f.type = .windowUpdate) :
      H2Content io h (h.note (.windowUpdate h.f.sid inc))
  | progress (h phase pad fix bodyLeft d cont)
      (hp : Loaded phase → Loaded h.f.phase ∨ h.f.type = .data) (hb : Bare h.blk.hpack → Bare d)
      (hcont : cont = 0 ∨ cont = h.blk.contSid) :
      H2Content io h { h with
        f := { h.f with phase := phase, pad := pad, fix := fix, bodyLeft := bodyLeft }
        blk := { h.blk with hpack := d, contSid := cont } }
  | touch (h w s evs) (hd : h.dead = false) (ho : (h.stream w).isOpen = true) (ht : Touch h w s evs) :
      H2Content io h (touched h w s evs)
  | ignore (h) (hgone : Gone h) :
      H2Content io h { h with f := { h.f with ignore := true }, blk := { h.blk with error := true } }
  | goaway (h last err) (hlast : last ≤ h.goawayLast) :
      H2Content io h (({ h with goaway := true, goawayLast := last }).emit (.onGoaway last err))
  -- what the peer grants
  | initialWindow (h) (v : ℕ) (hd : h.dead = false) (hv : (v : ℤ) ≤ h2MaxWindow)
      (hs : h.s.isOpen = true → h.s.sendWin + (v - h.peer.initialWin) ≤ h2MaxWindow)
      (hside : h.side.isOpen = true → h.side.sendWin + (v - h.peer.initialWin) ≤ h2MaxWindow) :
      H2Content io h { h.note (.setting .initialWindowSize v) with
        s := shifted h.s (v - h.peer.initialWin)
        side := shifted h.side (v - h.peer.initialWin)
        peer := { h.peer with initialWin := v } }
  | maxFrame (h v) (hv : h2MaxFrame ≤ v ∧ v ≤ 0xffffff) :
      H2Content io h { h.note (.setting .maxFrameSize v) with peer := { h.peer with maxFrame := v } }
  | setting (h what v connect streams) (hi : what ≠ .initialWindowSize) (hf : what ≠ .maxFrameSize) :
      H2Content io h { h.note (.setting what v) with
        peer := { h.peer with enableConnect := connect, maxStreams := streams } }
  | ack (h n) : H2Content io h { h with settingsUnacked := n }
  | connGrant (h) (inc : ℕ) (hmax : h.connSendWin + inc ≤ h2MaxWindow) :
      H2Content io h { h.note (.windowUpdate 0 inc) with connSendWin := h.connSendWin + inc }

/-- What the frame parser can do. -/
inductive H2Move (io : H2Io) : H2Core → H2Core → Prop where
  | content {h h'} (hm : H2Content io h h') : H2Move io h h'
  | header (h fh) (hold : h.f.fh.length < h2FrameHdrLen) (hl : fh.length < h2FrameHdrLen) :
      H2Move io h { h with f := { h.f with fh := fh } }
  | beginOther (h) (f : H2Frame) (hold : h.f.fh.length < h2FrameHdrLen)
      (hfh : f.fh.length = h2FrameHdrLen) (hc : h.blk.contSid = 0)
      (ht : f.type ≠ .data ∧ f.type ≠ .headers ∧ f.type ≠ .continuation) (hp : ¬ Loaded f.phase)
      (hid : f.type = .windowUpdate → f.sid ≤ h.lastId) :
      H2Move io h ({ h with f := f }.note (.frame f.type f.flags f.sid))
  | beginHeaders (h) (f : H2Frame) (blk : H2Block) (hold : h.f.fh.length < h2FrameHdrLen)
      (hfh : f.fh.length = h2FrameHdrLen)
      (ht : f.type = .headers)
      (hend : blk.endStream = hasFlag f.flags h2FEndStream)
      (htrail : blk.trailer = true → ∃ w, h.streamOf f.sid = some w ∧ (h.stream w).final = true)
      (hcont : blk.contSid = 0 ∨ blk.contSid = f.sid) (hb : Bare h.blk.hpack → Bare blk.hpack) :
      H2Move io h ({ h with f := f, blk := blk }.note (.frame f.type f.flags f.sid))
  | beginContinuation (h) (f : H2Frame) (blk : H2Block) (hold : h.f.fh.length < h2FrameHdrLen)
      (hfh : f.fh.length = h2FrameHdrLen)
      (ht : f.type = .continuation)
      (hc : h.blk.contSid ≠ 0) (hsid : h.blk.contSid = f.sid)
      (hend : blk.endStream = h.blk.endStream) (htrail : blk.trailer = h.blk.trailer)
      (hcont : blk.contSid = 0 ∨ blk.contSid = f.sid) (hb : Bare h.blk.hpack → Bare blk.hpack) :
      H2Move io h ({ h with f := f, blk := blk }.note (.frame f.type f.flags f.sid))
  | beginIgnored (h) (f : H2Frame) (hold : h.f.fh.length < h2FrameHdrLen)
      (hfh : f.fh.length = h2FrameHdrLen) (ht : f.type = .data)
      (hc : h.blk.contSid = 0) (hid : 0 < f.sid ∧ f.sid ≤ h.lastId) (hleft : f.left = f.len)
      (hno : h.streamOf f.sid = none) :
      H2Move io h ({ h with f := f, connRecvWin := h.connRecvWin - f.len }.note
        (.frame f.type f.flags f.sid))
  | beginData (h) (f : H2Frame) (w) (hold : h.f.fh.length < h2FrameHdrLen)
      (hfh : f.fh.length = h2FrameHdrLen) (ht : f.type = .data)
      (hc : h.blk.contSid = 0) (hid : 0 < f.sid ∧ f.sid ≤ h.lastId) (hleft : f.left = f.len)
      (hw : h.streamOf f.sid = some w) (hig : f.ignore = false) :
      H2Move io h ((({ h with f := f, connRecvWin := h.connRecvWin - f.len } : H2Core).setStream w
        { h.stream w with recvWin := (h.stream w).recvWin - f.len }).note
          (.frame f.type f.flags f.sid))
  | pass (h n) (ht : h.f.type ≠ .data) : H2Move io h { h with f := { h.f with left := h.f.left - n } }
  | consume (h) (n : ℕ) (hin : h2FrameHdrLen ≤ h.f.fh.length) (ht : h.f.type = .data)
      (hn : n ≤ h.f.left) :
      H2Move io h { consume h n with f := { h.f with left := h.f.left - n } }
  | endFrame (h) (hleft : h.f.left = 0)
      (hgone : h.f.type = .data → hasFlag h.f.flags h2FEndStream = true →
        h.f.ignore = true ∨ Gone h) :
      H2Move io h { h with f := { h.f with fh := [] } }
  -- what a connection error and a failed send leave half done
  | rubble (h f blk) (win used a b a' b' : ℤ) (hd : h.dead = true) :
      H2Move io h { h with
        f := f
        blk := blk
        connRecvWin := win
        connConsumed := used
        s := { h.s with recvWin := a, consumed := b }
        side := { h.side with recvWin := a', consumed := b' } }

abbrev H2Contents (io : H2Io) : H2Core → H2Core → Prop := Relation.ReflTransGen (H2Content io)

abbrev H2Moves (io : H2Io) : H2Core → H2Core → Prop := Relation.ReflTransGen (H2Move io)

abbrev H2Wires (io : H2Io) : H2Core → H2Core → Prop := Relation.ReflTransGen (H2Wire io)

lemma wires_contents {io : H2Io} {h h' : H2Core} (hw : H2Wires io h h') : H2Contents io h h' :=
  hw.lift id fun _ _ => .wire

lemma contents_moves {io : H2Io} {h h' : H2Core} (hm : H2Contents io h h') : H2Moves io h h' :=
  hm.lift id fun _ _ => .content

/-- A call on a live session: it does moves of `R`, and it succeeds if the session lives on. -/
structure Does (R : H2Core → H2Core → Prop) (h : H2Core) (r : H2Res) : Prop where
  moves : Relation.ReflTransGen R h r.1
  lives : r.2 = .ok ↔ r.1.dead = false

section Does
variable {R : H2Core → H2Core → Prop} {h g : H2Core} {r : H2Res}

lemma Does.ok (hm : Relation.ReflTransGen R h g) (hd : g.dead = false) : Does R h (g, .ok) :=
  ⟨hm, iff_of_true rfl hd⟩

lemma Does.nothing (hd : h.dead = false) : Does R h (h, .ok) := .ok .refl hd

lemma Does.one (hm : R h g) (hd : g.dead = false) : Does R h (g, .ok) := .ok (.single hm) hd

lemma Does.after (hm : Relation.ReflTransGen R h g) (hr : Does R g r) : Does R h r :=
  ⟨hm.trans hr.moves, hr.lives⟩

lemma Does.then (hr : Does R h r) (hm : R r.1 g) (hd : g.dead = r.1.dead) : Does R h (g, r.2) :=
  ⟨hr.moves.tail hm, by rw [hd]; exact hr.lives⟩

lemma Does.andThen {k : H2Core → H2Res} (hr : Does R h r)
    (hk : r.2 = .ok → r.1.dead = false → Does R r.1 (k r.1)) : Does R h (r.andThen k) := by
  unfold H2Res.andThen
  split
  case isTrue hok => exact .after hr.moves (hk hok (hr.lives.mp hok))
  case isFalse => exact hr

end Does

structure SameFrame (f f' : H2Frame) : Prop where
  fh : f'.fh = f.fh
  type : f'.type = f.type
  flags : f'.flags = f.flags
  sid : f'.sid = f.sid
  left : f'.left = f.left

lemma SameFrame.refl (f : H2Frame) : SameFrame f f := ⟨rfl, rfl, rfl, rfl, rfl⟩

lemma SameFrame.trans {f g k : H2Frame} (hfg : SameFrame f g) (hgk : SameFrame g k) :
    SameFrame f k :=
  ⟨hgk.fh.trans hfg.fh, hgk.type.trans hfg.type, hgk.flags.trans hfg.flags, hgk.sid.trans hfg.sid,
    hgk.left.trans hfg.left⟩

lemma content_sameFrame {io : H2Io} {h h' : H2Core} (hm : H2Content io h h') :
    SameFrame h.f h'.f := by
  cases hm with
  | wire hw => cases hw <;> exact .refl _
  | touch => constructor <;> simp [touched]
  | _ => exact ⟨rfl, rfl, rfl, rfl, rfl⟩

theorem contents_sameFrame {io : H2Io} {h h' : H2Core} (hm : H2Contents io h h') :
    SameFrame h.f h'.f := by
  induction hm with
  | refl => exact .refl _
  | tail _ hc ih => exact ih.trans (content_sameFrame hc)

lemma streamField_eq (s : H2Stream) (trailer : Bool) (f : HpackField) : ∃ p hs st cl,
    (streamField s trailer f).1 =
      { s with pseudoDone := p, haveStatus := hs, status := st, contentLength := cl } := by
  unfold streamField pseudoField regularField
  dsimp only
  split_ifs <;> exact ⟨_, _, _, _, rfl⟩

lemma responseBlock_eq (s : H2Stream) (e : Bool) : ∃ p hs fin cl, (responseBlock s e).1 =
      { s with pseudoDone := p, haveStatus := hs, final := fin, contentLength := cl } := by
  unfold responseBlock
  dsimp only
  split_ifs <;> exact ⟨_, _, _, _, rfl⟩

@[simp] lemma touched_nil (h : H2Core) (w : H2Slot) (s : H2Stream) :
    touched h w s [] = h.setStream w s := by
  cases w <;> simp [touched, H2Core.setStream]

lemma touched_emit (h : H2Core) (w : H2Slot) (s : H2Stream) (e : H2Event) :
    touched h w s [e] = (h.setStream w s).emit e := by
  simp [touched]

lemma touched_emits (h : H2Core) (w : H2Slot) (s : H2Stream) (e e' : H2Event) :
    touched h w s [e, e'] = ((h.setStream w s).emit e).emit e' := by
  simp [touched]

section Receive
variable (io : H2Io) {h g : H2Core}

/-- The staged frames and the log become `c` and `l`, whatever the rest of the state is; `d` says
that a send failed. -/
def Quietly (h : H2Core) (c : List OutFrame) (l : List H2Event) (d : Bool) : Prop :=
  ∀ g : H2Core, g.ctl = h.ctl → g.log = h.log → g.dead = h.dead → h.dead = false →
    H2Wires io g { g with ctl := c, log := l, dead := d || h.dead }

/-- A call that leaves `g`, but for the frames it staged or sent, or fails to send them. -/
def StagesAll (h g : H2Core) (r : H2Res) : Prop :=
  ∃ c l d, Quietly io h c l d ∧
    r = ({ g with ctl := c, log := l, dead := d || h.dead }, if d then .errIo else .ok)

variable {io}

lemma StagesAll.does {r : H2Res} (hs : StagesAll io h g r) {a : H2Core} (hm : H2Contents io a g)
    (hc : g.ctl = h.ctl) (hl : g.log = h.log) (hg : g.dead = h.dead) (hd : h.dead = false) :
    Does (H2Content io) a r := by
  obtain ⟨c, l, d, hq, rfl⟩ := hs
  refine ⟨hm.trans (wires_contents (hq g hc hl hg hd)), ?_⟩
  cases d <;> simp [hd]

lemma StagesAll.map {r : H2Res} (hs : StagesAll io h g r) (k : H2Core → H2Core)
    (hk : ∀ c l d, k { g with ctl := c, log := l, dead := d } =
      { k g with ctl := c, log := l, dead := d }) : StagesAll io h (k g) (k r.1, r.2) := by
  obtain ⟨c, l, d, hq, rfl⟩ := hs
  exact ⟨c, l, d, hq, by rw [hk]⟩

lemma stages_nothing (h g : H2Core) (hg : g = { g with ctl := h.ctl, log := h.log, dead := h.dead }) :
    StagesAll io h g (g, .ok) := by
  refine ⟨h.ctl, h.log, false, fun k hc hl hk _ => ?_, by rw [Bool.false_or, ← hg]; rfl⟩
  rw [← hc, ← hl, Bool.false_or, ← hk]

variable (io)

lemma ctlFlush_eq (hne : h.ctl ≠ []) : ctlFlush io h =
    ({ h with ctl := [], log := h.log ++ [.send h.ctl], dead := !io.send h.log || h.dead },
      if !io.send h.log then .errIo else .ok) := by
  unfold ctlFlush
  rw [if_neg (by simpa using hne)]
  cases io.send h.log <;> rfl

lemma ctlFlush_quietly (h : H2Core) : ∃ l d, Quietly io h [] l d ∧ ctlFlush io h =
    ({ h with ctl := [], log := l, dead := d || h.dead }, if d then .errIo else .ok) := by
  by_cases hnil : h.ctl = []
  · refine ⟨h.log, false, fun g hc hl hg _ => ?_, ?_⟩
    · rw [← hnil, ← hc, ← hl, ← hg]
      exact .refl
    · unfold ctlFlush
      rw [if_pos (List.isEmpty_iff.mpr hnil), ← hnil]
      rfl
  · refine ⟨h.log ++ [.send h.ctl], !io.send h.log, fun g hc hl hg hd => ?_, ctlFlush_eq io hnil⟩
    rw [← hc, ← hl]
    cases hs : io.send g.log with
    | true =>
      rw [← hg]
      exact .single (.flush g (hg.trans hd) hs)
    | false => exact .single (.fail g (hg.trans hd) hs)

lemma ctlFrame_stages (h : H2Core) (type : H2Type) (flags : UInt8) (sid : ℕ) (payload : Bytes)
    (hc : type ≠ .data ∧ type ≠ .headers ∧ type ≠ .goaway) (hp : payload.length ≤ 55) :
    StagesAll io h h (ctlFrame io h type flags sid payload) := by
  unfold ctlFrame
  split
  case isTrue hfull =>
    obtain ⟨l, d, hq, hr⟩ := ctlFlush_quietly io h
    cases d with
    | true => exact ⟨[], l, true, hq, by rw [hr]; rfl⟩
    | false =>
      refine ⟨[.frame type flags sid payload], l, false, fun g hgc hgl hg hd => ?_, by rw [hr]; rfl⟩
      refine (hq g hgc hgl hg hd).tail (.stage { g with ctl := [], log := l, dead := h.dead }
        _ _ _ _ hc ?_)
      simp [framesLen, OutFrame.size, h2FrameHdrLen, h2CtlCap]
      omega
  case isFalse hroom =>
    refine ⟨h.ctl ++ [.frame type flags sid payload], h.log, false, fun g hgc hgl hg hd => ?_, rfl⟩
    rw [← hgc, ← hgl, ← hg]
    refine .single (.stage g _ _ _ _ hc ?_)
    simp only [framesLen, List.map_append, List.sum_append, List.map_cons, List.map_nil,
      List.sum_cons, List.sum_nil, OutFrame.size, hgc]
    simp only [framesLen] at hroom
    omega

lemma ctlFlush_wires (hd : h.dead = false) : H2Wires io h (ctlFlush io h).1 := by
  obtain ⟨l, d, hq, hr⟩ := ctlFlush_quietly io h
  rw [hr]
  exact hq h rfl rfl rfl hd

lemma ctlFrame_does (hd : h.dead = false) {type : H2Type} {flags : UInt8} {sid : ℕ}
    {payload : Bytes} (hc : type ≠ .data ∧ type ≠ .headers ∧ type ≠ .goaway)
    (hp : payload.length ≤ 55) : Does (H2Content io) h (ctlFrame io h type flags sid payload) :=
  (ctlFrame_stages io h type flags sid payload hc hp).does .refl rfl rfl rfl hd

@[simp] lemma length_put32 (v : ℕ) : (put32 v).length = 4 := by simp [put32, ByteOrder.beBytes]

lemma ctlU32_stages (h : H2Core) (type : H2Type) (sid v : ℕ)
    (hc : type ≠ .data ∧ type ≠ .headers ∧ type ≠ .goaway) :
    StagesAll io h h (ctlU32 io h type sid v) :=
  ctlFrame_stages io h type 0 sid (put32 v) hc (by simp)

@[simp] lemma connError_rc (h : H2Core) (code : ℕ) : (connError io h code).2 = .errProto := by
  unfold connError
  split <;> rfl

@[simp] lemma connError_andThen (h : H2Core) (code : ℕ) (k : H2Core → H2Res) :
    (connError io h code : H2Res).andThen k = connError io h code := by
  simp [H2Res.andThen]

lemma connError_sends (hd : h.dead = false) (code : ℕ) : ∃ sent,
    LastSends io h.log h.ctl code sent ∧ (connError io h code).1 =
      { h with ctl := [], log := h.log ++ sent, dead := true } := by
  have hlast (g : H2Core) :
      ({ (ctlFlush io { g with ctl := g.ctl ++ [goawayFrame code] }).1 with dead := true } : H2Core) =
        { g with ctl := [], log := g.log ++ [.send (g.ctl ++ [goawayFrame code])], dead := true } := by
    rw [ctlFlush_eq io (by simp)]
  unfold connError ctlFrame
  rw [if_neg (by simp [hd])]
  split
  case isTrue hfull =>
    have hne : h.ctl ≠ [] := by
      intro hnil
      simp [hnil, framesLen, h2FrameHdrLen, h2CtlCap] at hfull
    rw [ctlFlush_eq io hne]
    cases hs : io.send h.log with
    | true =>
      have hgo := hlast { h with ctl := [], log := h.log ++ [.send h.ctl] }
      rw [List.append_assoc] at hgo
      exact ⟨_, .behind hs, hgo⟩
    | false => exact ⟨_, .failed hs, rfl⟩
  case isFalse => exact ⟨_, .joined, hlast h⟩

lemma connError_half (hd : h.dead = false) (notes : List H2Note) {s : H2Stream} (code : ℕ)
    (hn : ∀ n ∈ notes, Inbound h.f n) (hs : HalfShifted h s) : Does (H2Content io) h
      (connError io { h with log := h.log ++ notes.map .note, s := s } code) := by
  obtain ⟨sent, hsent, hr⟩ :=
    connError_sends io (h := { h with log := h.log ++ notes.map .note, s := s }) hd code
  refine ⟨?_, by simp [hr]⟩
  rw [hr]
  exact .single (.quit h notes sent code s hd hn hsent hs)

lemma connError_does (h : H2Core) (code : ℕ) : Does (H2Content io) h (connError io h code) := by
  cases hd : h.dead with
  | true =>
    have hr : connError io h code = (h, .errProto) := if_pos hd
    rw [hr]
    exact ⟨.refl, by simp [hd]⟩
  | false =>
    have hq := connError_half io hd [] code (by simp) (.inl rfl)
    rwa [List.map_nil, List.append_nil] at hq

lemma badSetting_does (hd : h.dead = false) (what : H2Setting) (v code : ℕ) :
    Does (H2Content io) h (connError io (h.note (.setting what v)) code) :=
  connError_half io hd [.setting what v] code (by simp [Inbound]) (.inl rfl)

def reject (h : H2Core) (w : H2Slot) (code : ℕ) : H2Core :=
  { closeStream h w code with
    f := { h.f with ignore := true }
    blk := { h.blk with error := true } }

lemma reject_contents {w : H2Slot} (hd : h.dead = false) (hw : h.streamOf h.f.sid = some w) (n : ℕ)
    {code : ℕ} (hcode : code ≠ 0) : H2Contents io h
      (reject (h.setStream w { h.stream w with recvLen := n }) w code) := by
  obtain ⟨ho, hid⟩ := streamOf_some hw
  have hclose : H2Content io h _ := .touch h w _ [] hd ho (.close n code hcode)
  rw [touched_nil] at hclose
  refine (Relation.ReflTransGen.single hclose).tail ?_
  have hignore : H2Content io _ _ := .ignore (h.setStream w
    (({ h.stream w with recvLen := n } : H2Stream).close code))
    (.inr ⟨w, by cases w <;> exact hid, by cases w <;> rfl⟩)
  cases w <;> exact hignore

lemma streamError_stages {w : H2Slot} (hw : h.streamOf h.f.sid = some w) (code : ℕ) :
    StagesAll io h (reject h w code) (streamError io h code) := by
  have hs := (ctlU32_stages io h .rstStream (h.stream w).id code (by decide)).map
    (fun g => reject g w code) fun c l d => by cases w <;> rfl
  unfold streamError
  rw [hw]
  cases w <;> exact hs

lemma streamError_does (hd : h.dead = false) {code : ℕ} (hcode : code ≠ 0) :
    Does (H2Content io) h (streamError io h code) := by
  cases hw : h.streamOf h.f.sid with
  | none =>
    unfold streamError
    rw [hw]
    exact .one (.ignore h (.inl hw)) hd
  | some w =>
    refine (streamError_stages io hw code).does ?_ ?_ ?_ ?_ hd
    · have hm := reject_contents io hd hw (h.stream w).recvLen hcode
      rwa [show ({ h.stream w with recvLen := (h.stream w).recvLen } : H2Stream) = h.stream w from rfl,
        setStream_stream] at hm
    all_goals simp [reject, closeStream]

lemma connConsume_stages (h : H2Core) (n : ℕ) :
    StagesAll io h (connRenewed h n) (connConsume io h n) := by
  unfold connConsume connRenewed renew
  by_cases hbig : h.connConsumed + n ≥ h2WuThreshold
  · have hs := (ctlU32_stages io { h with connConsumed := h.connConsumed + n } .windowUpdate 0
      (h.connConsumed + n).toNat (by decide)).map (fun g =>
        { g with connRecvWin := h.connRecvWin + (h.connConsumed + n), connConsumed := 0 })
      fun c l d => rfl
    simp only [hbig, decide_true, Bool.not_false, Bool.and_self, if_true]
    exact hs
  · simp only [hbig, decide_false, Bool.false_and, Bool.false_eq_true, if_false]
    exact stages_nothing h _ rfl

lemma streamConsume_stages (h : H2Core) (n : ℕ) :
    StagesAll io h (streamRenewed h n) (streamConsume io h n) := by
  unfold streamConsume streamRenewed
  cases hw : h.dataStream with
  | none => exact stages_nothing h h rfl
  | some w =>
    unfold renewStream renew
    dsimp only
    split
    case isTrue hbig =>
      have hs := (ctlU32_stages io h .windowUpdate (h.stream w).id
        ((h.stream w).consumed + n).toNat (by decide)).map (fun g => g.setStream w { h.stream w with
          recvWin := (h.stream w).recvWin + ((h.stream w).consumed + n)
          consumed := 0 }) fun c l d => by cases w <;> rfl
      exact hs
    case isFalse hsmall => exact stages_nothing h _ (by cases w <;> rfl)

lemma streamRenewed_quiet (h : H2Core) (n : ℕ) (c : List OutFrame) (l : List H2Event) (d : Bool) :
    streamRenewed { h with ctl := c, log := l, dead := d } n =
      { streamRenewed h n with ctl := c, log := l, dead := d } := by
  unfold streamRenewed
  change (match h.dataStream with | none => _ | some w => _) = _
  cases h.dataStream with
  | none => rfl
  | some w => cases w <;> rfl

section
variable (h : H2Core) (n : ℕ)

lemma consume_kept : (consume h n).f = h.f ∧ (consume h n).ctl = h.ctl ∧
    (consume h n).log = h.log ∧ (consume h n).dead = h.dead := by
  unfold consume streamRenewed
  split <;> simp [connRenewed]

@[simp] lemma consume_f : (consume h n).f = h.f := (consume_kept h n).1

@[simp] lemma consume_log : (consume h n).log = h.log := (consume_kept h n).2.2.1

lemma consume_quiet (c : List OutFrame) (l : List H2Event) (d : Bool) :
    consume { h with ctl := c, log := l, dead := d } n =
      { consume h n with ctl := c, log := l, dead := d } :=
  streamRenewed_quiet (connRenewed h n) n c l d

end

lemma dataConsumed_stages (h : H2Core) (n : ℕ) : ∃ c l d g, Quietly io h c l d ∧
    (g = consume h n ∨ d = true ∧ g = connRenewed h n) ∧ dataConsumed io h n =
      ({ g with ctl := c, log := l, dead := d || h.dead }, if d then .errIo else .ok) := by
  obtain ⟨c, l, d, hq, hr⟩ := connConsume_stages io h n
  unfold dataConsumed
  rw [hr]
  cases d with
  | true => exact ⟨c, l, true, connRenewed h n, hq, .inr ⟨rfl, rfl⟩, rfl⟩
  | false =>
    obtain ⟨c', l', d', hq', hr'⟩ :=
      streamConsume_stages io { connRenewed h n with ctl := c, log := l, dead := h.dead } n
    refine ⟨c', l', d', consume h n, fun g hc hl hg hd => ?_, .inl rfl, ?_⟩
    · exact (hq g hc hl hg hd).trans (hq' { g with ctl := c, log := l, dead := h.dead } rfl rfl rfl hd)
    · rw [streamRenewed_quiet] at hr'
      exact hr'

lemma renewed_rubble (hd : h.dead) (n : ℕ) :
    H2Move io h (consume h n) ∧ H2Move io h (connRenewed h n) := by
  refine ⟨?_, .rubble h _ _ _ _ _ _ _ _ hd⟩
  change H2Move io h (match h.dataStream with | none => _ | some w => _)
  cases h.dataStream with
  | none => exact .rubble h _ _ _ _ _ _ _ _ hd
  | some w => cases w <;> exact .rubble h _ _ _ _ _ _ _ _ hd

lemma passDone_does {n : ℕ} (hd : h.dead = false) (hin : h2FrameHdrLen ≤ h.f.fh.length)
    (hn : n ≤ h.f.left) : Does (H2Move io) h (passDone io h n) := by
  unfold passDone
  by_cases ht : h.f.type = .data
  · rw [if_pos ht]
    obtain ⟨c, l, d, g, hq, hg, hr⟩ := dataConsumed_stages io h n
    have hm := contents_moves (wires_contents (hq h rfl rfl rfl hd))
    rw [hr]
    cases d with
    | false =>
      obtain rfl := hg.resolve_right (by simp)
      have hmove : H2Move io _ _ := .consume { h with ctl := c, log := l, dead := h.dead } n hin ht hn
      rw [consume_quiet] at hmove
      exact ⟨by simpa [H2Res.andThen] using hm.tail hmove, by simp [H2Res.andThen, hd]⟩
    | true =>
      obtain ⟨hall, hconn⟩ := renewed_rubble io (h := { h with ctl := c, log := l, dead := true }) rfl n
      rw [consume_quiet] at hall
      refine ⟨hm.tail ?_, by simp [H2Res.andThen]⟩
      rcases hg with rfl | ⟨-, rfl⟩
      · exact hall
      · exact hconn
  · rw [if_neg ht]
    exact .one (.pass h n ht) hd

lemma dataBytes_does (hd : h.dead = false) (p : Bytes) :
    Does (H2Content io) h (dataBytes io h p) := by
  unfold dataBytes
  cases hw : h.dataStream with
  | none => exact .nothing hd
  | some w =>
    have hof := (dataStream_some hw).2
    dsimp only
    split
    case isTrue hover =>
      have hof' := streamOf_setStream h w
        (s := { h.stream w with recvLen := (h.stream w).recvLen + p.length }) rfl rfl h.f.sid
      refine (streamError_stages io (by rwa [setStream_f, hof']) _).does
        (reject_contents io hd hof ((h.stream w).recvLen + p.length) (by decide)) ?_ ?_ ?_ ?_
      all_goals simp [reject, closeStream, hd]
    case isFalse hfits =>
      have htouch (b : Bool) (evs : List H2Event) (hevs) :
          Does (H2Content io) h (touched h w { h.stream w with
            recvLen := (h.stream w).recvLen + p.length, stop := b } evs, .ok) :=
        .one (.touch h w _ evs hd (streamOf_some hof).1 (.data p b evs hevs)) (by simpa [touched] using hd)
      split
      case isTrue hgive =>
        simp only [Bool.and_eq_true, decide_eq_true_eq, Bool.not_eq_true'] at hgive
        obtain rfl := hgive.1.1
        exact htouch _ _ (.inr ⟨rfl, hgive.1.2, rfl⟩)
      case isFalse hkeep =>
        have hdone := htouch (h.stream w).stop [] (.inl ⟨rfl, ?_, rfl⟩)
        · rwa [touched_nil] at hdone
        · rintro rfl
          by_contra hno
          obtain ⟨hs, hp⟩ := not_or.mp hno
          exact hkeep (by simp [hs, List.length_pos_iff.mpr hp])

lemma remoteEnd_does {w : H2Slot} (hd : h.dead = false) (hw : h.streamOf h.f.sid = some w)
    (hend : (h.f.type = .data ∧ hasFlag h.f.flags h2FEndStream = true) ∨
      ((h.f.type = .headers ∨ h.f.type = .continuation) ∧ h.blk.endStream = true)) :
    Does (H2Content io) h (remoteEnd io h w) := by
  unfold remoteEnd
  dsimp only
  split
  · exact streamError_does io hd (by decide)
  case isFalse hok =>
    have hfinal : (h.stream w).final = true := by
      by_contra hno
      exact hok (by simp [hno])
    have hlen : (h.stream w).contentLength < 0 ∨
        (h.stream w).contentLength = (h.stream w).recvLen := by
      by_contra hno
      obtain ⟨hpos, hne⟩ := not_or.mp hno
      exact hok (by simp [hfinal, hne, Int.not_lt.mp hpos])
    obtain ⟨ho, hid⟩ := streamOf_some hw
    have hclose : H2Contents io h
        (closeStream (h.setStream w { h.stream w with remoteEnd := true }) w h2NoError) := by
      have hm : H2Content io h _ := .touch h w _ [] hd ho (.finish hid hfinal hlen hend)
      rw [touched_nil] at hm
      cases w <;> exact .single hm
    split
    · exact .ok hclose (by simpa [closeStream] using hd)
    · refine ((ctlU32_stages io (h.setStream w { h.stream w with remoteEnd := true }) .rstStream
        (h.stream w).id h2Cancel (by decide)).map (fun g => closeStream g w h2NoError)
        fun c l d => by cases w <;> rfl).does hclose ?_ ?_ ?_ ?_
      all_goals simp [closeStream, hd]

lemma streamError_flags (h : H2Core) (code : ℕ) :
    (streamError io h code).1.f = { h.f with ignore := true } ∧
      (streamError io h code).1.blk = { h.blk with error := true } := by
  cases hw : h.streamOf h.f.sid with
  | none => simp [streamError, hw]
  | some w =>
    obtain ⟨c, l, d, -, hr⟩ := streamError_stages io hw code
    simp [hr, reject]

/-- While a block is decoded, a session that died has its error flag set. -/
structure Decoding (h₀ h : H2Core) : Prop where
  contents : H2Contents io h₀ h
  frame : ∃ b, h.f = { h₀.f with ignore := b }
  hpack : h.blk.hpack = h₀.blk.hpack
  stops : h.dead = true → h.blk.error = true

lemma fieldCb_decoding {h₀ : H2Core} (hin : h₀.f.phase = .body ∧ h₀.f.type ≠ .data)
    (hc : Decoding io h₀ h) (f : HpackField) : Decoding io h₀ (fieldCb io h f) := by
  unfold fieldCb
  split
  · exact hc
  case isFalse hgo =>
    have hlive : h.dead = false := by
      by_contra hdead
      exact hgo (by simp [hc.stops (by simpa using hdead)])
    split
    · exact hc
    case h_2 w hw =>
      obtain ⟨ho, hid⟩ := streamOf_some hw
      have hin' : h.f.phase = .body ∧ h.f.type ≠ .data := by
        obtain ⟨b, hf⟩ := hc.frame
        rwa [hf]
      have hstay (evs : List H2Event)
          (hevs : FieldEvents w (streamField (h.stream w) h.blk.trailer f) f evs) :
          Decoding io h₀ (touched h w (streamField (h.stream w) h.blk.trailer f).1
            (.note (.field (h.stream w).id f) :: evs)) :=
        ⟨hc.contents.tail (.touch h w _ _ hlive ho (.field f evs hid hin' hevs)),
          by simpa [touched] using hc.frame, by simpa [touched] using hc.hpack,
          by simp [touched, hlive]⟩
      have hquiet (hv : (streamField (h.stream w) h.blk.trailer f).2 ≠ .status) :
          Decoding io h₀ ((h.setStream w (streamField (h.stream w) h.blk.trailer f).1).note
            (.field (h.stream w).id f)) := by
        have hs := hstay [] (.inl ⟨hv, rfl⟩)
        rwa [touched_emit] at hs
      dsimp only
      split
      case h_1 hv => exact hquiet (by simp [hv])
      case h_2 hv =>
        have hs := hquiet (by simp [hv])
        have herr := streamError_does io (h := (h.setStream w (streamField (h.stream w)
          h.blk.trailer f).1).note (.field (h.stream w).id f))
          (by simpa using hlive) (show h2ProtocolError ≠ 0 by decide)
        refine ⟨hs.contents.trans herr.moves, ?_, ?_, ?_⟩
        · obtain ⟨b, hf⟩ := hs.frame
          exact ⟨true, by rw [(streamError_flags io _ _).1, hf]⟩
        · rw [(streamError_flags io _ _).2]
          exact hs.hpack
        · simp [(streamError_flags io _ _).2]
      case h_3 hv =>
        rw [H2Core.note, ← touched_emits]
        exact hstay _ (.inr (.inl ⟨hv, rfl⟩))
      case h_4 hv =>
        split
        · exact hquiet (by simp [hv])
        · rw [H2Core.note, ← touched_emits]
          exact hstay _ (.inr (.inr ⟨hv, rfl⟩))

lemma blockBytes_does (hd : h.dead = false) (hin : h.f.phase = .body ∧ h.f.type ≠ .data)
    (p : Bytes) :
    Does (H2Content io) h (blockBytes io h p) := by
  unfold blockBytes
  have hdec : Decoding io h (hpackDecFeed (fun h f => (fieldCb io h f, true)) h.blk.hpack h p).ctx :=
    hpackDecFeed_ctx (P := Decoding io h) (fun c f hc => fieldCb_decoding io hin hc f)
      h.blk.hpack h p ⟨.refl, ⟨_, rfl⟩, rfl, by simp [hd]⟩
  have hbare := hpackDecFeed_bare (fun h f => (fieldCb io h f, true)) h.blk.hpack h p
  generalize hpackDecFeed (fun h f => (fieldCb io h f, true)) h.blk.hpack h p = r at *
  have hmove : H2Contents io h { r.ctx with blk := { r.ctx.blk with hpack := r.dec } } :=
    hdec.contents.tail
      (.progress r.ctx _ _ _ _ r.dec _ .inl (fun hb => hbare (hdec.hpack ▸ hb)) (.inr rfl))
  dsimp only
  split
  · exact .after hmove (connError_does io _ _)
  · refine ⟨hmove, ?_⟩
    cases r.ctx.dead <;> simp

lemma responseBlock_id (s : H2Stream) (e : Bool) :
    (responseBlock s e).1.id = s.id ∧ (responseBlock s e).1.isOpen = s.isOpen := by
  obtain ⟨p, hs, fin, cl, he⟩ := responseBlock_eq s e
  rw [he]
  exact ⟨rfl, rfl⟩

lemma blockStream_does {w : H2Slot} (hd : h.dead = false) (hw : h.streamOf h.f.sid = some w)
    (ht : h.f.type = .headers ∨ h.f.type = .continuation) :
    Does (H2Content io) h (blockStream io h w) := by
  obtain ⟨ho, hid⟩ := streamOf_some hw
  unfold blockStream
  split
  · split
    case isTrue hend => exact remoteEnd_does io hd hw (.inr ⟨ht, hend⟩)
    case isFalse hend => exact streamError_does io hd (by decide)
  · have htouch (evs : List H2Event)
        (hevs : BlockEvents (responseBlock (h.stream w) h.blk.endStream) evs) :=
      (Relation.ReflTransGen.single (.touch h w _ _ hd ho (.block evs hid ht hevs)) :
        H2Contents io h _)
    have hlive : ((h.setStream w (responseBlock (h.stream w) h.blk.endStream).1).note
        (.head (h.stream w).id h.blk.endStream)).dead = false := by
      simpa using hd
    dsimp only
    split
    case h_1 hv =>
      have hm := htouch [] (.inl ⟨by simp [hv], rfl⟩)
      rw [touched_emit] at hm
      exact .after hm (streamError_does io hlive (by decide))
    case h_2 hv =>
      have hm := htouch [] (.inl ⟨by simp [hv], rfl⟩)
      rw [touched_emit] at hm
      exact .ok hm hlive
    case h_3 hv =>
      have hm := htouch _ (.inr ⟨hv, rfl⟩)
      rw [touched_emits] at hm
      split
      case isTrue hend =>
        refine .after hm (remoteEnd_does io hlive ?_ (.inr ⟨?_, hend⟩))
        · have hblk := responseBlock_id (h.stream w) h.blk.endStream
          change (h.setStream w _).streamOf (h.setStream w _).f.sid = some w
          rw [setStream_f, streamOf_setStream h w hblk.1 hblk.2, hw]
        · simpa using ht
      case isFalse hend => exact .ok hm hlive

lemma blockEnd_does (hd : h.dead = false) (ht : h.f.type = .headers ∨ h.f.type = .continuation) :
    Does (H2Content io) h (blockEnd io h) := by
  unfold blockEnd
  split
  · exact connError_does io h _
  · have hcont : H2Contents io h { h with blk := { h.blk with contSid := 0 } } :=
      .single (.progress h _ _ _ _ _ 0 .inl id (.inl rfl))
    dsimp only
    split
    · exact .ok hcont hd
    · split
      · exact .ok hcont hd
      case h_2 w hw => exact .after hcont (blockStream_does io hd hw ht)

lemma shiftWindow_cases (h : H2Core) (w : H2Slot) (delta : ℤ) :
    (shiftWindow io h w delta = (h.setStream w (shifted (h.stream w) delta), .ok) ∧
      ((h.stream w).isOpen = true → (h.stream w).sendWin + delta ≤ h2MaxWindow)) ∨
    shiftWindow io h w delta = connError io h h2FlowControlError := by
  unfold shiftWindow shifted
  cases ho : (h.stream w).isOpen with
  | false => exact .inl ⟨by simp [ho, setStream_stream], by simp⟩
  | true =>
    by_cases hbig : (h.stream w).sendWin + delta > h2MaxWindow
    · exact .inr (by simp [ho, hbig])
    · exact .inl ⟨by simp [ho, hbig], fun _ => Int.not_lt.mp hbig⟩

lemma initialWindow_does (hd : h.dead = false) (v : ℕ) : Does (H2Content io) h
    (setting io (h.note (.setting .initialWindowSize v)) .initialWindowSize v) := by
  unfold setting
  dsimp only
  split
  · exact badSetting_does io hd _ v _
  case isFalse hv =>
    have hv' : (v : ℤ) ≤ h2MaxWindow := by simpa using hv
    change Does _ h ((shiftWindow io _ _ (v - h.peer.initialWin)).andThen fun g =>
      (shiftWindow io g _ (v - h.peer.initialWin)).andThen _)
    rcases shiftWindow_cases io (h.note (.setting .initialWindowSize v)) .main
      (v - h.peer.initialWin) with ⟨hr, hs⟩ | hr
    · simp only [H2Res.andThen, hr, if_true]
      rw [show (h.note (.setting .initialWindowSize v)).stream .main = h.s from rfl]
      rcases shiftWindow_cases io ((h.note (.setting .initialWindowSize v)).setStream .main
        (shifted h.s (v - h.peer.initialWin))) .side (v - h.peer.initialWin) with ⟨hr', hside⟩ | hr'
      · rw [hr']
        exact .one (.initialWindow h v hd hv' hs hside) hd
      · simp only [hr', connError_rc, reduceCtorEq, if_false]
        exact connError_half io hd [.setting .initialWindowSize v] _ (by simp [Inbound])
          (.inr ⟨v, hv', rfl, hs⟩)
    · rw [hr, connError_andThen]
      exact badSetting_does io hd .initialWindowSize v _

lemma setting_does (hd : h.dead = false) (what : H2Setting) (v : ℕ) :
    Does (H2Content io) h (setting io (h.note (.setting what v)) what v) := by
  cases what with
  | initialWindowSize => exact initialWindow_does io hd v
  | enablePush | noRfc7540Priorities | enableConnectProtocol =>
    unfold setting
    dsimp only
    split
    · exact badSetting_does io hd _ v _
    · exact .one (.setting h _ v _ _ (by decide) (by decide)) hd
  | maxConcurrentStreams =>
    exact .one (.setting h _ v h.peer.enableConnect v (by decide) (by decide)) hd
  | maxFrameSize =>
    unfold setting
    dsimp only
    split
    · exact badSetting_does io hd _ v _
    case isFalse hv =>
      refine .one (.maxFrame h v ?_) hd
      simp only [Bool.or_eq_true, decide_eq_true_eq, not_or] at hv
      exact ⟨Nat.le_of_not_lt hv.1, Nat.le_of_not_lt hv.2⟩
  | other => exact .one (.setting h _ v _ _ (by simp) (by simp)) hd

lemma refuse_does (hm : H2Contents io h g) (hd : g.dead = false) (w : H2Slot) (last : ℕ) :
    Does (H2Content io) h (if (g.stream w).isOpen && (g.stream w).id > last then
      closeStream g w h2RefusedStream else g, .ok) := by
  split
  case isTrue ho =>
    simp only [Bool.and_eq_true] at ho
    have hclose : H2Content io g _ := .touch g w _ [] hd ho.1
      (.close (g.stream w).recvLen h2RefusedStream (by decide))
    rw [touched_nil] at hclose
    exact .ok (hm.tail hclose) (by simpa [closeStream] using hd)
  case isFalse => exact .ok hm hd

lemma goawayDone_does (hd : h.dead = false) (last err : ℕ) :
    Does (H2Content io) h (goawayDone io h last err) := by
  unfold goawayDone
  split
  · exact connError_does io h _
  case isFalse hlast =>
    simp only [Bool.or_eq_true, decide_eq_true_eq, not_or] at hlast
    have hmain := refuse_does io (Relation.ReflTransGen.single
      (H2Content.goaway h last err (Nat.le_of_not_lt hlast.2))) hd .main last
    exact refuse_does io hmain.moves (hmain.lives.mp rfl) .side last

lemma windowUpdateDone_does (hd : h.dead = false) (inc : ℕ) (ht : h.f.type = .windowUpdate) :
    Does (H2Content io) h (windowUpdateDone io (h.note (.windowUpdate h.f.sid inc)) inc) := by
  have hnote : H2Contents io h _ := .single (.noteGrant h inc ht)
  unfold windowUpdateDone
  split
  case isTrue hsid =>
    split
    · exact .after hnote (connError_does io _ _)
    · split
      · exact .after hnote (connError_does io _ _)
      case isFalse hmax =>
        have hmove : H2Content io h _ := .connGrant h inc (Int.not_lt.mp hmax)
        rw [← show h.f.sid = 0 from hsid] at hmove
        exact .one hmove hd
  case isFalse hsid =>
    split
    · exact .ok hnote hd
    case h_2 w hw =>
      dsimp only
      split
      · exact .after hnote (streamError_does io (h := h.note _) hd (by decide))
      · split
        · exact .after hnote (streamError_does io (h := h.note _) hd (by decide))
        case isFalse hmax =>
          obtain ⟨ho, hid⟩ := streamOf_some (h := h) hw
          refine .ok (.single ?_) (by simpa using hd)
          have hmove : H2Content io h _ := .touch h w _ _ hd ho (.grant inc hid (Int.not_lt.mp hmax))
          cases w <;> exact hmove

lemma fixedDone_does (hd : h.dead = false) : Does (H2Content io) h (fixedDone io h) := by
  unfold fixedDone
  split
  · exact setting_does io hd _ _
  · split
    · exact .nothing hd
    · exact ctlFrame_does io hd (by decide) (by simp)
  · exact goawayDone_does io hd _ _
  · split
    · exact .nothing hd
    case h_2 w hw =>
      obtain ⟨ho, hid⟩ := streamOf_some hw
      refine .ok (.single ?_) (by simpa [closeStream] using hd)
      have hmove : H2Content io h _ := .touch h w _ _ hd ho (.reset (get32 h.f.fix) hid)
      cases w <;> exact hmove
  case h_5 ht => exact windowUpdateDone_does io hd _ ht
  · exact .nothing hd

end Receive

end TinyLink.Proofs
