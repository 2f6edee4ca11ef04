import TinyLink.JsonSplit
import TinyLink.MapElements

/-!
# The streaming MapResponse parser

Embedding of the streaming splitter and of the framing of `mapreq.c`. The open containers are a list,
innermost first. The element buffer is a function on indices: like the token table it is never cleared.
-/

namespace TinyLink

/-- `MS_TOP` and the following ones. -/
inductive MapRole
  | top
  | peers
  | peersChanged
  | removed
  | patch
  | derpmap
  | regions
deriving DecidableEq

/-- `G_PRE` and the following ones. -/
inductive MapGrammar
  | pre
  | objFirst
  | objAfterVal
  | objAfterComma
  | key
  | keyEsc
  | colon
  | objVal
  | arrFirst
  | arrAfterVal
  | arrAfterComma
  | value
  | closed
deriving DecidableEq

structure MapLevel where
  role : MapRole
  g : MapGrammar
  ext : JsplitScan
deriving DecidableEq

def maprespLevels : ℕ := 3
def maprespKeyMax : ℕ := 20

/-- `mapresp_json_t`. A value that is skipped has no `vact`. -/
structure MapJson where
  out : MapOut
  elem : ℕ → UInt8
  elemCap : ℕ
  val : JsplitScan
  vact : Option MapAct
  vlen : ℕ
  vlim : ℕ
  lvl : List MapLevel
  keyLen : ℕ
  key : Bytes
  regionsSeen : ℕ
  done : Bool
  err : Bool
  pos : ℕ
  errPos : ℕ
  elemPeak : ℕ
  nOversized : ℕ

def msIsObj : MapRole → Bool
  | .top => true
  | .derpmap => true
  | .regions => true
  | _ => false

def msAfterVal (r : MapRole) : MapGrammar := if msIsObj r then .objAfterVal else .arrAfterVal

namespace MapJson
variable (m : MapJson)

def fail : MapJson := if m.err then m else { m with err := true, errPos := m.pos }

def setG (g : MapGrammar) : MapJson :=
  match m.lvl with
  | [] => m
  | l :: ls => { m with lvl := { l with g := g } :: ls }

def keyIs (name : String) : Bool :=
  m.keyLen = name.length && m.key.take name.length = asciiBytes name

def keyAdd (c : UInt8) : MapJson :=
  { m with
    key := if m.keyLen < maprespKeyMax then m.key ++ [c] else m.key
    keyLen := if m.keyLen < 255 then m.keyLen + 1 else m.keyLen }

def stored : Bytes := (List.range m.vlen).map m.elem

def element [MapConfig] (act : MapAct) : MapJson :=
  if m.vlen > m.vlim then
    match act with
    | .removed => m
    | .patch =>
      { m with
        nOversized := m.nOversized + 1
        out := { m.out with nm := { m.out.nm with patchesOverflow := true } } }
    | _ => { m with nOversized := m.nOversized + 1 }
  else { m with out := elemParse act m.stored m.out }

def store (c : UInt8) : MapJson :=
  { m with
    elem := if m.vlen < m.vlim then Function.update m.elem m.vlen c else m.elem
    vlen := m.vlen + 1 }

def notePeak (act : MapAct) : MapJson :=
  if act ≠ .removed && m.vlen > m.elemPeak then { m with elemPeak := m.vlen } else m

def valueEnd [MapConfig] (r : MapRole) : MapJson :=
  let m := m.setG (msAfterVal r)
  match m.vact with
  | none => m
  | some act => (m.notePeak act).element act

/-- The container that `ms_value_start` descends into. -/
def valueSub (r : MapRole) (c : UInt8) : Option MapRole :=
  match r with
  | .top =>
    if c = 91 && m.keyIs "Peers" then some .peers
    else if c = 91 && m.keyIs "PeersChanged" then some .peersChanged
    else if c = 91 && m.keyIs "PeersRemoved" then some .removed
    else if c = 91 && m.keyIs "PeersChangedPatch" then some .patch
    else if c = 123 && m.keyIs "DERPMap" then some .derpmap
    else none
  | .derpmap => if c = 123 && m.keyIs "Regions" then some .regions else none
  | _ => none

/-- What `ms_value_start` collects a value for that it does not descend into. -/
def valueAct (r : MapRole) (c : UInt8) : Option MapAct :=
  match r with
  | .top => if c = 123 && m.keyIs "Node" then some .node else none
  | .peers => if m.out.nm.peers.length < tlMaxPeers then some .peer else none
  | .peersChanged => if m.out.nm.peers.length < tlMaxPeers then some .peer else none
  | .removed => if m.out.nm.removedIds.length ≥ tlMaxPeersRemoved then none else some .removed
  | .patch => if c = 123 then some .patch else none
  | .derpmap => none
  | .regions => if m.out.nm.derpRegions.length < tlMaxDerpRegions then some .region else none

/-- What `ms_value_start` notes of such a value. -/
def valueNote (r : MapRole) : MapJson :=
  match r with
  | .removed =>
    if m.out.nm.removedIds.length ≥ tlMaxPeersRemoved then
      { m with out := { m.out with nm := { m.out.nm with removedOverflow := true } } }
    else m
  | .regions => { m with regionsSeen := m.regionsSeen + 1 }
  | _ => m

/-- How many bytes of a value are stored. -/
def valueLim : Option MapAct → ℕ
  | none => 0
  | some .removed => removedLim
  | some _ => m.elemCap

def beginValue (act : Option MapAct) (s : JsplitScan) : MapJson :=
  { m with val := s, vact := act, vlen := 0, vlim := m.valueLim act }

/-- What the netmap forgets when a container is entered. -/
def enterOut (sub : MapRole) (o : MapOut) : MapOut :=
  match sub with
  | .peers => { o with nm := { o.nm with peers := [] } }
  | .peersChanged => { o with nm := { o.nm with peers := [] } }
  | .derpmap => { o with nm := { o.nm with derpRegions := [] } }
  | _ => o

/-- `ms_value_start` at a container of role `sub`. -/
def descend (sub : MapRole) (c : UInt8) : MapJson :=
  if m.lvl.length ≥ maprespLevels then m.fail
  else
    { m with
      lvl := ⟨sub, if c = 123 then .objFirst else .arrFirst, ⟨1, .text⟩⟩ :: m.lvl
      out := enterOut sub m.out
      regionsSeen := if sub = .regions then 0 else m.regionsSeen }

/-- `ms_value_start` in a container of role `r`. -/
def valueStart (r : MapRole) (c : UInt8) : MapJson :=
  match m.valueSub r c with
  | some sub => m.descend sub c
  | none =>
    match tlJsplitScanBegin c with
    | .more s => (((m.valueNote r).setG .value).beginValue (m.valueAct r c) s).store c
    | _ => (m.valueNote r).fail

/-- What the netmap keeps of a container that is closed. -/
def closeOut (r : MapRole) (o : MapOut) : MapOut :=
  match r with
  | .peers => { o with nm := { o.nm with peersIsDelta := false } }
  | .peersChanged => { o with nm := { o.nm with peersIsDelta := true } }
  | .regions => { o with nm := { o.nm with haveDerpMap := true } }
  | _ => o

def close (r : MapRole) : MapJson :=
  if m.lvl.length = 1 then { m with done := true }
  else { m with out := closeOut r m.out }.setG .closed

/-- An object before a key or its end, in `ms_grammar`. -/
def objMember (r : MapRole) (c : UInt8) : MapJson :=
  if tlJsplitIsWs c then m
  else if c = 125 then m.close r
  else if c = 34 then { m with keyLen := 0, key := [] }.setG .key
  else m.fail

/-- An array before an element or its end. -/
def arrMember (r : MapRole) (c : UInt8) : MapJson :=
  if tlJsplitIsWs c then m
  else if c = 93 then m.close r
  else m.valueStart r c

/-- `ms_grammar` outside of a value. -/
def member (r : MapRole) (g : MapGrammar) (c : UInt8) : MapJson :=
  match g with
  | .pre =>
    if tlJsplitIsWs c then m
    else if c = 123 then m.setG .objFirst
    else m.fail
  | .objAfterVal => if c = 44 then m.setG .objAfterComma else m.objMember r c
  | .objFirst => m.objMember r c
  | .objAfterComma => m.objMember r c
  | .key =>
    if c = 34 then m.setG .colon
    else if c = 92 then (m.setG .keyEsc).keyAdd c
    else m.keyAdd c
  | .keyEsc => (m.setG .key).keyAdd c
  | .colon =>
    if tlJsplitIsWs c then m
    else if c = 58 then m.setG .objVal
    else m.fail
  | .objVal => if tlJsplitIsWs c then m else m.valueStart r c
  | .arrAfterVal => if c = 44 then m.setG .arrAfterComma else m.arrMember r c
  | .arrFirst => m.arrMember r c
  | .arrAfterComma => m.arrMember r c
  | _ => m

def setVal (s : JsplitScan) : MapJson := { m with val := s }

def grammar [MapConfig] (c : UInt8) : MapJson :=
  match m.lvl with
  | [] => m
  | l :: _ =>
    if l.g = .value then
      match tlJsplitScanByte m.val c with
      | .err => m.fail
      | .doneBefore => (m.valueEnd l.role).member l.role (msAfterVal l.role) c
      | .done => (m.store c).valueEnd l.role
      | .more s => (m.setVal s).store c
    else m.member l.role l.g c

/-- The extents of the containers below the top object at a byte, and which it ends; `none` is
nested too deep. -/
def feedExts (c : UInt8) : List MapLevel → Option (List (MapLevel × Bool))
  | [] => some []
  | [l] => some [(l, false)]
  | l :: ls =>
    match feedExts c ls with
    | none => none
    | some rest =>
      match tlJsplitScanByte l.ext c with
      | .err => none
      | .done => some ((l, true) :: rest)
      | .doneBefore => some ((l, false) :: rest)
      | .more s => some (({ l with ext := s }, false) :: rest)

/-- The loop of `ms_byte` that pops closed containers whose extent has ended. -/
def popClosed : List MapLevel → List Bool → List MapLevel × List Bool
  | l :: p :: ls, true :: ended =>
    if l.g = .closed then popClosed ({ p with g := msAfterVal p.role } :: ls) ended
    else (l :: p :: ls, true :: ended)
  | ls, ended => (ls, ended)

def setLvl (lvl : List MapLevel) : MapJson := { m with lvl := lvl }

/-- The end of `ms_byte`, which had `before` containers at its start. -/
def popLevels (before : ℕ) (ended : List Bool) : MapJson :=
  let r := if m.lvl.length > before then (m.lvl, ended) else popClosed m.lvl ended
  if r.2.any id then (m.setLvl r.1).fail else m.setLvl r.1

def byte [MapConfig] (c : UInt8) : MapJson :=
  match feedExts c m.lvl with
  | none => m.fail
  | some ls =>
    let q := (m.setLvl (ls.map Prod.fst)).grammar c
    if q.err then q else q.popLevels m.lvl.length (ls.map Prod.snd)

def special (c : UInt8) : Bool :=
  c < 32 || c = 32 || c = 34 || c = 44 || c = 91 || c = 92 || c = 93 || c = 123 || c = 125

/-- The bytes that `ms_inert_run` passes; `none` inside an escape or outside of a value. -/
def inert : Option (UInt8 → Bool) :=
  match m.lvl with
  | [] => none
  | l :: _ =>
    if l.g ≠ .value || m.val.mode = .esc then none
    else if m.lvl.dropLast.any fun l => l.ext.mode = .esc then none
    else if m.val.mode = .str && m.lvl.dropLast.all fun l => l.ext.mode = .str then
      some fun c => c ≠ 34 && c ≠ 92
    else some fun c => !special c

def inertRun (data : Bytes) : ℕ :=
  match m.inert with
  | none => 0
  | some p => (data.takeWhile p).length

/-- `memcpy` of at most `room` bytes into the element buffer at `start`. -/
def copyElem (elem : ℕ → UInt8) (start room : ℕ) (data : Bytes) : ℕ → UInt8 :=
  fun i => if start ≤ i ∧ i < start + min data.length room then data.getD (i - start) 0 else elem i

def copyRun (run : Bytes) : MapJson :=
  { m with
    elem := if m.vlen < m.vlim then copyElem m.elem m.vlen (m.vlim - m.vlen) run else m.elem
    vlen := m.vlen + run.length
    pos := m.pos + run.length }

def feedByte [MapConfig] (c : UInt8) : MapJson :=
  let q := m.byte c
  { q with pos := q.pos + 1 }

/-- The loop of `mapresp_json_feed`; every round takes a byte. -/
def feedLoop [MapConfig] : ℕ → MapJson → Bytes → MapJson
  | 0, m, _ => m
  | _ + 1, m, [] => m
  | fuel + 1, m, c :: data =>
    if m.err || m.done then m
    else
      let run := m.inertRun (c :: data)
      if run > 0 then feedLoop fuel (m.copyRun ((c :: data).take run)) ((c :: data).drop run)
      else feedLoop fuel (m.feedByte c) data

end MapJson

/-- `mapresp_json_begin`; the element buffer and the token table are as they were left. -/
def maprespJsonBegin (elem : ℕ → UInt8) (elemCap : ℕ) (toks : JsmnTable) : MapJson where
  out := ⟨Netmap.cleared, toks, 0, []⟩
  elem := elem
  elemCap := elemCap
  val := ⟨0, .text⟩
  vact := none
  vlen := 0
  vlim := 0
  lvl := [⟨.top, .pre, ⟨0, .text⟩⟩]
  keyLen := 0
  key := []
  regionsSeen := 0
  done := false
  err := false
  pos := 0
  errPos := 0
  elemPeak := 0
  nOversized := 0

def maprespJsonFeed [MapConfig] (m : MapJson) (data : Bytes) : MapJson := MapJson.feedLoop data.length m data

def maprespJsonEnd (m : MapJson) : MapJson := if m.done then m else m.fail

open ByteOrder

def maprespFrameMax : ℕ := 4 * 2 ^ 20

/-- What `on_frame` reads of the stream: the error and the parsed frame. -/
structure FrameCall where
  parseErr : Bool
  errPos : ℕ
  nm : Netmap
  nOversized : ℕ
  elemPeak : ℕ
  tokPeak : ℕ
  bodySize : ℕ
deriving DecidableEq

structure MapStream where
  hdr : Bytes
  inBody : Bool
  bodySize : ℕ
  bodyHave : ℕ
  json : MapJson
  elemCap : ℕ

def maprespStreamInit (elem : ℕ → UInt8) (elemCap : ℕ) (toks : JsmnTable) : MapStream :=
  ⟨[], false, 0, 0, maprespJsonBegin elem elemCap toks, elemCap⟩

def frameCall (bodySize : ℕ) (m : MapJson) : FrameCall :=
  ⟨m.err, m.errPos, m.out.nm, m.nOversized, m.elemPeak, m.out.tokPeak, bodySize⟩

/-- The callback of a stream: its context and whether it stops the stream. -/
abbrev OnFrame (κ : Type*) := κ → FrameCall → κ × Bool

/-- The end of a round of `mapresp_stream_feed`: a complete body goes to `on_frame`. -/
def mapFrameDone {κ : Type*} (onFrame : OnFrame κ) (ms : MapStream) (ctx : κ) : MapStream × κ × Bool :=
  if ms.inBody && ms.bodyHave = ms.bodySize then
    let ms := { ms with inBody := false, json := maprespJsonEnd ms.json }
    let (ctx, stop) := onFrame ctx (frameCall ms.bodySize ms.json)
    (ms, ctx, stop)
  else (ms, ctx, false)

/-- A byte of a frame's header; an oversized frame stops the stream. -/
def headerByte (ms : MapStream) (b : UInt8) : MapStream × Bool :=
  let hdr := ms.hdr ++ [b]
  if hdr.length < 4 then ({ ms with hdr := hdr }, false)
  else
    let ms := { ms with hdr := [], bodySize := leNat hdr }
    if ms.bodySize > maprespFrameMax then (ms, true)
    else
      ({ ms with
        bodyHave := 0
        inBody := true
        json := maprespJsonBegin ms.json.elem ms.elemCap ms.json.out.toks }, false)

/-- The loop of `mapresp_stream_feed`; every round takes a byte. The result says whether it stopped. -/
def streamLoop [MapConfig] {κ : Type*} (onFrame : OnFrame κ) : ℕ → MapStream → κ → Bytes → MapStream × κ × Bool
  | 0, ms, ctx, _ => (ms, ctx, false)
  | _ + 1, ms, ctx, [] => (ms, ctx, false)
  | fuel + 1, ms, ctx, b :: data =>
    if !ms.inBody then
      match headerByte ms b with
      | (ms, true) => (ms, ctx, true)
      | (ms, false) =>
        match mapFrameDone onFrame ms ctx with
        | (ms, ctx, true) => (ms, ctx, true)
        | (ms, ctx, false) => streamLoop onFrame fuel ms ctx data
    else
      let take := min (data.length + 1) (ms.bodySize - ms.bodyHave)
      let ms :=
        { ms with
          json := maprespJsonFeed ms.json ((b :: data).take take)
          bodyHave := ms.bodyHave + take }
      match mapFrameDone onFrame ms ctx with
      | (ms, ctx, true) => (ms, ctx, true)
      | (ms, ctx, false) => streamLoop onFrame fuel ms ctx ((b :: data).drop take)

def maprespStreamFeed [MapConfig] {κ : Type*} (onFrame : OnFrame κ) (ms : MapStream) (ctx : κ) (data : Bytes) :
    MapStream × κ × Bool :=
  streamLoop onFrame data.length ms ctx data

/-- The calls of `mapresp_stream_feed` for the pieces a stream arrives in, up to the one that stops it. -/
def feedPieces [MapConfig] {κ : Type*} (onFrame : OnFrame κ) : MapStream → κ → List Bytes → MapStream × κ × Bool
  | ms, ctx, [] => (ms, ctx, false)
  | ms, ctx, p :: ps =>
    match maprespStreamFeed onFrame ms ctx p with
    | (ms, ctx, true) => (ms, ctx, true)
    | (ms, ctx, false) => feedPieces onFrame ms ctx ps

end TinyLink
