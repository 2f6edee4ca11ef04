import TinyLink.Jsmn
import TinyLink.Warm

/-!
# The elements of a MapResponse

Embedding of the element parsers of `mapreq.c`, of `tl_parse_rfc3339` and of `tl_stun_port_parse`. Each
element is tokenized on its own into the one static token table, and its tokens are then walked.
-/

namespace TinyLink

def tokText (js : Bytes) (t : JsmnTok) : Bytes := (js.drop t.start.toNat).take (t.stop - t.start).toNat

def tokEq (js : Bytes) (t : JsmnTok) (s : String) : Bool := tokText js t = asciiBytes s

/-- `tok_copy` into a buffer of `outSize` bytes. -/
def tokCopy (js : Bytes) (t : JsmnTok) (outSize : ℕ) : Option Bytes :=
  if t.stop - t.start < 0 || t.stop - t.start + 1 > outSize then none else some (tokText js t)

/-- The loops over the members of an object: `f` at the tokens of a key and of its value. -/
def walkObj {σ : Type*} (toks : JsmnTable) (f : σ → ℕ → ℕ → σ) : ℕ → ℕ → σ → σ
  | 0, _, s => s
  | k + 1, next, s => walkObj toks f k (jsmnSkip toks (next + 1)) (f s next (next + 1))

def walkArr {σ : Type*} (toks : JsmnTable) (f : σ → ℕ → σ) : ℕ → ℕ → σ → σ
  | 0, _, s => s
  | k + 1, next, s => walkArr toks f k (jsmnSkip toks next) (f s next)

def walkMembers {σ : Type*} (toks : JsmnTable) (f : σ → ℕ → ℕ → σ) (i : ℕ) (s : σ) : σ :=
  walkObj toks f (toks i).size.toNat (i + 1) s

def walkElements {σ : Type*} (toks : JsmnTable) (f : σ → ℕ → σ) (i : ℕ) (s : σ) : σ :=
  walkArr toks f (toks i).size.toNat (i + 1) s

def cSpace (c : UInt8) : Bool := c = 32 || (9 ≤ c && c ≤ 13)

/-- The sign and the digits that `strtoull` and `strtol` read. -/
def cNumber (s : Bytes) : Bool × ℕ :=
  match s.dropWhile cSpace with
  | 45 :: s => (true, decValue (s.takeWhile isDigit))
  | 43 :: s => (false, decValue (s.takeWhile isDigit))
  | s => (false, decValue (s.takeWhile isDigit))

def strtoull (s : Bytes) : ℕ :=
  let (neg, v) := cNumber s
  if v ≥ 2 ^ 64 then 2 ^ 64 - 1 else if neg then (2 ^ 64 - v) % 2 ^ 64 else v

/-- `atoi`, with the 32-bit `long` of the target. -/
def atoi (s : Bytes) : ℤ :=
  let (neg, v) := cNumber s
  max (-(2 ^ 31)) (min (2 ^ 31 - 1) (if neg then -(v : ℤ) else v))

/-- A primitive copied into a buffer of `outSize` bytes and read by `conv`; `old` if it does not fit. -/
def tokNumber {α : Type*} (conv : Bytes → α) (outSize : ℕ) (js : Bytes) (t : JsmnTok) (old : α) : α :=
  match tokCopy js t outSize with
  | none => old
  | some s => if s.length > 0 then conv s else old

def hexNibble (c : UInt8) : Option ℕ :=
  if 48 ≤ c && c ≤ 57 then some (c.toNat - 48)
  else if 97 ≤ c && c ≤ 102 then some (10 + (c.toNat - 97))
  else if 65 ≤ c && c ≤ 70 then some (10 + (c.toNat - 65))
  else none

def parseKeyedHex (s : Bytes) (tag : String) : Option Key :=
  let plen := tag.length
  if s.length ≠ plen + 64 then none
  else if s.take plen ≠ asciiBytes tag then none
  else if (s.drop plen).any fun c => hexNibble c = none then none
  else
    let nibble i := ((s[plen + i]?).bind hexNibble).getD 0
    some (Vector.ofFn fun i => UInt8.ofNat (nibble (2 * i.val) * 16 + nibble (2 * i.val + 1)))

def tlStunDefaultPort : ℕ := 3478

def tlStunPortParse (s : Bytes) : ℕ :=
  if s.length = 0 || s.length > 6 then 0
  else if s.any fun c => !isDigit c then 0
  else if decValue s = 0 then tlStunDefaultPort
  else if decValue s ≤ 65535 then decValue s else 0

def tlDaysFromCivil (y : ℤ) (m d : ℕ) : ℤ :=
  let y := if m ≤ 2 then y - 1 else y
  let era := (if y ≥ 0 then y else y - 399).tdiv 400
  let yoe := (y - era * 400).toNat
  let doy := (153 * (if m > 2 then m - 3 else m + 9) + 2) / 5 + d - 1
  let doe := yoe * 365 + yoe / 4 - yoe / 100 + doy
  era * 146097 + doe - 719468

def tlDateDigits (n : ℕ) (s : Bytes) : Option (ℕ × Bytes) :=
  if s.length < n || (s.take n).any fun c => !isDigit c then none
  else some (decValue (s.take n), s.drop n)

def tlDateLit (cs : List UInt8) : Bytes → Option Bytes
  | [] => none
  | c :: s => if cs.contains c then some s else none

def tlDateFieldsOk (mo d h mi se : ℕ) : Bool :=
  mo ≥ 1 && mo ≤ 12 && d ≥ 1 && d ≤ 31 && h ≤ 23 && mi ≤ 59 && se ≤ 60

def rfc3339Fraction : Bytes → Option Bytes
  | 46 :: s => if (s.takeWhile isDigit).length = 0 then none else some (s.dropWhile isDigit)
  | s => some s

/-- The offset from UTC in seconds; nothing may follow it. -/
def rfc3339Offset : Bytes → Option ℤ
  | [90] => some 0
  | [122] => some 0
  | c :: s =>
    if c = 43 || c = 45 then do
      let (oh, s) ← tlDateDigits 2 s
      let (om, s) ← tlDateDigits 2 (← tlDateLit [58] s)
      if oh > 23 || om > 59 || s ≠ [] then none
      else some ((if c = 45 then -1 else 1) * ((oh * 3600 + om * 60 : ℕ) : ℤ))
    else none
  | [] => none

def tlParseRfc3339 (s : Bytes) : Option ℤ := do
  let (y, s) ← tlDateDigits 4 s
  let (mo, s) ← tlDateDigits 2 (← tlDateLit [45] s)
  let (d, s) ← tlDateDigits 2 (← tlDateLit [45] s)
  let (h, s) ← tlDateDigits 2 (← tlDateLit [84, 116] s)
  let (mi, s) ← tlDateDigits 2 (← tlDateLit [58] s)
  let (se, s) ← tlDateDigits 2 (← tlDateLit [58] s)
  if !tlDateFieldsOk mo d h mi se then none
  else
    let off ← rfc3339Offset (← rfc3339Fraction s)
    some (tlDaysFromCivil y mo d * 86400 + ((h * 3600 + mi * 60 + se : ℕ) : ℤ) - off)

/-- `parse_addresses` at one element. -/
def addAddress (js : Bytes) (out : List Bytes) (t : JsmnTok) : List Bytes :=
  if t.type = .string && out.length < tlMaxPeerAddresses then
    if (tokText js t).contains 58 then out
    else
      match tokCopy js t tlCidrStrlen with
      | none => out
      | some s => out ++ [s]
  else out

def parseAddresses (js : Bytes) (toks : JsmnTable) (arrIdx : ℕ) : List Bytes :=
  walkElements toks (fun out i => addAddress js out (toks i)) arrIdx []

/-- One colon and no bracket. -/
def isEndpointV4 (s : Bytes) : Bool := s.count 58 = 1 && !s.contains 91 && !s.contains 93

/-- `parse_endpoints` at one element. -/
def addEndpoint (js : Bytes) (out : List Bytes) (t : JsmnTok) : List Bytes :=
  if t.type = .string && out.length < tlMaxPeerEndpoints then
    if isEndpointV4 (tokText js t) then
      match tokCopy js t tlEndpointStrlen with
      | none => out
      | some s => out ++ [s]
    else out
  else out

def parsePeerEndpoints (js : Bytes) (toks : JsmnTable) (arrIdx : ℕ) : List Bytes :=
  walkElements toks (fun out i => addEndpoint js out (toks i)) arrIdx []

/-- `parse_node_obj` at one member. -/
def nodeMember (js : Bytes) (toks : JsmnTable) (out : Netmap) (key val : ℕ) : Netmap :=
  let v := toks val
  if tokEq js (toks key) "ID" && v.type = .primitive then
    { out with selfId := tokNumber strtoull 24 js v out.selfId }
  else if tokEq js (toks key) "Addresses" && v.type = .array then
    { out with selfAddresses := parseAddresses js toks val }
  else if tokEq js (toks key) "Expired" && v.type = .primitive then
    { out with selfExpired := tokEq js v "true" }
  else if tokEq js (toks key) "KeyExpiry" && v.type = .string then
    match tlParseRfc3339 (tokText js v) with
    | none => out
    | some t => if t > 0 then { out with selfKeyExpiry := t } else out
  else out

def parseNodeObj (js : Bytes) (toks : JsmnTable) (out : Netmap) : Netmap :=
  { walkMembers toks (nodeMember js toks) 0 out with haveSelf := true }

def Peer.zero : Peer := ⟨0, zeroKey, zeroKey, false, 0, [], []⟩

/-- `parse_one_peer` at one member. -/
def peerMember (js : Bytes) (toks : JsmnTable) (peer : Peer) (key val : ℕ) : Peer :=
  let v := toks val
  if tokEq js (toks key) "ID" && v.type = .primitive then
    { peer with id := tokNumber strtoull 24 js v peer.id }
  else if tokEq js (toks key) "Key" && v.type = .string then
    { peer with nodePub := (parseKeyedHex (tokText js v) "nodekey:").getD peer.nodePub }
  else if tokEq js (toks key) "DiscoKey" && v.type = .string then
    match parseKeyedHex (tokText js v) "discokey:" with
    | none => peer
    | some k => { peer with discoPub := k, hasDiscoPub := true }
  else if tokEq js (toks key) "HomeDERP" && v.type = .primitive then
    { peer with homeDerp := tokNumber atoi 12 js v peer.homeDerp }
  else if tokEq js (toks key) "Addresses" && v.type = .array then
    { peer with addresses := parseAddresses js toks val }
  else if tokEq js (toks key) "Endpoints" && v.type = .array then
    { peer with endpoints := parsePeerEndpoints js toks val }
  else peer

def parseOnePeer (js : Bytes) (toks : JsmnTable) : Peer :=
  walkMembers toks (peerMember js toks) 0 Peer.zero

def DerpNode.zero : DerpNode := ⟨0, [], 0, 0, [0, 0, 0, 0]⟩

/-- `tl_derp_region_t` while it is filled: the slots of the nodes keep what an earlier list of nodes left
in them. -/
structure RegionSlots where
  regionId : ℤ
  nNodes : ℕ
  slots : List DerpNode

def RegionSlots.zero : RegionSlots := ⟨0, 0, List.replicate tlMaxDerpNodes DerpNode.zero⟩

def tlDerpHostnameLen : ℕ := 64

/-- `parse_one_derp_region` at one member of a node. -/
def derpNodeMember (js : Bytes) (toks : JsmnTable) (dn : DerpNode) (key val : ℕ) : DerpNode :=
  let v := toks val
  if tokEq js (toks key) "RegionID" && v.type = .primitive then
    { dn with regionId := tokNumber atoi 12 js v dn.regionId }
  else if tokEq js (toks key) "HostName" && v.type = .string then
    { dn with hostname := (tokCopy js v tlDerpHostnameLen).getD dn.hostname }
  else if tokEq js (toks key) "DERPPort" && v.type = .primitive then
    { dn with port := tokNumber (fun s => (atoi s % 65536).toNat) 8 js v dn.port }
  else if tokEq js (toks key) "IPv4" && v.type = .string then
    { dn with ipv4 := (tlIpv4Parse (tokText js v)).elim [0, 0, 0, 0] Vector.toList }
  else if tokEq js (toks key) "STUNPort" && v.type = .primitive then
    { dn with stunPort := tlStunPortParse (tokText js v) }
  else dn

/-- `parse_one_derp_region` at one element of `Nodes`. -/
def addDerpNode (js : Bytes) (toks : JsmnTable) (r : RegionSlots) (i : ℕ) : RegionSlots :=
  if (toks i).type = .object && r.nNodes < tlMaxDerpNodes then
    let dn := { r.slots.getD r.nNodes DerpNode.zero with stunPort := tlStunDefaultPort }
    { r with
      nNodes := r.nNodes + 1
      slots := r.slots.set r.nNodes (walkMembers toks (derpNodeMember js toks) i dn) }
  else r

/-- `parse_one_derp_region` at one member. -/
def regionMember (js : Bytes) (toks : JsmnTable) (r : RegionSlots) (key val : ℕ) : RegionSlots :=
  let v := toks val
  if tokEq js (toks key) "RegionID" && v.type = .primitive then
    { r with regionId := tokNumber atoi 12 js v r.regionId }
  else if tokEq js (toks key) "Nodes" && v.type = .array then
    walkElements toks (addDerpNode js toks) val { r with nNodes := 0 }
  else r

def parseOneDerpRegion (js : Bytes) (toks : JsmnTable) : DerpRegion :=
  let r := walkMembers toks (regionMember js toks) 0 RegionSlots.zero
  ⟨r.regionId, r.slots.take r.nNodes⟩

def PeerPatch.zero : PeerPatch := ⟨0, false, zeroKey, false, zeroKey, false, [], 0⟩

/-- `parse_one_patch` at one member. -/
def patchMember (js : Bytes) (toks : JsmnTable) (pc : PeerPatch) (key val : ℕ) : PeerPatch :=
  let v := toks val
  if tokEq js (toks key) "NodeID" && v.type = .primitive then
    { pc with id := tokNumber strtoull 24 js v pc.id }
  else if tokEq js (toks key) "DERPRegion" && v.type = .primitive then
    { pc with derpRegion := tokNumber atoi 12 js v pc.derpRegion }
  else if tokEq js (toks key) "Endpoints" && v.type = .array then
    { pc with endpoints := parsePeerEndpoints js toks val, hasEndpoints := true }
  else if tokEq js (toks key) "Key" && v.type = .string then
    let k := parseKeyedHex (tokText js v) "nodekey:"
    { pc with hasKey := k.isSome, nodePub := k.getD pc.nodePub }
  else if tokEq js (toks key) "DiscoKey" && v.type = .string then
    let k := parseKeyedHex (tokText js v) "discokey:"
    { pc with hasDisco := k.isSome, discoPub := k.getD pc.discoPub }
  else pc

def parseOnePatch (js : Bytes) (toks : JsmnTable) : PeerPatch :=
  walkMembers toks (patchMember js toks) 0 PeerPatch.zero

/-- What a value is collected for: `MV_NODE` and the following ones. -/
inductive MapAct
  | node
  | peer
  | removed
  | patch
  | region
deriving DecidableEq

/-- What the parsers write to; `handed` records which values they were given. -/
structure MapOut where
  nm : Netmap
  toks : JsmnTable
  tokPeak : ℕ
  handed : List (MapAct × Bytes)

def subMaxTokens : ℕ := 640

def subParse (js : Bytes) (o : MapOut) : Option ℕ × MapOut :=
  let (r, toks) := jsmnParse subMaxTokens js o.toks
  match r with
  | .error _ => (none, { o with toks := toks })
  | .ok n =>
    let o := { o with toks := toks, tokPeak := max o.tokPeak n }
    if n ≥ 1 && !jsmnTreeOk toks n then (none, o) else (some n, o)

/-- An element parser that was given `v`: `parsed` for an object, `refused` for anything else. -/
def onObject (v : Bytes) (o : MapOut) (parsed : JsmnTable → Netmap → Netmap) (refused : Netmap → Netmap) :
    MapOut :=
  let (n, o) := subParse v o
  if n.any (1 ≤ ·) && (o.toks 0).type = .object then { o with nm := parsed o.toks o.nm }
  else { o with nm := refused o.nm }

def elemNode (v : Bytes) (o : MapOut) : MapOut := onObject v o (parseNodeObj v) id

def elemPeer (v : Bytes) (o : MapOut) : MapOut :=
  onObject v o (fun toks nm => { nm with peers := nm.peers ++ [parseOnePeer v toks] }) id

/-- `DERP_KEEP_REGION`, a choice of the configuration. -/
class MapConfig where
  derpKeepRegion : ℤ

def derpRegionWanted [MapConfig] (regionId : ℤ) : Bool :=
  regionId > 0 && regionId = MapConfig.derpKeepRegion

def elemRegion [MapConfig] (v : Bytes) (o : MapOut) : MapOut :=
  onObject v o
    (fun toks nm =>
      let r := parseOneDerpRegion v toks
      if derpRegionWanted r.regionId then { nm with derpRegions := nm.derpRegions ++ [r] } else nm)
    id

def removedLim : ℕ := 23

def elemRemoved (v : Bytes) (o : MapOut) : MapOut :=
  if v.length = 0 || v.length > removedLim || !(v.head?.any isDigit) then o
  else { o with nm := { o.nm with removedIds := o.nm.removedIds ++ [strtoull v] } }

/-- A second entry of `elem_patch` for a NodeID, folded into the first. -/
def foldPatch (d pc : PeerPatch) : PeerPatch :=
  { d with
    hasKey := d.hasKey || pc.hasKey
    nodePub := if pc.hasKey then pc.nodePub else d.nodePub
    hasDisco := d.hasDisco || pc.hasDisco
    discoPub := if pc.hasDisco then pc.discoPub else d.discoPub
    hasEndpoints := d.hasEndpoints || pc.hasEndpoints
    endpoints := if pc.hasEndpoints then pc.endpoints else d.endpoints
    derpRegion := if pc.derpRegion ≠ 0 then pc.derpRegion else d.derpRegion }

def PeerPatch.relevant (pc : PeerPatch) : Bool :=
  pc.id ≠ 0 && (pc.hasKey || pc.hasDisco || pc.hasEndpoints || pc.derpRegion ≠ 0)

def addPatch (pc : PeerPatch) (nm : Netmap) : Netmap :=
  if !pc.relevant then nm
  else
    match nm.patches.findIdx? fun d => d.id = pc.id with
    | some j => { nm with patches := nm.patches.modify j fun d => foldPatch d pc }
    | none =>
      if nm.patches.length ≥ tlMaxPeerPatches then { nm with patchesOverflow := true }
      else { nm with patches := nm.patches ++ [pc] }

def elemPatch (v : Bytes) (o : MapOut) : MapOut :=
  onObject v o (fun toks => addPatch (parseOnePatch v toks))
    fun nm => { nm with patchesOverflow := true }

/-- The patch that `elem_patch` finds in a text; `none` if it is not an object. -/
def patchOf (v : Bytes) : Option PeerPatch :=
  let (n, o) := subParse v ⟨.cleared, fun _ => ⟨.undefined, 0, 0, 0⟩, 0, []⟩
  if n.any (1 ≤ ·) && (o.toks 0).type = .object then some (parseOnePatch v o.toks) else none

def elemParse [MapConfig] (act : MapAct) (v : Bytes) (o : MapOut) : MapOut :=
  let o := { o with handed := o.handed ++ [(act, v)] }
  match act with
  | .node => elemNode v o
  | .peer => elemPeer v o
  | .removed => elemRemoved v o
  | .patch => elemPatch v o
  | .region => elemRegion v o

end TinyLink
