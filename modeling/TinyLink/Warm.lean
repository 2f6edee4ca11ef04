import TinyLink.Disco
import TinyLink.Netmap

/-!
# Warm start

Embedding of `tl_warm.h` and of the address literals of `tl_addr.h`. A C string is a byte list up to
its first NUL; an array with its count is a list; a set of diff bits is a structure of booleans.
-/

namespace TinyLink
open ByteOrder

abbrev Ipv4 := Vector UInt8 4

def isDigit (c : UInt8) : Bool := 48 ≤ c && c ≤ 57

def decValue (s : Bytes) : ℕ := s.foldl (fun v c => v * 10 + (c.toNat - 48)) 0

/-- One field of `tl_ipv4_parse`: up to three digits, and what follows. -/
def ipv4Field (s : Bytes) : Option (ℕ × Bytes) :=
  let ds := (s.take 3).takeWhile isDigit
  let rest := s.drop ds.length
  if ds = [] || decValue ds > 255 || (ds.length > 1 && ds.head? = some 48) then none
  else if rest.head?.any isDigit then none
  else some (decValue ds, rest)

def ipv4Dot : Bytes → Option Bytes
  | 46 :: s => some s
  | _ => none

def tlIpv4Parse (s : Bytes) : Option Ipv4 := do
  let (a, s) ← ipv4Field s
  let (b, s) ← ipv4Field (← ipv4Dot s)
  let (c, s) ← ipv4Field (← ipv4Dot s)
  let (d, s) ← ipv4Field (← ipv4Dot s)
  if s = [] then some #v[UInt8.ofNat a, UInt8.ofNat b, UInt8.ofNat c, UInt8.ofNat d] else none

def ipv4Of (a b c d : UInt8) : Ipv4 := #v[a, b, c, d]

def tlIpv4Usable (ip : Ipv4) : Bool := ip[0] ≠ 0 && ip[0] ≠ 127 && ip[0] < 224

def tlCidrStrlen : ℕ := 24
def tlEndpointStrlen : ℕ := 32
def tlWarmRecV1 : UInt8 := 1
def tlWarmTagLen : ℕ := 8
def tlWarmHdr : ℕ := 97
def tlWarmCidrLen : ℕ := 5
def tlWarmEpLen : ℕ := 6
def tlWarmBlobMin : ℕ := tlWarmHdr + tlWarmCidrLen + tlWarmEpLen
def tlWarmBlobMax : ℕ :=
  tlWarmHdr + tlWarmCidrLen * 2 * tlMaxPeerAddresses + tlWarmEpLen * tlMaxPeerEndpoints

structure WarmCidr where
  ip : Ipv4
  bits : UInt8
deriving DecidableEq

structure WarmEp where
  ip : Ipv4
  port : UInt16
deriving DecidableEq

structure WarmPeer where
  id : ℕ
  nodePub : Key
  discoPub : Key
  hasDisco : Bool
  addr : List WarmCidr
  ep : List WarmEp
deriving DecidableEq

abbrev WarmTag := Vector UInt8 tlWarmTagLen

structure WarmRec where
  written : ℕ
  selfTag : WarmTag
  ctlTag : WarmTag
  self : List WarmCidr
  peer : WarmPeer
deriving DecidableEq

def cString (s : Bytes) : Bytes := s.takeWhile (· ≠ 0)

def tlWarmDec (s : Bytes) (max : ℕ) : Option ℕ :=
  if s = [] || s.length > 5 || (s.length > 1 && s.head? = some 48) then none
  else if !s.all isDigit || decValue s > max then none
  else some (decValue s)

def splitAtByte (c : UInt8) (s : Bytes) : Option (Bytes × Bytes) :=
  match s.dropWhile (· ≠ c) with
  | [] => none
  | _ :: t => some (s.takeWhile (· ≠ c), t)

def tlWarmCidrParse (str : Bytes) : Option WarmCidr := do
  let s := cString str
  if s.length ≥ tlCidrStrlen then none
  else
    let (host, bits) ← splitAtByte 47 s
    let ip ← tlIpv4Parse host
    if !tlIpv4Usable ip then none
    else
      let p ← tlWarmDec bits 32
      some ⟨ip, UInt8.ofNat p⟩

def tlWarmEpParse (str : Bytes) : Option WarmEp := do
  let s := cString str
  if s.length ≥ tlEndpointStrlen then none
  else
    let (host, port) ← splitAtByte 58 s
    let ip ← tlIpv4Parse host
    if !tlIpv4Usable ip then none
    else
      let p ← tlWarmDec port 65535
      if p = 0 then none else some ⟨ip, UInt16.ofNat p⟩

def decString (n : ℕ) : Bytes := (Nat.toDigits 10 n).map fun c => UInt8.ofNat c.toNat

def ipv4String (ip : Ipv4) : Bytes :=
  decString ip[0].toNat ++ 46 :: decString ip[1].toNat ++ 46 :: decString ip[2].toNat ++
    46 :: decString ip[3].toNat

def tlWarmCidrStr (c : WarmCidr) : Bytes := ipv4String c.ip ++ 47 :: decString c.bits.toNat

def tlWarmEpStr (e : WarmEp) : Bytes := ipv4String e.ip ++ 58 :: decString e.port.toNat

def tlWarmPeerFrom (p : Peer) : WarmPeer where
  id := p.id
  nodePub := p.nodePub
  discoPub := if p.hasDiscoPub then p.discoPub else zeroKey
  hasDisco := p.hasDiscoPub
  addr := (p.addresses.take tlMaxPeerAddresses).filterMap tlWarmCidrParse
  ep := (p.endpoints.take tlMaxPeerEndpoints).filterMap tlWarmEpParse

def tlWarmPeerTo (w : WarmPeer) : Peer where
  id := w.id
  nodePub := w.nodePub
  discoPub := if w.hasDisco then w.discoPub else zeroKey
  hasDiscoPub := w.hasDisco
  homeDerp := 0
  endpoints := w.ep.map tlWarmEpStr
  addresses := w.addr.map tlWarmCidrStr

def warmTag (k : Key) : WarmTag := k.extract 0 8

def tlWarmRecBuild (self : List Bytes) (peer : Peer) (selfPub ctlPub : Key) : WarmRec where
  written := 0
  selfTag := warmTag selfPub
  ctlTag := warmTag ctlPub
  self :=
    match self.head?.bind tlWarmCidrParse with
    | none => []
    | some c => c :: ((self.tail.take (tlMaxPeerAddresses - 1)).filterMap tlWarmCidrParse)
  peer := tlWarmPeerFrom peer

def tlWarmRecStorable (r : WarmRec) : Bool :=
  1 ≤ r.self.length && r.self.length ≤ tlMaxPeerAddresses &&
    1 ≤ r.peer.ep.length && r.peer.ep.length ≤ tlMaxPeerEndpoints &&
    r.peer.addr.length ≤ tlMaxPeerAddresses

def tlWarmRecFor (r : WarmRec) (selfPub ctlPub : Key) : Bool :=
  r.selfTag = warmTag selfPub && r.ctlTag = warmTag ctlPub

def tlWarmPutCidr (c : WarmCidr) : Bytes := c.ip.toList ++ [c.bits]

def warmPutEp (e : WarmEp) : Bytes := e.ip.toList ++ leBytes 2 e.port.toNat

def tlWarmEncode (r : WarmRec) (cap : ℕ) : Option Bytes :=
  if !tlWarmRecStorable r then none
  else if cap < tlWarmHdr + tlWarmCidrLen * (r.self.length + r.peer.addr.length) +
      tlWarmEpLen * r.peer.ep.length then none
  else
    some ([tlWarmRecV1] ++ leBytes 4 r.written ++ r.selfTag.toList ++ r.ctlTag.toList ++
      [UInt8.ofNat r.self.length, UInt8.ofNat r.peer.addr.length, UInt8.ofNat r.peer.ep.length,
        if r.peer.hasDisco then 1 else 0] ++
      leBytes 8 r.peer.id ++ r.peer.nodePub.toList ++
      (if r.peer.hasDisco then r.peer.discoPub else zeroKey).toList ++
      r.self.flatMap tlWarmPutCidr ++ r.peer.addr.flatMap tlWarmPutCidr ++
      r.peer.ep.flatMap warmPutEp)

def tlWarmGetCidr (b : Bytes) : Option WarmCidr :=
  let ip : Ipv4 := readVec 4 b
  if !tlIpv4Usable ip || b.getD 4 0 > 32 then none else some ⟨ip, b.getD 4 0⟩

def warmGetEp (b : Bytes) : Option WarmEp :=
  let ip : Ipv4 := readVec 4 b
  let port := UInt16.ofNat (leNat ((b.drop 4).take 2))
  if !tlIpv4Usable ip || port = 0 then none else some ⟨ip, port⟩

/-- The loops that read `n` entries of `size` bytes. -/
def warmGetAll {α : Type} (get : Bytes → Option α) (size : ℕ) : ℕ → Bytes → Option (List α)
  | 0, _ => some []
  | n + 1, b => do
    let a ← get b
    let l ← warmGetAll get size n (b.drop size)
    some (a :: l)

def tlWarmDecode (b : Bytes) : Option WarmRec :=
  let nSelf := (b.getD 21 0).toNat
  let nAddr := (b.getD 22 0).toNat
  let nEp := (b.getD 23 0).toNat
  let hasDisco := b.getD 24 0 = 1
  let disco : Key := readVec 32 (b.drop 65)
  if b.length < tlWarmBlobMin || b.length > tlWarmBlobMax || b.getD 0 0 ≠ tlWarmRecV1 then none
  else if nSelf < 1 || nSelf > tlMaxPeerAddresses || nAddr > tlMaxPeerAddresses || nEp < 1 ||
      nEp > tlMaxPeerEndpoints || b.getD 24 0 > 1 ||
      b.length ≠ tlWarmHdr + tlWarmCidrLen * (nSelf + nAddr) + tlWarmEpLen * nEp then none
  else if !hasDisco && disco ≠ zeroKey then none
  else do
    let p := b.drop tlWarmHdr
    let self ← warmGetAll tlWarmGetCidr tlWarmCidrLen nSelf p
    let p := p.drop (tlWarmCidrLen * nSelf)
    let addr ← warmGetAll tlWarmGetCidr tlWarmCidrLen nAddr p
    let ep ← warmGetAll warmGetEp tlWarmEpLen nEp (p.drop (tlWarmCidrLen * nAddr))
    some
      { written := leNat ((b.drop 1).take 4)
        selfTag := readVec 8 (b.drop 5)
        ctlTag := readVec 8 (b.drop 13)
        self
        peer :=
          { id := leNat ((b.drop 25).take 8)
            nodePub := readVec 32 (b.drop 33)
            discoPub := disco
            hasDisco
            addr
            ep } }

structure WarmDiff where
  peer : Bool
  key : Bool
  disco : Bool
  ep : Bool
  addr : Bool
  self0 : Bool
  self : Bool
  ident : Bool
deriving DecidableEq

def WarmDiff.none : WarmDiff := ⟨false, false, false, false, false, false, false, false⟩

def WarmDiff.restart (d : WarmDiff) : Bool := d.peer || d.self0 || d.ident

def WarmDiff.hard (d : WarmDiff) : Bool :=
  d.peer || d.key || d.addr || d.self0 || d.self || d.ident

def tlWarmSamePeer (a b : WarmPeer) : Bool :=
  if a.id ≠ 0 then a.id = b.id else a.nodePub = b.nodePub

def warmDiffers {α : Type} [DecidableEq α] (as bs : List α) : Bool :=
  (as.zip bs).any fun x => x.1 ≠ x.2

def tlWarmDiff (was now : WarmRec) : WarmDiff :=
  let self0 := decide (was.self.head? ≠ now.self.head?)
  let a := was.peer
  let b := now.peer
  { ident := was.selfTag ≠ now.selfTag || was.ctlTag ≠ now.ctlTag
    self0
    self := self0 || was.self.length ≠ now.self.length ||
      warmDiffers was.self.tail now.self.tail
    peer := !tlWarmSamePeer a b
    key := a.nodePub ≠ b.nodePub
    disco := a.hasDisco ≠ b.hasDisco || (a.hasDisco && a.discoPub ≠ b.discoPub)
    addr := a.addr.length ≠ b.addr.length || warmDiffers a.addr b.addr
    ep := a.ep.length ≠ b.ep.length || warmDiffers a.ep b.ep }

def tlWarmSoftMinUs : ℤ := 3600 * 1000000

/-- `tl_warm_store_due`; without a stored record every bit is set. -/
def tlWarmStoreDue (diff : WarmDiff) (stored wrote : Bool) (nowUs lastUs : ℤ) : Bool :=
  if !stored then true
  else if diff = .none then false
  else if diff.hard then true
  else !wrote || nowUs - lastUs ≥ tlWarmSoftMinUs

structure WarmNvs where
  valid : Bool
  wrote : Bool
  lastUs : ℤ
  record : WarmRec
deriving DecidableEq

def tlWarmRefreshS : ℕ := 86400

def tlWarmRefreshDue (written nowUnix : ℕ) (fresh : Bool) : Bool :=
  fresh && nowUnix ≠ 0 &&
    (written = 0 || (nowUnix ≥ written && nowUnix - written ≥ tlWarmRefreshS))

inductive StoreRc
  | nothing
  | written
  | failed
deriving DecidableEq

/-- `tl_warm_store`; `writeOk` is the outcome of the write. -/
def tlWarmStore (m : WarmNvs) (next : WarmRec) (nowUnix : ℕ) (nowUs : ℤ) (fresh writeOk : Bool) :
    WarmNvs × StoreRc :=
  if !tlWarmRecStorable next then (m, .failed)
  else
    let d := tlWarmDiff m.record next
    if !tlWarmStoreDue d m.valid m.wrote nowUs m.lastUs &&
        !(m.valid && d = .none && tlWarmRefreshDue m.record.written nowUnix fresh) then (m, .nothing)
    else
      let r := { next with written := nowUnix }
      match tlWarmEncode r tlWarmBlobMax with
      | none => (m, .failed)
      | some _ => (⟨true, true, nowUs, r⟩, if writeOk then .written else .failed)

def tlWarmBoundDue (nowS sinceS maxS : ℕ) : Bool := nowS ≥ sinceS && nowS - sinceS ≥ maxS

def tlWarmMaxAgeS : ℕ := 30 * 86400

def tlWarmTooOld (nowUnix : ℤ) (written : ℕ) : Bool :=
  written ≠ 0 && nowUnix > written && nowUnix - written > tlWarmMaxAgeS

def tlWarmIpv4Public (ip : Ipv4) : Bool :=
  !(ip[0] = 10 || ip[0] = 127 || ip[0] = 0 || ip[0] ≥ 224) &&
    !(ip[0] = 172 && ip[1] &&& 0xF0 = 16) && !(ip[0] = 192 && ip[1] = 168) &&
    !(ip[0] = 169 && ip[1] = 254)

/-- `tl_warm_peer_reachable`; `our` is the STUN address. -/
def tlWarmPeerReachable (p : Peer) (our : Option Ipv4) : Bool :=
  (p.endpoints.take tlMaxPeerEndpoints).any fun s =>
    match tlWarmEpParse s with
    | none => false
    | some e => tlWarmIpv4Public e.ip && our ≠ some e.ip

/-- `tl_warm_target_index`: the index, and whether the peer qualified. -/
def tlWarmTargetIndex (peers : List Peer) (our : Option Ipv4) : ℕ × Bool :=
  match peers.findIdx? (tlWarmPeerReachable · our) with
  | some i => (i, true)
  | none => (0, false)

def tlWarmRtcMagic : ℕ := 0x544C5732
def tlWarmRtcMaxCrashes : ℕ := 2
def tlWarmRstPoweron : ℕ := 1
def tlWarmRstSw : ℕ := 3

structure WarmRtc where
  magic : ℕ
  attempt : ℕ
  skip : ℕ
  crashes : ℕ
  pad : ℕ
  check : ℕ
deriving DecidableEq

/-- `tl_warm_rtc_sum`: FNV-1a over the bytes before the check. -/
def tlWarmRtcSum (r : WarmRtc) : ℕ :=
  (leBytes 4 r.magic ++ [r.attempt, r.skip, r.crashes, r.pad].map UInt8.ofNat).foldl
    (fun h b => (h ^^^ b.toNat) * 16777619 % 2 ^ 32) 2166136261

def tlWarmRtcSeal (r : WarmRtc) : WarmRtc :=
  let r := { r with magic := tlWarmRtcMagic }
  { r with check := tlWarmRtcSum r }

inductive RtcVerdict
  | clean
  | restarted
  | crashed
  | off
deriving DecidableEq

def WarmRtc.zero : WarmRtc := tlWarmRtcSeal ⟨0, 0, 0, 0, 0, 0⟩

def WarmRtc.intact (r : WarmRtc) : Bool :=
  r.magic = tlWarmRtcMagic && r.check = tlWarmRtcSum r && r.attempt ≤ 1 && r.skip ≤ 1 &&
    r.crashes ≤ tlWarmRtcMaxCrashes && r.pad = 0

def WarmRtc.counted (r : WarmRtc) : ℕ :=
  if r.crashes < tlWarmRtcMaxCrashes then r.crashes + 1 else r.crashes

/-- `tl_warm_rtc_boot`: the record, the verdict and `*erase`. -/
def tlWarmRtcBoot (r : WarmRtc) (resetReason : ℕ) : WarmRtc × RtcVerdict × Bool :=
  if resetReason = tlWarmRstPoweron || !r.intact then (.zero, .clean, false)
  else
    let crash := r.attempt ≠ 0 && resetReason ≠ tlWarmRstSw
    let r' := tlWarmRtcSeal
      { r with crashes := if crash then r.counted else r.crashes, attempt := 0, skip := 0 }
    let verdict :=
      if r'.crashes ≥ tlWarmRtcMaxCrashes then .off
      else if crash then .crashed
      else if r.skip ≠ 0 then .restarted else .clean
    (r', verdict, crash)

def tlWarmRtcRestart (r : WarmRtc) : WarmRtc := tlWarmRtcSeal { r with attempt := 0, skip := 1 }

def tlWarmRtcHung (r : WarmRtc) : WarmRtc := tlWarmRtcRestart { r with crashes := r.counted }

/-- What the read of the record gives: a blob, none, or one too long. -/
inductive WarmRead
  | blob (b : Bytes)
  | absent
  | tooLong
deriving DecidableEq

inductive WarmLoad
  | absent
  | ok
  | bad
  | erased
  | eraseFailed
deriving DecidableEq

def WarmRec.zero : WarmRec := ⟨0, .replicate _ 0, .replicate _ 0, [], ⟨0, zeroKey, zeroKey, false, [], []⟩⟩

def WarmNvs.empty : WarmNvs := ⟨false, false, 0, .zero⟩

structure WarmLoaded where
  rtc : WarmRtc
  verdict : RtcVerdict
  nvs : WarmNvs
  load : WarmLoad

/-- `tl_warm_load`; `eraseOk` and `read` are the outcomes of the calls into NVS. -/
def tlWarmLoad (rtc : WarmRtc) (resetReason : ℕ) (eraseOk : Bool) (read : WarmRead) : WarmLoaded :=
  let b := tlWarmRtcBoot rtc resetReason
  let out := WarmLoaded.mk b.1 b.2.1
  if b.2.2 then out .empty (if eraseOk then .erased else .eraseFailed)
  else
    match read with
    | .absent => out .empty .absent
    | .tooLong => out .empty .bad
    | .blob blob =>
      match tlWarmDecode blob with
      | none => out .empty .bad
      | some r => out { WarmNvs.empty with valid := true, record := r } .ok

inductive WarmGo
  | go
  | noRecord
  | skipCrash
  | skipOff
  | skipRestart
  | otherKeys
  | stale
  | neededAuth
  | lowHeap
deriving DecidableEq

structure WarmGoIn where
  rtc : RtcVerdict
  haveRec : Bool
  keysOk : Bool
  regReused : Bool
  heapOk : Bool
  nowUnix : ℤ
  written : ℕ

def tlWarmGo (i : WarmGoIn) : WarmGo :=
  if i.rtc = .crashed then .skipCrash
  else if i.rtc = .off then .skipOff
  else if !i.haveRec then .noRecord
  else if i.rtc = .restarted then .skipRestart
  else if !i.keysOk then .otherKeys
  else if tlWarmTooOld i.nowUnix i.written then .stale
  else if !i.regReused then .neededAuth
  else if !i.heapOk then .lowHeap
  else .go

inductive WarmSt
  | off
  | pending
  | confirmed
deriving DecidableEq

structure WarmSm where
  state : WarmSt
  seeded : Bool
  restart : Bool
  boundFired : Bool
  unsettled : Bool
  pendingS : ℕ
  written : ℕ
deriving DecidableEq

def WarmSm.zero : WarmSm := ⟨.off, false, false, false, false, 0, 0⟩

/-- `tl_warm_tables_t`: our addresses and the peers, as the data plane takes them. -/
structure WarmTables where
  self : List Bytes
  peers : List Peer
deriving DecidableEq

def WarmTables.empty : WarmTables := ⟨[], []⟩

def tlWarmSmBegin (rtc : WarmRtc) : WarmSm × WarmRtc :=
  ({ WarmSm.zero with seeded := true }, tlWarmRtcSeal { rtc with attempt := 1 })

def tlWarmSeed (r : WarmRec) : WarmTables := ⟨r.self.map tlWarmCidrStr, [tlWarmPeerTo r.peer]⟩

def tlWarmSmStarted (sm : WarmSm) (rtc : WarmRtc) (t : WarmTables) (ok : Bool)
    (nowS written : ℕ) : WarmSm × WarmRtc × WarmTables :=
  if !ok then
    ({ sm with state := .off, seeded := false }, tlWarmRtcSeal { rtc with attempt := 0 }, .empty)
  else ({ sm with state := .pending, pendingS := (nowS + 1) % 2 ^ 32, written }, rtc, t)

def tlWarmSmFrame (sm : WarmSm) (t : WarmTables) : WarmSm × WarmTables × Bool :=
  if sm.seeded then ({ sm with seeded := false }, .empty, sm.state = .pending)
  else (sm, t, sm.state = .pending)

inductive WarmAct
  | cold
  | wait
  | confirm
  | restart
  | late
deriving DecidableEq

/-- Why a session restarts: the diff bits and the `TL_WARM_WHY_*`. -/
structure WarmWhy where
  diff : WarmDiff
  expired : Bool
  empty : Bool
deriving DecidableEq

def WarmWhy.none : WarmWhy := ⟨.none, false, false⟩

structure WarmNm where
  expired : Bool
  haveSelf : Bool
  self0Moved : Bool
  now : Option WarmRec

def WarmSm.restarts (sm : WarmSm) (why : WarmWhy) : WarmSm × WarmAct × WarmWhy :=
  ({ sm with restart := true, pendingS := 0 }, .restart, why)

def tlWarmSmNetmap (sm : WarmSm) (was : WarmRec) (i : WarmNm) : WarmSm × WarmAct × WarmWhy :=
  if sm.state ≠ .pending then (sm, .cold, .none)
  else if sm.boundFired then (sm, .late, .none)
  else if i.expired then sm.restarts { WarmWhy.none with expired := true }
  else if i.self0Moved then
    sm.restarts { WarmWhy.none with diff := { WarmDiff.none with self0 := true, self := true } }
  else
    match i.now with
    | none =>
      if !i.haveSelf then (sm, .wait, .none)
      else sm.restarts { WarmWhy.none with empty := true }
    | some now =>
      let why := { WarmWhy.none with diff := tlWarmDiff was now }
      if !why.diff.restart then
        ({ sm with state := .confirmed, pendingS := 0, unsettled := true }, .confirm, why)
      else sm.restarts why

/-- What a poll reports: nothing, `TL_WARM_BOUND_*` or `TL_WARM_POLL_NETMAP`. -/
inductive WarmPoll
  | nothing
  | boundTime
  | boundAge
  | netmap
deriving DecidableEq

structure WarmClock where
  nowS : ℕ
  synced : Bool
  nowUnix : ℤ

def tlWarmSmBound (sm : WarmSm) (maxS : ℕ) (c : WarmClock) : WarmSm × WarmPoll :=
  if sm.state ≠ .pending || sm.pendingS = 0 || sm.boundFired then (sm, .nothing)
  else if tlWarmBoundDue c.nowS (sm.pendingS - 1) maxS then
    ({ sm with boundFired := true, pendingS := 0 }, .boundTime)
  else if c.synced && tlWarmTooOld c.nowUnix sm.written then
    ({ sm with boundFired := true, pendingS := 0 }, .boundAge)
  else (sm, .nothing)

def tlWarmSmPoll (sm : WarmSm) (longPoll : Bool) (maxS : ℕ) (c : WarmClock) : WarmSm × WarmPoll :=
  if longPoll && sm.restart then (sm, .netmap) else tlWarmSmBound sm maxS c

def tlWarmSmCold (sm : WarmSm) : WarmSm :=
  if sm.state = .off then { sm with state := .confirmed } else sm

def tlWarmSmSeen (sm : WarmSm) : Bool := sm.state = .confirmed

def tlWarmFreshS : ℕ := 600

def tlWarmSmFresh (sm : WarmSm) (nowS controlRxS : ℕ) : Bool :=
  tlWarmSmSeen sm && (nowS ≤ controlRxS || nowS - controlRxS < tlWarmFreshS)

def tlWarmSmSettle (sm : WarmSm) (rtc : WarmRtc) (rc : StoreRc) : WarmSm × WarmRtc × Bool :=
  if sm.state ≠ .confirmed || !sm.unsettled || rc = .failed then (sm, rtc, false)
  else ({ sm with unsettled := false }, tlWarmRtcSeal { rtc with attempt := 0, crashes := 0 }, true)

end TinyLink
