import TinyLink.MapElements

/-!
# The endpoint to dial

Embedding of `parse_endpoint`, `ipv4_is_public` and `pick_peer_endpoint` of `wg_dataplane.c`.
`inet_pton` accepts exactly dotted quads.
-/

namespace TinyLink

def candHostLen : ℕ := 64

def parseEndpoint (ep : Bytes) (hostSize : ℕ) : Option (Bytes × ℤ) := do
  let (host, rest) ← splitAtByte 58 (cString ep)
  if host.length + 1 > hostSize then none
  else
    let port := atoi rest
    if port ≤ 0 || port > 65535 then none else some (host, port)

def inetPton (host : Bytes) : Option Ipv4 := tlIpv4Parse host

def ipv4IsPublic (ip : Ipv4) : Bool :=
  if ip.get 0 = 10 then false
  else if ip.get 0 = 172 && ip.get 1 &&& 0xF0 = 16 then false
  else if ip.get 0 = 192 && ip.get 1 = 168 then false
  else if ip.get 0 = 127 then false
  else if ip.get 0 = 169 && ip.get 1 = 254 then false
  else if ip.get 0 = 0 then false
  else if ip.get 0 ≥ 224 then false
  else true

structure DialCand where
  host : Bytes
  port : ℤ
  ip : Ipv4
  isPublic : Bool
deriving DecidableEq

def DialCand.pair (c : DialCand) : Ipv4 × ℤ := (c.ip, c.port)

def dialCand (ep : Bytes) : Option DialCand := do
  let (host, port) ← parseEndpoint ep candHostLen
  let ip ← inetPton host
  some ⟨host, port, ip, ipv4IsPublic ip⟩

def dialCands (endpoints : List Bytes) : List (Option DialCand) :=
  (endpoints.take tlMaxPeerEndpoints).map dialCand

def sameNat (cands : List (Option DialCand)) (our : Option Ipv4) : Bool :=
  match our with
  | none => false
  | some a => cands.any fun c => c.any fun c => c.isPublic && c.ip = a

/-- `pick_peer_endpoint`: the candidate and its index; `our` is the STUN result. -/
def pickPeerEndpoint (endpoints : List Bytes) (hostSize : ℕ) (our : Option Ipv4) :
    Option (DialCand × ℕ) :=
  let cands := dialCands endpoints
  let firstParseable := cands.findIdx? (·.isSome)
  let firstPublic := cands.findIdx? (·.any (·.isPublic))
  let firstPrivate := cands.findIdx? (·.any (!·.isPublic))
  if firstParseable.isNone then none
  else
    let pick :=
      if sameNat cands our && firstPrivate.isSome then firstPrivate
      else if firstPublic.isSome then firstPublic
      else firstParseable
    if hostSize < candHostLen then none
    else do
      let i ← pick
      let c ← (cands[i]?).join
      some (c, i)

/-- The address and port that are dialled; both callers pass a buffer of 64 bytes. -/
def dialled (endpoints : List Bytes) (our : Option Ipv4) : Option (Ipv4 × ℤ) :=
  (pickPeerEndpoint endpoints candHostLen our).map fun r => r.1.pair

end TinyLink
