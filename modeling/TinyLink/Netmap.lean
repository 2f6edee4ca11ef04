import TinyLink.Crypto
import TinyLink.Library.KeyedTable

/-!
# The netmap and the peer table

Embedding of `netmap.h` and of `merge_peers` of `tinylink.c`, which applies one MapResponse frame to
the table of peers. An array with its count is a list.
-/

namespace TinyLink

def tlMaxPeers : ℕ := 4
def tlMaxPeersRemoved : ℕ := 8
def tlMaxPeerPatches : ℕ := 4
def tlMaxPeerEndpoints : ℕ := 4
def tlMaxPeerAddresses : ℕ := 2
def tlMaxDerpRegions : ℕ := 1
def tlMaxDerpNodes : ℕ := 3

structure Peer where
  id : ℕ
  nodePub : Key
  discoPub : Key
  hasDiscoPub : Bool
  homeDerp : ℤ
  endpoints : List Bytes
  addresses : List Bytes
deriving DecidableEq

structure PeerPatch where
  id : ℕ
  hasKey : Bool
  nodePub : Key
  hasDisco : Bool
  discoPub : Key
  hasEndpoints : Bool
  endpoints : List Bytes
  derpRegion : ℤ
deriving DecidableEq

structure DerpNode where
  regionId : ℤ
  hostname : Bytes
  port : ℕ
  stunPort : ℕ
  ipv4 : Bytes
deriving DecidableEq

structure DerpRegion where
  regionId : ℤ
  nodes : List DerpNode
deriving DecidableEq

structure Netmap where
  selfId : ℕ
  selfAddresses : List Bytes
  selfExpired : Bool
  selfKeyExpiry : ℤ
  peers : List Peer
  peersIsDelta : Bool
  removedIds : List ℕ
  removedOverflow : Bool
  patches : List PeerPatch
  patchesOverflow : Bool
  derpRegions : List DerpRegion
  haveSelf : Bool
  haveDerpMap : Bool
deriving DecidableEq

def Netmap.cleared : Netmap :=
  ⟨0, [], false, 0, [], false, [], false, [], false, [], false, false⟩

/-- `peer_index`; a NULL key is `none`. -/
def peerIndex (t : List Peer) (id : ℕ) (nodePub : Option Key) : Option ℕ :=
  t.findIdx? fun p => if id ≠ 0 then p.id = id else nodePub = some p.nodePub

abbrev Merging := List Peer × Bool

def removePeer (m : Merging) (id : ℕ) : Merging :=
  if id = 0 then m
  else
    match peerIndex m.1 id none with
    | none => m
    | some j => (m.1.eraseIdx j, true)

def upsertPeer (m : Merging) (p : Peer) : Merging :=
  match peerIndex m.1 p.id (some p.nodePub) with
  | none => if m.1.length ≥ tlMaxPeers then m else (m.1 ++ [p], true)
  | some j => (m.1.set j p, true)

def patchKey (pc : PeerPatch) (r : Peer × Bool) : Peer × Bool :=
  if pc.hasKey && r.1.nodePub ≠ pc.nodePub then ({ r.1 with nodePub := pc.nodePub }, true) else r

def patchDisco (pc : PeerPatch) (r : Peer × Bool) : Peer × Bool :=
  if pc.hasDisco && (!r.1.hasDiscoPub || r.1.discoPub ≠ pc.discoPub) then
    ({ r.1 with discoPub := pc.discoPub, hasDiscoPub := true }, true)
  else r

def patchEndpoints (pc : PeerPatch) (r : Peer × Bool) : Peer × Bool :=
  if pc.hasEndpoints && r.1.endpoints ≠ pc.endpoints then
    ({ r.1 with endpoints := pc.endpoints }, true)
  else r

def patchDerp (pc : PeerPatch) (r : Peer × Bool) : Peer × Bool :=
  if pc.derpRegion ≠ 0 && r.1.homeDerp ≠ pc.derpRegion then
    ({ r.1 with homeDerp := pc.derpRegion }, true)
  else r

def patchPeer (m : Merging) (pc : PeerPatch) : Merging :=
  match peerIndex m.1 pc.id none with
  | none => m
  | some j =>
    match m.1[j]? with
    | none => m
    | some p =>
      let r := patchDerp pc (patchEndpoints pc (patchDisco pc (patchKey pc (p, m.2))))
      (m.1.set j r.1, r.2)

def mergePeers (t : List Peer) (nm : Netmap) : Merging :=
  if nm.peers ≠ [] && !nm.peersIsDelta then (nm.peers.take tlMaxPeers, true)
  else
    let m := nm.removedIds.foldl removePeer (t, false)
    let m := nm.peers.foldl upsertPeer m
    nm.patches.foldl patchPeer m

/-- A table of peers: distinct NodeIDs, none of them zero, and no more peers than there is room. -/
structure PeerTable where
  peers : List Peer
  distinct : KeyedTable.Distinct Peer.id peers
  nonzero : ∀ p ∈ peers, p.id ≠ 0
  room : peers.length ≤ tlMaxPeers

/-- A frame without a full peer list, whose changed peers have NodeIDs. -/
structure PeerDelta where
  nm : Netmap
  delta : nm.peers = [] ∨ nm.peersIsDelta = true
  nonzero : ∀ p ∈ nm.peers, p.id ≠ 0

abbrev PeerMap := Finmap fun _ : ℕ => Peer

def PeerTable.toMap (t : PeerTable) : PeerMap := KeyedTable.toMap Peer.id t.peers

/-- Inserted or replaced; a new NodeID needs room. -/
def PeerMap.upsert (m : PeerMap) (p : Peer) : PeerMap :=
  if p.id ∈ m ∨ m.keys.card < tlMaxPeers then m.insert p.id p else m

def Peer.patched (p : Peer) (pc : PeerPatch) : Peer :=
  { p with
    nodePub := if pc.hasKey then pc.nodePub else p.nodePub
    discoPub := if pc.hasDisco then pc.discoPub else p.discoPub
    hasDiscoPub := p.hasDiscoPub || pc.hasDisco
    endpoints := if pc.hasEndpoints then pc.endpoints else p.endpoints
    homeDerp := if pc.derpRegion ≠ 0 then pc.derpRegion else p.homeDerp }

def applyPatch (t : List Peer) (pc : PeerPatch) : List Peer :=
  t.map fun p => if pc.id ≠ 0 ∧ p.id = pc.id then p.patched pc else p

def PeerMap.patch (m : PeerMap) (pc : PeerPatch) : PeerMap :=
  match m.lookup pc.id with
  | none => m
  | some p => m.insert pc.id (p.patched pc)

def PeerMap.merge (m : PeerMap) (d : PeerDelta) : PeerMap :=
  d.nm.patches.foldl PeerMap.patch (d.nm.peers.foldl PeerMap.upsert
    (d.nm.removedIds.foldl (fun m id => m.erase id) m))

/-- The same for a map that is never full. -/
def PeerMap.mergeAll (m : PeerMap) (d : PeerDelta) : PeerMap :=
  d.nm.patches.foldl PeerMap.patch (d.nm.peers.foldl (fun m p => m.insert p.id p)
    (d.nm.removedIds.foldl (fun m id => m.erase id) m))

/-- The changed peers that find the table full. -/
def droppedPeers (m : Merging) : List Peer → List Peer
  | [] => []
  | p :: ps =>
    if peerIndex m.1 p.id (some p.nodePub) = none ∧ m.1.length ≥ tlMaxPeers then
      p :: droppedPeers (upsertPeer m p) ps
    else droppedPeers (upsertPeer m p) ps

def PeerDelta.dropped (d : PeerDelta) (t : List Peer) : List Peer :=
  droppedPeers (d.nm.removedIds.foldl removePeer (t, false)) d.nm.peers

end TinyLink
