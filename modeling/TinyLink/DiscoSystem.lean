import TinyLink.DiscoProber

/-!
# DISCO with an attacker on the network

One node and its WireGuard peer, whose DiscoKey is known. Datagrams given to the node are arbitrary;
a box opens exactly if it was sealed under the key the two share, by whichever of them. Random nonces
and transaction ids are values that were not used before.
-/

namespace TinyLink
open StepSystem

inductive Party where
  | us
  | peer
deriving DecidableEq

structure BoxRecord where
  sealer : Party
  nonce : Bytes
  box : Bytes
  plaintext : Bytes
deriving DecidableEq

/-- The two public keys, and the box under the key the two parties share. -/
structure DiscoSetup where
  ourPub : Key
  peerPub : Key
  sealBox : Bytes → Bytes → Bytes

structure DiscoState where
  log : List BoxRecord
  prober : ProberTable

def openBox (log : List BoxRecord) (nonce box : Bytes) : Option Bytes :=
  (log.find? fun r => r.nonce = nonce ∧ r.box = box).map (·.plaintext)

def discoTxid (pt : Bytes) : Option Txid :=
  match discoParse pt with
  | some (.ping m) => some m.txid
  | some (.pong m) => some m.txid
  | _ => none

def pingTxid (pt : Bytes) : Option Txid :=
  match discoParse pt with
  | some (.ping m) => some m.txid
  | _ => none

def freshNonce (log : List BoxRecord) (nonce : Bytes) : Bool :=
  nonce.length = discoNonceLen ∧ ∀ r ∈ log, r.nonce ≠ nonce

def freshTxid (log : List BoxRecord) (txid : Txid) : Bool :=
  ∀ r ∈ log, discoTxid r.plaintext ≠ some txid

def ownPing (log : List BoxRecord) (txid : Txid) : Bool :=
  ∃ r ∈ log, r.sealer = .us ∧ pingTxid r.plaintext = some txid

/-- `ping` is `path_ping_build` and its copies in `tinylink.c`, `record` the `disco_prober_record`
that goes with it; `direct` is `handle_disco_direct`, `relayed` is `handle_disco_relayed`, with the
`nonce` of a pong. -/
inductive DiscoStep where
  | ping (m : DiscoPing) (nonce : Bytes)
  | record (txid : Txid) (dstV4Be : UInt32) (dstPort : UInt16) (nowUs : Int)
  | proberReset
  | peerSeals (nonce plaintext : Bytes)
  | direct (buf : Bytes) (srcV4Be : UInt32) (srcPort : UInt16) (nowUs : Int) (nonce : Bytes)
  | relayed (buf : Bytes) (nonce : Bytes)

/-- Behind the gate the sender in the header is the peer: the cached key and the derived one are the
same. -/
def DiscoSetup.handle (p : DiscoSetup) (log : List BoxRecord) (buf nonce : Bytes) :
    Option DiscoMsg × Option DiscoReply :=
  discoHandleRecv p.sealBox (openBox log) buf p.ourPub nonce

def DiscoSetup.sealed (p : DiscoSetup) (sealer : Party) (nonce plaintext : Bytes) : BoxRecord :=
  ⟨sealer, nonce, p.sealBox nonce plaintext, plaintext⟩

def DiscoSetup.logReply (p : DiscoSetup) (log : List BoxRecord) (nonce : Bytes) :
    Option DiscoReply → List BoxRecord
  | none => log
  | some reply => log ++ [p.sealed .us nonce reply.inner]

def discoStep (p : DiscoSetup) (σ : DiscoState) : DiscoStep → Option DiscoState
  | .ping m nonce =>
    if !freshNonce σ.log nonce || !freshTxid σ.log m.txid then none
    else
      match discoEncodePing discoHandlerReplyMax m with
      | none => none
      | some inner =>
        match discoSeal p.sealBox discoHandlerReplyMax inner nonce p.ourPub with
        | none => none
        | some _ => some { σ with log := σ.log ++ [p.sealed .us nonce inner] }
  | .record txid dstV4Be dstPort nowUs =>
    if !ownPing σ.log txid then none
    else some { σ with prober := discoProberRecord σ.prober txid dstV4Be dstPort nowUs }
  | .proberReset => some { σ with prober := discoProberInit }
  | .peerSeals nonce plaintext =>
    if !freshNonce σ.log nonce then none
    else some { σ with log := σ.log ++ [p.sealed .peer nonce plaintext] }
  | .direct buf srcV4Be srcPort nowUs nonce =>
    if !freshNonce σ.log nonce then none
    else if directGateDrops buf p.peerPub then some σ
    else
      match p.handle σ.log buf nonce with
      | (none, _) => some σ
      | (some (.ping _), reply) => some { σ with log := p.logReply σ.log nonce reply }
      | (some (.pong m), _) =>
        some { σ with prober := (discoProberTake σ.prober m.txid srcV4Be srcPort nowUs).2 }
      | (some (.callMeMaybe _), _) => some σ
  | .relayed buf nonce =>
    if !freshNonce σ.log nonce then none
    else if !discoLooksLike buf || relayGateDrops buf p.peerPub then some σ
    else
      match p.handle σ.log buf nonce with
      | (some (.ping _), reply) => some { σ with log := p.logReply σ.log nonce reply }
      | _ => some σ

def DiscoState.boot : DiscoState := ⟨[], discoProberInit⟩

abbrev DiscoRun (p : DiscoSetup) := Execution (· = DiscoState.boot) (discoStep p)

namespace DiscoRun

variable {p : DiscoSetup}

/-- Step `j` is a `handle_disco_direct` of `buf` that opens it, parses it as the pong `m` and
takes its ping from the prober. -/
def AcceptsPong (E : DiscoRun p) (j : ℕ) (buf : Bytes) (m : DiscoPong) : Prop :=
  j < E.length ∧ ∃ srcV4Be srcPort nowUs nonce,
    E.act j = .direct buf srcV4Be srcPort nowUs nonce ∧ directGateDrops buf p.peerPub = false ∧
    (p.handle (E.state j).log buf nonce).1 = some (.pong m) ∧
    (discoProberTake (E.state j).prober m.txid srcV4Be srcPort nowUs).1.isSome = true

/-- The box of `buf` was sealed by the peer before step `j`, and after our ping with this
transaction id. -/
def SealedByPeer (E : DiscoRun p) (j : ℕ) (buf : Bytes) (txid : Txid) : Prop :=
  ∃ k i ping pingNonce plaintext, k < i ∧ i < j ∧ E.act k = .ping ping pingNonce ∧
    ping.txid = txid ∧ E.act i = .peerSeals (frameNonce buf) plaintext ∧
    frameBox buf = p.sealBox (frameNonce buf) plaintext

/-- No datagram brings back a pong of our own for a ping of our own. -/
def NoOwnPong (E : DiscoRun p) : Prop :=
  ∀ k, k < E.length → ∀ buf srcV4Be srcPort nowUs nonce,
    E.act k = .direct buf srcV4Be srcPort nowUs nonce → ∀ r ∈ (E.state k).log, r.sealer = .us →
    r.nonce = frameNonce buf → r.box = frameBox buf → ∀ m, discoParse r.plaintext = some (.pong m) →
    ownPing (E.state k).log m.txid = false

end DiscoRun

end TinyLink
