import TinyLink.WgHandshake

/-!
# Attempts and responses

The calls `wg_netif.c` makes on `g.handshake`, each under `hs_lock`: an attempt
(`build_and_send_init`) and a response (`handle_handshake_response_locked`), behind which the live part
of the state is scrubbed once it was accepted.
-/

namespace TinyLink
open StepSystem

structure ResponseCall where
  st : WgHandshakeState
  sendKey : Key
  recvKey : Key
  outRemoteIndex : UInt32

abbrev ResponseM := OptionT (StateM ResponseCall)

/-- `wg_handshake_process_response` statement by statement; a failure is the jump to
`out_scrub`. -/
def wgHandshakeProcessResponseBody (P : Primitives) (msg : WgMsgResponse) : ResponseM Unit := do
  let st := (← get).st
  let ck := st.chainKey
  let h := st.hash
  guard (st.armed = true)
  guard (msg.messageType = wgMsgResponseType)
  guard (msg.reservedBits = 0)
  guard (msg.receiverIndex = st.localIndex)
  guard (diffBytes (wgKeyedMac16 P st.mac1KeySelf msg.macd) msg.mac1 = 0)
  let ck := wgMixChainOnly P ck msg.ephemeral.toList
  let h := wgMixHash P h msg.ephemeral.toList
  let some dhEE := P.dh st.ephemeralPriv msg.ephemeral | failure
  let ck := wgMixChainOnly P ck dhEE.toList
  let some dhES := P.dh st.localStaticPriv msg.ephemeral | failure
  let ck := wgMixChainOnly P ck dhES.toList
  let (ck, tau, key) := noiseHkdf3 P ck st.presharedKey.toList
  let h := wgMixHash P h tau.toList
  let some _ := P.aead.decrypt key zeroNonce h.toList msg.encryptedNothing | failure
  let (sendKey, recvKey) := noiseHkdf2 P ck []
  modify fun c => { c with sendKey := sendKey, recvKey := recvKey }
  modify fun c => { c with outRemoteIndex := msg.senderIndex }

def wgHandshakeProcessResponseCall (P : Primitives) (c : ResponseCall) (msg : WgMsgResponse) :
    Int × ResponseCall :=
  match (wgHandshakeProcessResponseBody P msg).run.run c with
  | (some _, c) => (0, c)
  | (none, c) => (-1, { c with sendKey := zeroKey, recvKey := zeroKey })

structure WgIdentity where
  localStaticPriv : Key
  localStaticPub : Key
  peerStaticPub : Key
  presharedKey : Option Key

/-- The INIT, `none` if it could not be built, and the state afterwards. -/
def handshakeAttempt (P : Primitives) (st : WgHandshakeState) (id : WgIdentity)
    (localIndex : UInt32) (random : Key) (timestamp : Tai64n) :
    Option WgMsgInitiation × WgHandshakeState :=
  let r := wgHandshakeInit P st id.localStaticPriv id.localStaticPub id.peerStaticPub
    id.presharedKey
  if r.1 ≠ 0 then (none, r.2)
  else wgHandshakeCreateInitiation P r.2 localIndex random timestamp

inductive HandshakeCall where
  | attempt (id : WgIdentity) (localIndex : UInt32) (random : Key) (timestamp : Tai64n)
  | response (msg : WgMsgResponse) (sendKey recvKey : Key) (outRemoteIndex : UInt32)
  | scrub

def handshakeCall (P : Primitives) (st : WgHandshakeState) :
    HandshakeCall → Option WgHandshakeState
  | .attempt id localIndex random timestamp =>
    some (handshakeAttempt P st id localIndex random timestamp).2
  | .response msg sendKey recvKey outRemoteIndex =>
    let r := wgHandshakeProcessResponseCall P ⟨st, sendKey, recvKey, outRemoteIndex⟩ msg
    some (if r.1 = 0 then wgHandshakeScrubLive r.2.st else r.2.st)
  | .scrub => some .zero

/-- Any attempts, under any identities, and any responses, from boot on. -/
abbrev AttemptRun (P : Primitives) := Execution (· = WgHandshakeState.zero) (handshakeCall P)

namespace AttemptRun
variable {P : Primitives}

def AttemptAt (E : AttemptRun P) (i : ℕ) : Prop :=
  ∃ id localIndex random timestamp, E.act i = .attempt id localIndex random timestamp

def FailsAt (E : AttemptRun P) (i : ℕ) : Prop :=
  ∃ id localIndex random timestamp, E.act i = .attempt id localIndex random timestamp ∧
    (handshakeAttempt P (E.state i) id localIndex random timestamp).1 = none

def ResponseAt (E : AttemptRun P) (i : ℕ) (rc : Int) : Prop :=
  ∃ msg sendKey recvKey outRemoteIndex,
    E.act i = .response msg sendKey recvKey outRemoteIndex ∧
    (wgHandshakeProcessResponseCall P ⟨E.state i, sendKey, recvKey, outRemoteIndex⟩ msg).1 = rc

/-- The attempt `j` succeeded with `init`, and up to `k` came rejected responses only. -/
def Awaits (E : AttemptRun P) (j k : ℕ) (id : WgIdentity) (localIndex : UInt32) (random : Key)
    (timestamp : Tai64n) (init : WgMsgInitiation) : Prop :=
  j < k ∧ E.act j = .attempt id localIndex random timestamp ∧
    (handshakeAttempt P (E.state j) id localIndex random timestamp).1 = some init ∧
    ∀ i, j < i → i < k → E.ResponseAt i (-1)

/-- No attempt so far, or none since one failed, a response was accepted or all was wiped. -/
def Idle (E : AttemptRun P) (k : ℕ) : Prop :=
  (∀ i < k, ¬ E.AttemptAt i) ∨
    ∃ i < k, (E.FailsAt i ∨ E.ResponseAt i 0 ∨ E.act i = .scrub) ∧
      ∀ i', i < i' → i' < k → ¬ E.AttemptAt i'

end AttemptRun

end TinyLink
