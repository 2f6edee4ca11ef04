import TinyLink.Proofs.Calendar
import TinyLink.Proofs.ControlDial
import TinyLink.Proofs.DerpStream
import TinyLink.Proofs.DiscoPong
import TinyLink.Proofs.EarlyPayload
import TinyLink.Proofs.EndpointPush
import TinyLink.Proofs.ForgedResponse
import TinyLink.Proofs.H2Bodies
import TinyLink.Proofs.H2Client
import TinyLink.Proofs.H2Dead
import TinyLink.Proofs.H2Request
import TinyLink.Proofs.HpackCode
import TinyLink.Proofs.HpackEncode
import TinyLink.Proofs.JsonScan
import TinyLink.Proofs.MapStream
import TinyLink.Proofs.NoiseHistory
import TinyLink.Proofs.PatchFold
import TinyLink.Proofs.PathFlap
import TinyLink.Proofs.PathRekey
import TinyLink.Proofs.PathRelay
import TinyLink.Proofs.PathRescue
import TinyLink.Proofs.RekeyInit
import TinyLink.Proofs.RescueFull
import TinyLink.Proofs.RescueSummary
import TinyLink.Proofs.RxTimers
import TinyLink.Proofs.StunBoot
import TinyLink.Proofs.Tai64nFloor
import TinyLink.Proofs.TimeFloor
import TinyLink.Proofs.TlsResume
import TinyLink.Proofs.TransportLink
import TinyLink.Proofs.TransportRx
import TinyLink.Proofs.TransportTx
import TinyLink.Proofs.WarmDial
import TinyLink.Proofs.WarmGuard
import TinyLink.Proofs.WarmStore
