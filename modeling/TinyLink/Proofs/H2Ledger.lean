import TinyLink.H2Ledger
import TinyLink.Proofs.H2Windows
import Mathlib.Algebra.BigOperators.Group.List.Basic

/-!
# The ledger of sent DATA

The send windows of the engine never exceed what the server granted less what was sent, counting
the frames still in the lent buffer.
-/

namespace TinyLink.Proofs
open History

variable {io : H2Io} {h h' : H2Core} {w : H2Slot} {s : H2Stream} {b fs : List OutFrame}
  {x y : H2Core × List OutFrame} (l : List H2Event)

section Log
variable (l m : List H2Event) (fs gs : List OutFrame) (e : H2Event) (sid : ℕ)

@[simp] lemma sentFrames_nil : sentFrames [] = [] := rfl

@[simp] lemma sentFrames_append : sentFrames (l ++ m) = sentFrames l ++ sentFrames m :=
  List.flatMap_append

@[simp] lemma sentFrames_single : sentFrames [e] = e.frames := by simp [sentFrames]

@[simp] lemma dataFrames_nil : dataFrames sid [] = [] := rfl

@[simp] lemma dataFrames_append : dataFrames sid
    (fs ++ gs) = dataFrames sid fs ++ dataFrames sid gs :=
  List.filterMap_append

@[simp] lemma payloads_append (c d : List (UInt8 × Bytes)) :
    payloads (c ++ d) = payloads c ++ payloads d := List.flatMap_append

@[simp] lemma payloads_nil : payloads [] = [] := rfl

@[simp] lemma payloads_single (d : UInt8 × Bytes) : payloads [d] = d.2 := by simp [payloads]

@[simp] lemma sentBytes_append : sentBytes (fs ++ gs) = sentBytes fs + sentBytes gs := by
  simp [sentBytes]

@[simp] lemma sentBytes_nil : sentBytes [] = 0 := rfl

@[simp] lemma sentOn_append : sentOn sid (fs ++ gs) = sentOn sid fs + sentOn sid gs := by
  simp [sentOn]

@[simp] lemma sentOn_nil : sentOn sid [] = 0 := rfl

@[simp] lemma updates_append : updates sid (l ++ m) = updates sid l + updates sid m := by
  simp [updates]

@[simp] lemma updates_single : updates sid [e] = e.grant sid := by simp [updates]

@[simp] lemma lastSetting_concat (what : H2Setting) (d : ℕ) :
    lastSetting what d (l ++ [e]) = e.settingAfter what (lastSetting what d l) := by
  simp [lastSetting]

end Log

def Plain (f : OutFrame) : Prop := ∀ flags sid payload, f ≠ .frame .data flags sid payload

lemma plain_data (hp : ∀ f ∈ fs, Plain f) (sid : ℕ) : dataFrames sid fs = [] := by
  refine List.filterMap_eq_nil_iff.mpr fun f hf => ?_
  unfold OutFrame.dataOn
  split
  case h_1 flags s payload => exact absurd rfl (hp _ hf flags s payload)
  case h_2 => rfl

lemma plain_bytes (hp : ∀ f ∈ fs, Plain f) : sentBytes fs = 0 := by
  refine List.sum_eq_zero fun n hn => ?_
  obtain ⟨f, hf, rfl⟩ := List.mem_map.mp hn
  unfold OutFrame.dataSize
  split
  case h_1 flags s payload => exact absurd rfl (hp _ hf flags s payload)
  case h_2 => rfl

lemma plain_allowed {past : List H2Event} (hp : ∀ f ∈ fs, Plain f) : RecordAllowed past fs := by
  intro before f rest hfs
  have hf : Plain f := hp f (by simp [hfs])
  unfold FrameAllowed
  split
  case h_1 flags s payload => exact absurd rfl (hf flags s payload)
  case h_2 => trivial

/-- The log `l'` is `l` with more received, and nothing sent but control frames. -/
structure Received (l l' : List H2Event) : Prop where
  data : ∀ sid, dataFrames sid (sentFrames l') = dataFrames sid (sentFrames l)
  bytes : sentBytes (sentFrames l') = sentBytes (sentFrames l)
  grants : ∀ sid, updates sid l ≤ updates sid l'
  opened : ∀ sid body, .note (.opened sid body) ∈ l' ↔ .note (.opened sid body) ∈ l
  flow : FlowRespected l → FlowRespected l'

lemma Received.refl : Received l l :=
  ⟨fun _ => rfl, rfl, fun _ => le_rfl, fun _ _ => Iff.rfl, id⟩

lemma Received.trans {l m k : List H2Event} (hlm : Received l m) (hmk : Received m k) :
    Received l k :=
  ⟨fun sid => (hmk.data sid).trans (hlm.data sid), hmk.bytes.trans hlm.bytes,
    fun sid => (hlm.grants sid).trans (hmk.grants sid),
    fun sid body => (hmk.opened sid body).trans (hlm.opened sid body), fun hf => hmk.flow (hlm.flow hf)⟩

lemma Received.concat {e : H2Event} (hp : ∀ f ∈ e.frames, Plain f)
    (ho : ∀ sid body, e ≠ .note (.opened sid body)) : Received l (l ++ [e]) := by
  refine ⟨fun sid => ?_, ?_, fun sid => ?_, fun sid body => ?_, fun hf => ?_⟩
  · rw [sentFrames_append, sentFrames_single, dataFrames_append, plain_data hp, List.append_nil]
  · rw [sentFrames_append, sentFrames_single, sentBytes_append, plain_bytes hp, add_zero]
  · simp
  · simp [(ho sid body).symm]
  · exact each_concat.mpr ⟨hf, plain_allowed hp⟩

lemma Received.append {evs : List H2Event}
    (hevs : ∀ e ∈ evs, (∀ f ∈ e.frames, Plain f) ∧ ∀ sid body, e ≠ .note (.opened sid body)) :
    Received l (l ++ evs) := by
  induction evs using List.reverseRecOn with
  | nil => simpa using Received.refl l
  | append_singleton _ e ih =>
    rw [← List.append_assoc]
    exact (ih fun e' he' => hevs e' (by simp [he'])).trans
      (.concat _ (hevs e (by simp)).1 (hevs e (by simp)).2)

lemma Received.noted {n : H2Note} (hn : ∀ sid body, n ≠ .opened sid body) :
    Received l (l ++ [.note n]) :=
  .concat l (by simp) (by simpa using hn)

lemma LastSends.received {log sent : List H2Event} {ctl : List OutFrame} {code : ℕ}
    (hs : LastSends io log ctl code sent) (hp : ∀ f ∈ ctl, Plain f) : Received l (l ++ sent) := by
  have hgo : Plain (goawayFrame code) := by simp [Plain, goawayFrame]
  refine .append l ?_
  cases hs with
  | joined => simpa [or_imp, forall_and] using ⟨hp, hgo⟩
  | behind => simpa using ⟨hp, hgo⟩
  | failed => simpa using hp

lemma Received.quit {notes : List H2Note} {sent : List H2Event} {code : ℕ}
    (hn : ∀ n ∈ notes, Inbound h.f n) (hp : ∀ f ∈ h.ctl, Plain f)
    (hs : LastSends io (h.log ++ notes.map .note) h.ctl code sent) :
    Received h.log (h.log ++ notes.map .note ++ sent) := by
  refine .trans (.append h.log fun e he => ?_) (hs.received _ hp)
  obtain ⟨n, hmem, rfl⟩ := List.mem_map.mp he
  refine ⟨by simp, fun sid body he => ?_⟩
  cases he
  exact hn _ hmem

/-- The two settings of the peer that bound what may be sent. -/
def peerSettings (l : List H2Event) : ℕ × ℕ :=
  (lastSetting .initialWindowSize 65535 l, lastSetting .maxFrameSize 16384 l)

/-- An event that says nothing about the sending side. -/
@[simp] def Silent : H2Event → Prop
  | .send _ => False
  | .txSend _ => False
  | .note (.opened _ _) => False
  | .note (.setting what _) => what ≠ .initialWindowSize ∧ what ≠ .maxFrameSize
  | _ => True

lemma Silent.spec {e : H2Event} (hs : Silent e) :
    e.frames = [] ∧ (∀ sid body, e ≠ .note (.opened sid body)) ∧
      (∀ v, e.settingAfter .initialWindowSize v = v) ∧ ∀ v, e.settingAfter .maxFrameSize v = v := by
  cases e with
  | send | txSend => exact absurd hs id
  | note n =>
    cases n with
    | opened => exact absurd hs id
    | setting => exact ⟨rfl, by simp, fun _ => if_neg hs.1, fun _ => if_neg hs.2⟩
    | _ => exact ⟨rfl, by simp, fun _ => rfl, fun _ => rfl⟩
  | _ => exact ⟨rfl, by simp, fun _ => rfl, fun _ => rfl⟩

lemma silent_received {evs : List H2Event} (hs : ∀ e ∈ evs, Silent e) :
    Received l (l ++ evs) ∧ peerSettings (l ++ evs) = peerSettings l := by
  induction evs using List.reverseRecOn with
  | nil => simpa using Received.refl l
  | append_singleton _ e ih =>
    obtain ⟨hframes, hopened, hinitial, hmax⟩ := (hs e (by simp)).spec
    obtain ⟨hr, hset⟩ := ih fun e' he' => hs e' (by simp [he'])
    rw [← List.append_assoc]
    refine ⟨hr.trans (.concat _ (hframes ▸ List.forall_mem_nil _) hopened), ?_⟩
    rw [← hset, peerSettings, lastSetting_concat, lastSetting_concat, hinitial, hmax, peerSettings]

/-- The ledger of an open stream; `fs` are the frames sent. -/
structure StreamLedger (dead : Bool) (peer : H2Peer) (log : List H2Event) (fs : List OutFrame)
    (s : H2Stream) : Prop where
  upper : s.sendWin ≤ h2MaxWindow
  lower : -h2MaxWindow ≤ s.sendWin
  floor : dead = false → peer.initialWin - h2MaxWindow ≤ s.sendWin
  window : dead = false → s.sendWin + sentOn s.id fs ≤ grantedStream s.id log

/-- The ledger of the engine, with the frames in the lent buffer. -/
structure Ledger (x : H2Core × List OutFrame) : Prop where
  ctlPlain : ∀ f ∈ x.1.ctl, Plain f
  ctlFits : framesLen x.1.ctl ≤ h2CtlCap
  initial : x.1.dead = false →
    x.1.peer.initialWin = lastSetting .initialWindowSize 65535 x.1.log
  maxFrame : x.1.dead = false → x.1.peer.maxFrame = lastSetting .maxFrameSize 16384 x.1.log
  initialMax : (x.1.peer.initialWin : ℤ) ≤ h2MaxWindow
  maxFrameMin : h2MaxFrame ≤ x.1.peer.maxFrame
  connRange : 0 ≤ x.1.connSendWin ∧ x.1.connSendWin ≤ h2MaxWindow
  conn : x.1.connSendWin + sentBytes (sentFrames x.1.log ++ x.2) ≤ grantedConn x.1.log
  streams : ∀ w, (x.1.stream w).isOpen = true →
    StreamLedger x.1.dead x.1.peer x.1.log (sentFrames x.1.log ++ x.2) (x.1.stream w)
  record : RecordAllowed x.1.log x.2
  flow : FlowRespected x.1.log

lemma StreamLedger.received {g : H2Core} {t : H2Stream}
    (hs : StreamLedger h.dead h.peer h.log (sentFrames h.log ++ []) s) (hr : Received h.log g.log)
    (hd : g.dead = false → h.dead = false) (hpeer : g.peer.initialWin = h.peer.initialWin)
    (hi : g.dead = false → lastSetting .initialWindowSize 65535 g.log =
      lastSetting .initialWindowSize 65535 h.log)
    (hid : t.id = s.id) (hwin : t.sendWin = s.sendWin) :
    StreamLedger g.dead g.peer g.log (sentFrames g.log ++ []) t := by
  refine ⟨by rw [hwin]; exact hs.upper, by rw [hwin]; exact hs.lower, fun hlive => ?_,
    fun hlive => ?_⟩
  · rw [hwin, hpeer]
    exact hs.floor (hd hlive)
  · have hold := hs.window (hd hlive)
    have hg := hr.grants s.id
    unfold grantedStream sentOn at hold ⊢
    rw [hwin, hid, hi hlive]
    rw [List.append_nil] at hold ⊢
    rw [hr.data]
    omega

lemma Ledger.keep (hl : Ledger x)
    (hd : y.1.dead = false → x.1.dead = false)
    (hi : y.1.peer.initialWin = x.1.peer.initialWin) (hm : y.1.peer.maxFrame = x.1.peer.maxFrame)
    (hset : y.1.dead = false → peerSettings y.1.log = peerSettings x.1.log)
    (hctl : (∀ f ∈ y.1.ctl, Plain f) ∧ framesLen y.1.ctl ≤ h2CtlCap)
    (hrange : 0 ≤ y.1.connSendWin ∧ y.1.connSendWin ≤ h2MaxWindow)
    (hconn : y.1.connSendWin + sentBytes (sentFrames y.1.log ++ y.2) ≤ (grantedConn y.1.log : ℤ))
    (hstreams : ∀ w, (y.1.stream w).isOpen = true →
      StreamLedger y.1.dead y.1.peer y.1.log (sentFrames y.1.log ++ y.2) (y.1.stream w))
    (hrecord : RecordAllowed y.1.log y.2) (hflow : FlowRespected y.1.log) : Ledger y := by
  refine ⟨hctl.1, hctl.2, fun hlive => ?_, fun hlive => ?_, ?_, ?_, hrange, hconn, hstreams, hrecord,
    hflow⟩
  · rw [hi, hl.initial (hd hlive)]
    exact (congrArg Prod.fst (hset hlive)).symm
  · rw [hm, hl.maxFrame (hd hlive)]
    exact (congrArg Prod.snd (hset hlive)).symm
  · rw [hi]
    exact hl.initialMax
  · rw [hm]
    exact hl.maxFrameMin

section
variable (hl : Ledger (h, []))
include hl

lemma Ledger.kept {g : H2Core} (hr : Received h.log g.log)
    (hd : g.dead = false → h.dead = false) (hi : g.peer.initialWin = h.peer.initialWin)
    (hm : g.peer.maxFrame = h.peer.maxFrame) (hconn : g.connSendWin = h.connSendWin)
    (hctl : (∀ f ∈ g.ctl, Plain f) ∧ framesLen g.ctl ≤ h2CtlCap)
    (hset : g.dead = false → peerSettings g.log = peerSettings h.log)
    (hstreams : ∀ w, (g.stream w).isOpen = true → (h.stream w).isOpen = true ∧
      (g.stream w).id = (h.stream w).id ∧ (g.stream w).sendWin = (h.stream w).sendWin) :
    Ledger (g, []) := by
  refine hl.keep hd hi hm hset hctl (by rw [hconn]; exact hl.connRange) ?_ (fun w ho => ?_) each_nil
    (hr.flow hl.flow)
  · have hold : h.connSendWin + sentBytes (sentFrames h.log ++ []) ≤ (grantedConn h.log : ℤ) :=
      hl.conn
    have hg := hr.grants 0
    dsimp only
    unfold grantedConn at hold ⊢
    rw [List.append_nil] at hold ⊢
    rw [hconn, hr.bytes]
    omega
  · obtain ⟨ho', hid, hwin⟩ := hstreams w ho
    exact (hl.streams w ho').received hr hd hi (fun hlive => congrArg Prod.fst (hset hlive)) hid hwin

lemma Ledger.silently (evs : List H2Event)
    (hs : ∀ e ∈ evs, Silent e) (hlog : h'.log = h.log ++ evs)
    (hd : h'.dead = false → h.dead = false)
    (hi : h'.peer.initialWin = h.peer.initialWin) (hm : h'.peer.maxFrame = h.peer.maxFrame)
    (hconn : h'.connSendWin = h.connSendWin) (hctl : h'.ctl = h.ctl)
    (hstreams : ∀ w, (h'.stream w).isOpen = true → (h.stream w).isOpen = true ∧
      (h'.stream w).id = (h.stream w).id ∧ (h'.stream w).sendWin = (h.stream w).sendWin) :
    Ledger (h', []) := by
  obtain ⟨hr, hset⟩ := silent_received h.log hs
  rw [← hlog] at hr hset
  exact hl.kept hr hd hi hm hconn (by rw [hctl]; exact ⟨hl.ctlPlain, hl.ctlFits⟩) (fun _ => hset)
    hstreams

lemma Ledger.setStream
    (hs : s.isOpen = true → StreamLedger h.dead h.peer h.log (sentFrames h.log ++ []) s) :
    Ledger (h.setStream w s, []) := by
  have hstreams (v : H2Slot) (ho : ((h.setStream w s).stream v).isOpen = true) :
      StreamLedger h.dead h.peer h.log (sentFrames h.log ++ []) ((h.setStream w s).stream v) := by
    cases v <;> cases w <;>
      first | exact hs ho | exact hl.streams .main ho | exact hl.streams .side ho
  cases w <;> exact { hl with streams := hstreams }

lemma Ledger.touches {evs : List H2Event} (hevs : ∀ e ∈ evs, Silent e)
    (hs : s.isOpen = true → (h.stream w).isOpen = true ∧ s.id = (h.stream w).id ∧
      s.sendWin = (h.stream w).sendWin) : Ledger (touched h w s evs, []) := by
  cases w <;> refine hl.silently evs hevs rfl id rfl rfl rfl rfl fun v ho => ?_ <;> cases v <;>
    first | exact hs ho | exact ⟨ho, rfl, rfl⟩

end

lemma shifted_ledger {v : ℕ} (hd : h.dead = false)
    (hinit : h.peer.initialWin = lastSetting .initialWindowSize 65535 h.log)
    (hs : s.isOpen = true → StreamLedger h.dead h.peer h.log (sentFrames h.log ++ []) s)
    (hlog : h'.log = h.log ++ [.note (.setting .initialWindowSize v)])
    (hpeer : h'.dead = false → h'.peer.initialWin = v)
    (hmax : s.isOpen = true → s.sendWin + (v - h.peer.initialWin) ≤ h2MaxWindow)
    (ho : (shifted s (v - h.peer.initialWin)).isOpen) :
    StreamLedger h'.dead h'.peer h'.log (sentFrames h'.log ++ []) (shifted s (v - h.peer.initialWin)) := by
  have ho' : s.isOpen = true := by
    unfold shifted at ho
    split at ho <;> exact ho
  have hold := hs ho'
  have hfloor := hold.floor hd
  have hwindow := hold.window hd
  rw [shifted, if_pos ho']
  unfold grantedStream at hwindow
  refine ⟨hmax ho', ?_, fun hlive => ?_, fun hlive => ?_⟩
  · change -h2MaxWindow ≤ s.sendWin + (v - h.peer.initialWin)
    omega
  · change (h'.peer.initialWin : ℤ) - h2MaxWindow ≤ s.sendWin + (v - h.peer.initialWin)
    rw [hpeer hlive]
    omega
  · change s.sendWin + (v - h.peer.initialWin) + sentOn s.id (sentFrames h'.log ++ []) ≤
      (grantedStream s.id h'.log : ℤ)
    rw [hlog, grantedStream, lastSetting_concat]
    simp only [List.append_nil, sentFrames_append, sentFrames_single, H2Event.frames,
      H2Event.settingAfter, H2Event.grant, updates_append, updates_single, if_true] at hwindow ⊢
    omega

lemma windowUpdate_settings (sid inc : ℕ) :
    peerSettings (l ++ [.note (.windowUpdate sid inc)]) = peerSettings l := by
  simp [peerSettings]

lemma halfShifted_range (hd : h.dead = false)
    (hl : h.s.isOpen = true → StreamLedger h.dead h.peer h.log fs h.s) (hs : HalfShifted h s)
    (ho : s.isOpen) : s.sendWin ≤ h2MaxWindow ∧ -h2MaxWindow ≤ s.sendWin := by
  rcases hs with rfl | ⟨v, -, rfl, hmax⟩
  · exact ⟨(hl ho).upper, (hl ho).lower⟩
  · have ho' : h.s.isOpen = true := (shifted_kept _ _).opened ho
    have hfloor := (hl ho').floor hd
    rw [shifted, if_pos ho']
    refine ⟨hmax ho', ?_⟩
    change -h2MaxWindow ≤ h.s.sendWin + (v - h.peer.initialWin)
    omega

lemma wire_ledger (hw : H2Wire io h h') (hl : Ledger (h, [])) : Ledger (h', []) := by
  have hr : Received h.log (h.log ++ [.send h.ctl]) := .concat h.log hl.ctlPlain (by simp)
  cases hw with
  | stage _ _ _ _ hc hfit =>
    refine hl.kept (.refl _) id rfl rfl rfl ⟨?_, hfit⟩ (fun _ => rfl) fun _ ho => ⟨ho, rfl, rfl⟩
    intro f hf
    rcases List.mem_append.mp hf with hf | hf
    · exact hl.ctlPlain f hf
    · rw [List.mem_singleton.mp hf]
      intro flags' sid' payload' he
      cases he
      exact hc.1 rfl
  | flush =>
    exact hl.kept hr id rfl rfl rfl (by simp [framesLen])
      (fun _ => by simp [peerSettings]) fun _ ho => ⟨ho, rfl, rfl⟩
  | fail =>
    exact hl.kept hr (by rintro ⟨⟩) rfl rfl rfl (by simp [framesLen]) (by rintro ⟨⟩)
      fun _ ho => ⟨ho, rfl, rfl⟩

lemma grant_ledger {inc : ℕ} (hl : Ledger (h, [])) (ho : (h.stream w).isOpen)
    (hid : (h.stream w).id = h.f.sid) (hmax : (h.stream w).sendWin + inc ≤ h2MaxWindow) :
    Ledger (touched h w { h.stream w with sendWin := (h.stream w).sendWin + inc }
      [.note (.windowUpdate h.f.sid inc)], []) := by
  have hr : Received h.log (h.log ++ [.note (.windowUpdate h.f.sid inc)]) := .noted _ (by simp)
  have hnoted := hl.kept (g := h.note (.windowUpdate h.f.sid inc)) hr id rfl rfl rfl
    ⟨hl.ctlPlain, hl.ctlFits⟩ (fun _ => windowUpdate_settings ..) fun v ho => ⟨ho, rfl, rfl⟩
  have hold := hl.streams w ho
  have hgranted : StreamLedger h.dead h.peer (h.log ++ [.note (.windowUpdate h.f.sid inc)])
      (sentFrames (h.log ++ [.note (.windowUpdate h.f.sid inc)]) ++ [])
      { h.stream w with sendWin := (h.stream w).sendWin + inc } := by
    have hlower : -h2MaxWindow ≤ (h.stream w).sendWin := hold.lower
    refine ⟨hmax, ?_, fun hd => ?_, fun hd => ?_⟩
    · change -h2MaxWindow ≤ (h.stream w).sendWin + inc
      omega
    · have hfloor : (h.peer.initialWin : ℤ) - h2MaxWindow ≤ (h.stream w).sendWin := hold.floor hd
      change (h.peer.initialWin : ℤ) - h2MaxWindow ≤ (h.stream w).sendWin + inc
      omega
    · have hwindow : (h.stream w).sendWin + sentOn (h.stream w).id (sentFrames h.log ++ []) ≤
          (grantedStream (h.stream w).id h.log : ℤ) := hold.window hd
      unfold grantedStream at hwindow ⊢
      rw [hid] at hwindow ⊢
      simp only [sentFrames_append, sentFrames_single, H2Event.frames, List.append_nil,
        lastSetting_concat, H2Event.settingAfter, updates_append, updates_single, H2Event.grant,
        if_true] at hwindow ⊢
      omega
  have hset := hnoted.setStream (w := w) fun _ => hgranted
  cases w <;> exact hset

lemma touch_silent {evs : List H2Event} (ht : Touch h w s evs) : ∀ e ∈ evs, Silent e := by
  cases ht with
  | close | finish => simp
  | reset | grant => simp
  | data _ _ _ hevs => rcases hevs with ⟨rfl, -⟩ | ⟨-, -, rfl⟩ <;> simp
  | field _ _ _ _ hevs =>
    rcases hevs with ⟨-, rfl⟩ | ⟨-, rfl⟩ | ⟨-, rfl⟩
    · simp
    · cases w <;> simp
    · cases w <;> simp
  | block _ _ _ hevs => rcases hevs with ⟨-, rfl⟩ | ⟨-, rfl⟩ <;> simp

lemma touch_ledger {evs : List H2Event} (hl : Ledger (h, [])) (ho : (h.stream w).isOpen)
    (ht : Touch h w s evs) : Ledger (touched h w s evs, []) := by
  have hsilent := touch_silent ht
  cases ht with
  | close | finish | reset => exact hl.touches hsilent (by rintro ⟨⟩)
  | data => exact hl.touches hsilent fun _ => ⟨ho, rfl, rfl⟩
  | field f =>
    obtain ⟨p, hs, st, cl, he⟩ := streamField_eq (h.stream w) h.blk.trailer f
    exact hl.touches hsilent (by rw [he]; exact fun _ => ⟨ho, rfl, rfl⟩)
  | block =>
    obtain ⟨p, hs, fin, cl, he⟩ := responseBlock_eq (h.stream w) h.blk.endStream
    exact hl.touches hsilent (by rw [he]; exact fun _ => ⟨ho, rfl, rfl⟩)
  | grant inc hid hmax => exact grant_ledger hl ho hid hmax

lemma content_ledger (hm : H2Content io h h') (hl : Ledger (h, [])) : Ledger (h', []) := by
  have hctl : (∀ f ∈ h.ctl, Plain f) ∧ framesLen h.ctl ≤ h2CtlCap := ⟨hl.ctlPlain, hl.ctlFits⟩
  have hconn : h.connSendWin + sentBytes (sentFrames h.log ++ []) ≤ (grantedConn h.log : ℤ) :=
    hl.conn
  cases hm with
  | wire hw => exact wire_ledger hw hl
  | touch w s evs _ ho ht => exact touch_ledger hl ho ht
  | quit notes sent code s hd hn hsent hs =>
    have hr : Received h.log (h.log ++ notes.map .note ++ sent) := .quit hn hl.ctlPlain hsent
    refine hl.keep (by rintro ⟨⟩) rfl rfl (by rintro ⟨⟩) (by simp [framesLen]) hl.connRange ?_
      (fun w ho => ?_) each_nil (hr.flow hl.flow)
    · have hg := hr.grants 0
      dsimp only
      unfold grantedConn at hconn ⊢
      rw [List.append_nil] at hconn ⊢
      rw [hr.bytes]
      omega
    · cases w with
      | main =>
        obtain ⟨hupper, hlower⟩ := halfShifted_range hd (hl.streams .main) hs ho
        exact ⟨hupper, hlower, (by rintro ⟨⟩), (by rintro ⟨⟩)⟩
      | side =>
        have hside := hl.streams .side ho
        exact ⟨hside.upper, hside.lower, (by rintro ⟨⟩), (by rintro ⟨⟩)⟩
  | goaway =>
    exact hl.silently [_] (by simp) rfl id rfl rfl rfl rfl fun _ ho => ⟨ho, rfl, rfl⟩
  | noteGrant =>
    exact hl.kept (.noted _ (by simp)) id rfl rfl rfl hctl (fun _ => windowUpdate_settings ..)
      fun _ ho => ⟨ho, rfl, rfl⟩
  | progress | ignore | ack =>
    exact hl.silently [] (by simp) (by simp) id rfl rfl rfl rfl fun _ ho => ⟨ho, rfl, rfl⟩
  | initialWindow v hd hv hs hside =>
    refine ⟨hl.ctlPlain, hl.ctlFits, fun _ => ?_, fun _ => ?_, hv, hl.maxFrameMin, hl.connRange, ?_,
      fun w ho => ?_, each_nil, (Received.noted _ (by simp)).flow hl.flow⟩
    · simp
    · simpa using hl.maxFrame hd
    · simpa [grantedConn] using hconn
    · cases w with
      | main =>
        exact shifted_ledger hd (hl.initial hd) (hl.streams .main) rfl (fun _ => rfl) hs ho
      | side =>
        exact shifted_ledger hd (hl.initial hd) (hl.streams .side) rfl (fun _ => rfl) hside ho
  | maxFrame v hv =>
    have hr : Received h.log (h.log ++ [.note (.setting .maxFrameSize v)]) := .noted _ (by simp)
    have hinit : lastSetting .initialWindowSize 65535
        (h.log ++ [.note (.setting .maxFrameSize v)]) =
        lastSetting .initialWindowSize 65535 h.log := by simp
    refine ⟨hl.ctlPlain, hl.ctlFits, fun hd => (hl.initial hd).trans hinit.symm, fun _ => ?_,
      hl.initialMax, hv.1, hl.connRange, ?_, fun w ho => ?_, each_nil, hr.flow hl.flow⟩
    · simp
    · simpa [grantedConn] using hconn
    · have hs := (hl.streams w ho).received
        (g := { h.note (.setting .maxFrameSize v) with peer := { h.peer with maxFrame := v } })
        (t := h.stream w) hr id rfl (fun _ => hinit) rfl rfl
      exact hs
  | setting _ _ _ _ hi hf =>
    exact hl.silently [_] (by simp [hi, hf]) rfl id rfl rfl rfl rfl fun _ ho => ⟨ho, rfl, rfl⟩
  | connGrant inc hmax =>
    have hrange : 0 ≤ h.connSendWin := hl.connRange.1
    have hr : Received h.log (h.log ++ [.note (.windowUpdate 0 inc)]) := .noted _ (by simp)
    have hset := windowUpdate_settings h.log 0 inc
    refine hl.keep id rfl rfl (fun _ => hset) hctl ⟨?_, hmax⟩ ?_ (fun w ho => ?_) each_nil
      (hr.flow hl.flow)
    · change 0 ≤ h.connSendWin + inc
      omega
    · simp only [H2Core.note, H2Core.emit, grantedConn, sentFrames_append, sentFrames_single,
        H2Event.frames, List.append_nil, updates_append, updates_single, H2Event.grant, if_true]
        at hconn ⊢
      omega
    · exact (hl.streams w ho).received
        (g := { h.note (.windowUpdate 0 inc) with connSendWin := h.connSendWin + inc })
        (t := h.stream w) hr id rfl (fun _ => congrArg Prod.fst hset) rfl rfl

lemma move_ledger (hm : H2Move io h h') (hl : Ledger (h, [])) : Ledger (h', []) := by
  cases hm with
  | content hc => exact content_ledger hc hl
  | header | pass | endFrame =>
    exact hl.silently [] (by simp) (by simp) id rfl rfl rfl rfl fun _ ho => ⟨ho, rfl, rfl⟩
  | consume n =>
    have hrest : (consume h n).peer = h.peer ∧ (consume h n).connSendWin = h.connSendWin := by
      unfold consume streamRenewed
      split <;> simp [connRenewed]
    refine hl.silently [] (by simp) (by simp) ?_ ?_ ?_ hrest.2 (consume_kept h n).2.1 fun v ho => ?_
    · exact fun hd => (consume_conn h n).2.2.2.2.symm.trans hd
    · exact congrArg H2Peer.initialWin hrest.1
    · exact congrArg H2Peer.maxFrame hrest.1
    · have hs : ({ consume h n with f := { h.f with left := h.f.left - n } } : H2Core).stream v =
          (consume h n).stream v := rfl
      rw [hs, consume_stream] at ho ⊢
      split at ho
      case isTrue hw =>
        rw [if_pos hw]
        exact ⟨ho, rfl, rfl⟩
      case isFalse hw =>
        rw [if_neg hw]
        exact ⟨ho, rfl, rfl⟩
  | beginData f w =>
    refine hl.silently [.note (.frame f.type f.flags f.sid)] (by simp) ?_ ?_ ?_ ?_ ?_
      ?_ fun v ho => ?_
    case refine_7 => cases v <;> cases w <;> exact ⟨ho, rfl, rfl⟩
    all_goals simp
  | rubble =>
    refine hl.silently [] (by simp) (by simp) id rfl rfl rfl rfl fun v ho => ?_
    cases v <;> exact ⟨ho, rfl, rfl⟩
  | _ => exact hl.silently [_] (by simp) rfl id rfl rfl rfl rfl fun _ ho => ⟨ho, rfl, rfl⟩

lemma opened_allowed {l : List H2Event} (hr : RecordAllowed l fs) (sid : ℕ)
    (body : Bytes) : RecordAllowed (l ++ [.note (.opened sid body)]) fs := by
  refine Each.mono hr fun before f hf => ?_
  unfold FrameAllowed at hf ⊢
  split at hf
  case h_1 flags s payload =>
    simpa [grantedConn, grantedStream] using hf
  case h_2 => trivial

lemma opened_ledger (hl : Ledger (h, b)) (w : H2Slot) (body block : Bytes)
    (hfresh : dataFrames h.nextId (sentFrames h.log ++ b) = []) :
    Ledger (opened h w body, b ++ [.frame .headers h2FEndHeaders h.nextId block]) := by
  have hplain : ∀ f ∈ [OutFrame.frame .headers h2FEndHeaders h.nextId block], Plain f := by
    intro f hf flags sid payload he
    rw [List.mem_singleton.mp hf] at he
    cases he
  obtain ⟨hlog, hpeer, hdead, hwin, hctl⟩ : (opened h w body).log =
      h.log ++ [.note (.opened h.nextId body)] ∧ (opened h w body).peer = h.peer ∧
      (opened h w body).dead = h.dead ∧ (opened h w body).connSendWin = h.connSendWin ∧
      (opened h w body).ctl = h.ctl := by
    simp [opened, opening]
  have hgrant (sid : ℕ) : grantedStream sid (h.log ++ [.note (.opened h.nextId body)]) =
      grantedStream sid h.log := by
    simp [grantedStream]
  have hon (sid : ℕ) : sentOn sid (sentFrames (h.log ++ [.note (.opened h.nextId body)]) ++
      (b ++ [.frame .headers h2FEndHeaders h.nextId block])) =
        sentOn sid (sentFrames h.log ++ b) := by
    have := plain_data hplain sid
    simp [sentOn, this]
  have hmax : (h.peer.initialWin : ℤ) ≤ h2MaxWindow := hl.initialMax
  refine hl.keep (fun hd => hdead.symm.trans hd) (congrArg _ hpeer) (congrArg _ hpeer) (fun _ => ?_)
    ?_ ?_ ?_ (fun v ho => ?_) ?_ ?_ <;> dsimp only
  · simp [hlog, peerSettings]
  · rw [hctl]
    exact ⟨hl.ctlPlain, hl.ctlFits⟩
  · rw [hwin]
    exact hl.connRange
  · have hconn : h.connSendWin + sentBytes (sentFrames h.log ++ b) ≤ (grantedConn h.log : ℤ) :=
      hl.conn
    rw [hwin, hlog]
    simpa [grantedConn, plain_bytes hplain] using hconn
  · rw [hdead, hpeer, hlog]
    by_cases hv : v = w
    · subst hv
      rw [opened_stream, if_pos rfl]
      refine ⟨hmax, ?_, fun hd => ?_, fun hd => ?_⟩
      · change -h2MaxWindow ≤ (h.peer.initialWin : ℤ)
        omega
      · change (h.peer.initialWin : ℤ) - h2MaxWindow ≤ h.peer.initialWin
        omega
      · have hinit : h.peer.initialWin = lastSetting .initialWindowSize 65535 h.log := hl.initial hd
        change (h.peer.initialWin : ℤ) + sentOn h.nextId _ ≤ grantedStream h.nextId _
        rw [hon, hgrant, sentOn, hfresh, hinit, grantedStream]
        simp
    · rw [opened_stream, if_neg hv] at ho ⊢
      have hold := hl.streams v ho
      refine ⟨hold.upper, hold.lower, hold.floor, fun hd => ?_⟩
      rw [hon, hgrant]
      exact hold.window hd
  · rw [hlog]
    refine each_concat.mpr ⟨opened_allowed hl.record _ _, ?_⟩
    trivial
  · rw [hlog]
    exact each_concat.mpr ⟨hl.flow, each_nil⟩

lemma putDataFrame_payload {n : ℕ} (hrem : n ≤ (h.stream w).bodyRem) :
    (((h.stream w).body.drop (h.stream w).bodyOff).take n).length = n := by
  rw [List.length_take, List.length_drop]
  exact Nat.min_eq_left hrem

lemma data_ledger (hl : Ledger (h, b)) (ha : Accounted h)
    {n : ℕ} (hd : h.dead = false) (ho : (h.stream w).isOpen)
    (hrem : n ≤ (h.stream w).bodyRem) (hwin : n = 0 ∨ (n : ℤ) ≤ h.sendWindow w)
    (hmax : n ≤ h.peer.maxFrame) :
    Ledger ((putDataFrame h w n).1, b ++ [(putDataFrame h w n).2]) := by
  have hlen := putDataFrame_payload hrem
  generalize hp : ((h.stream w).body.drop (h.stream w).bodyOff).take n = payload at hlen
  obtain ⟨flags, hframe⟩ : ∃ flags, (putDataFrame h w n).2 =
      .frame .data flags (h.stream w).id payload := ⟨_, by rw [← hp]; rfl⟩
  have hbytes : sentBytes [(putDataFrame h w n).2] = n := by
    simp [hframe, sentBytes, OutFrame.dataSize, hlen]
  have hon : sentOn (h.stream w).id [(putDataFrame h w n).2] = n := by
    simp [hframe, sentOn, dataFrames, payloads, OutFrame.dataOn, hlen]
  have hother {sid : ℕ} (hne : sid ≠ (h.stream w).id) :
      sentOn sid [(putDataFrame h w n).2] = 0 := by
    simp [hframe, sentOn, dataFrames, payloads, OutFrame.dataOn, hne.symm]
  have hold := hl.streams w ho
  have hconn : h.connSendWin + sentBytes (sentFrames h.log ++ b) ≤ (grantedConn h.log : ℤ) := hl.conn
  have hrange : 0 ≤ h.connSendWin ∧ h.connSendWin ≤ h2MaxWindow := hl.connRange
  have hwindow : (h.stream w).sendWin + sentOn (h.stream w).id (sentFrames h.log ++ b) ≤
      (grantedStream (h.stream w).id h.log : ℤ) := hold.window hd
  have hupper : (h.stream w).sendWin ≤ h2MaxWindow := hold.upper
  have hfloor : (h.peer.initialWin : ℤ) - h2MaxWindow ≤ (h.stream w).sendWin := hold.floor hd
  have hinit : (h.peer.initialWin : ℤ) ≤ h2MaxWindow := hl.initialMax
  -- a frame that takes bytes leaves both windows at zero or above
  have hleft : n = 0 ∨ ((n : ℤ) ≤ h.connSendWin ∧ (n : ℤ) ≤ (h.stream w).sendWin) := by
    refine hwin.imp_right fun hle => ?_
    exact ⟨hle.trans (min_le_left _ _), hle.trans (min_le_right _ _)⟩
  obtain ⟨hlog, hpeer, hdead, hcwin, hctl⟩ : (putDataFrame h w n).1.log = h.log ∧
      (putDataFrame h w n).1.peer = h.peer ∧ (putDataFrame h w n).1.dead = h.dead ∧
      (putDataFrame h w n).1.connSendWin = h.connSendWin - n ∧
      (putDataFrame h w n).1.ctl = h.ctl := by simp [putDataFrame]
  refine hl.keep (fun hd => hdead.symm.trans hd) (congrArg _ hpeer) (congrArg _ hpeer)
    (fun _ => by rw [hlog]) ?_ ?_ ?_ (fun v hv => ?_) ?_ ?_ <;> dsimp only
  · rw [hctl]
    exact ⟨hl.ctlPlain, hl.ctlFits⟩
  · omega
  · rw [hcwin, hlog, ← List.append_assoc, sentBytes_append, hbytes]
    omega
  · rw [hdead, hpeer, hlog]
    by_cases hvw : v = w
    · subst hvw
      have hs : ((putDataFrame h v n).1.stream v).sendWin = (h.stream v).sendWin - n ∧
          ((putDataFrame h v n).1.stream v).id = (h.stream v).id := by cases v <;> exact ⟨rfl, rfl⟩
      refine ⟨?_, ?_, fun _ => ?_, fun _ => ?_⟩
      · omega
      · omega
      · omega
      · rw [hs.1, hs.2, ← List.append_assoc, sentOn_append, hon]
        omega
    · have hs : (putDataFrame h w n).1.stream v = h.stream v := by
        cases v <;> cases w <;> first | rfl | exact absurd rfl hvw
      rw [hs] at hv ⊢
      have hne : (h.stream v).id ≠ (h.stream w).id := fun he =>
        hvw (ha.slot (ha.streams w ho).pos he)
      have hvl := hl.streams v hv
      refine ⟨hvl.upper, hvl.lower, hvl.floor, fun hd => ?_⟩
      rw [← List.append_assoc, sentOn_append, hother hne, add_zero]
      exact hvl.window hd
  · rw [hlog]
    refine each_concat.mpr ⟨hl.record, ?_⟩
    have hmaxFrame : h.peer.maxFrame = lastSetting .maxFrameSize 16384 h.log := hl.maxFrame hd
    rw [hframe]
    refine ⟨?_, fun hne => ?_, ?_⟩
    · rw [← hframe, sentBytes_append, hbytes]
      omega
    · have hpos : n ≠ 0 := fun hz => hne (List.length_eq_zero_iff.mp (hlen.trans hz))
      rw [← hframe, sentOn_append, hon]
      omega
    · rw [hlen, ← hmaxFrame]
      exact hmax
  · rw [hlog]
    exact hl.flow

lemma Ledger.rebuffer (hl : Ledger x)
    (hd : y.1.dead = false → x.1.dead = false) (hpeer : y.1.peer = x.1.peer)
    (hconn : y.1.connSendWin = x.1.connSendWin) (hstream : ∀ w, y.1.stream w = x.1.stream w)
    (hctl : (∀ f ∈ y.1.ctl, Plain f) ∧ framesLen y.1.ctl ≤ h2CtlCap)
    (hdata : ∀ sid, dataFrames sid (sentFrames y.1.log ++ y.2) =
      dataFrames sid (sentFrames x.1.log ++ x.2))
    (hbytes : sentBytes (sentFrames y.1.log ++ y.2) = sentBytes (sentFrames x.1.log ++ x.2))
    (hset : ∀ what d, lastSetting what d y.1.log = lastSetting what d x.1.log)
    (hupd : ∀ sid, updates sid y.1.log = updates sid x.1.log)
    (hrecord : RecordAllowed y.1.log y.2) (hflow : FlowRespected y.1.log) : Ledger y := by
  refine hl.keep hd (by rw [hpeer]) (by rw [hpeer]) (fun _ => by simp [peerSettings, hset]) hctl
    (by rw [hconn]; exact hl.connRange) ?_ (fun w ho => ?_) hrecord hflow
  · rw [hconn, hbytes, grantedConn, hupd]
    exact hl.conn
  · rw [hstream] at ho ⊢
    have hs := hl.streams w ho
    refine ⟨hs.upper, hs.lower, fun hlive => ?_, fun hlive => ?_⟩
    · rw [hpeer]
      exact hs.floor (hd hlive)
    · rw [sentOn, hdata, grantedStream, hset, hupd]
      exact hs.window (hd hlive)

lemma begin_ledger (hl : Ledger (h, [])) : Ledger ({ h with ctl := [] }, h.ctl) := by
  refine hl.rebuffer id rfl rfl (fun _ => rfl) (by simp [framesLen]) (fun sid => ?_)
    ?_ (fun _ _ => rfl) (fun _ => rfl) (plain_allowed hl.ctlPlain) hl.flow
  · simp [plain_data hl.ctlPlain sid]
  · simp [plain_bytes hl.ctlPlain]

lemma send_ledger (hl : Ledger (h, b)) : Ledger (h.emit (.txSend b), []) := by
  refine hl.rebuffer id rfl rfl (fun _ => rfl) ⟨hl.ctlPlain, hl.ctlFits⟩
    (fun sid => ?_) ?_ (fun what d => ?_) (fun sid => ?_) each_nil (each_concat.mpr ⟨hl.flow, hl.record⟩)
  · simp
  · simp
  · simp
  · simp

lemma Ledger.dies (hl : Ledger x) : Ledger ({ x.1 with dead := true }, x.2) :=
  hl.rebuffer (by rintro ⟨⟩) rfl rfl (fun _ => rfl) ⟨hl.ctlPlain, hl.ctlFits⟩
    (fun _ => rfl) rfl (fun _ _ => rfl) (fun _ => rfl) hl.record hl.flow

end TinyLink.Proofs
