import TinyLink.H2Send

/-!
# Streams and slots

The lemmas by which the other proofs read and write the two streams of the engine.
-/

namespace TinyLink.Proofs

section Slots
variable (h : H2Core) (w : H2Slot) (s : H2Stream)

@[simp] lemma setStream_started : (h.setStream w s).started = h.started := by cases w <;> rfl
@[simp] lemma setStream_dead : (h.setStream w s).dead = h.dead := by cases w <;> rfl
@[simp] lemma setStream_goaway : (h.setStream w s).goaway = h.goaway := by cases w <;> rfl
@[simp] lemma setStream_sentSizeUpdate :
    (h.setStream w s).sentSizeUpdate = h.sentSizeUpdate := by cases w <;> rfl
@[simp] lemma setStream_goawayLast :
    (h.setStream w s).goawayLast = h.goawayLast := by cases w <;> rfl
@[simp] lemma setStream_nextId : (h.setStream w s).nextId = h.nextId := by cases w <;> rfl
@[simp] lemma setStream_lastId : (h.setStream w s).lastId = h.lastId := by cases w <;> rfl
@[simp] lemma setStream_settingsUnacked :
    (h.setStream w s).settingsUnacked = h.settingsUnacked := by cases w <;> rfl
@[simp] lemma setStream_connSendWin :
    (h.setStream w s).connSendWin = h.connSendWin := by cases w <;> rfl
@[simp] lemma setStream_connRecvWin :
    (h.setStream w s).connRecvWin = h.connRecvWin := by cases w <;> rfl
@[simp] lemma setStream_connConsumed :
    (h.setStream w s).connConsumed = h.connConsumed := by cases w <;> rfl
@[simp] lemma setStream_peer : (h.setStream w s).peer = h.peer := by cases w <;> rfl
@[simp] lemma setStream_f : (h.setStream w s).f = h.f := by cases w <;> rfl
@[simp] lemma setStream_blk : (h.setStream w s).blk = h.blk := by cases w <;> rfl
@[simp] lemma setStream_ctl : (h.setStream w s).ctl = h.ctl := by cases w <;> rfl
@[simp] lemma setStream_log : (h.setStream w s).log = h.log := by cases w <;> rfl

@[simp] lemma stream_setStream : (h.setStream w s).stream w = s := by cases w <;> rfl

@[simp] lemma stream_setStream_ne {v : H2Slot} (hv : v ≠ w) :
    (h.setStream w s).stream v = h.stream v := by
  cases v <;> cases w <;> first | rfl | exact absurd rfl hv

@[simp] lemma setStream_setStream (t : H2Stream) :
    (h.setStream w s).setStream w t = h.setStream w t := by cases w <;> rfl

lemma setStream_stream : h.setStream w (h.stream w) = h := by cases w <;> rfl

end Slots

@[simp] lemma headed_f (h : H2Core) (f : H2Frame) : (h.headed f).f = f := rfl

variable {h : H2Core}

lemma streamOf_some {sid : ℕ} {w : H2Slot} (hw : h.streamOf sid = some w) :
    (h.stream w).isOpen = true ∧ (h.stream w).id = sid := by
  unfold H2Core.streamOf at hw
  split at hw
  · obtain rfl := Option.some.inj hw
    simp_all [H2Core.stream]
  · split_ifs at hw
    obtain rfl := Option.some.inj hw
    simp_all [H2Core.stream]

lemma streamOf_none {sid : ℕ} (hno : h.streamOf sid = none) (w : H2Slot)
    (ho : (h.stream w).isOpen) : (h.stream w).id ≠ sid := by
  unfold H2Core.streamOf at hno
  rintro rfl
  split_ifs at hno
  cases w <;> simp_all [H2Core.stream]

lemma dataStream_some {w : H2Slot} (hw : h.dataStream = some w) :
    h.f.ignore = false ∧ h.streamOf h.f.sid = some w := by
  unfold H2Core.dataStream at hw
  cases hi : h.f.ignore with
  | true => simp [hi] at hw
  | false => exact ⟨rfl, by simpa [hi] using hw⟩

lemma streamOf_congr {g h : H2Core}
    (hs : ∀ w, (g.stream w).id = (h.stream w).id ∧ (g.stream w).isOpen = (h.stream w).isOpen)
    (sid : ℕ) : g.streamOf sid = h.streamOf sid := by
  have hm : g.s.id = h.s.id ∧ g.s.isOpen = h.s.isOpen := hs .main
  have hv : g.side.id = h.side.id ∧ g.side.isOpen = h.side.isOpen := hs .side
  unfold H2Core.streamOf
  rw [hm.1, hm.2, hv.1, hv.2]

lemma streamOf_setStream (h : H2Core) (w : H2Slot) {s : H2Stream} (hid : s.id = (h.stream w).id)
    (ho : s.isOpen = (h.stream w).isOpen) (sid : ℕ) :
    (h.setStream w s).streamOf sid = h.streamOf sid := by
  refine streamOf_congr (fun v => ?_) sid
  by_cases hv : v = w
  · subst hv
    simp [hid, ho]
  · simp [hv]

end TinyLink.Proofs
