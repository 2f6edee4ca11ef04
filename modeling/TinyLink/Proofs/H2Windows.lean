import TinyLink.Proofs.H2Steps

/-!
# Receive windows

DATA is charged to the windows when its frame begins and given back when it is consumed, whatever
becomes of the stream.
-/

namespace TinyLink.Proofs

variable {io : H2Io} {h h' : H2Core} {f : H2Frame} {v w : H2Slot}

structure RequestKept (s s' : H2Stream) : Prop where
  id : s'.id = s.id
  localEnd : s'.localEnd = s.localEnd
  body : s'.body = s.body
  bodyOff : s'.bodyOff = s.bodyOff
  opened : s'.isOpen = true → s.isOpen = true

structure StreamKept (s s' : H2Stream) : Prop extends RequestKept s s' where
  recvWin : s'.recvWin = s.recvWin
  consumed : s'.consumed = s.consumed

lemma StreamKept.refl (s : H2Stream) :
    StreamKept s s := ⟨⟨rfl, rfl, rfl, rfl, fun ho => ho⟩, rfl, rfl⟩

lemma shifted_kept (s : H2Stream) (delta : ℤ) : StreamKept s (shifted s delta) := by
  unfold shifted
  split
  · exact ⟨⟨rfl, rfl, rfl, rfl, fun ho => ho⟩, rfl, rfl⟩
  · exact .refl s

lemma touch_kept {s : H2Stream} {evs : List H2Event} (ht : Touch h w s evs) :
    StreamKept (h.stream w) s := by
  cases ht with
  | close | reset | finish => exact ⟨⟨rfl, rfl, rfl, rfl, fun ho => by cases ho⟩, rfl, rfl⟩
  | data | grant => exact ⟨⟨rfl, rfl, rfl, rfl, fun ho => ho⟩, rfl, rfl⟩
  | field f =>
    obtain ⟨p, hs, st, cl, he⟩ := streamField_eq (h.stream w) h.blk.trailer f
    rw [he]
    exact ⟨⟨rfl, rfl, rfl, rfl, fun ho => ho⟩, rfl, rfl⟩
  | block =>
    obtain ⟨p, hs, fin, cl, he⟩ := responseBlock_eq (h.stream w) h.blk.endStream
    rw [he]
    exact ⟨⟨rfl, rfl, rfl, rfl, fun ho => ho⟩, rfl, rfl⟩

lemma touched_stream (h : H2Core) (w v : H2Slot) (s : H2Stream) (evs : List H2Event) :
    (touched h w s evs).stream v = if v = w then s else h.stream v := by
  cases v <;> cases w <;> rfl

theorem content_stream (hm : H2Content io h h') (v : H2Slot) :
    StreamKept (h.stream v) (h'.stream v) := by
  cases hm with
  | wire hw => cases hw <;> cases v <;> exact .refl _
  | touch w s evs _ _ ht =>
    rw [touched_stream]
    split
    case isTrue hv =>
      rw [hv]
      exact touch_kept ht
    case isFalse => exact .refl _
  | quit _ _ _ s _ _ _ hs =>
    cases v with
    | main =>
      rcases hs with rfl | ⟨_, _, rfl, _⟩
      · exact .refl _
      · exact shifted_kept _ _
    | side => exact .refl _
  | initialWindow => cases v <;> exact shifted_kept _ _
  | _ => cases v <;> exact .refl _

def InData (f : H2Frame) : Prop := h2FrameHdrLen ≤ f.fh.length ∧ f.type = .data

instance (f : H2Frame) : Decidable (InData f) := inferInstanceAs (Decidable (_ ∧ _))

def dataLeft (f : H2Frame) : ℤ := if InData f then f.left else 0

structure StreamAccounted (f : H2Frame) (s : H2Stream) : Prop where
  pos : 0 < s.id
  sum : s.recvWin + s.consumed + (if f.sid = s.id then dataLeft f else 0) = h2DefaultWindow
  nonneg : 0 ≤ s.consumed
  small : s.consumed < h2WuThreshold ∨
    (InData f ∧ f.sid = s.id ∧ hasFlag f.flags h2FEndStream = true)
  kept : InData f → f.sid = s.id → f.ignore = false

structure Accounted (h : H2Core) : Prop where
  ids : h.lastId < h.nextId
  low : ∀ w, (h.stream w).id ≤ h.lastId
  apart : h.s.id = h.side.id → h.s.id = 0
  conn : h.connRecvWin + h.connConsumed + dataLeft h.f = h2DefaultWindow
  used : 0 ≤ h.connConsumed ∧ h.connConsumed < h2WuThreshold
  frame : InData h.f → 0 < h.f.sid ∧ h.f.sid ≤ h.lastId
  streams : ∀ w, (h.stream w).isOpen = true → StreamAccounted h.f (h.stream w)

lemma slot_unique (hapart : h.s.id = h.side.id → h.s.id = 0)
    (hpos : 0 < (h.stream w).id) (hid : (h.stream v).id = (h.stream w).id) : v = w := by
  cases v <;> cases w <;> simp only [H2Core.stream] at hid hpos ⊢ <;> omega

lemma Accounted.slot (ha : Accounted h) (hpos : 0 < (h.stream w).id)
    (hid : (h.stream v).id = (h.stream w).id) : v = w :=
  slot_unique ha.apart hpos hid

lemma Accounted.others (ha : Accounted h) {sid : ℕ}
    (hw : h.streamOf sid = some w) (hv : v ≠ w) : (h.stream v).id ≠ sid := by
  obtain ⟨ho, hid⟩ := streamOf_some hw
  intro he
  exact hv (ha.slot (ha.streams w ho).pos (he.trans hid.symm))

lemma inData_same {f' : H2Frame} (hs : SameFrame f f') : InData f' ↔ InData f := by
  unfold InData
  rw [hs.fh, hs.type]

lemma dataLeft_same {f' : H2Frame} (hs : SameFrame f f') : dataLeft f' = dataLeft f := by
  unfold dataLeft
  rw [hs.left]
  exact if_congr (inData_same hs) rfl rfl

lemma content_conn (hm : H2Content io h h') :
    h'.connRecvWin = h.connRecvWin ∧ h'.connConsumed = h.connConsumed ∧ h'.nextId = h.nextId ∧
      h'.lastId = h.lastId := by
  cases hm with
  | wire hw => cases hw <;> exact ⟨rfl, rfl, rfl, rfl⟩
  | touch => simp [touched]
  | _ => exact ⟨rfl, rfl, rfl, rfl⟩

lemma Accounted.gone (ha : Accounted h) (hgone : Gone h) (ho : (h.stream v).isOpen) :
    (h.stream v).id ≠ h.f.sid := by
  rcases hgone with hno | ⟨w, hid, hclosed⟩
  · exact streamOf_none hno v ho
  · intro he
    obtain rfl := ha.slot (ha.streams v ho).pos (hid.trans he.symm)
    rw [ho] at hclosed
    cases hclosed

lemma content_ignore (hm : H2Content io h h') (ha : Accounted h) :
    h'.f.ignore = h.f.ignore ∨ ∀ v, (h'.stream v).isOpen = true → (h'.stream v).id ≠ h'.f.sid := by
  cases hm with
  | wire hw => cases hw <;> exact .inl rfl
  | touch => exact .inl (by simp [touched])
  | ignore hgone =>
    refine .inr fun v ho => ?_
    cases v with
    | main => exact Accounted.gone (h := h) (v := .main) ha hgone ho
    | side => exact Accounted.gone (h := h) (v := .side) ha hgone ho
  | _ => exact .inl rfl

lemma Accounted.kept (ha : Accounted h)
    (hconn : h'.connRecvWin = h.connRecvWin ∧ h'.connConsumed = h.connConsumed ∧
      h'.nextId = h.nextId ∧ h'.lastId = h.lastId) (hf : SameFrame h.f h'.f)
    (hig : h'.f.ignore = h.f.ignore ∨
      ∀ w, (h'.stream w).isOpen = true → (h'.stream w).id ≠ h'.f.sid)
    (hid : ∀ w, (h'.stream w).id = (h.stream w).id ∨ (h'.stream w).id = 0)
    (hopen : ∀ w, (h'.stream w).isOpen = true → (h.stream w).isOpen = true ∧
      (h'.stream w).id = (h.stream w).id ∧ (h'.stream w).recvWin = (h.stream w).recvWin ∧
      (h'.stream w).consumed = (h.stream w).consumed) : Accounted h' := by
  obtain ⟨hwin, hused, hnext, hlast⟩ := hconn
  refine ⟨?_, ?_, ?_, ?_, ?_, ?_, ?_⟩
  · rw [hlast, hnext]
    exact ha.ids
  · intro w
    have hlow := ha.low w
    rw [hlast]
    rcases hid w with he | he <;> omega
  · have hs : h'.s.id = h.s.id ∨ h'.s.id = 0 := hid .main
    have hv : h'.side.id = h.side.id ∨ h'.side.id = 0 := hid .side
    have hapart := ha.apart
    omega
  · rw [hwin, hused, dataLeft_same hf]
    exact ha.conn
  · rw [hused]
    exact ha.used
  · rw [inData_same hf, hf.sid, hlast]
    exact ha.frame
  · intro w ho
    obtain ⟨ho', hid', hwin', hused'⟩ := hopen w ho
    have hs := ha.streams w ho'
    refine ⟨?_, ?_, ?_, ?_, ?_⟩
    · rw [hid']
      exact hs.pos
    · rw [hwin', hused', hid', hf.sid, dataLeft_same hf]
      exact hs.sum
    · rw [hused']
      exact hs.nonneg
    · rw [hused', hid', hf.sid, hf.flags, inData_same hf]
      exact hs.small
    · intro hin hsid
      rcases hig with hig | hgone
      · rw [hig]
        rw [inData_same hf] at hin
        rw [hf.sid, hid'] at hsid
        exact hs.kept hin hsid
      · exact absurd hsid.symm (hgone w ho)

lemma content_accounted (hm : H2Content io h h') (ha : Accounted h) : Accounted h' :=
  ha.kept (content_conn hm) (content_sameFrame hm) (content_ignore hm ha)
    (fun w => .inl (content_stream hm w).id) fun w ho =>
      have hk := content_stream hm w
      ⟨hk.opened ho, hk.id, hk.recvWin, hk.consumed⟩

lemma Accounted.balanced (ha : Accounted h) (hq : ¬ InData h.f) :
    h.connRecvWin + h.connConsumed = h2DefaultWindow ∧ ∀ w, (h.stream w).isOpen = true →
        (h.stream w).recvWin + (h.stream w).consumed = h2DefaultWindow ∧
          0 ≤ (h.stream w).consumed ∧ (h.stream w).consumed < h2WuThreshold := by
  have hzero : dataLeft h.f = 0 := if_neg hq
  refine ⟨by simpa [hzero] using ha.conn, fun w ho => ?_⟩
  have hs := ha.streams w ho
  exact ⟨by simpa [hzero] using hs.sum, hs.nonneg, hs.small.resolve_right fun hin => hq hin.1⟩

lemma Accounted.reframe (ha : Accounted h) (hq : ¬ InData h.f) (hq' : ¬ InData h'.f)
    (hwin : h'.connRecvWin = h.connRecvWin) (hused : h'.connConsumed = h.connConsumed)
    (hnext : h'.nextId = h.nextId) (hlast : h'.lastId = h.lastId)
    (hstream : ∀ w, h'.stream w = h.stream w) : Accounted h' := by
  obtain ⟨hconn, hstreams⟩ := ha.balanced hq
  have hzero : dataLeft h'.f = 0 := if_neg hq'
  refine ⟨by rw [hlast, hnext]; exact ha.ids, fun w => by rw [hstream, hlast]; exact ha.low w, ?_,
    by rw [hwin, hused, hzero, add_zero, hconn], by rw [hused]; exact ha.used,
    fun hin => absurd hin hq', fun w ho => ?_⟩
  · have hs : h'.s = h.s := hstream .main
    have hv : h'.side = h.side := hstream .side
    rw [hs, hv]
    exact ha.apart
  · rw [hstream] at ho ⊢
    obtain ⟨hsum, hnonneg, hsmall⟩ := hstreams w ho
    exact ⟨(ha.streams w ho).pos, by simp [hzero, hsum], hnonneg, .inl hsmall,
      fun hin => absurd hin hq'⟩

lemma not_inData_of_short (hl : f.fh.length < h2FrameHdrLen) : ¬ InData f :=
  fun hin => absurd hin.1 (Nat.not_le.mpr hl)

lemma not_inData_of_type (ht : f.type ≠ .data) : ¬ InData f := fun hin => ht hin.2

lemma beginIgnored_accounted (ha : Accounted h)
    (hold : h.f.fh.length < h2FrameHdrLen) (hin : InData f) (hid : 0 < f.sid ∧ f.sid ≤ h.lastId)
    (hleft : f.left = f.len) (hno : h.streamOf f.sid = none) :
    Accounted ({ h with f := f, connRecvWin := h.connRecvWin - f.len }.note
      (.frame f.type f.flags f.sid)) := by
  obtain ⟨hconn, hstreams⟩ := ha.balanced (not_inData_of_short hold)
  have hdata : dataLeft f = f.len := by rw [← hleft]; exact if_pos hin
  refine ⟨ha.ids, ?_, ha.apart, ?_, ha.used, fun _ => hid, ?_⟩
  · intro w
    have := ha.low w
    exact this
  · change h.connRecvWin - f.len + h.connConsumed + dataLeft f = h2DefaultWindow
    rw [hdata]
    omega
  · intro w ho
    have ho' : (h.stream w).isOpen = true := ho
    have hne : f.sid ≠ (h.stream w).id := fun he => streamOf_none hno w ho' he.symm
    obtain ⟨hsum, hnonneg, hsmall⟩ := hstreams w ho'
    have hs : StreamAccounted f (h.stream w) :=
      ⟨(ha.streams w ho').pos, by simp [hne, hsum], hnonneg, .inl hsmall,
        fun _ he => absurd he hne⟩
    exact hs

lemma beginData_accounted (ha : Accounted h)
    (hold : h.f.fh.length < h2FrameHdrLen) (hin : InData f) (hid : 0 < f.sid ∧ f.sid ≤ h.lastId)
    (hleft : f.left = f.len) (hw : h.streamOf f.sid = some w) (hig : f.ignore = false) :
    Accounted ((({ h with f := f, connRecvWin := h.connRecvWin - f.len } : H2Core).setStream w
      { h.stream w with recvWin := (h.stream w).recvWin - f.len }).note
        (.frame f.type f.flags f.sid)) := by
  obtain ⟨hconn, hstreams⟩ := ha.balanced (not_inData_of_short hold)
  have hdata : dataLeft f = f.len := by rw [← hleft]; exact if_pos hin
  obtain ⟨ho, hsid⟩ := streamOf_some hw
  refine ⟨?_, ?_, ?_, ?_, ?_, ?_, ?_⟩
  · cases w <;> exact ha.ids
  · intro v
    have := ha.low v
    cases v <;> cases w <;> exact this
  · cases w <;> exact ha.apart
  · have hsum : h.connRecvWin - f.len + h.connConsumed + dataLeft f = h2DefaultWindow := by
      rw [hdata]
      omega
    cases w <;> exact hsum
  · cases w <;> exact ha.used
  · cases w <;> exact fun _ => hid
  · intro v hv
    have hv' : (h.stream v).isOpen = true := by cases v <;> cases w <;> exact hv
    obtain ⟨hsum, hnonneg, hsmall⟩ := hstreams v hv'
    have hpos := (ha.streams v hv').pos
    by_cases hvw : v = w
    · subst hvw
      have hs : StreamAccounted f { h.stream v with recvWin := (h.stream v).recvWin - f.len } :=
        ⟨hpos, by simp only [hsid, if_true, hdata]; omega, hnonneg, .inl hsmall, fun _ _ => hig⟩
      cases v <;> exact hs
    · have hne : f.sid ≠ (h.stream v).id := fun he => ha.others hw hvw he.symm
      have hs : StreamAccounted f (h.stream v) :=
        ⟨hpos, by simp [hne, hsum], hnonneg, .inl hsmall, fun _ he => absurd he hne⟩
      cases v <;> cases w <;> first | exact hs | exact absurd rfl hvw

lemma renew_sum (win used : ℤ) (n : ℕ) (hold : Bool) :
    (renew win used n hold).1 + (renew win used n hold).2 = win + used + n := by
  unfold renew
  split <;> dsimp only <;> omega

lemma renew_nonneg {win used : ℤ} {n : ℕ} {hold : Bool} (hu : 0 ≤ used) :
    0 ≤ (renew win used n hold).2 := by
  unfold renew
  split <;> dsimp only <;> omega

lemma renew_small (win used : ℤ) (n : ℕ) (hold : Bool) :
    (renew win used n hold).2 < h2WuThreshold ∨ hold = true := by
  unfold renew
  cases hold with
  | true => exact .inr rfl
  | false =>
    refine .inl ?_
    split
    · exact (by decide : (0 : ℤ) < h2WuThreshold)
    case isFalse hs => simpa using hs

lemma consume_conn (h : H2Core) (n : ℕ) :
    (consume h n).connRecvWin = (renew h.connRecvWin h.connConsumed n false).1 ∧
      (consume h n).connConsumed = (renew h.connRecvWin h.connConsumed n false).2 ∧
      (consume h n).nextId = h.nextId ∧ (consume h n).lastId = h.lastId ∧
      (consume h n).dead = h.dead := by
  unfold consume streamRenewed
  split <;> simp [connRenewed]

lemma consume_stream (h : H2Core) (n : ℕ) (v : H2Slot) : (consume h n).stream v =
      if h.dataStream = some v then renewStream (h.stream v) n (hasFlag h.f.flags h2FEndStream)
      else h.stream v := by
  have hsame : (connRenewed h n).dataStream = h.dataStream := rfl
  unfold consume streamRenewed
  rw [hsame]
  cases hw : h.dataStream with
  | none => cases v <;> rfl
  | some w => cases v <;> cases w <;> rfl

lemma consume_accounted {n : ℕ} (ha : Accounted h) (hin : InData h.f) (hn : n ≤ h.f.left) :
    Accounted { consume h n with f := { h.f with left := h.f.left - n } } := by
  obtain ⟨hwin, hused, hnext, hlast, -⟩ := consume_conn h n
  have hdata : dataLeft h.f = h.f.left := if_pos hin
  have hdata' : dataLeft { h.f with left := h.f.left - n } = h.f.left - n := by
    have : InData { h.f with left := h.f.left - n } := hin
    simp only [dataLeft, this, if_true]
    omega
  have hid (w : H2Slot) : ((consume h n).stream w).id = (h.stream w).id := by
    rw [consume_stream]
    split <;> rfl
  have hslot (w : H2Slot) : ({ consume h n with f := { h.f with left := h.f.left - n } } :
      H2Core).stream w = (consume h n).stream w := rfl
  refine ⟨?_, ?_, ?_, ?_, ?_, ?_, ?_⟩
  · change (consume h n).lastId < (consume h n).nextId
    rw [hlast, hnext]
    exact ha.ids
  · intro w
    rw [hslot, hid]
    rw [hlast]
    exact ha.low w
  · have hs : (consume h n).s.id = h.s.id := hid .main
    have hv : (consume h n).side.id = h.side.id := hid .side
    rw [hs, hv]
    exact ha.apart
  · change (consume h n).connRecvWin + (consume h n).connConsumed + dataLeft _ = _
    have hsum := renew_sum h.connRecvWin h.connConsumed n false
    have hconn := ha.conn
    rw [hwin, hused, hdata', hsum]
    rw [hdata] at hconn
    omega
  · change 0 ≤ (consume h n).connConsumed ∧ (consume h n).connConsumed < h2WuThreshold
    rw [hused]
    exact ⟨renew_nonneg ha.used.1, (renew_small _ _ n false).resolve_right Bool.false_ne_true⟩
  · intro _
    change 0 < h.f.sid ∧ h.f.sid ≤ (consume h n).lastId
    rw [hlast]
    exact ha.frame hin
  · intro w ho
    rw [hslot] at ho ⊢
    rw [consume_stream] at ho ⊢
    by_cases hw : h.dataStream = some w
    · rw [if_pos hw] at ho ⊢
      have hs := ha.streams w ho
      have hsid := (streamOf_some (dataStream_some hw).2).2
      have hsum := renew_sum (h.stream w).recvWin (h.stream w).consumed n
        (hasFlag h.f.flags h2FEndStream)
      have hold := hs.sum
      rw [if_pos hsid.symm, hdata] at hold
      refine ⟨hs.pos, ?_, renew_nonneg hs.nonneg, ?_, fun _ _ => (dataStream_some hw).1⟩
      · change (renew _ _ _ _).1 + (renew _ _ _ _).2 +
          (if h.f.sid = (h.stream w).id then dataLeft { h.f with left := h.f.left - n } else 0) = _
        rw [if_pos hsid.symm, hdata']
        omega
      · exact (renew_small _ _ n _).imp_right fun hend => ⟨hin, hsid.symm, hend⟩
    · rw [if_neg hw] at ho ⊢
      have hs := ha.streams w ho
      -- an open stream with the id of the frame would be the frame's stream
      have hne : h.f.sid ≠ (h.stream w).id := by
        intro he
        refine hw ?_
        rw [H2Core.dataStream, hs.kept hin he, if_neg (by simp)]
        cases hof : h.streamOf h.f.sid with
        | none => exact absurd he.symm (streamOf_none hof w ho)
        | some =>
          by_contra hvw
          exact ha.others hof (fun hwv => hvw (by rw [hwv])) he.symm
      exact ⟨hs.pos, by simpa [hne] using hs.sum, hs.nonneg,
        hs.small.imp_right fun hx => absurd hx.2.1 hne, fun _ he => absurd he hne⟩

lemma endFrame_accounted (ha : Accounted h) (hleft : h.f.left = 0)
    (hgone : h.f.type = .data → hasFlag h.f.flags h2FEndStream = true →
      h.f.ignore = true ∨ Gone h) :
    Accounted { h with f := { h.f with fh := [] } } := by
  have hzero : dataLeft h.f = 0 := by
    unfold dataLeft
    split <;> simp [hleft]
  have hq : ¬ InData { h.f with fh := [] } :=
    not_inData_of_short (show ([] : Bytes).length < _ by decide)
  have hzero' : dataLeft { h.f with fh := [] } = 0 := if_neg hq
  refine ⟨ha.ids, fun w => by have := ha.low w; cases w <;> exact this, ha.apart, ?_, ha.used,
    fun hin => absurd hin hq, fun w ho => ?_⟩
  · have hconn := ha.conn
    rw [hzero] at hconn
    rw [hzero', hconn]
  · have ho' : (h.stream w).isOpen = true := ho
    have hs := ha.streams w ho'
    have hsmall : (h.stream w).consumed < h2WuThreshold := by
      refine hs.small.resolve_right ?_
      rintro ⟨hin, hsid, hend⟩
      rcases hgone hin.2 hend with hig | hno
      · rw [hs.kept hin hsid] at hig
        cases hig
      · exact ha.gone hno ho' hsid.symm
    have hs' : StreamAccounted { h.f with fh := [] } (h.stream w) :=
      ⟨hs.pos, by simpa [hzero, hzero'] using hs.sum, hs.nonneg, .inl hsmall,
        fun hin => absurd hin hq⟩
    exact hs'

lemma content_dead (hm : H2Content io h h') (hd : h.dead) : h'.dead = true := by
  cases hm with
  | wire hw => cases hw <;> first | rfl | exact hd
  | touch => simp [touched, hd]
  | quit => rfl
  | _ => exact hd

lemma move_dead (hm : H2Move io h h') (hd : h.dead) : h'.dead = true := by
  cases hm with
  | content hc => exact content_dead hc hd
  | consume n => exact (consume_conn h n).2.2.2.2.trans hd
  | beginData => simp [hd]
  | _ => exact hd

lemma move_accounted (hm : H2Move io h h') (ha : h.dead = true ∨ Accounted h) :
    h'.dead = true ∨ Accounted h' := by
  rcases ha with hd | ha
  · exact .inl (move_dead hm hd)
  · cases hm with
    | content hc => exact .inr (content_accounted hc ha)
    | header _ hold hl =>
      exact .inr (ha.reframe (not_inData_of_short hold) (not_inData_of_short hl) rfl rfl rfl rfl
        fun _ => rfl)
    | beginOther _ hold _ _ ht =>
      exact .inr (ha.reframe (not_inData_of_short hold) (not_inData_of_type ht.1) rfl rfl rfl rfl
        fun _ => rfl)
    | beginHeaders _ _ hold _ ht | beginContinuation _ _ hold _ ht =>
      exact .inr (ha.reframe (not_inData_of_short hold) (not_inData_of_type (by simp [ht])) rfl rfl rfl rfl fun _ => rfl)
    | beginIgnored _ hold hfh ht _ hid hleft hno =>
      exact .inr (beginIgnored_accounted ha hold ⟨hfh.ge, ht⟩ hid hleft hno)
    | beginData _ _ hold hfh ht _ hid hleft hw hig =>
      exact .inr (beginData_accounted ha hold ⟨hfh.ge, ht⟩ hid hleft hw hig)
    | pass n ht =>
      exact .inr (ha.reframe (not_inData_of_type ht) (not_inData_of_type ht) rfl rfl rfl rfl
        fun _ => rfl)
    | consume n hin ht hn => exact .inr (consume_accounted ha ⟨hin, ht⟩ hn)
    | endFrame hleft hgone => exact .inr (endFrame_accounted ha hleft hgone)
    | rubble _ _ _ _ _ _ _ _ hd => exact .inl hd

lemma opened_accounted (ha : Accounted h) (body : Bytes) : Accounted (opened h w body) := by
  have hids := ha.ids
  have hlow := ha.low
  have hfresh : StreamAccounted h.f (.fresh h.nextId h.peer.initialWin body) := by
    have hne (hin : InData h.f) : h.f.sid ≠ h.nextId := by
      have := (ha.frame hin).2
      omega
    refine ⟨(Nat.zero_le _).trans_lt hids, ?_, by simp [H2Stream.fresh, H2Stream.zero],
      .inl (show (0 : ℤ) < h2WuThreshold by decide), fun hin he => absurd he (hne hin)⟩
    change h2DefaultWindow + 0 + (if h.f.sid = h.nextId then dataLeft h.f else 0) = _
    by_cases hin : InData h.f
    · simp [hne hin]
    · simp [dataLeft, hin]
  refine ⟨?_, ?_, ?_, ?_, ?_, ?_, ?_⟩
  · cases w <;> exact (Nat.lt_add_of_pos_right (by decide) : h.nextId < h.nextId + 2)
  · intro v
    have := (hlow v).trans hids.le
    cases v <;> cases w <;> first | exact this | exact le_rfl
  · have hs : h.s.id < h.nextId := (hlow .main).trans_lt hids
    have hv : h.side.id < h.nextId := (hlow .side).trans_lt hids
    cases w with
    | main => exact fun he => absurd he hv.ne'
    | side => exact fun he => absurd he hs.ne
  · cases w <;> exact ha.conn
  · cases w <;> exact ha.used
  · have hframe (hin : InData h.f) : 0 < h.f.sid ∧ h.f.sid ≤ h.nextId :=
      ⟨(ha.frame hin).1, (ha.frame hin).2.trans hids.le⟩
    cases w <;> exact hframe
  · intro v ho
    by_cases hv : v = w
    · subst hv
      cases v <;> exact hfresh
    · rw [opened_stream, if_neg hv] at ho ⊢
      cases w <;> exact ha.streams v ho

lemma Accounted.kept_or (ha : h.dead = true ∨ Accounted h) (hd : h'.dead = h.dead)
    (hconn : h'.connRecvWin = h.connRecvWin ∧ h'.connConsumed = h.connConsumed ∧
      h'.nextId = h.nextId ∧ h'.lastId = h.lastId) (hf : h'.f = h.f)
    (hid : ∀ w, (h'.stream w).id = (h.stream w).id ∨ (h'.stream w).id = 0)
    (hopen : ∀ w, (h'.stream w).isOpen = true → (h.stream w).isOpen = true ∧
      (h'.stream w).id = (h.stream w).id ∧ (h'.stream w).recvWin = (h.stream w).recvWin ∧
      (h'.stream w).consumed = (h.stream w).consumed) : h'.dead = true ∨ Accounted h' := by
  rw [hd]
  exact ha.imp_right fun ha => ha.kept hconn (by rw [hf]; exact .refl _) (.inl (by rw [hf])) hid
    hopen

lemma act_accounted {x y : H2Core × List OutFrame} (hs : H2Act io x y)
    (ha : x.1.dead = true ∨ Accounted x.1) : y.1.dead = true ∨ Accounted y.1 := by
  cases hs with
  | wire hw => exact move_accounted (.content (.wire hw)) ha
  | fail | startFail => exact .inl rfl
  | cancel h =>
    refine Accounted.kept_or ha rfl ⟨rfl, rfl, rfl, rfl⟩ rfl (fun w => by cases w <;> exact .inl rfl) ?_
    intro w ho
    cases w with
    | main => exact ⟨ho, rfl, rfl, rfl⟩
    | side => cases ho
  | data _ _ w =>
    refine Accounted.kept_or ha ?_ ?_ ?_ (fun v => by cases v <;> cases w <;> exact .inl rfl) ?_
    · simp [putDataFrame]
    · simp [putDataFrame]
    · simp [putDataFrame]
    · intro v ho
      cases v <;> cases w <;> exact ⟨ho, rfl, rfl, rfl⟩
  | _ =>
    refine Accounted.kept_or ha rfl ⟨rfl, rfl, rfl, rfl⟩ rfl (fun w => .inl rfl) ?_
    intro w ho
    exact ⟨ho, rfl, rfl, rfl⟩

lemma step_accounted {x y : H2Core × List OutFrame} (hs : H2Step io x y)
    (ha : x.1.dead = true ∨ Accounted x.1) : y.1.dead = true ∨ Accounted y.1 := by
  rcases hs with hm | (hact | ⟨_, _, _, body, _, _, hd⟩ | h)
  · exact move_accounted hm ha
  · exact act_accounted hact ha
  · exact .inr (opened_accounted (ha.resolve_left (by simp [hd])) body)
  · refine Accounted.kept_or ha rfl ⟨rfl, rfl, rfl, rfl⟩ rfl ?_ ?_
    · intro w
      cases w with
      | main => exact .inl rfl
      | side => exact .inr rfl
    · intro w ho
      cases w with
      | main => exact ⟨ho, rfl, rfl, rfl⟩
      | side => cases ho

lemma init_accounted : Accounted h2cInit := by
  refine ⟨by decide, ?_, fun _ => rfl, by decide, by decide, fun hin => ?_, ?_⟩
  · intro w
    cases w <;> exact le_rfl
  · exact absurd hin (by decide)
  · intro w ho
    cases w <;> cases ho

/-- `feedLoop io k` is the state after at most `k` passes of the loop of a call that feeds bytes. -/
theorem receive_windows_accounted {io : H2Io} (E : H2Run io) {n : ℕ} (hn : n ≤ E.length)
    (p : Bytes) (k : ℕ) (hd : (E.state n).dead = false)
    (hd' : (feedLoop io k (E.state n) p).1.dead = false) :
    let h := (feedLoop io k (E.state n) p).1
    (h.f.fh.length < h2FrameHdrLen →
      h.connRecvWin + h.connConsumed = 65535 ∧ 0 ≤ h.connConsumed ∧ h.connConsumed < 32767 ∧
        (∀ w, (h.stream w).isOpen = true →
          (h.stream w).recvWin + (h.stream w).consumed = 65535 ∧
            0 ≤ (h.stream w).consumed ∧ (h.stream w).consumed < 32767) ∧
        -- the two checks of a DATA frame that begins here
        ∀ f : H2Frame, f.len ≤ h2MaxFrame → ¬ h.connRecvWin - f.len < 0 ∧
          ∀ w, h.streamOf f.sid = some w → ¬ (h.stream w).recvWin - f.len < 0) ∧
    (h2FrameHdrLen ≤ h.f.fh.length → h.f.type = .data →
      h.connRecvWin + h.connConsumed = 65535 - h.f.left) := by
  have ha : (E.state n).dead = true ∨ Accounted (E.state n) :=
    session_invariant E (P := fun x => x.1.dead = true ∨ Accounted x.1) (.inr init_accounted)
      (fun x y hs => step_accounted hs) hn
  have hmoves := (feedLoop_does io k p hd).moves
  intro h
  have hh : h.dead = true ∨ Accounted h := by
    change H2Moves io _ h at hmoves
    generalize h = h' at *
    induction hmoves with
    | refl => exact ha
    | tail _ hm ih => exact move_accounted hm ih
  have ha := hh.resolve_left (by simp [h, hd'])
  constructor
  · intro hshort
    obtain ⟨hconn, hstreams⟩ := ha.balanced (not_inData_of_short hshort)
    refine ⟨hconn, ha.used.1, ha.used.2, hstreams, fun f hlen => ?_⟩
    have hlen' : (f.len : ℤ) ≤ 16384 := by exact_mod_cast hlen
    have hused : h.connConsumed < 32767 := ha.used.2
    have hconn : h.connRecvWin + h.connConsumed = 65535 := hconn
    refine ⟨by omega, fun w hw => ?_⟩
    obtain ⟨hsum, -, hsmall⟩ := hstreams w (streamOf_some hw).1
    have hsmall : (h.stream w).consumed < 32767 := hsmall
    omega
  · intro hlong ht
    have hconn := ha.conn
    have hleft : dataLeft h.f = h.f.left := if_pos ⟨hlong, ht⟩
    have hdef : h2DefaultWindow = 65535 := rfl
    omega

section Sample
open StepSystem

def okCalls : List H2Call :=
  [.start, .request none ⟨[], []⟩, .feed [0, 0, 1, 1, 4, 0, 0, 0, 1, 0x88]]

def okRun : H2Run (.willing 1024) := runOf h2cInit rfl .pump okCalls rfl

theorem padded_data_accounted :
    let h := (feedLoop (.willing 1024) 2 (okRun.state 3) [0, 0, 4, 0, 8, 0, 0, 0, 1, 2, 97, 0]).1
    h.f.left = 1 ∧ h.connRecvWin + h.connConsumed = 65535 - h.f.left :=
  ⟨by decide +kernel, (receive_windows_accounted okRun (n := 3) (by decide)
    [0, 0, 4, 0, 8, 0, 0, 0, 1, 2, 97, 0] 2 (by decide +kernel) (by decide +kernel)).2
    (by decide +kernel) (by decide +kernel)⟩

end Sample

end TinyLink.Proofs
