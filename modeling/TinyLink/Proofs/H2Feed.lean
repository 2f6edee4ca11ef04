import TinyLink.Proofs.H2Moves

/-!
# Feeding bytes is a sequence of moves

The frame parser around the content of frames, and the loops of `frame_payload` and `feed`.
-/

namespace TinyLink.Proofs

variable {p : Bytes} {h : H2Core} {f : H2Frame}

section Receive
variable (io : H2Io)

lemma contents_does {io : H2Io} {r : H2Res} (hr : Does (H2Content io) h r) :
    Does (H2Move io) h r := ⟨contents_moves hr.moves, hr.lives⟩

lemma beginError_does (hd : h.dead = false) (hold : h.f.fh.length < h2FrameHdrLen) (f : H2Frame)
    (blk : H2Block) (win : ℤ) (code : ℕ) :
    Does (H2Move io) h (connError io { h.headed f with blk := blk, connRecvWin := win } code) := by
  obtain ⟨sent, hsent, hr⟩ := connError_sends io
    (h := { h.headed f with blk := blk, connRecvWin := win }) hd code
  have hquit := H2Content.quit h [.frame f.type f.flags f.sid] sent code h.s hd
    (by simpa [Inbound] using hold) hsent (.inl rfl)
  refine ⟨?_, by rw [hr]; simp⟩
  rw [hr]
  exact (Relation.ReflTransGen.single (.content hquit)).tail (.rubble _ f blk win _ _ _ _ _ rfl)

lemma headedError_does (hd : h.dead = false) (hold : h.f.fh.length < h2FrameHdrLen) (f : H2Frame)
    (code : ℕ) : Does (H2Move io) h (connError io (h.headed f) code) :=
  beginError_does io hd hold f h.blk h.connRecvWin code

lemma idle_le {sid : ℕ} (hid : ¬ idleStream h sid = true) : sid ≤ h.lastId := by
  simp only [idleStream, Bool.and_eq_true, Bool.or_eq_true, decide_eq_true_eq, not_and, not_or] at hid
  by_cases hz : sid = 0
  · omega
  · exact Nat.le_of_not_lt (hid hz).2

lemma idle_sid {sid : ℕ} (hid : ¬ (sid = 0 || idleStream h sid) = true) :
    0 < sid ∧ sid ≤ h.lastId := by
  simp only [Bool.or_eq_true, decide_eq_true_eq, not_or] at hid
  exact ⟨Nat.pos_of_ne_zero hid.1, idle_le hid.2⟩

lemma chargeStream_type (h : H2Core) : (chargeStream io h).1.f.type = h.f.type := by
  unfold chargeStream
  split
  · rfl
  · dsimp only
    split <;> simp [(streamError_flags io _ _).1]

section Begin
variable (hd : h.dead = false) (hold : h.f.fh.length < h2FrameHdrLen)
  (hfh : f.fh.length = h2FrameHdrLen)
include hd hold hfh

lemma chargeStream_does (ht : f.type = .data) (hc : h.blk.contSid = 0)
    (hid : 0 < f.sid ∧ f.sid ≤ h.lastId) (hleft : f.left = f.len) : Does (H2Move io) h
      (chargeStream io { h.headed f with connRecvWin := h.connRecvWin - f.len }) := by
  unfold chargeStream
  split
  case h_1 hw =>
    exact .one (.beginIgnored h { f with ignore := true } hold hfh ht hc hid hleft hw) hd
  case h_2 w hw =>
    have hmove : H2Moves io h _ := .single
      (.beginData h { f with ignore := false } w hold hfh ht hc hid hleft hw rfl)
    dsimp only
    split
    · refine .after ?_ (contents_does (streamError_does io ?_ (by decide)))
      · cases w <;> exact hmove
      · cases w <;> exact hd
    · refine .ok ?_ ?_
      · cases w <;> exact hmove
      · cases w <;> exact hd

lemma beginData_does (ht : f.type = .data) (hc : h.blk.contSid = 0) (hleft : f.left = f.len) :
    Does (H2Move io) h (beginData io (h.headed f)) := by
  unfold beginData
  split
  · exact headedError_does io hd hold f _
  case isFalse hid =>
    have hid := idle_sid (h := h) hid
    split
    · exact headedError_does io hd hold f _
    · dsimp only
      split
      · exact beginError_does io hd hold f h.blk _ _
      · refine (chargeStream_does io hd hold hfh ht hc hid hleft).andThen fun _ hlive => ?_
        refine .one (.content (.progress _ _ _ _ _ _ _ (fun _ => .inr ?_) id (.inr rfl))) hlive
        rw [chargeStream_type]
        exact ht

lemma beginHeaders_does (ht : f.type = .headers) :
    Does (H2Move io) h (beginHeaders io (h.headed f)) := by
  unfold beginHeaders
  split
  · exact headedError_does io hd hold f _
  · split
    · exact headedError_does io hd hold f _
    · have hcont : (if hasFlag f.flags h2FEndHeaders then 0 else f.sid) = 0 ∨
          (if hasFlag f.flags h2FEndHeaders then 0 else f.sid) = f.sid := by
        split
        · exact .inl rfl
        · exact .inr rfl
      have htrail : (h.streamOf f.sid).any (fun w => (h.stream w).final) = true →
          ∃ w, h.streamOf f.sid = some w ∧ (h.stream w).final = true :=
        (Option.any_eq_true _ _).mp
      exact .one (.beginHeaders h { f with
        bodyLeft := f.len - prioLen f.flags
        phase :=
          if hasFlag f.flags h2FPadded then .padlen
          else if hasFlag f.flags h2FPriority then .prio
          else .body } _ hold hfh ht rfl htrail hcont bare_begin) hd

lemma beginContinuation_does (ht : f.type = .continuation)
    (hsid : h.blk.contSid = 0 ∨ h.blk.contSid = f.sid) :
    Does (H2Move io) h (beginContinuation io (h.headed f)) := by
  unfold beginContinuation
  split
  · exact headedError_does io hd hold f _
  case isFalse hc =>
    have hsid : h.blk.contSid = f.sid := hsid.resolve_left hc
    dsimp only
    split
    · exact beginError_does io hd hold f _ h.connRecvWin _
    · have hcont : (if hasFlag f.flags h2FEndHeaders then 0 else h.blk.contSid) = 0 ∨
          (if hasFlag f.flags h2FEndHeaders then 0 else h.blk.contSid) = f.sid := by
        split
        · exact .inl rfl
        · exact .inr hsid
      exact .one (.beginContinuation h { f with bodyLeft := f.len, phase := .body } _ hold hfh ht hc
        hsid rfl rfl hcont id) hd

lemma beginFixed_does (hc : h.blk.contSid = 0)
    (ht : f.type ≠ .data ∧ f.type ≠ .headers ∧ f.type ≠ .continuation ∧ f.type ≠ .windowUpdate)
    (sidOk lenOk : Bool) : Does (H2Move io) h (beginFixed io (h.headed f) sidOk lenOk) := by
  unfold beginFixed
  split
  · exact headedError_does io hd hold f _
  · split
    · exact headedError_does io hd hold f _
    · exact .one (.beginOther h { f with phase := .fixed } hold hfh hc ⟨ht.1, ht.2.1, ht.2.2.1⟩
        (by simp [Loaded]) fun hwu => absurd hwu ht.2.2.2) hd

lemma beginFrame_does (hleft : f.left = f.len) (hskip : f.phase = .skip) :
    Does (H2Move io) h (beginFrame io (h.headed f)) := by
  unfold beginFrame
  dsimp only
  split
  · exact headedError_does io hd hold f _
  · split
    · exact headedError_does io hd hold f _
    case isFalse hcont =>
      have hcont : h.blk.contSid = 0 ∨ (f.type = .continuation ∧ h.blk.contSid = f.sid) := by
        by_contra hno
        obtain ⟨hne, hno⟩ := not_or.mp hno
        refine hcont ?_
        simp only [Bool.and_eq_true, Bool.or_eq_true, decide_eq_true_eq]
        refine ⟨hne, ?_⟩
        by_contra hok
        obtain ⟨ht, hs⟩ := not_or.mp hok
        exact hno ⟨not_not.mp ht, (not_not.mp hs).symm⟩
      have hzero (ht : f.type ≠ .continuation) : h.blk.contSid = 0 :=
        hcont.resolve_right fun hc => ht hc.1
      have hplain (ht : f.type ≠ .data ∧ f.type ≠ .headers ∧ f.type ≠ .continuation ∧
          f.type ≠ .windowUpdate) : Does (H2Move io) h (h.headed f, .ok) :=
        .one (.beginOther h f hold hfh (hzero ht.2.2.1) ⟨ht.1, ht.2.1, ht.2.2.1⟩
          (by simp [Loaded, hskip]) fun hwu => absurd hwu ht.2.2.2) hd
      split
      all_goals rename_i ht
      all_goals rw [headed_f] at ht
      case h_1 => exact beginData_does io hd hold hfh ht (hzero (by simp [ht])) hleft
      case h_2 => exact beginHeaders_does io hd hold hfh ht
      case h_3 => exact beginContinuation_does io hd hold hfh ht (hcont.imp_right And.right)
      case h_4 =>
        split
        · exact headedError_does io hd hold f _
        · split
          · exact headedError_does io hd hold f _
          · exact hplain (by simp [ht])
      case h_10 =>
        split
        · exact headedError_does io hd hold f _
        · split
          · exact headedError_does io hd hold f _
          case isFalse hidle =>
            refine .one (.beginOther h { f with phase := .fixed } hold hfh (hzero (by simp [ht]))
              (by simp [ht]) (by simp [Loaded]) fun _ => ?_) hd
            exact idle_le (h := h) hidle
      case h_11 => exact hplain (by simp [ht])
      case h_7 => exact headedError_does io hd hold f _
      all_goals exact beginFixed_does io hd hold hfh (hzero (by simp [ht])) (by simp [ht]) _ _

end Begin

lemma parse_content {io : H2Io} (h : H2Core) (f : H2Frame) (hf : f =
      { h.f with phase := f.phase, pad := f.pad, fix := f.fix, bodyLeft := f.bodyLeft })
    (hp : Loaded f.phase → Loaded h.f.phase ∨ h.f.type = .data) : H2Content io h { h with f := f } := by
  rw [hf]
  exact .progress h _ _ _ _ _ _ hp id (.inr rfl)

lemma bodyTaken_loaded (f : H2Frame) (n : ℕ) (hl : Loaded (f.bodyTaken n).phase) :
    Loaded f.phase := by
  unfold H2Frame.bodyTaken at hl
  split at hl
  · simp [Loaded] at hl
  · exact hl

lemma phaseBytes_does (hd : h.dead = false) (p : Bytes) :
    Does (H2Content io) h (phaseBytes io h p) := by
  unfold phaseBytes
  split
  case h_1 hph =>
    unfold padLen
    dsimp only
    split
    · exact .after (.single (parse_content h { h.f with pad := (p.headD 0).toNat } rfl .inl))
        (connError_does io _ _)
    · exact .one (parse_content h _ rfl fun _ => .inl (.inl hph)) hd
  case h_2 hph =>
    refine .one (parse_content h _ ?_ fun _ => .inl (.inr (.inl hph))) hd
    split <;> rfl
  case h_3 hph =>
    have hchunk : Does (H2Content io) h (bodyChunk io h p) := by
      unfold bodyChunk
      split
      · split
        · exact dataBytes_does io hd p
        case isFalse ht => exact blockBytes_does io hd ⟨hph, ht⟩ p
      · exact .nothing hd
    exact hchunk.then (parse_content _ _ rfl fun hl => .inl (bodyTaken_loaded _ _ hl)) rfl
  case h_4 hph =>
    have hmove : H2Content io h _ := parse_content h { h.f with fix := h.f.fix ++ p } rfl .inl
    unfold fixedBytes
    dsimp only
    split
    · split
      · have hdone := fixedDone_does io (h := { h with f := { h.f with fix := h.f.fix ++ p } }) hd
        exact (Does.after (.single hmove) hdone).then (parse_content _ _ rfl .inl) rfl
      · exact .one (parse_content h _ rfl (by simp [Loaded])) hd
    · exact .one hmove hd
  · exact .nothing hd
  · exact .nothing hd

lemma passDone_left {n : ℕ} (hok : (passDone io h n).2 = .ok) :
    (passDone io h n).1.f = { h.f with left := h.f.left - n } := by
  unfold passDone at hok ⊢
  split at hok
  case isTrue ht =>
    rw [if_pos ht]
    obtain ⟨c, l, d, g, -, hg, hr⟩ := dataConsumed_stages io h n
    cases d with
    | true => simp [hr, H2Res.andThen] at hok
    | false =>
      obtain rfl := hg.resolve_right (by simp)
      simp [hr, H2Res.andThen]
  case isFalse ht =>
    rw [if_neg ht]
    rfl

section
variable (hd : h.dead = false)
include hd

lemma payloadPass_left (hok : (payloadPass io h p).2 = .ok) :
    (payloadPass io h p).1.f.left = h.f.left - p.length ∧ (payloadPass io h p).1.f.fh = h.f.fh := by
  have hsame := contents_sameFrame (phaseBytes_does io hd p).moves
  unfold payloadPass H2Res.andThen at hok ⊢
  split at hok
  case isTrue hp =>
    rw [if_pos hp, passDone_left io hok]
    exact ⟨by rw [hsame.left], hsame.fh⟩
  case isFalse hp => exact absurd hok hp

lemma payloadPass_does (hin : h2FrameHdrLen ≤ h.f.fh.length)
    (hp : p.length ≤ h.f.left) : Does (H2Move io) h (payloadPass io h p) := by
  have hcontent := phaseBytes_does io hd p
  have hsame := contents_sameFrame hcontent.moves
  refine (contents_does hcontent).andThen fun _ hlive => passDone_does io hlive ?_ ?_
  · rwa [hsame.fh]
  · rwa [hsame.left]

lemma framePayload_does (hin : h2FrameHdrLen ≤ h.f.fh.length)
    (hp : p.length ≤ h.f.left) : Does (H2Move io) h (framePayload io h p) := by
  unfold framePayload
  generalize 2 * p.length + 1 = fuel
  induction fuel generalizing h p with
  | zero => exact .nothing hd
  | succ _ ih =>
    unfold payloadLoop
    split
    · exact .nothing hd
    · have htake : (p.take (h.f.take p.length)).length ≤ h.f.left := by
        rw [List.length_take]
        omega
      refine (payloadPass_does io hd hin htake).andThen fun hok hlive => ?_
      obtain ⟨hleft, hfh⟩ := payloadPass_left io hd hok
      refine ih hlive (by rwa [hfh]) ?_
      rw [hleft, List.length_take, List.length_drop]
      omega

lemma frameEnd_does : Does (H2Content io) h (frameEnd io h) := by
  unfold frameEnd
  split
  case h_1 ht =>
    split
    · exact .nothing hd
    case h_2 w hw =>
      split
      case isTrue hend => exact remoteEnd_does io hd (dataStream_some hw).2 (.inl ⟨ht, hend⟩)
      case isFalse => exact .nothing hd
  case h_2 ht =>
    split
    · exact blockEnd_does io hd (.inl ht)
    · exact .nothing hd
  case h_3 ht =>
    split
    · exact blockEnd_does io hd (.inr ht)
    · exact .nothing hd
  case h_4 ht =>
    split
    · split
      · exact connError_does io h _
      · exact .one (.ack h _) hd
    · exact ctlFrame_does io hd (by decide) (by simp)
  all_goals first | exact fixedDone_does io hd | exact .nothing hd

end

lemma streamError_closes {w : H2Slot} (hw : h.streamOf h.f.sid = some w) (code : ℕ) :
    ((streamError io h code).1.stream w).isOpen = false ∧
      ((streamError io h code).1.stream w).id = h.f.sid := by
  obtain ⟨c, l, d, -, hr⟩ := streamError_stages io hw code
  rw [hr]
  cases w <;> exact ⟨rfl, (streamOf_some hw).2⟩

lemma remoteEnd_closes {w : H2Slot} (hw : h.streamOf h.f.sid = some w) :
    ((remoteEnd io h w).1.stream w).isOpen = false ∧
      ((remoteEnd io h w).1.stream w).id = h.f.sid := by
  unfold remoteEnd
  dsimp only
  split
  · exact streamError_closes io hw _
  · split
    · cases w <;> exact ⟨rfl, (streamOf_some hw).2⟩
    · obtain ⟨c, l, d, -, hr⟩ := ctlU32_stages io
        (h.setStream w { h.stream w with remoteEnd := true }) .rstStream (h.stream w).id h2Cancel
        (by decide)
      rw [hr]
      cases w <;> exact ⟨rfl, (streamOf_some hw).2⟩

lemma frameDone_does (hd : h.dead = false) : Does (H2Move io) h (frameDone io h) := by
  unfold frameDone
  split
  case isTrue hend =>
    have hcontent := frameEnd_does io hd
    have hsame := contents_sameFrame hcontent.moves
    refine (contents_does hcontent).then (.endFrame _ ?_ ?_) rfl
    · simp only [Bool.and_eq_true, decide_eq_true_eq] at hend
      rw [hsame.left, hend.2]
    · intro ht hflag
      rw [hsame.type] at ht
      rw [hsame.flags] at hflag
      unfold Gone
      rw [hsame.sid]
      unfold frameEnd
      simp only [ht]
      cases hw : h.dataStream with
      | none =>
        unfold H2Core.dataStream at hw
        cases hi : h.f.ignore with
        | true => exact .inl rfl
        | false => exact .inr (.inl (by simpa [hi] using hw))
      | some w =>
        simp only [hflag, if_true]
        have hcl := remoteEnd_closes io (dataStream_some hw).2
        exact .inr (.inr ⟨w, hcl.2, hcl.1⟩)
  case isFalse => exact .nothing hd

lemma feedLoop_does (fuel : ℕ) (p : Bytes) (hd : h.dead = false) :
    Does (H2Move io) h (feedLoop io fuel h p) := by
  induction fuel generalizing h p with
  | zero => exact .nothing hd
  | succ fuel ih =>
    have hnext {r : H2Res} (q : Bytes) (hr : Does (H2Move io) h r) :
        Does (H2Move io) h ((r.andThen (frameDone io)).andThen fun g => feedLoop io fuel g q) :=
      (hr.andThen fun _ hlive => frameDone_does io hlive).andThen fun _ hlive => ih q hlive
    unfold feedLoop
    dsimp only
    split
    · exact .nothing hd
    · split
      case isTrue hshort =>
        split
        case isTrue hmore => exact .one (.header h _ hshort hmore) hd
        case isFalse hfull =>
          refine hnext _ (beginFrame_does io hd hshort ?_ rfl rfl)
          simp only [H2Frame.ofHeader, List.length_append, List.length_take] at hfull ⊢
          omega
      case isFalse hfull =>
        refine hnext _ (framePayload_does io hd (Nat.le_of_not_lt hfull) ?_)
        rw [List.length_take]
        omega

/-- The loop has no success with a dead session to turn into an error. -/
lemma feed_eq (hd : h.dead = false) (p : Bytes) : feed io h p = feedLoop io (2 * p.length) h p := by
  have hlives := (feedLoop_does io (2 * p.length) p hd).lives
  unfold feed
  rw [if_neg (by simp [hd])]
  refine Prod.ext rfl (if_neg fun hno => ?_)
  simp only [Bool.and_eq_true, decide_eq_true_eq] at hno
  rw [hlives.mp hno.2] at hno
  cases hno.1

theorem feed_does (hd : h.dead = false) (p : Bytes) : Does (H2Move io) h (feed io h p) := by
  rw [feed_eq io hd]
  exact feedLoop_does io _ p hd

end Receive

end TinyLink.Proofs
