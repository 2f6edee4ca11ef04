import TinyLink.Proofs.H2Ledger

/-!
# Request bodies, and the send side as a whole

The DATA frames of a stream carry its body from the start and in order.
-/

namespace TinyLink.Proofs
open History

variable {io : H2Io} {h h' : H2Core} {x : H2Core × List OutFrame}

lemma content_received (hm : H2Content io h h') (hp : ∀ f ∈ h.ctl, Plain f) :
    Received h.log h'.log := by
  cases hm with
  | wire hw =>
    cases hw with
    | stage => exact .refl _
    | flush | fail => exact .concat _ hp (by simp)
  | quit _ _ _ _ _ hn hs => exact .quit hn hp hs
  | touch _ _ _ _ _ ht => exact (silent_received h.log (touch_silent ht)).1
  | progress | ignore | ack => exact .refl _
  | goaway => exact .concat _ (by simp) (by simp)
  | _ => exact .noted _ (by simp)

lemma move_received (hm : H2Move io h h') (hp : ∀ f ∈ h.ctl, Plain f) :
    Received h.log h'.log := by
  cases hm with
  | content hc => exact content_received hc hp
  | consume n =>
    have hlog : (consume h n).log = h.log := (consume_kept h n).2.2.1
    exact hlog ▸ .refl _
  | beginData f =>
    simpa using
      Received.noted h.log (n := .frame f.type f.flags f.sid) (by simp)
  | beginOther | beginHeaders | beginContinuation | beginIgnored => exact .noted _ (by simp)
  | _ => exact .refl _

lemma move_request (hm : H2Move io h h') :
    h'.nextId = h.nextId ∧ ∀ v, RequestKept (h.stream v) (h'.stream v) := by
  have hsame (v : H2Slot) : RequestKept (h.stream v) (h.stream v) :=
    (StreamKept.refl _).toRequestKept
  cases hm with
  | content hc =>
    exact ⟨(content_conn hc).2.2.1, fun v => (content_stream hc v).toRequestKept⟩
  | consume n =>
    refine ⟨(consume_conn h n).2.2.1, fun v => ?_⟩
    have hs : ({ consume h n with f := { h.f with left := h.f.left - n } } : H2Core).stream v =
        (consume h n).stream v := rfl
    rw [hs, consume_stream]
    split
    · exact ⟨rfl, rfl, rfl, rfl, fun ho => ho⟩
    · exact hsame v
  | beginData _ w =>
    refine ⟨by simp, fun v => ?_⟩
    cases v <;> cases w <;> exact ⟨rfl, rfl, rfl, rfl, fun ho => ho⟩
  | rubble =>
    refine ⟨rfl, fun v => ?_⟩
    cases v <;> exact ⟨rfl, rfl, rfl, rfl, fun ho => ho⟩
  | _ => exact ⟨rfl, hsame⟩

/-- What was sent of the body of an open stream; `fs` are the frames sent. -/
structure StreamBody (log : List H2Event) (fs : List OutFrame) (s : H2Stream) : Prop where
  noted : .note (.opened s.id s.body) ∈ log
  sent : payloads (dataFrames s.id fs) = s.body.take s.bodyOff
  within : s.bodyOff ≤ s.body.length
  unended : s.localEnd = false → ∀ d ∈ dataFrames s.id fs, hasFlag d.1 h2FEndStream = false

structure Bodies (x : H2Core × List OutFrame) : Prop where
  streams : ∀ w, (x.1.stream w).isOpen = true →
    StreamBody x.1.log (sentFrames x.1.log ++ x.2) (x.1.stream w)
  low : ∀ sid body, .note (.opened sid body) ∈ x.1.log → sid < x.1.nextId
  unique : ∀ sid b c, .note (.opened sid b) ∈ x.1.log → .note (.opened sid c) ∈ x.1.log → b = c
  known : ∀ sid, dataFrames sid (sentFrames x.1.log ++ x.2) ≠ [] →
    ∃ body, .note (.opened sid body) ∈ x.1.log
  carried : ∀ sid body, .note (.opened sid body) ∈ x.1.log →
    CarriesBody body (dataFrames sid (sentFrames x.1.log ++ x.2))

lemma Bodies.fresh (hb : Bodies x) : dataFrames x.1.nextId (sentFrames x.1.log ++ x.2) = [] := by
  by_contra hne
  obtain ⟨body, hnote⟩ := hb.known _ hne
  exact absurd (hb.low _ _ hnote) (lt_irrefl _)

lemma Bodies.kept {y : H2Core × List OutFrame} (hb : Bodies x)
    (hdata : ∀ sid, dataFrames sid (sentFrames y.1.log ++ y.2) =
      dataFrames sid (sentFrames x.1.log ++ x.2))
    (hnote : ∀ sid body, .note (.opened sid body) ∈ y.1.log ↔ .note (.opened sid body) ∈ x.1.log)
    (hnext : y.1.nextId = x.1.nextId)
    (hs : ∀ w, (y.1.stream w).isOpen = true → RequestKept (x.1.stream w) (y.1.stream w)) :
    Bodies y := by
  refine ⟨fun w ho => ?_, fun sid body hn => ?_, fun sid b c hn hm => ?_, fun sid hne => ?_,
    fun sid body hn => ?_⟩
  · have hk := hs w ho
    have hold := hb.streams w (hk.opened ho)
    refine ⟨?_, ?_, ?_, ?_⟩
    · rw [hnote, hk.id, hk.body]
      exact hold.noted
    · rw [hdata, hk.id, hk.body, hk.bodyOff]
      exact hold.sent
    · rw [hk.body, hk.bodyOff]
      exact hold.within
    · rw [hdata, hk.id, hk.localEnd]
      exact hold.unended
  · rw [hnext]
    exact hb.low sid body ((hnote sid body).mp hn)
  · exact hb.unique sid b c ((hnote sid b).mp hn) ((hnote sid c).mp hm)
  · rw [hdata] at hne
    obtain ⟨body, hn⟩ := hb.known sid hne
    exact ⟨body, (hnote sid body).mpr hn⟩
  · rw [hdata]
    exact hb.carried sid body ((hnote sid body).mp hn)

lemma move_bodies (hm : H2Move io h h') (hplain : ∀ f ∈ h.ctl, Plain f)
    (hb : Bodies (h, [])) : Bodies (h', []) := by
  obtain ⟨hnext, hs⟩ := move_request hm
  have hr := move_received hm hplain
  refine hb.kept (fun sid => ?_) hr.opened hnext fun w _ => hs w
  simpa using hr.data sid

lemma opened_bodies {b : List OutFrame} (hb : Bodies (h, b)) (w : H2Slot) (body block : Bytes) :
    Bodies (opened h w body, b ++ [.frame .headers h2FEndHeaders h.nextId block]) := by
  have hlog : (opened h w body).log = h.log ++ [.note (.opened h.nextId body)] := by
    simp [opened, opening]
  have hnext : (opened h w body).nextId = h.nextId + 2 := by
    simp [opened, opening]
  have hdata (sid : ℕ) : dataFrames sid (sentFrames (opened h w body).log ++
      (b ++ [.frame .headers h2FEndHeaders h.nextId block])) =
      dataFrames sid (sentFrames h.log ++ b) := by
    simp [hlog, dataFrames, OutFrame.dataOn]
  have hnote (sid : ℕ) (c : Bytes) : .note (.opened sid c) ∈ (opened h w body).log ↔
      .note (.opened sid c) ∈ h.log ∨ (sid = h.nextId ∧ c = body) := by
    simp [hlog]
  have hfresh : dataFrames h.nextId (sentFrames h.log ++ b) = [] := hb.fresh
  refine ⟨fun v ho => ?_, fun sid c hn => ?_, fun sid c d hn hm => ?_, fun sid hne => ?_,
    fun sid c hn => ?_⟩
  · by_cases hv : v = w
    · subst hv
      have hnew : StreamBody (opened h v body).log (sentFrames (opened h v body).log ++
          (b ++ [.frame .headers h2FEndHeaders h.nextId block]))
          (.fresh h.nextId h.peer.initialWin body) := by
        refine ⟨(hnote _ _).mpr (.inr ⟨rfl, rfl⟩), ?_, Nat.zero_le _, fun _ d hd => ?_⟩
        · change payloads (dataFrames h.nextId _) = body.take 0
          rw [hdata, hfresh]
          rfl
        · change d ∈ dataFrames h.nextId _ at hd
          rw [hdata, hfresh] at hd
          cases hd
      cases v <;> exact hnew
    · rw [opened_stream, if_neg hv] at ho ⊢
      have hold := hb.streams v ho
      refine ⟨(hnote _ _).mpr (.inl hold.noted), ?_, hold.within, ?_⟩
      · rw [hdata]
        exact hold.sent
      · rw [hdata]
        exact hold.unended
  · change sid < (opened h w body).nextId
    rw [hnext]
    rcases (hnote sid c).mp hn with hn | ⟨rfl, -⟩
    · exact (hb.low sid c hn).trans (Nat.lt_add_of_pos_right (by decide))
    · exact Nat.lt_add_of_pos_right (by decide)
  · have hnew {e : Bytes} (hold : .note (.opened sid e) ∈ h.log) : sid ≠ h.nextId :=
      (hb.low sid e hold).ne
    rcases (hnote sid c).mp hn with hc | ⟨hsid, hc⟩
    · rcases (hnote sid d).mp hm with hd | ⟨hsid, -⟩
      · exact hb.unique sid c d hc hd
      · exact absurd hsid (hnew hc)
    · rcases (hnote sid d).mp hm with hd | ⟨-, hd⟩
      · exact absurd hsid (hnew hd)
      · rw [hc, hd]
  · rw [hdata] at hne
    obtain ⟨c, hn⟩ := hb.known sid hne
    exact ⟨c, (hnote sid c).mpr (.inl hn)⟩
  · rw [hdata]
    rcases (hnote sid c).mp hn with hn | ⟨rfl, rfl⟩
    · exact hb.carried sid c hn
    · rw [hfresh]
      exact ⟨List.nil_prefix, each_nil⟩

lemma last_flag (n rem : ℕ) :
    hasFlag (if n = rem then h2FEndStream else 0) h2FEndStream = true ↔ n = rem := by
  split <;> simp_all [hasFlag, h2FEndStream]

lemma data_bodies {b : List OutFrame} (hb : Bodies (h, b)) (ha : Accounted h)
    {w : H2Slot} {n : ℕ} (ho : (h.stream w).isOpen) (hend : (h.stream w).localEnd = false)
    (hrem : n ≤ (h.stream w).bodyRem) :
    Bodies ((putDataFrame h w n).1, b ++ [(putDataFrame h w n).2]) := by
  have hold := hb.streams w ho
  have hwithin : (h.stream w).bodyOff ≤ (h.stream w).body.length := hold.within
  have hlog : (putDataFrame h w n).1.log = h.log := by simp [putDataFrame]
  have hnext : (putDataFrame h w n).1.nextId = h.nextId := by simp [putDataFrame]
  generalize hp : ((h.stream w).body.drop (h.stream w).bodyOff).take n = payload
  generalize hf : (if n = (h.stream w).bodyRem then h2FEndStream else 0) = flags
  have hframe : (putDataFrame h w n).2 = .frame .data flags (h.stream w).id payload := by
    rw [← hp, ← hf]
    rfl
  have hflag : hasFlag flags h2FEndStream = true ↔ n = (h.stream w).bodyRem := by
    rw [← hf]
    exact last_flag _ _
  have hdata : dataFrames (h.stream w).id (sentFrames h.log ++ (b ++ [(putDataFrame h w n).2])) =
      dataFrames (h.stream w).id (sentFrames h.log ++ b) ++ [(flags, payload)] := by
    simp [hframe, dataFrames, OutFrame.dataOn]
  have hother {sid : ℕ} (hne : sid ≠ (h.stream w).id) :
      dataFrames sid (sentFrames h.log ++ (b ++ [(putDataFrame h w n).2])) =
        dataFrames sid (sentFrames h.log ++ b) := by
    simp [hframe, dataFrames, OutFrame.dataOn, hne.symm]
  have hsent : payloads (dataFrames (h.stream w).id (sentFrames h.log ++ b) ++ [(flags, payload)]) =
      (h.stream w).body.take ((h.stream w).bodyOff + n) := by
    have hs : payloads (dataFrames (h.stream w).id (sentFrames h.log ++ b)) =
        (h.stream w).body.take (h.stream w).bodyOff := hold.sent
    rw [payloads_append, hs, payloads_single, ← hp, ← List.take_add]
  have hsame : (h.stream w).body.take ((h.stream w).bodyOff + n) = (h.stream w).body ↔
      n = (h.stream w).bodyRem := by
    unfold H2Stream.bodyRem at hrem ⊢
    rw [List.take_eq_self_iff]
    omega
  have hunended : ∀ d ∈ dataFrames (h.stream w).id (sentFrames h.log ++ b),
      hasFlag d.1 h2FEndStream = false := hold.unended hend
  refine ⟨fun v hv => ?_, fun sid c hn => ?_, fun sid c d hn hm => ?_, fun sid hne => ?_,
    fun sid c hn => ?_⟩
  · change ((putDataFrame h w n).1.stream v).isOpen = true at hv
    change StreamBody (putDataFrame h w n).1.log (sentFrames (putDataFrame h w n).1.log ++ _)
      ((putDataFrame h w n).1.stream v)
    rw [hlog]
    by_cases hvw : v = w
    · subst hvw
      have hs : (putDataFrame h v n).1.stream v = { h.stream v with
          bodyOff := (h.stream v).bodyOff + n
          sendWin := (h.stream v).sendWin - n
          localEnd := (h.stream v).localEnd || decide (n = (h.stream v).bodyRem) } := by
        cases v <;> rfl
      rw [hs]
      refine ⟨hold.noted, ?_, ?_, fun hstill d hd => ?_⟩
      · change payloads (dataFrames (h.stream v).id _) = _
        rw [hdata, hsent]
      · change (h.stream v).bodyOff + n ≤ (h.stream v).body.length
        unfold H2Stream.bodyRem at hrem
        omega
      · change d ∈ dataFrames (h.stream v).id _ at hd
        rw [hdata] at hd
        simp only [Bool.or_eq_false_iff, decide_eq_false_iff_not] at hstill
        rcases List.mem_append.mp hd with hd | hd
        · exact hunended d hd
        · rw [List.mem_singleton.mp hd]
          exact Bool.eq_false_iff.mpr fun hset => hstill.2 (hflag.mp hset)
    · have hs : (putDataFrame h w n).1.stream v = h.stream v := by
        cases v <;> cases w <;> first | rfl | exact absurd rfl hvw
      rw [hs] at hv ⊢
      have hne : (h.stream v).id ≠ (h.stream w).id := fun he =>
        hvw (ha.slot (ha.streams w ho).pos he)
      have hvb := hb.streams v hv
      refine ⟨hvb.noted, ?_, hvb.within, ?_⟩
      · rw [hother hne]
        exact hvb.sent
      · rw [hother hne]
        exact hvb.unended
  · change sid < (putDataFrame h w n).1.nextId
    rw [hlog] at hn
    rw [hnext]
    exact hb.low sid c hn
  · change _ ∈ (putDataFrame h w n).1.log at hn hm
    rw [hlog] at hn hm
    exact hb.unique sid c d hn hm
  · change dataFrames sid (sentFrames (putDataFrame h w n).1.log ++ _) ≠ [] at hne
    rw [hlog] at hne ⊢
    by_cases hsid : sid = (h.stream w).id
    · exact ⟨_, hsid ▸ hold.noted⟩
    · rw [hother hsid] at hne
      exact hb.known sid hne
  · change _ ∈ (putDataFrame h w n).1.log at hn
    rw [hlog] at hn ⊢
    by_cases hsid : sid = (h.stream w).id
    · subst hsid
      obtain rfl := hb.unique _ _ _ hn hold.noted
      rw [hdata]
      refine ⟨?_, each_concat.mpr ⟨(hb.carried _ _ hn).2, hunended, ?_⟩⟩
      · rw [hsent]
        exact List.take_prefix _ _
      · rw [hsent]
        exact hflag.trans hsame.symm
    · rw [hother hsid]
      exact hb.carried sid c hn

structure Sound (x : H2Core × List OutFrame) : Prop where
  accounted : x.1.dead = true ∨ Accounted x.1
  ledger : Ledger x
  bodies : Bodies x

lemma init_sound : Sound (h2cInit, []) := by
  refine ⟨.inr init_accounted, ?_, ?_⟩
  · refine ⟨by simp [h2cInit], by decide, fun _ => rfl, fun _ => rfl, by decide, by decide, by decide,
      by decide, fun w ho => ?_, each_nil, each_nil⟩
    cases w <;> cases ho
  · refine ⟨fun w ho => ?_, by simp [h2cInit], by simp [h2cInit], by simp [h2cInit, sentFrames],
      by simp [h2cInit]⟩
    cases w <;> cases ho

/-- A call that only sends control frames. -/
lemma Sound.sends (hx : Sound (h, [])) {fs : List OutFrame} (hfs : ∀ f ∈ fs, Plain f)
    (hlog : h'.log = h.log ++ [.send fs]) (hctl : h'.ctl = []) (hpeer : h'.peer = h.peer)
    (hwin : h'.connSendWin = h.connSendWin) (hnext : h'.nextId = h.nextId)
    (hstream : ∀ w, h'.stream w = h.stream w) (hd : h'.dead = false → h.dead = false)
    (ha : h'.dead = true ∨ Accounted h') : Sound (h', []) := by
  have hr : Received h.log h'.log := hlog ▸ .concat h.log hfs (by simp)
  refine ⟨ha, hx.ledger.kept hr hd (by rw [hpeer]) (by rw [hpeer]) hwin (by simp [hctl, framesLen])
    (fun _ => by simp [hlog, peerSettings]) fun w ho => ?_,
    hx.bodies.kept (fun sid => by simpa using hr.data sid) hr.opened hnext fun w _ => ?_⟩
  · rw [hstream] at ho ⊢
    exact ⟨ho, rfl, rfl⟩
  · rw [hstream]
    exact (StreamKept.refl _).toRequestKept

lemma act_sound {y : H2Core × List OutFrame} (hs : H2Act io x y) (hx : Sound x) : Sound y := by
  obtain ⟨ha, hl, hb⟩ := id hx
  have ha' := act_accounted hs ha
  have hkept (h : H2Core) (w : H2Slot) : RequestKept (h.stream w) (h.stream w) :=
    (StreamKept.refl _).toRequestKept
  cases hs with
  | wire hw =>
    exact ⟨ha', wire_ledger hw hl, move_bodies (.content (.wire hw)) hl.ctlPlain hb⟩
  | start h | startFail h =>
    exact hx.sends (show ∀ f ∈ helloFrames, _ by simp [helloFrames, Plain]) rfl rfl rfl rfl rfl
      (fun _ => rfl) (by first | exact id | rintro ⟨⟩) ha'
  | cancel h =>
    refine ⟨ha', hl.setStream (w := .side) (s := h.side.close h2Cancel) (by rintro ⟨⟩),
      hb.kept (fun _ => rfl) (fun _ _ => Iff.rfl) rfl ?_⟩
    intro w ho
    cases w with
    | main => exact hkept h .main
    | side => cases ho
  | begin h =>
    refine ⟨ha', begin_ledger hl, hb.kept (fun sid => ?_) (fun _ _ => Iff.rfl) rfl
      fun w _ => hkept h w⟩
    simp [plain_data hl.ctlPlain sid]
  | data _ _ _ _ hd ho hend hrem _ hwin hmax =>
    have hacc := ha.resolve_left (by simp [hd])
    exact ⟨ha', data_ledger hl hacc hd ho hrem hwin hmax, data_bodies hb hacc ho hend hrem⟩
  | send h | fail h =>
    refine ⟨ha', ?_, hb.kept (fun sid => ?_) (fun sid body => ?_) rfl fun w _ => hkept h w⟩
    · first | exact send_ledger hl | exact (send_ledger hl).dies
    · simp
    · simp

lemma step_sound {y : H2Core × List OutFrame} (hs : H2Step io x y) (hx : Sound x) : Sound y := by
  have ha' := step_accounted hs hx.accounted
  rcases hs with hm | (hact | ⟨_, _, w, body, block⟩ | _)
  · exact ⟨ha', move_ledger hm hx.ledger, move_bodies hm hx.ledger.ctlPlain hx.bodies⟩
  · exact act_sound hact hx
  · exact ⟨ha', opened_ledger hx.ledger w body block hx.bodies.fresh,
      opened_bodies hx.bodies w body block⟩
  · refine ⟨ha', hx.ledger.setStream (w := .side) (s := .zero) (by rintro ⟨⟩),
      hx.bodies.kept (fun _ => rfl) (fun _ _ => Iff.rfl) rfl ?_⟩
    intro w ho
    cases w with
    | main => exact (StreamKept.refl _).toRequestKept
    | side => cases ho

lemma dataLen_pos {w : H2Slot} {room : ℕ} (hrem : 0 < (h.stream w).bodyRem)
    (hwin : 0 < h.sendWindow w) (hmax : 0 < h.peer.maxFrame) (hroom : h2FrameHdrLen < room) :
    0 < dataLen h w room := by
  unfold dataLen
  generalize (h.stream w).bodyRem = rem at *
  generalize h.sendWindow w = win at *
  simp only [Bool.and_eq_true, decide_eq_true_eq]
  split_ifs <;> omega

lemma putDataLoop_mono (w : H2Slot) (cap fuel : ℕ) (h : H2Core) (b : List OutFrame) :
    ((putDataLoop w cap fuel h b).1.stream w).bodyRem ≤ (h.stream w).bodyRem ∧
      ((h.stream w).localEnd = true → ((putDataLoop w cap fuel h b).1.stream w).localEnd = true) := by
  induction fuel generalizing h b with
  | zero => exact ⟨le_rfl, id⟩
  | succ _ ih =>
    rw [putDataLoop]
    dsimp only
    split_ifs
    · exact ⟨le_rfl, id⟩
    · exact ⟨le_rfl, id⟩
    · obtain ⟨hrem, hend⟩ := ih (putDataFrame h w (dataLen h w (cap - framesLen b))).1
        (b ++ [(putDataFrame h w (dataLen h w (cap - framesLen b))).2])
      refine ⟨hrem.trans ?_, fun he => hend ?_⟩
      · simp only [putDataFrame, stream_setStream, H2Stream.bodyRem]
        omega
      · simp [putDataFrame, he]
    · exact ⟨le_rfl, id⟩

section Pump
variable (io : H2Io)

lemma pumpPass_progress (hwants : pumpWants h) (hctl : framesLen h.ctl ≤ h2CtlCap)
    (hmax : 0 < h.peer.maxFrame) (hok : (pumpPass io h).2 = .ok) :
    ((pumpPass io h).1.s.bodyRem < h.s.bodyRem ∨ (pumpPass io h).1.s.localEnd = true) ∧
      (pumpPass io h).1.ctl = [] ∧ (pumpPass io h).1.peer = h.peer := by
  simp only [pumpWants, Bool.and_eq_true, Bool.not_eq_true', Bool.and_eq_false_imp,
    decide_eq_true_eq, decide_eq_false_iff_not, not_le] at hwants
  obtain ⟨⟨hopen, hend⟩, hwin⟩ := hwants
  unfold pumpPass at hok ⊢
  cases ht : txBegin io h with
  | none =>
    rw [ht] at hok
    cases hok
  | some x =>
    obtain ⟨cap, h₀, b⟩ := x
    simp only [ht] at hok ⊢
    obtain ⟨rfl, rfl, hcap⟩ := txBegin_some io ht
    rw [txEnd_ok io hok]
    obtain ⟨win, off, swin, e, he⟩ := putDataLoop_eq .main cap (h.s.bodyRem + 1) { h with ctl := [] }
      h.ctl
    refine ⟨?_, congrArg H2Core.ctl he, (congrArg H2Core.peer he).trans rfl⟩
    have hroom : h2FrameHdrLen < cap - framesLen h.ctl := by
      omega
    -- the first frame of the pass is never refused
    generalize hn : dataLen { h with ctl := [] } .main (cap - framesLen h.ctl) = n
    obtain ⟨hle, -⟩ := dataLen_le { h with ctl := [] } .main (cap - framesLen h.ctl)
    have hpos : 0 < h.s.bodyRem → 0 < n := by
      intro hrem
      rw [← hn]
      exact dataLen_pos hrem (hwin hrem) hmax hroom
    have hfirst : putDataLoop .main cap (h.s.bodyRem + 1) { h with ctl := [] } h.ctl =
        putDataLoop .main cap h.s.bodyRem (putDataFrame { h with ctl := [] } .main n).1
          (h.ctl ++ [(putDataFrame { h with ctl := [] } .main n).2]) := by
      rw [putDataLoop]
      rw [hn, if_pos, if_neg, if_neg]
      · simp only [Bool.and_eq_true, decide_eq_true_eq, not_and]
        intro hrem hz
        exact absurd (hpos hrem) (by omega)
      · simp only [Bool.and_eq_true, decide_eq_true_eq, not_and, not_le]
        exact fun hrem => hwin hrem
      · simp only [Bool.and_eq_true, Bool.not_eq_true', decide_eq_true_eq]
        exact ⟨⟨hopen, hend⟩, hroom.le⟩
    obtain ⟨hrem, hended⟩ := putDataLoop_mono .main cap h.s.bodyRem
      (putDataFrame { h with ctl := [] } .main n).1
      (h.ctl ++ [(putDataFrame { h with ctl := [] } .main n).2])
    rw [← hfirst] at hrem hended
    change _ ≤ h.s.body.length - (h.s.bodyOff + n) at hrem
    change (h.s.localEnd || decide (n = h.s.bodyRem)) = true → _ at hended
    rcases Nat.eq_zero_or_pos h.s.bodyRem with hz | hp
    · refine .inr (hended ?_)
      rw [hn] at hle
      have : n = h.s.bodyRem := Nat.le_antisymm hle (by omega)
      simp [this]
    · refine .inl (hrem.trans_lt ?_)
      have := hpos hp
      unfold H2Stream.bodyRem at hp ⊢
      omega

lemma pumpLoop_ends (fuel : ℕ) (h : H2Core) (hfuel : h.s.bodyRem < fuel)
    (hctl : framesLen h.ctl ≤ h2CtlCap) (hmax : 0 < h.peer.maxFrame) :
    ∃ r, pumpLoop io fuel h = some r ∧ (r.2 = .ok → pumpWants r.1 = false) := by
  induction fuel generalizing h with
  | zero => exact absurd hfuel (Nat.not_lt_zero _)
  | succ _ ih =>
    unfold pumpLoop
    dsimp only
    cases hw : pumpWants h with
    | false => exact ⟨(h, .ok), by simp, fun _ => hw⟩
    | true =>
      rw [if_neg (by simp)]
      split
      case isFalse herr => exact ⟨_, rfl, fun hok => absurd hok herr⟩
      case isTrue hok =>
        obtain ⟨hless | hended, hctl', hpeer⟩ := pumpPass_progress io hw hctl hmax hok
        · refine ih _ (by omega) ?_ (by rw [hpeer]; exact hmax)
          rw [hctl']
          exact Nat.zero_le _
        · have hdone : pumpWants (pumpPass io h).1 = false := by simp [pumpWants, hended]
          refine ⟨((pumpPass io h).1, .ok), ?_, fun _ => hdone⟩
          unfold pumpLoop
          rw [hdone]
          rfl

end Pump

/-- What a server can rely on in every session. -/
theorem sends_respect_flow_control {io : H2Io} (E : H2Run io) {n : ℕ} (hn : n ≤ E.length) :
    let h := E.state n
    -- the windows and the frame size
    FlowRespected h.log ∧
    -- the bodies
    (∀ sid body, .note (.opened sid body) ∈ h.log →
      CarriesBody body (dataFrames sid (sentFrames h.log))) ∧
    (∀ sid, dataFrames sid (sentFrames h.log) ≠ [] → ∃ body, .note (.opened sid body) ∈ h.log) ∧
    (0 ≤ h.connSendWin ∧ h.connSendWin ≤ 2 ^ 31 - 1) ∧
    (∀ w, (h.stream w).isOpen = true →
      -(2 ^ 31 - 1) ≤ (h.stream w).sendWin ∧ (h.stream w).sendWin ≤ 2 ^ 31 - 1) ∧
    -- the pump of this state, and of the state in which a request begins its own
    framesLen h.ctl ≤ h2CtlCap ∧
    ∀ h' : H2Core, h'.peer = h.peer → framesLen h'.ctl ≤ h2CtlCap →
      ∃ r, pumpLoop io (h'.s.bodyRem + 1) h' = some r ∧ (r.2 = .ok → pumpWants r.1 = false) := by
  intro h
  obtain ⟨-, hl, hb⟩ := session_invariant E init_sound (fun x y hs => step_sound hs) hn
  have hframes : sentFrames h.log ++ [] = sentFrames h.log := List.append_nil _
  refine ⟨hl.flow, fun sid body hnote => ?_, fun sid hne => ?_, hl.connRange, fun w ho => ?_,
    hl.ctlFits, fun h' hpeer hctl => ?_⟩
  · rw [← hframes]
    exact hb.carried sid body hnote
  · rw [← hframes] at hne
    exact hb.known sid hne
  · exact ⟨(hl.streams w ho).lower, (hl.streams w ho).upper⟩
  · refine pumpLoop_ends io _ h' (Nat.lt_succ_self _) hctl ?_
    rw [hpeer]
    exact (show 0 < h2MaxFrame by decide).trans_le hl.maxFrameMin

section Sample
open StepSystem

def smallWindow : List H2Call :=
  [.start, .feed [0, 0, 6, 4, 0, 0, 0, 0, 0, 0, 4, 0, 0, 0, 1], .request none ⟨[], [7, 8]⟩,
    .feed [0, 0, 4, 8, 0, 0, 0, 0, 1, 0, 0, 0, 1], .pump]

def smallWindowRun : H2Run (.willing 1024) := runOf h2cInit rfl .pump smallWindow rfl

theorem small_window_body : dataFrames 1 (sentFrames (smallWindowRun.state 5).log) =
    [(0, [7]), (1, [8])] ∧
    CarriesBody [7, 8] (dataFrames 1 (sentFrames (smallWindowRun.state 5).log)) :=
  ⟨by decide +kernel, (sends_respect_flow_control smallWindowRun (n := 5) (by decide)).2.1 1 [7, 8]
    (by decide +kernel)⟩

end Sample

end TinyLink.Proofs
