import TinyLink.Proofs.H2Ledger

/-!
# Nothing follows a dead HTTP/2 session

A session sends the preface, whole frames, and at most one GOAWAY, the last frame of all.
-/

namespace TinyLink.Proofs
open History StepSystem

variable {io : H2Io} {h h' : H2Core} {b b' : List OutFrame} {e : H2Event}

lemma h2Call_dead (hs : h.started) (hd : h.dead) (a : H2Call) :
    (h2Call io h a).1 = h := by
  have hfeed (p : Bytes) : feed io h p = (h, .errState) := by
    unfold feed
    rw [if_pos hd]
  cases a with
  | start => simp [h2Call, h2cStart, hs]
  | request => simp [h2Call, h2cRequestPair, requestCheck, hd]
  | pump => simp [h2Call, h2cPump, hd]
  | feed => simp [h2Call, h2cFeed, hfeed, H2Res.andThen]
  | feedStaged => simp [h2Call, h2cFeedStaged, hfeed]
  | cancelSide =>
    simp only [h2Call, h2cCancelSide, hd, if_true]
    split <;> rfl

def Fits : OutFrame → Prop
  | .preface => False
  | .frame _ _ _ payload => payload.length ≤ 0xffffff

lemma getBe_beBytes (k n : ℕ) : getBe (ByteOrder.beBytes k n) = n % 256 ^ k := by
  have hfold (a : ℕ) : (ByteOrder.beBytes k n).foldl (fun n b => 256 * n + b.toNat) a =
      256 ^ k * a + n % 256 ^ k := by
    induction k generalizing a with
    | zero => simp [ByteOrder.beBytes, Nat.mod_one]
    | succ k ih =>
      have hdigit : (UInt8.ofNat (n / 256 ^ k % 256)).toNat = n / 256 ^ k % 256 := by
        rw [UInt8.toNat_ofNat']
        exact Nat.mod_eq_of_lt (Nat.mod_lt _ (by norm_num))
      rw [ByteOrder.beBytes_succ, List.foldl_cons, ih, hdigit, pow_succ, Nat.mod_mul, Nat.mul_add,
        Nat.mul_assoc, Nat.add_assoc, Nat.add_comm (n % 256 ^ k)]
  simpa [getBe] using hfold 0

lemma encode_whole {f : OutFrame} (hf : Fits f) : WholeFrame f.encode := by
  cases f with
  | preface => exact hf.elim
  | frame type flags sid payload =>
    have hlen : payload.length % 256 ^ 3 = payload.length :=
      Nat.mod_eq_of_lt (Nat.lt_of_le_of_lt hf (show 0xffffff < 256 ^ 3 by norm_num))
    have htake : (OutFrame.frame type flags sid payload).encode.take 3 =
        ByteOrder.beBytes 3 payload.length := by
      exact List.take_left' (ByteOrder.length_beBytes 3 _)
    have hall : (OutFrame.frame type flags sid payload).encode.length =
        h2FrameHdrLen + payload.length := by
      simp only [OutFrame.encode, putFh, put32, h2FrameHdrLen, List.length_append,
        ByteOrder.length_beBytes, List.length_cons, List.length_nil]
    rw [WholeFrame, htake, getBe_beBytes, hlen, hall]
    exact ⟨Nat.le_add_right _ _, rfl⟩

lemma over_concat {l : List H2Event} :
    Over io (l ++ [e]) ↔ Over io l ∨ e.isLastWord io l = true := by
  unfold Over
  rw [each_concat, Classical.not_and_iff_not_or_not, Bool.not_eq_false]

/-- A started session: the preface went first, every frame behind it is whole, and a GOAWAY is the
last one. -/
structure Orderly (io : H2Io) (x : H2Core × List OutFrame) : Prop where
  started : x.1.started = true
  bound : x.1.peer.maxFrame ≤ 0xffffff
  sent : ∃ fs, sentFrames x.1.log = .preface :: fs ∧ ∀ f ∈ fs ++ (x.1.ctl ++ x.2), Fits f
  staged : ∀ f ∈ x.1.ctl ++ x.2, f.isGoaway = false
  dies : Over io x.1.log → x.1.dead = true
  quiet : Each (fun past e => Over io past → e.isSend = false) x.1.log
  last : Each (fun _ e => ∀ f ∈ e.frames.dropLast, f.isGoaway = false) x.1.log

section Orderly
variable (ho : Orderly io (h, b)) (hs : h'.started = h.started)
  (hmax : h'.peer.maxFrame ≤ 0xffffff)
include ho hs hmax

lemma Orderly.says (hd : h.dead = false) (hlog : h'.log = h.log ++ [e])
    (hout : ∀ f ∈ e.frames ++ (h'.ctl ++ b'), f ∈ h.ctl ++ b ∨ Fits f)
    (hstaged : ∀ f ∈ h'.ctl ++ b', f.isGoaway = false)
    (hlast : ∀ f ∈ e.frames.dropLast, f.isGoaway = false)
    (hword : e.isLastWord io h.log = true → h'.dead = true) : Orderly io (h', b') := by
  have hlive : ¬ Over io h.log := fun hover => absurd ((ho.dies hover).symm.trans hd) (by simp)
  obtain ⟨fs, hfs, hall⟩ := ho.sent
  refine ⟨hs.trans ho.started, hmax, ⟨fs ++ e.frames, ?_, fun f hmem => ?_⟩, hstaged, ?_, ?_, ?_⟩
  · have hfs : sentFrames h.log = .preface :: fs := hfs
    simp [hlog, hfs]
  · rw [List.append_assoc] at hmem
    rcases List.mem_append.mp hmem with hmem | hmem
    · exact hall f (List.mem_append_left _ hmem)
    · exact (hout f hmem).elim (fun hold => hall f (List.mem_append_right _ hold)) id
  · rw [hlog, over_concat]
    exact fun hover => hword (hover.resolve_left hlive)
  · rw [hlog]
    exact each_concat.mpr ⟨ho.quiet, fun hover => absurd hover hlive⟩
  · rw [hlog]
    exact each_concat.mpr ⟨ho.last, hlast⟩

lemma Orderly.hears (evs : List H2Event) (hevs : ∀ e ∈ evs, e.isSend = false)
    (hlog : h'.log = h.log ++ evs) (hd : h'.dead = h.dead)
    (hout : ∀ f ∈ h'.ctl ++ b', f ∈ h.ctl ++ b ∨ Fits f ∧ f.isGoaway = false) :
    Orderly io (h', b') := by
  have hheard : sentFrames h'.log = sentFrames h.log ∧ (Over io h'.log ↔ Over io h.log) ∧
      Each (fun past e => Over io past → e.isSend = false) h'.log ∧
      Each (fun _ e => ∀ f ∈ e.frames.dropLast, f.isGoaway = false) h'.log := by
    rw [hlog]
    clear hlog
    induction evs using List.reverseRecOn with
    | nil => simpa using ⟨ho.quiet, ho.last⟩
    | append_singleton evs e ih =>
      have he : e.isSend = false := hevs e (by simp)
      have hno : e.frames = [] ∧ ∀ l, e.isLastWord io l = false := by
        cases e <;> simp_all [H2Event.isLastWord, H2Event.failed]
      obtain ⟨hsent, hover, hquiet, hlast⟩ := ih fun e' he' => hevs e' (by simp [he'])
      rw [← List.append_assoc]
      refine ⟨by simp_all, ?_, each_concat.mpr ⟨hquiet, fun _ => he⟩,
        each_concat.mpr ⟨hlast, by rw [hno.1]; exact List.forall_mem_nil _⟩⟩
      rw [over_concat, hno.2]
      simpa using hover
  obtain ⟨hsent, hover, hquiet, hlast⟩ := hheard
  obtain ⟨fs, hfs, hall⟩ := ho.sent
  refine ⟨hs.trans ho.started, hmax, ⟨fs, hsent.trans hfs, fun f hmem => ?_⟩, fun f hmem => ?_,
    fun h' => hd.trans (ho.dies (hover.mp h')), hquiet, hlast⟩
  · rcases List.mem_append.mp hmem with hmem | hmem
    · exact hall f (List.mem_append_left _ hmem)
    · exact (hout f hmem).elim (fun hold => hall f (List.mem_append_right _ hold)) And.left
  · exact (hout f hmem).elim (ho.staged f) And.right

end Orderly

lemma Orderly.same (ho : Orderly io (h, b)) (evs : List H2Event) (hevs : ∀ e ∈ evs, e.isSend = false)
    (hlog : h'.log = h.log ++ evs) (hd : h'.dead = h.dead) (hs : h'.started = h.started)
    (hmax : h'.peer.maxFrame ≤ 0xffffff) (hctl : h'.ctl = h.ctl) : Orderly io (h', b) :=
  ho.hears hs hmax evs hevs hlog hd fun f hf => .inl (by rwa [hctl] at hf)

lemma not_lastWord {fs : List OutFrame} {past : List H2Event} (hfs : ∀ f ∈ fs, f.isGoaway = false)
    (he : e.frames = fs) (hsent : e.failed io past = false) : e.isLastWord io past = false := by
  rw [H2Event.isLastWord, hsent, he, Bool.false_or]
  exact List.any_eq_false.mpr fun f hf => by simp [hfs f hf]

lemma wire_orderly (hw : H2Wire io h h') (ho : Orderly io (h, [])) : Orderly io (h', []) := by
  have hctl : ∀ f ∈ h.ctl, f.isGoaway = false := by simpa using ho.staged
  have hlast : ∀ f ∈ h.ctl.dropLast, f.isGoaway = false := fun f hf =>
    hctl f (List.dropLast_subset _ hf)
  cases hw with
  | stage type _ _ _ hc hfit =>
    refine ho.hears rfl ho.bound [] (by simp) (by simp) rfl fun f hmem => ?_
    rw [List.append_nil] at hmem
    rcases List.mem_append.mp hmem with hold | hnew
    · exact .inl (by simpa using hold)
    · rw [List.mem_singleton.mp hnew]
      have hcap : h2CtlCap ≤ 0xffffff := by decide
      simp only [framesLen, List.map_append, List.map_singleton, List.sum_append,
        List.sum_singleton, OutFrame.size] at hfit
      refine .inr ⟨by unfold Fits; omega, ?_⟩
      cases type <;> first | rfl | exact absurd rfl hc.2.2
  | flush hd hs =>
    refine ho.says rfl ho.bound hd rfl (fun f hf => .inl (by simpa using hf))
      (by simp) hlast fun hword => ?_
    rw [not_lastWord hctl rfl (by simp [H2Event.failed, hs])] at hword
    cases hword
  | fail hd =>
    exact ho.says rfl ho.bound hd rfl (fun f hf => .inl (by simpa using hf))
      (by simp) hlast fun _ => rfl

lemma quit_orderly {notes : List H2Note} {sent : List H2Event} {code : ℕ} {s : H2Stream}
    (hd : h.dead = false) (ho : Orderly io (h, []))
    (hsent : LastSends io (h.log ++ notes.map .note) h.ctl code sent) :
    Orderly io ({ h with
      ctl := []
      log := h.log ++ notes.map .note ++ sent
      dead := true
      s := s }, []) := by
  have hctl : ∀ f ∈ h.ctl, f.isGoaway = false := by simpa using ho.staged
  have hfit : Fits (goawayFrame code) :=
    (by decide : 8 ≤ 0xffffff).trans' (by simp [put32, ByteOrder.length_beBytes])
  have hnoted : Orderly io ({ h with log := h.log ++ notes.map .note }, []) :=
    ho.same (notes.map .note) (by simp) rfl rfl rfl ho.bound rfl
  cases hsent with
  | joined =>
    refine hnoted.says rfl ho.bound hd rfl (fun f hf => ?_) (by simp) ?_ fun _ => rfl
    · simp only [H2Event.frames, List.append_nil, List.mem_append, List.mem_singleton] at hf
      exact hf.imp (by simp) fun he : f = _ => he ▸ hfit
    · simpa using hctl
  | behind hs =>
    have hfirst : Orderly io ({ h with
        ctl := []
        log := h.log ++ notes.map .note ++ [.send h.ctl] }, []) :=
      wire_orderly (.flush { h with log := h.log ++ notes.map .note } hd hs) hnoted
    refine hfirst.says rfl ho.bound hd (e := .send [goawayFrame code]) (by simp)
      (fun f hf => .inr ?_) (by simp) (by simp) fun _ => rfl
    simp only [H2Event.frames, List.append_nil, List.mem_singleton] at hf
    exact hf ▸ hfit
  | failed hs =>
    exact (wire_orderly (.fail { h with log := h.log ++ notes.map .note } hd hs) hnoted).same []
      (by simp) (by simp) rfl rfl ho.bound rfl

lemma silent_unsent {evs : List H2Event} (hs : ∀ e ∈ evs, Silent e) :
    ∀ e ∈ evs, e.isSend = false := by
  intro e he
  have := hs e he
  cases e <;> first | rfl | exact absurd this id

lemma content_orderly (hm : H2Content io h h') (ho : Orderly io (h, [])) : Orderly io (h', []) := by
  cases hm with
  | wire hw => exact wire_orderly hw ho
  | quit _ _ _ _ hd _ hsent => exact quit_orderly hd ho hsent
  | touch w s evs _ _ ht =>
    have hunsent := silent_unsent (touch_silent ht)
    cases w <;> exact ho.same evs hunsent rfl rfl rfl ho.bound rfl
  | maxFrame _ hv => exact ho.same [_] (by simp) rfl rfl rfl hv.2 rfl
  | progress | ignore | ack => exact ho.same [] (by simp) (by simp) rfl rfl ho.bound rfl
  | _ => exact ho.same [_] (by simp) rfl rfl rfl ho.bound rfl

lemma move_orderly (hm : H2Move io h h') (ho : Orderly io (h, [])) : Orderly io (h', []) := by
  cases hm with
  | content hc => exact content_orderly hc ho
  | header | pass | endFrame | rubble =>
    exact ho.same [] (by simp) (by simp) rfl rfl ho.bound rfl
  | consume =>
    unfold consume streamRenewed
    split
    · exact ho.same [] (by simp) (by simp [connRenewed]) rfl rfl ho.bound rfl
    case h_2 w hw => cases w <;> exact ho.same [] (by simp) (by simp [connRenewed]) rfl rfl ho.bound rfl
  | beginData _ w => cases w <;> exact ho.same [_] (by simp) rfl rfl rfl ho.bound rfl
  | _ => exact ho.same [_] (by simp) rfl rfl rfl ho.bound rfl

lemma Orderly.puts {f : OutFrame} (ho : Orderly io (h, b)) (evs : List H2Event)
    (hevs : ∀ e ∈ evs, e.isSend = false) (hlog : h'.log = h.log ++ evs) (hd : h'.dead = h.dead)
    (hs : h'.started = h.started) (hpeer : h'.peer = h.peer) (hctl : h'.ctl = h.ctl) (hfit : Fits f)
    (hgo : f.isGoaway = false) : Orderly io (h', b ++ [f]) := by
  refine ho.hears hs (by rw [hpeer]; exact ho.bound) evs hevs hlog hd fun g hmem => ?_
  rw [hctl, ← List.append_assoc] at hmem
  rcases List.mem_append.mp hmem with hold | hlast
  · exact .inl hold
  · rw [List.mem_singleton.mp hlast]
    exact .inr ⟨hfit, hgo⟩

lemma step_orderly {x y : H2Core × List OutFrame} (hs : H2Step io x y) (ho : Orderly io x) :
    Orderly io y := by
  rcases hs with hm | (hact | ⟨h, _, w, body, block, _, _, _, hfit⟩ | _)
  · exact move_orderly hm ho
  · cases hact with
    | wire hw => exact wire_orderly hw ho
    | start h hs | startFail h hs => exact absurd (ho.started.symm.trans hs) (by simp)
    | cancel => exact ho.same [] (by simp) (by simp [closeStream]) rfl rfl ho.bound rfl
    | begin =>
      exact ho.hears rfl ho.bound [] (by simp) (by simp) rfl fun f hf => .inl (by simpa using hf)
    | data h _ w n _ _ _ _ _ _ hmax =>
      have hnew : Fits (putDataFrame h w n).2 := by
        refine Nat.le_trans ?_ (hmax.trans ho.bound)
        simp
      exact ho.puts [] (by simp) (by simp [putDataFrame]) (by simp [putDataFrame])
        (by simp [putDataFrame]) (by simp [putDataFrame]) (by simp [putDataFrame]) hnew rfl
    | send h b hd hs =>
      have hb : ∀ f ∈ b, f.isGoaway = false := fun f hf => ho.staged f (List.mem_append_right _ hf)
      refine ho.says rfl ho.bound hd rfl (fun f hf => .inl ?_)
        (fun f hf => ho.staged f (List.mem_append_left _ (by simpa using hf)))
        (fun f hf => hb f (List.dropLast_subset _ hf)) fun hword => ?_
      · simpa [or_comm] using hf
      · rw [not_lastWord hb rfl (by simp [H2Event.failed, hs])] at hword
        cases hword
    | fail h b hd =>
      refine ho.says rfl ho.bound hd rfl (fun f hf => .inl ?_)
        (fun f hf => ho.staged f (List.mem_append_left _ (by simpa using hf)))
        (fun f hf => ho.staged f (List.mem_append_right _ (List.dropLast_subset _ hf))) fun _ => rfl
      simpa [or_comm] using hf
  · have hnew : Fits (.frame .headers h2FEndHeaders h.nextId block) := hfit.trans ho.bound
    cases w <;>
      exact ho.puts [_] (by simp) rfl rfl rfl rfl rfl hnew rfl
  · exact ho.same [] (by simp) (by simp) rfl rfl ho.bound rfl

def startedSession : H2Core :=
  { h2cInit with
    started := true
    settingsUnacked := 1
    log := [.send helloFrames] }

section Session

lemma started_orderly (hsend : io.send []) : Orderly io (startedSession, []) := by
  have hword : H2Event.isLastWord io [] (.send helloFrames) = false :=
    not_lastWord (show ∀ f ∈ helloFrames, _ by simp [helloFrames, OutFrame.isGoaway]) rfl
      (by simp [H2Event.failed, hsend])
  have hlive : ¬ Over io startedSession.log := by
    have hnil : ¬ Over io [] := not_not.mpr each_nil
    rw [show startedSession.log = [] ++ [.send helloFrames] from rfl, over_concat, hword]
    simpa using hnil
  refine ⟨rfl, by decide, ⟨[.frame .settings 0 0 h2OurSettings], rfl, by
    simp [startedSession, h2cInit, Fits, h2OurSettings]⟩, by simp [startedSession, h2cInit],
    fun hover => absurd hover hlive, ?_, ?_⟩
  · exact each_concat.mpr ⟨each_nil, fun hover => absurd each_nil hover⟩
  · refine each_concat.mpr ⟨each_nil, ?_⟩
    simp [helloFrames, OutFrame.isGoaway]

lemma session_started (E : H2Run io) (hstart : E.act 0 = .start)
    (hok : (h2cStart io h2cInit).2 = .ok) (n : ℕ) (hn : n + 1 ≤ E.length) :
    Orderly io (E.state (n + 1), []) := by
  have hcall (k : ℕ) (hk : k < E.length) : E.state (k + 1) = (h2Call io (E.state k) (E.act k)).1 :=
    (Option.some.inj (E.steps k hk)).symm
  induction n with
  | zero =>
    have hfirst : E.state 1 = (h2cStart io h2cInit).1 := by
      rw [hcall 0 hn, hstart, E.starts]
      rfl
    rw [h2cStart_eq io rfl] at hok hfirst
    rw [hfirst]
    split at hok
    case isTrue hsend =>
      rw [if_pos hsend]
      exact started_orderly hsend
    case isFalse => cases hok
  | succ n ih =>
    rw [hcall (n + 1) hn]
    exact steps_invariant (fun _ _ => step_orderly) (h2Call_steps io _ _) (ih (by omega))

lemma frames_of_not_over {l : List H2Event} (hlive : ¬ Over io l) :
    ∀ f ∈ sentFrames l, f.isGoaway = false := by
  intro f hf
  obtain ⟨e, he, hfe⟩ := List.mem_flatMap.mp hf
  obtain ⟨past, rest, hl⟩ := List.append_of_mem he
  have hword : e.isLastWord io past = false := not_not.mp hlive past e rest hl
  rw [H2Event.isLastWord, Bool.or_eq_false_iff] at hword
  simpa using List.any_eq_false.mp hword.2 f hfe

lemma Orderly.goaway_last (ho : Orderly io (h, b)) :
    ∀ f ∈ (sentFrames h.log).dropLast, f.isGoaway = false := by
  have hquiet : Each (fun past e => Over io past → e.isSend = false) h.log := ho.quiet
  have hlast : Each (fun _ e => ∀ f ∈ e.frames.dropLast, f.isGoaway = false) h.log := ho.last
  generalize h.log = l at hquiet hlast
  induction l using List.reverseRecOn with
  | nil => simp
  | append_singleton l e ih =>
    obtain ⟨hq, hsend⟩ := each_concat.mp hquiet
    obtain ⟨hl, hown⟩ := each_concat.mp hlast
    rw [sentFrames_append, sentFrames_single]
    rcases List.eq_nil_or_concat e.frames with he | ⟨fs, f, he⟩
    · rw [he, List.append_nil]
      exact ih hq hl
    · have hlive : ¬ Over io l := by
        intro hover
        cases e <;> simp_all [H2Event.frames, H2Event.isSend]
      rw [he, List.concat_eq_append, List.dropLast_concat] at hown
      rw [he, List.concat_eq_append, ← List.append_assoc, List.dropLast_concat]
      intro g hg
      rcases List.mem_append.mp hg with hg | hg
      · exact frames_of_not_over hlive g hg
      · exact hown g hg

/-- A GOAWAY is the last frame of all; the GOAWAY or a failed send leaves the session dead, with
nothing sent after it; no call on a dead session adds to the log; the transport was handed the
preface and whole frames. -/
theorem nothing_follows_a_dead_session (E : H2Run io) (hstart : E.act 0 = .start)
    (hok : (h2cStart io h2cInit).2 = .ok) {n : ℕ} (hpos : 0 < n) (hn : n ≤ E.length) :
    (∀ f ∈ (sentFrames (E.state n).log).dropLast, f.isGoaway = false) ∧
      (Over io (E.state n).log → (E.state n).dead = true) ∧
      Each (fun past e => Over io past → e.isSend = false) (E.state n).log ∧
      ((E.state n).dead = true → ∀ m, n ≤ m → m ≤ E.length → E.state m = E.state n) ∧
      ∃ frames : List Bytes, (∀ b ∈ frames, WholeFrame b) ∧
        wireBytes (E.state n).log = h2Preface ++ frames.flatten := by
  obtain ⟨k, rfl⟩ : ∃ k, n = k + 1 := ⟨n - 1, by omega⟩
  have ho := session_started E hstart hok k hn
  refine ⟨ho.goaway_last, ho.dies, ho.quiet, fun hd m hm hle => ?_, ?_⟩
  · refine stretch hm rfl fun i _ hi hsame => ?_
    have hcall := Option.some.inj (E.steps i (by omega))
    rw [← hcall, hsame]
    exact h2Call_dead ho.started hd _
  · obtain ⟨fs, hfs, hall⟩ := ho.sent
    refine ⟨fs.map OutFrame.encode, ?_, ?_⟩
    · simp only [List.mem_map, forall_exists_index, and_imp]
      rintro b f hmem rfl
      exact encode_whole (hall f (List.mem_append_left _ hmem))
    · have hsent : sentFrames (E.state (k + 1)).log = .preface :: fs := hfs
      rw [wireBytes, hsent, List.flatMap_cons, List.flatMap_def]
      rfl

end Session

def pushedRun : H2Run (.willing 128) :=
  runOf h2cInit rfl .pump [.start, .feed [0, 0, 0, 5, 0, 0, 0, 0, 1], .pump, .feed [0]] rfl

theorem pushed_session_is_over : (pushedRun.state 2).dead = true ∧
    sentFrames (pushedRun.state 2).log = [.preface, .frame .settings 0 0 h2OurSettings,
      .frame .goaway 0 0 [0, 0, 0, 0, 0, 0, 0, 1]] ∧ pushedRun.state 4 = pushedRun.state 2 := by
  obtain ⟨-, -, -, hlater, -⟩ := nothing_follows_a_dead_session pushedRun rfl rfl
    (show 0 < 2 by decide) (show 2 ≤ 4 by decide)
  have hdead : (pushedRun.state 2).dead = true := by decide +kernel
  exact ⟨hdead, by decide +kernel, hlater hdead 4 (by decide) le_rfl⟩

end TinyLink.Proofs
