import TinyLink.Proofs.H2Steps

/-!
# Requests that fail

A request, or a pair of them, that the engine refuses leaves the session as it was.
-/

namespace TinyLink.Proofs

section Failed
variable (io : H2Io)

lemma txEnd_rc (h : H2Core) (b : List OutFrame) :
    (txEnd io h b).2 = .ok ∨ (txEnd io h b).2 = .errIo := by
  unfold txEnd
  split
  · exact .inl rfl
  · split
    · exact .inl rfl
    · exact .inr rfl

lemma pumpPass_rc (h : H2Core) : (pumpPass io h).2 = .ok ∨ (pumpPass io h).2 = .errIo := by
  unfold pumpPass
  split
  · exact .inr rfl
  · exact txEnd_rc io _ _

lemma pumpLoop_rc (fuel : ℕ) (h : H2Core) {r : H2Res} (hr : pumpLoop io fuel h = some r) :
    r.2 = .ok ∨ r.2 = .errIo := by
  induction fuel generalizing h with
  | zero =>
    unfold pumpLoop at hr
    split_ifs at hr
    cases hr
    exact .inl rfl
  | succ _ ih =>
    unfold pumpLoop at hr
    dsimp only at hr
    split at hr
    · cases hr
      exact .inl rfl
    · split at hr
      · exact ih _ hr
      · cases hr
        exact pumpPass_rc io h

lemma h2cPump_rc {h : H2Core} (hd : h.dead = false) :
    (h2cPump io h).2 = .ok ∨ (h2cPump io h).2 = .errIo := by
  unfold h2cPump
  rw [if_neg (by simp [hd])]
  cases hr : pumpLoop io (h.s.bodyRem + 1) h with
  | none => exact .inl rfl
  | some => exact pumpLoop_rc io _ h hr

lemma accepted_rc {h h₁ h₂ : H2Core} {req : H2Req} {cap : ℕ} {b₁ b₂ : List OutFrame}
    {paired : Bool} (hopen : openStream h₁ .main req cap b₁ = some (h₂, b₂))
    (hd : h₁.dead = h.dead) (hlive : h.dead = false) :
    ((txEnd io (noteOpened h₂ paired) b₂).andThen (h2cPump io)).2 = .ok ∨
      ((txEnd io (noteOpened h₂ paired) b₂).andThen (h2cPump io)).2 = .errIo := by
  have hd₂ : h₂.dead = false := by
    obtain ⟨win, off, swin, e, rfl⟩ := openStream_kept hopen
    exact hd.trans hlive
  have hnoted : (noteOpened h₂ paired).dead = false := by cases paired <;> exact hd₂
  unfold H2Res.andThen
  rcases txEnd_rc io (noteOpened h₂ paired) b₂ with hok | herr
  · rw [if_pos hok]
    refine h2cPump_rc io ?_
    rw [txEnd_ok io hok]
    exact hnoted
  · rw [if_neg (by rw [herr]; decide)]
    exact .inr herr

lemma request_refused {h : H2Core} {side : Option H2Req} {req : H2Req}
    (hrc : (h2cRequestPair io h side req).2 ≠ .ok) (hrc' : (h2cRequestPair io h side req).2 ≠ .errIo) :
    (h2cRequestPair io h side req).1 = h ∨ ((side.isSome = true → h.side.isOpen = false) ∧
        (h2cRequestPair io h side req).1 = { refused { h with ctl := [] } side.isSome with
            log := h.log ++ (if h.ctl = [] then [] else [.txSend h.ctl]) }) := by
  unfold h2cRequestPair at hrc hrc' ⊢
  dsimp only at hrc hrc' ⊢
  split at hrc
  case isTrue hcheck => exact .inl (by rw [if_pos hcheck])
  case isFalse hcheck =>
    have hok := not_not.mp hcheck
    obtain ⟨-, hlive, -, hs, hside, -⟩ := requestCheck_ok hok
    rw [if_neg hcheck] at hrc' ⊢
    cases ht : txBegin io h with
    | none =>
      rw [ht] at hrc'
      exact absurd rfl hrc'
    | some x =>
      obtain ⟨cap, h₀, ctl⟩ := x
      simp only [ht] at hrc hrc' ⊢
      obtain ⟨rfl, rfl, -⟩ := txBegin_some io ht
      cases ho : (if (openSide { h with ctl := [] } side cap h.ctl).2.2 = true then
          openStream (openSide { h with ctl := [] } side cap h.ctl).1 .main req cap
            (openSide { h with ctl := [] } side cap h.ctl).2.1 else none) with
      | none =>
        simp only [ho] at hrc hrc' ⊢
        rw [rollback_eq { h with ctl := [] } side cap h.ctl hs] at hrc hrc' ⊢
        have hsent : (txEnd io (refused { h with ctl := [] } side.isSome) h.ctl).2 = .ok := by
          refine (txEnd_rc io _ _).resolve_right fun herr => hrc' ?_
          rw [herr]
          rfl
        exact .inr ⟨hside, txEnd_ok io hsent⟩
      | some y =>
        obtain ⟨h₂, b₂⟩ := y
        simp only [ho] at hrc hrc'
        split at ho
        case isTrue =>
          rcases accepted_rc io ho (openSide_dead _ _ _ _) hlive with hfine | hio
          · exact absurd hfine hrc
          · exact absurd hio hrc'
        case isFalse => cases ho

section Side
variable (h : H2Core) (z : H2Stream)

def besides (z : H2Stream) (r : H2Res) : H2Res := (r.1.setStream .side z, r.2)

lemma andThen_side (r : H2Res) {k : H2Core → H2Res}
    (hk : ∀ h : H2Core, k (h.setStream .side z) = besides z (k h)) :
    (besides z r).andThen k = besides z (r.andThen k) := by
  obtain ⟨h, rc⟩ := r
  unfold H2Res.andThen besides
  split_ifs
  · exact hk h
  · rfl

lemma putDataLoop_side (cap fuel : ℕ) (b : List OutFrame) :
    putDataLoop .main cap fuel (h.setStream .side z) b =
      ((putDataLoop .main cap fuel h b).1.setStream .side z,
        (putDataLoop .main cap fuel h b).2) := by
  induction fuel generalizing h b with
  | zero => rfl
  | succ _ ih =>
    have hs : (h.setStream .side z).stream .main = h.stream .main := rfl
    have hw : (h.setStream .side z).sendWindow .main = h.sendWindow .main := rfl
    have hn (room : ℕ) : dataLen (h.setStream .side z) .main room = dataLen h .main room := rfl
    have hframe (n : ℕ) : putDataFrame (h.setStream .side z) .main n =
        ((putDataFrame h .main n).1.setStream .side z, (putDataFrame h .main n).2) := rfl
    rw [putDataLoop, putDataLoop]
    simp only [hs, hw, hn, hframe]
    split_ifs
    · rfl
    · rfl
    · exact ih _ _
    · rfl

lemma putData_side (cap : ℕ) (b : List OutFrame) : putData (h.setStream .side z) .main cap b =
      ((putData h .main cap b).1.setStream .side z, (putData h .main cap b).2) :=
  putDataLoop_side h z cap _ b

lemma txEnd_side (b : List OutFrame) :
    txEnd io (h.setStream .side z) b = besides z (txEnd io h b) := by
  unfold txEnd besides
  rw [setStream_log]
  split_ifs <;> rfl

lemma txBegin_side : txBegin io (h.setStream .side z) =
    (txBegin io h).map fun x => (x.1, x.2.1.setStream .side z, x.2.2) := by
  unfold txBegin
  rw [setStream_log]
  cases io.txBuf h.log with
  | none => rfl
  | some =>
    dsimp only [Option.bind]
    split_ifs <;> rfl

lemma pumpPass_side : pumpPass io (h.setStream .side z) = besides z (pumpPass io h) := by
  unfold pumpPass
  rw [txBegin_side]
  cases txBegin io h with
  | none => rfl
  | some =>
    dsimp only [Option.map]
    rw [putData_side, txEnd_side]

lemma pumpLoop_side (fuel : ℕ) :
    pumpLoop io fuel (h.setStream .side z) = (pumpLoop io fuel h).map (besides z) := by
  have hwants (h : H2Core) : pumpWants (h.setStream .side z) = pumpWants h := rfl
  induction fuel generalizing h with
  | zero =>
    unfold pumpLoop
    rw [hwants]
    split_ifs <;> rfl
  | succ _ ih =>
    unfold pumpLoop
    rw [hwants, pumpPass_side]
    dsimp only [besides]
    split_ifs
    · rfl
    · exact ih _
    · rfl

lemma h2cPump_side : h2cPump io (h.setStream .side z) = besides z (h2cPump io h) := by
  unfold h2cPump
  rw [setStream_dead, pumpLoop_side]
  change (if h.dead = true then _ else ((pumpLoop io (h.s.bodyRem + 1) h).map (besides z)).getD _) = _
  split_ifs
  · rfl
  · cases pumpLoop io (h.s.bodyRem + 1) h <;> rfl

lemma openStream_side (r : H2Req) (cap : ℕ) (b : List OutFrame) :
    openStream (h.setStream .side z) .main r cap b =
      (openStream h .main r cap b).map fun x => (x.1.setStream .side z, x.2) := by
  unfold openStream
  rw [setStream_sentSizeUpdate, setStream_peer]
  split
  · rfl
  · dsimp only
    generalize (if h.sentSizeUpdate = true then ([] : Bytes) else [0x20]) = upd
    cases putFields cap (framesLen b + h2FrameHdrLen + upd.length) r.fields with
    | none => rfl
    | some =>
      dsimp only [Option.bind]
      split
      · rfl
      · exact congrArg some (putData_side (opening h .main r.body) z cap _)

lemma h2cRequest_side (fields : List H2Field) (body : Bytes) :
    h2cRequest io (h.setStream .side z) fields body = besides z (h2cRequest io h fields body) := by
  have hcheck : requestCheck (h.setStream .side z) false = requestCheck h false := rfl
  unfold h2cRequest h2cRequestPair
  dsimp only [Option.isSome]
  rw [hcheck, txBegin_side]
  split_ifs
  · rfl
  · cases txBegin io h with
    | none => rfl
    | some x =>
      obtain ⟨cap, h₀, ctl⟩ := x
      simp only [Option.map, openSide, if_true]
      rw [openStream_side]
      cases openStream h₀ .main ⟨fields, body⟩ cap ctl with
      | none =>
        change (fun r : H2Res => (r.1, if r.2 = .ok then H2Rc.errSize else r.2))
          (txEnd io ((rollback h₀ h₀ false).setStream .side z) ctl) = _
        rw [txEnd_side]
        rfl
      | some y =>
        obtain ⟨h₂, b₂⟩ := y
        change H2Res.andThen (txEnd io ((noteOpened h₂ false).setStream .side z) b₂) _ = _
        rw [txEnd_side]
        exact andThen_side z _ fun h => h2cPump_side io h z

end Side

/-- A failed request leaves no trace. -/
theorem failed_request_leaves_no_trace (h : H2Core) (side : Option H2Req) (req : H2Req)
    (hrc : (h2cRequestPair io h side req).2 = .errSize ∨
      (h2cRequestPair io h side req).2 = .errStreams ∨
      (h2cRequestPair io h side req).2 = .errState) :
    let h' := (h2cRequestPair io h side req).1
    (∀ w, (h'.stream w).isOpen = true → h'.stream w = h.stream w) ∧
      h'.nextId = h.nextId ∧ h'.lastId = h.lastId ∧ h'.connSendWin = h.connSendWin ∧
      h'.sentSizeUpdate = h.sentSizeUpdate ∧ h'.peer = h.peer ∧ h'.dead = h.dead ∧
      -- what was staged is still staged, or was sent and nothing else
      ((h'.ctl = h.ctl ∧ h'.log = h.log) ∨
        (h'.ctl = [] ∧ h'.log = h.log ++ [.txSend h.ctl])) ∧
      (h.ctl = [] → h'.log = h.log ∧ ∀ fields body,
        (h2cRequest io h' fields body).1.log = (h2cRequest io h fields body).1.log ∧
          (h2cRequest io h' fields body).2 = (h2cRequest io h fields body).2) := by
  intro h'
  have hfail : (h2cRequestPair io h side req).2 ≠ .ok ∧
      (h2cRequestPair io h side req).2 ≠ .errIo := by
    rcases hrc with hrc | hrc | hrc <;> simp [hrc]
  have hleft := request_refused io hfail.1 hfail.2
  change h' = h ∨ (_ ∧ h' = _) at hleft
  rcases hleft with hsame | ⟨hside, hrest⟩
  · rw [hsame]
    simp
  · have hstreams (w : H2Slot) (ho : (h'.stream w).isOpen = true) : h'.stream w = h.stream w := by
      rw [hrest] at ho ⊢
      cases w with
      | main => rfl
      | side =>
        cases hp : side.isSome with
        | false => rfl
        | true =>
          rw [hp] at ho
          cases ho
    refine ⟨hstreams, ?_, ?_, ?_, ?_, ?_, ?_, ?_, ?_⟩
    · rw [hrest]; rfl
    · rw [hrest]; rfl
    · rw [hrest]; rfl
    · rw [hrest]; rfl
    · rw [hrest]; rfl
    · rw [hrest]; rfl
    · rw [hrest]
      by_cases hc : h.ctl = []
      · exact .inl ⟨hc.symm, by simp [hc]⟩
      · exact .inr ⟨rfl, by simp [hc]⟩
    · intro hc
      have hz : h' = h.setStream .side (if side.isSome then .zero else h.side) := by
        rw [hrest]
        simp [refused, H2Core.setStream, hc]
      rw [hz]
      refine ⟨by simp, fun fields body => ?_⟩
      rw [h2cRequest_side]
      exact ⟨by simp [besides], rfl⟩

end Failed

section Sample

def startedCore : H2Core := (h2cStart (.willing 74) h2cInit).1

def longPair : H2Res := h2cRequestPair (.willing 74) startedCore
    (some ⟨[], List.replicate 60 0⟩) ⟨[], []⟩

theorem long_pair_leaves_no_trace : longPair.2 = .errSize ∧
    (h2cRequest (.willing 74) longPair.1 [] [1]).1.log =
      (h2cRequest (.willing 74) startedCore [] [1]).1.log := by
  have hrc : longPair.2 = .errSize := by decide +kernel
  have hnext := (failed_request_leaves_no_trace (.willing 74) startedCore
    (some ⟨[], List.replicate 60 0⟩) ⟨[], []⟩ (.inl hrc)).2.2.2.2.2.2.2.2
  exact ⟨hrc, ((hnext (by decide +kernel)).2 [] [1]).1⟩

end Sample

end TinyLink.Proofs
