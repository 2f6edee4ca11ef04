import TinyLink.Proofs.H2Heads

/-!
# Responses

Every step keeps the fields of a stream in agreement with what the log says about its response.
-/

namespace TinyLink.Proofs

variable {io : H2Io} {h h' : H2Core} {f : H2Frame} {w : H2Slot} {s : H2Stream} {evs log : List H2Event}

/-- The fields of stream `s` in slot `w` agree with the log. -/
structure Responding (log : List H2Event) (w : H2Slot) (s : H2Stream) : Prop where
  opened : s.isOpen = true → s.closed = false
  final : s.final = true →
    s.haveStatus = true ∧ s.status / 100 ≠ 1 ∧ .note (.accepted s.id s.status) ∈ log
  accepted : ∀ st, .note (.accepted s.id st) ∈ log → s.final = true ∧ st = s.status
  declared : ∀ f, w.headerEvent s.id f ∈ log → nameIs f "content-length" = true →
    s.pseudoDone = true ∧ s.status / 100 ≠ 1 ∧ s.status ≠ 204 ∧
      ((s.contentLength = parseUint f ∧ 0 ≤ parseUint f) ∨
        (s.final = true ∧ s.status = 304 ∧ s.contentLength = 0))
  received : w = .main → (s.isOpen = true ∨ s.closed = true ∧ s.closeErr = 0) → s.stop = false →
    (delivered s.id log).length = s.recvLen
  complete : s.closed = true → s.closeErr = 0 → .note (.rstStream s.id 0) ∈ log ∨
    (s.final = true ∧ Ended s.id log ∧ (s.contentLength < 0 ∨ s.contentLength = s.recvLen))

def reply (s : H2Stream) : H2Stream :=
  { s with
    localEnd := false
    remoteEnd := false
    sendWin := 0
    recvWin := 0
    consumed := 0
    body := []
    bodyOff := 0 }

lemma responding_reply : Responding log w (reply s) ↔ Responding log w s :=
  ⟨fun hr => ⟨hr.1, hr.2, hr.3, hr.4, hr.5, hr.6⟩, fun hr => ⟨hr.1, hr.2, hr.3, hr.4, hr.5, hr.6⟩⟩

lemma reply_shifted (s : H2Stream) (delta : ℤ) : reply (shifted s delta) = reply s := by
  unfold shifted
  split <;> rfl

lemma Responding.same {t : H2Stream} (hr : Responding log w s)
    (ht : reply t = reply s) : Responding log w t := by
  rw [← responding_reply, ht, responding_reply]
  exact hr

lemma headOf_of_reply {t : H2Stream} (ht : reply t = reply s) : headOf t = headOf s := by
  have hh := congrArg headOf ht
  exact hh

lemma headerEvent_about (w : H2Slot) (sid : ℕ) (f : HpackField) :
    (w.headerEvent sid f).about = some sid := by cases w <;> rfl

lemma Responding.append (hr : Responding log w s) (hevs : ∀ e ∈ evs, Aside s.id e) :
    Responding (log ++ evs) w s := by
  refine ⟨hr.opened, fun hf => ?_, fun st hst => ?_, fun f hf hname => ?_, fun hw hgood hs => ?_,
    fun hc hz => ?_⟩
  · obtain ⟨hhave, hnot, hacc⟩ := hr.final hf
    exact ⟨hhave, hnot, List.mem_append_left _ hacc⟩
  · rcases List.mem_append.mp hst with hst | hst
    · exact hr.accepted st hst
    · cases hevs _ hst rfl
  · rcases List.mem_append.mp hf with hf | hf
    · exact hr.declared f hf hname
    · have hpart := hevs _ hf (headerEvent_about w _ f)
      cases w <;> cases hpart
  · rw [delivered_others hevs]
    exact hr.received hw hgood hs
  · refine (hr.complete hc hz).imp (fun hreset => List.mem_append_left _ hreset) ?_
    exact fun hdone => ⟨hdone.1, ended_append hdone.2.1 _, hdone.2.2⟩

lemma responding_new (hnone : ∀ e ∈ log, e.about ≠ some s.id) (hclosed : s.closed = false)
    (hfinal : s.final = false) (hlen : s.recvLen = 0) : Responding log w s := by
  refine ⟨fun _ => hclosed, by simp [hfinal], fun st hacc => absurd rfl (hnone _ hacc),
    fun f hf => absurd (headerEvent_about w _ f) (hnone _ hf), fun _ _ _ => ?_, by simp [hclosed]⟩
  rw [hlen]
  exact congrArg List.length (delivered_others (l := []) fun e he => aside_of_about (hnone e he))

lemma Responding.closes (hr : Responding log w s) {code : ℕ} (hcode : code ≠ 0) (n : ℕ) :
    Responding log w (({ s with recvLen := n } : H2Stream).close code) :=
  ⟨nofun, hr.final, hr.accepted, hr.declared,
    fun _ hgood => hgood.elim nofun fun hclean => absurd hclean.2 hcode,
    fun _ hz => absurd hz hcode⟩

lemma Responding.close (hr : Responding log w s)
    (ho : s.isOpen) (code : ℕ) (hwhy : code = 0 → .note (.rstStream s.id 0) ∈ log ∨
      (s.final = true ∧ Ended s.id log ∧ (s.contentLength < 0 ∨ s.contentLength = s.recvLen))) :
    Responding log w (s.close code) :=
  ⟨nofun, hr.final, hr.accepted, hr.declared,
    fun hw _ => hr.received hw (.inl ho), fun _ hz => hwhy hz⟩

section Open
variable {log : List H2Event} {w : H2Slot} {s : H2Stream} (hr : Responding log w s)
  (ho : s.isOpen)
include hr ho

lemma Responding.status (hp : s.pseudoDone = false) (hh : s.haveStatus = false) (st : ℕ) :
    Responding (log ++ [w.statusEvent s.id st]) w { s with haveStatus := true, status := st } := by
  have hlive := hr.opened ho
  have hfinal : s.final = false := by
    by_contra hf
    have := (hr.final (by simpa using hf)).1
    simp [hh] at this
  refine ⟨fun _ => hlive, fun hf => ?_, fun st' hacc => ?_, fun f hf hname => ?_,
    fun hw hgood hs => ?_, fun hc => ?_⟩
  · exact absurd (hf.symm.trans hfinal) (by simp)
  · rcases List.mem_append.mp hacc with hacc | hacc
    · exact absurd ((hr.accepted st' hacc).1.symm.trans hfinal) (by simp)
    · cases w <;> simp at hacc
  · rcases List.mem_append.mp hf with hf | hf
    · exact absurd ((hr.declared f hf hname).1.symm.trans hp) (by simp)
    · cases w <;> simp at hf
  · rw [delivered_append, delivered_single]
    subst hw
    simpa [H2Event.bytesOn] using hr.received rfl (.inl ho) hs
  · exact absurd (hlive.symm.trans hc) (by simp)

lemma Responding.header (f : HpackField) (p : Bool) (cl : ℤ)
    (hold : ∀ g, w.headerEvent s.id g ∈ log → nameIs g "content-length" = true →
      p = true ∧ cl = s.contentLength) (hevs : evs = [] ∨ evs = [w.headerEvent s.id f] ∧
      (nameIs f "content-length" = true →
        p = true ∧ s.status / 100 ≠ 1 ∧ s.status ≠ 204 ∧ cl = parseUint f ∧ 0 ≤ parseUint f)) :
    Responding (log ++ evs) w { s with pseudoDone := p, contentLength := cl } := by
  have hlive := hr.opened ho
  have hquiet : delivered s.id (log ++ evs) = delivered s.id log := by
    rcases hevs with rfl | ⟨rfl, -⟩
    · simp
    · rw [delivered_append, delivered_single]
      cases w <;> simp [H2Event.bytesOn]
  refine ⟨fun _ => hlive, fun hf => ?_, fun st hacc => ?_,
    fun g hg hname => ?_, fun hw hgood hs => ?_, fun hc => ?_⟩
  · obtain ⟨hhave, hnot, hacc⟩ := hr.final hf
    exact ⟨hhave, hnot, List.mem_append_left _ hacc⟩
  · rcases List.mem_append.mp hacc with hacc | hacc
    · exact hr.accepted st hacc
    · rcases hevs with rfl | ⟨rfl, -⟩
      · cases hacc
      · cases w <;> simp at hacc
  · rcases List.mem_append.mp hg with hg | hg
    · obtain ⟨hp, hcl⟩ := hold g hg hname
      obtain ⟨-, hnot, h204, hlen⟩ := hr.declared g hg hname
      rw [hp, hcl]
      exact ⟨rfl, hnot, h204, hlen⟩
    · rcases hevs with rfl | ⟨rfl, hnew⟩
      · cases hg
      · have hgf : g = f := by
          cases w <;> simpa using hg
        subst hgf
        obtain ⟨hp, hnot, h204, hcl⟩ := hnew hname
        exact ⟨hp, hnot, h204, .inl hcl⟩
  · rw [hquiet]
    exact hr.received hw (.inl ho) hs
  · exact absurd (hlive.symm.trans hc) (by simp)

lemma Responding.field (trailer : Bool) (f : HpackField)
    (hevs : FieldEvents w (streamField s trailer f) f evs) :
    Responding (log ++ evs) w (streamField s trailer f).1 := by
  rcases streamField_cases s trailer f with
    ⟨p, hs, hp, hnot, hname⟩ | ⟨st, hp, hh, hs⟩ | ⟨hnone, cl, hs, hnot, hlen⟩
  · rw [hs]
    refine hr.header ho f _ s.contentLength (fun g hg hcl => ?_) ?_
    · exact ⟨hp (hr.declared g hg hcl).1, rfl⟩
    · rcases hevs with ⟨-, rfl⟩ | ⟨hst, -⟩ | ⟨hh, rfl⟩
      · exact .inl rfl
      · exact absurd hst hnot
      · refine .inr ⟨by rw [hs], fun hcl => ?_⟩
        rw [hname hh] at hcl
        cases hcl
  · rw [hs] at hevs ⊢
    rcases hevs with ⟨hno, -⟩ | ⟨-, rfl⟩ | ⟨hno, -⟩
    · exact absurd rfl hno
    · exact hr.status ho hp hh st
    · cases hno
  · rw [hs]
    refine hr.header ho f true _ (fun g hg hcl => ?_) ?_
    · rcases (hr.declared g hg hcl).2.2.2 with ⟨he, hpos⟩ | ⟨-, -, hz⟩ <;> omega
    · rcases hevs with ⟨-, rfl⟩ | ⟨hst, -⟩ | ⟨hh, rfl⟩
      · exact .inl rfl
      · exact absurd hst hnot
      · obtain ⟨hcl, hpos, h204, hinfo⟩ := hlen hh
        exact .inr ⟨by rw [hs], fun _ => ⟨rfl, hinfo, h204, hcl, hcl ▸ hpos⟩⟩

lemma Responding.block (e : Bool)
    (hevs : BlockEvents (responseBlock s e) evs) :
    Responding (log ++ evs) w (responseBlock s e).1 := by
  have hlive := hr.opened ho
  have hdone {P : Prop} (hc : s.closed = true) : P := by simp [hlive] at hc
  rcases responseBlock_cases s e with ⟨hs, hnot⟩ | ⟨hinfo, hnot, hs⟩ | ⟨hh, hinfo, hfin, cl, hs, hcl⟩
  · obtain ⟨-, rfl⟩ := hevs.resolve_right fun hf => hnot hf.1
    rw [hs, List.append_nil]
    exact hr
  · obtain ⟨-, rfl⟩ := hevs.resolve_right fun hf => hnot hf.1
    rw [hs, List.append_nil]
    exact ⟨fun _ => hlive, fun hf => absurd hinfo (hr.final hf).2.1, hr.accepted,
      fun f hf hname => absurd hinfo (hr.declared f hf hname).2.1,
      fun hw _ => hr.received hw (.inl ho), fun hc => hdone hc⟩
  · obtain ⟨-, rfl⟩ := hevs.resolve_left fun hf => hf.1 hfin
    rw [hs]
    refine ⟨fun _ => hlive, fun _ => ⟨hh, hinfo, by simp⟩, fun st hacc => ⟨rfl, ?_⟩,
      fun f hf hname => ?_, fun hw _ hstop => ?_, fun hc => hdone hc⟩
    · rcases List.mem_append.mp hacc with hacc | hacc
      · exact (hr.accepted st hacc).2
      · simpa using hacc
    · rcases List.mem_append.mp hf with hf | hf
      · obtain ⟨hp, -, h204, hlen⟩ := hr.declared f hf hname
        refine ⟨hp, hinfo, h204, ?_⟩
        rcases hcl with rfl | ⟨hst, rfl⟩
        · exact hlen.imp_right fun hz => ⟨rfl, hz.2⟩
        · exact .inr ⟨rfl, hst.resolve_left h204, rfl⟩
      · cases w <;> simp at hf
    · rw [delivered_append, delivered_single]
      simpa [H2Event.bytesOn] using hr.received hw (.inl ho) hstop

lemma Responding.data (p : Bytes) (b : Bool)
    (hevs : (evs = [] ∧ (w = .main → s.stop = true ∨ p = []) ∧ b = s.stop) ∨
      (w = .main ∧ s.stop = false ∧ evs = [.onData s.id p])) :
    Responding (log ++ evs) w { s with recvLen := s.recvLen + p.length, stop := b } := by
  have hlive := hr.opened ho
  rcases hevs with ⟨rfl, hskip, rfl⟩ | ⟨rfl, hstop, rfl⟩
  · rw [List.append_nil]
    refine ⟨fun _ => hlive, hr.final, hr.accepted, hr.declared, fun hw _ hs => ?_,
      fun hc => absurd (hlive.symm.trans hc) (by simp)⟩
    have hp := (hskip hw).resolve_left fun ht => absurd (hs.symm.trans ht) (by simp)
    rw [hr.received hw (.inl ho) hs, hp]
    rfl
  · refine ⟨fun _ => hlive, fun hf => ?_, fun st hacc => ?_, fun f hf hname => ?_,
      fun hw _ hs => ?_, fun hc => absurd (hlive.symm.trans hc) (by simp)⟩
    · obtain ⟨hhave, hnot, hacc⟩ := hr.final hf
      exact ⟨hhave, hnot, List.mem_append_left _ hacc⟩
    · exact hr.accepted st (by simpa using hacc)
    · exact hr.declared f (by simpa using hf) hname
    · have hlen := hr.received rfl (.inl ho) hstop
      simp [H2Event.bytesOn, hlen]

end Open

/-- The flags of header block `blk` of stream `sid` come from the log: a trailer block follows a
final response. -/
structure BlockNoted (blk : H2Block) (sid : ℕ) (log : List H2Event) : Prop where
  ended : blk.endStream = true → Ended sid log
  trailer : blk.trailer = true → ∃ st, .note (.accepted sid st) ∈ log

/-- What the parser still holds of the frame and the header block in progress is in the log. -/
structure EndNoted (f : H2Frame) (blk : H2Block) (log : List H2Event) : Prop where
  loaded : Loaded f.phase → f.type = .data ∨ f.type = .headers ∨ f.type = .continuation
  data : f.type = .data → hasFlag f.flags h2FEndStream = true → Ended f.sid log
  block : f.type = .headers ∨ f.type = .continuation → BlockNoted blk f.sid log
  cont : blk.contSid ≠ 0 → BlockNoted blk blk.contSid log

lemma BlockNoted.kept {blk blk' : H2Block} {sid : ℕ} (hb : BlockNoted blk sid log)
    (hend : blk'.endStream = blk.endStream ∧ blk'.trailer = blk.trailer) (evs : List H2Event) :
    BlockNoted blk' sid (log ++ evs) := by
  refine ⟨fun he => ended_append (hb.ended (hend.1.symm.trans he)) evs, fun ht => ?_⟩
  obtain ⟨st, hst⟩ := hb.trailer (hend.2.symm.trans ht)
  exact ⟨st, List.mem_append_left evs hst⟩

lemma EndNoted.kept {f' : H2Frame} {blk blk' : H2Block} (hn : EndNoted f blk log)
    (hp : Loaded f'.phase → Loaded f.phase ∨ f.type = .data) (ht : f'.type = f.type)
    (hfl : f'.flags = f.flags) (hsid : f'.sid = f.sid)
    (hend : blk'.endStream = blk.endStream ∧ blk'.trailer = blk.trailer)
    (hcont : blk'.contSid = 0 ∨ blk'.contSid = blk.contSid) (evs : List H2Event) :
    EndNoted f' blk' (log ++ evs) := by
  refine ⟨fun hl => ?_, ?_, ?_, ?_⟩
  · rw [ht]
    exact (hp hl).elim hn.loaded .inl
  · rw [ht, hfl, hsid]
    exact fun hd hf => ended_append (hn.data hd hf) evs
  · rw [ht, hsid]
    exact fun hd => (hn.block hd).kept hend evs
  · rcases hcont with hz | hs
    · exact fun hne => absurd hz hne
    · rw [hs]
      exact fun hne => (hn.cont hne).kept hend evs

lemma content_blk (hm : H2Content io h h') :
    (h'.blk.endStream = h.blk.endStream ∧ h'.blk.trailer = h.blk.trailer) ∧
      (h'.blk.contSid = 0 ∨ h'.blk.contSid = h.blk.contSid) := by
  cases hm with
  | wire hw => cases hw <;> exact ⟨⟨rfl, rfl⟩, .inr rfl⟩
  | touch => simp [touched]
  | progress _ _ _ _ _ _ _ _ hcont => exact ⟨⟨rfl, rfl⟩, hcont⟩
  | _ => exact ⟨⟨rfl, rfl⟩, .inr rfl⟩

lemma content_loaded (hm : H2Content io h h') (hl : Loaded h'.f.phase) :
    Loaded h.f.phase ∨ h.f.type = .data := by
  cases hm with
  | wire hw => cases hw <;> exact .inl hl
  | touch => exact .inl (by simpa [touched] using hl)
  | progress _ _ _ _ _ _ hp => exact hp hl
  | _ => exact .inl hl

lemma EndNoted.content (hn : EndNoted h.f h.blk h.log) (hm : H2Content io h h')
    (evs : List H2Event) : EndNoted h'.f h'.blk (h.log ++ evs) := by
  have hf := content_sameFrame hm
  obtain ⟨hend, hcont⟩ := content_blk hm
  exact hn.kept (content_loaded hm) hf.type hf.flags hf.sid hend hcont evs

structure Responsive (h : H2Core) : Prop where
  next : h.lastId < h.nextId
  low : ∀ w, (h.stream w).id ≤ h.lastId
  apart : h.s.id = h.side.id → h.s.id = 0
  pos : ∀ w, (h.stream w).isOpen = true → 0 < (h.stream w).id
  known : ∀ e ∈ h.log, ∀ sid, e.about = some sid → 0 < sid ∧ sid < h.nextId
  noted : h.dead = false → EndNoted h.f h.blk h.log
  streams : ∀ w, Responding h.log w (h.stream w)
  reads : ∀ w, HeadRead h.log (h.stream w)

section
variable (hr : Responsive h)
include hr

lemma Responsive.touch (w : H2Slot) (evs : List H2Event)
    (hlog : h'.log = h.log ++ evs) (hnext : h'.nextId = h.nextId) (hlast : h'.lastId = h.lastId)
    (hevs : ∀ e ∈ evs, ∀ sid, e.about = some sid →
      sid = (h.stream w).id ∧ (h.stream w).isOpen = true)
    (hother : ∀ v, v ≠ w → reply (h'.stream v) = reply (h.stream v))
    (hid : (h'.stream w).id = (h.stream w).id)
    (hopen : (h'.stream w).isOpen = true → (h.stream w).isOpen = true)
    (hw : Responding (h.log ++ evs) w (h'.stream w)) (hk : HeadRead (h.log ++ evs) (h'.stream w))
    (hnoted : h'.dead = false → EndNoted h'.f h'.blk (h.log ++ evs)) : Responsive h' := by
  have hids (v : H2Slot) : (h'.stream v).id = (h.stream v).id ∧
      ((h'.stream v).isOpen = true → (h.stream v).isOpen = true) := by
    by_cases hv : v = w
    · rw [hv]
      exact ⟨hid, hopen⟩
    · exact ⟨congrArg (fun s => s.id) (hother v hv),
        fun ho => (congrArg (fun s => s.isOpen) (hother v hv)).symm.trans ho⟩
  have hfar {v : H2Slot} (hv : v ≠ w) : ∀ e ∈ evs, e.about ≠ some (h.stream v).id := by
    intro e he hab
    obtain ⟨hsame, ho⟩ := hevs e he _ hab
    exact hv (slot_unique hr.apart (hr.pos w ho) hsame)
  have hmain : h'.s.id = h.s.id := (hids .main).1
  have hside : h'.side.id = h.side.id := (hids .side).1
  refine ⟨by rw [hlast, hnext]; exact hr.next, fun v => ?_, ?_, fun v ho => ?_, fun e he sid hsid => ?_,
    ?_, fun v => ?_, fun v => ?_⟩
  · rw [(hids v).1, hlast]
    exact hr.low v
  · rw [hmain, hside]
    exact hr.apart
  · rw [(hids v).1]
    exact hr.pos v ((hids v).2 ho)
  · rw [hnext]
    rw [hlog] at he
    rcases List.mem_append.mp he with he | he
    · exact hr.known e he sid hsid
    · obtain ⟨rfl, ho⟩ := hevs e he sid hsid
      exact ⟨hr.pos w ho, (hr.low w).trans_lt hr.next⟩
  · rw [hlog]
    exact hnoted
  · rw [hlog]
    by_cases hv : v = w
    · rw [hv]
      exact hw
    · exact ((hr.streams v).append fun e he => aside_of_about (hfar hv e he)).same (hother v hv)
  · rw [hlog]
    by_cases hv : v = w
    · rw [hv]
      exact hk
    · exact (hr.reads v).quiet (fun e he => part_other (hfar hv e he)) (headOf_of_reply (hother v hv))

lemma Responsive.quiet (evs : List H2Event)
    (hlog : h'.log = h.log ++ evs) (hnext : h'.nextId = h.nextId) (hlast : h'.lastId = h.lastId)
    (hevs : ∀ e ∈ evs, e.about = none) (hsame : ∀ v, reply (h'.stream v) = reply (h.stream v))
    (hnoted : h'.dead = false → EndNoted h'.f h'.blk (h.log ++ evs)) : Responsive h' := by
  refine hr.touch .main evs hlog hnext hlast (fun e he sid hsid => ?_) (fun v _ => hsame v)
    (congrArg (fun s => s.id) (hsame .main))
    (fun ho => (congrArg (fun s => s.isOpen) (hsame .main)).symm.trans ho) ?_ ?_ hnoted
  · rw [hevs e he] at hsid
    cases hsid
  · exact ((hr.streams .main).append fun e he => aside_of_about (by rw [hevs e he]; rintro ⟨⟩)).same
      (hsame .main)
  · exact (hr.reads .main).quiet (fun e he => part_other (by rw [hevs e he]; rintro ⟨⟩))
      (headOf_of_reply (hsame .main))

lemma Responsive.content (hm : H2Content io h h')
    (evs : List H2Event) (hlog : h'.log = h.log ++ evs) (hd : h'.dead = false → h.dead = false)
    (hevs : ∀ e ∈ evs, e.about = none) (hsame : ∀ v, reply (h'.stream v) = reply (h.stream v)) :
    Responsive h' := by
  obtain ⟨-, -, hnext, hlast⟩ := content_conn hm
  exact hr.quiet evs hlog hnext hlast hevs hsame fun hlive => (hr.noted (hd hlive)).content hm evs

end

lemma touch_about (ht : Touch h w s evs) :
    ∀ e ∈ evs, e.about = none ∨ e.about = some (h.stream w).id := by
  cases ht with
  | close | finish => simp
  | reset | grant => simp
  | data _ _ _ hevs => rcases hevs with ⟨rfl, -⟩ | ⟨-, -, rfl⟩ <;> simp
  | field f _ _ _ hevs =>
    obtain ⟨p, hs, st, cl, he⟩ := streamField_eq (h.stream w) h.blk.trailer f
    rcases hevs with ⟨-, rfl⟩ | ⟨-, rfl⟩ | ⟨-, rfl⟩
    · simp
    · cases w <;> simp [he]
    · cases w <;> simp [he]
  | block _ _ _ hevs =>
    rcases hevs with ⟨-, rfl⟩ | ⟨-, rfl⟩
    · simp
    · simp [(responseBlock_id (h.stream w) h.blk.endStream).1]

lemma touch_responding (ht : Touch h w s evs) (ho : (h.stream w).isOpen)
    (hr : Responding h.log w (h.stream w)) (hn : EndNoted h.f h.blk h.log) :
    Responding (h.log ++ evs) w s := by
  cases ht with
  | close n _ hcode =>
    rw [List.append_nil]
    exact hr.closes hcode n
  | reset code hid =>
    have hnote : Responding (h.log ++ [.note (.rstStream h.f.sid code)]) w (h.stream w) :=
      hr.append (by simp [Aside])
    exact hnote.close ho code fun hz => .inl (by simp [hid, hz])
  | finish hid hfinal hlen hend =>
    have hended : Ended (h.stream w).id h.log := by
      rw [hid]
      rcases hend with ⟨ht, hflag⟩ | ⟨ht, hflag⟩
      · exact hn.data ht hflag
      · exact (hn.block ht).ended hflag
    have hclosed : Responding h.log w ((h.stream w).close h2NoError) :=
      hr.close ho _ fun _ => .inr ⟨hfinal, hended, hlen⟩
    rw [List.append_nil]
    exact hclosed.same rfl
  | data p b _ hevs => exact hr.data ho p b hevs
  | field f _ _ _ hevs =>
    rw [List.append_cons]
    exact (hr.append (by simp [Aside, H2Event.part])).field ho h.blk.trailer f hevs
  | block _ _ _ hevs =>
    rw [List.append_cons]
    exact (hr.append (by simp [Aside, H2Event.part])).block ho h.blk.endStream hevs
  | grant => exact (hr.append (by simp [Aside])).same rfl

lemma touch_tracks (ht : Touch h w s evs) (hpos : 0 < (h.stream w).id)
    (hk : HeadRead h.log (h.stream w)) (hr : Responding h.log w (h.stream w)) (hn : EndNoted h.f h.blk h.log) :
    HeadRead (h.log ++ evs) s := by
  cases ht with
  | close | reset | finish | grant => exact hk.quiet (by simp [H2Event.part]) rfl
  | data _ _ _ hevs =>
    refine hk.quiet (fun e he => ?_) rfl
    rcases hevs with ⟨rfl, -⟩ | ⟨-, -, rfl⟩
    · cases he
    · rw [List.mem_singleton.mp he]
      rfl
  | field f _ hid hin hevs =>
    refine hk.field hpos (fun hf => (hr.final hf).1) (fun htrail => ?_) f fun e he => ?_
    · have htype := (hn.loaded (.inr (.inr hin.1))).resolve_left hin.2
      obtain ⟨st, hst⟩ := (hn.block htype).trailer htrail
      exact (hr.accepted st (hid ▸ hst)).1
    · rcases hevs with ⟨-, rfl⟩ | ⟨-, rfl⟩ | ⟨-, rfl⟩
      · cases he
      · rw [List.mem_singleton.mp he]
        cases w <;> rfl
      · rw [List.mem_singleton.mp he]
        cases w <;> rfl
  | block _ _ _ hevs =>
    refine hk.block hpos (fun hf => (hr.final hf).2.1) _ fun e he => ?_
    rcases hevs with ⟨-, rfl⟩ | ⟨-, rfl⟩
    · cases he
    · rw [List.mem_singleton.mp he]
      rfl

lemma LastSends.about {log sent : List H2Event} {ctl : List OutFrame} {code : ℕ}
    (hs : LastSends io log ctl code sent) : ∀ e ∈ sent, e.about = none := by
  cases hs <;> simp

lemma content_responsive (hm : H2Content io h h') (hr : Responsive h) : Responsive h' := by
  have hm' := hm
  cases hm with
  | wire hw =>
    cases hw with
    | stage => exact hr.content hm' [] (by simp) id (by simp) fun _ => rfl
    | flush | fail =>
      exact hr.content hm' [.send h.ctl] rfl (by first | exact id | rintro ⟨⟩)
        (by simp) fun _ => rfl
  | touch w s evs hd ho ht =>
    have hstream := touched_stream h w
    refine hr.touch w evs rfl (content_conn hm').2.2.1 (content_conn hm').2.2.2
      (fun e he sid hsid => ⟨?_, ho⟩) (fun v hv => by rw [hstream, if_neg hv])
      (content_stream hm' w).id (fun _ => ho) ?_ ?_ fun _ => (hr.noted hd).content hm' evs
    · rcases touch_about ht e he with hnone | hsome
      · rw [hnone] at hsid
        cases hsid
      · exact (Option.some.inj (hsome.symm.trans hsid)).symm
    · rw [hstream, if_pos rfl]
      exact touch_responding ht ho (hr.streams w) (hr.noted hd)
    · rw [hstream, if_pos rfl]
      exact touch_tracks ht (hr.pos w ho) (hr.reads w) (hr.streams w) (hr.noted hd)
  | quit notes sent code s _ hn hsent hs =>
    refine hr.content hm' (notes.map .note ++ sent) (by simp) (by rintro ⟨⟩) (fun e he => ?_)
      fun v => ?_
    · rcases List.mem_append.mp he with he | he
      · obtain ⟨n, hmem, rfl⟩ := List.mem_map.mp he
        have := hn n hmem
        cases n <;> first | rfl | exact this.elim
      · exact hsent.about e he
    · cases v with
      | main =>
        rcases hs with rfl | ⟨_, _, rfl, _⟩
        · rfl
        · exact reply_shifted h.s _
      | side => rfl
  | progress | ignore | ack =>
    exact hr.content hm' [] (by simp) id (by simp) fun _ => rfl
  | initialWindow =>
    refine hr.content hm' [_] rfl id (by simp) fun u => ?_
    cases u with
    | main => exact reply_shifted h.s _
    | side => exact reply_shifted h.side _
  | noteGrant | goaway | maxFrame v | setting _ v | connGrant =>
    exact hr.content hm' [_] rfl id (by simp) fun _ => rfl

lemma Responsive.goesOn (hr : Responsive h) (evs : List H2Event)
    (hlog : h'.log = h.log ++ evs) (hids : h'.nextId = h.nextId ∧ h'.lastId = h.lastId)
    (hevs : ∀ e ∈ evs, e.about = none) (hsame : ∀ v, reply (h'.stream v) = reply (h.stream v))
    (hframe : h'.f.phase = h.f.phase ∧ h'.f.type = h.f.type ∧ h'.f.flags = h.f.flags ∧
      h'.f.sid = h.f.sid) (hblk : h'.blk = h.blk)
    (hd : h'.dead = false → h.dead = false) : Responsive h' :=
  hr.quiet evs hlog hids.1 hids.2 hevs hsame fun hlive =>
    (hr.noted (hd hlive)).kept (fun hl => .inl (hframe.1 ▸ hl)) hframe.2.1 hframe.2.2.1
      hframe.2.2.2 (by simp [hblk]) (by simp [hblk]) evs

lemma Responsive.begins (hr : Responsive h)
    (hlog : h'.log = h.log ++ [.note (.frame f.type f.flags f.sid)])
    (hids : h'.nextId = h.nextId ∧ h'.lastId = h.lastId)
    (hsame : ∀ v, reply (h'.stream v) = reply (h.stream v)) (hnoted : h'.dead = false →
      EndNoted h'.f h'.blk (h.log ++ [.note (.frame f.type f.flags f.sid)])) : Responsive h' :=
  hr.quiet _ hlog hids.1 hids.2 (by simp) hsame hnoted

lemma EndNoted.begins {g : H2Frame} {blk blk' : H2Block}
    (hn : EndNoted f blk log) (hl : Loaded g.phase → g.type = .data)
    (ht : g.type ≠ .headers ∧ g.type ≠ .continuation)
    (hblk : blk' = blk) : EndNoted g blk' (log ++ [.note (.frame g.type g.flags g.sid)]) := by
  refine ⟨fun hload => .inl (hl hload),
    fun hd hflag => ⟨_, List.mem_append_right _ (List.mem_singleton_self _), ?_⟩, ?_, ?_⟩
  · simp [H2Event.endsStream, hd, hflag]
  · rintro (hh | hh)
    · exact absurd hh ht.1
    · exact absurd hh ht.2
  · rw [hblk]
    exact fun hne => (hn.cont hne).kept ⟨rfl, rfl⟩ _

lemma EndNoted.opens (f : H2Frame) (blk : H2Block)
    (ht : f.type = .headers ∨ f.type = .continuation)
    (hcont : blk.contSid = 0 ∨ blk.contSid = f.sid) (hb : BlockNoted blk f.sid log) :
    EndNoted f blk log := by
  refine ⟨fun _ => .inr ht, fun hdata => ?_, fun _ => hb, fun hne => ?_⟩
  · rcases ht with ht | ht <;> exact absurd (ht.symm.trans hdata) (by decide)
  · rw [hcont.resolve_left hne]
    exact hb

lemma move_responsive (hm : H2Move io h h') (hr : Responsive h) : Responsive h' := by
  cases hm with
  | content hc => exact content_responsive hc hr
  | header | pass | endFrame =>
    exact hr.goesOn [] (by simp) ⟨rfl, rfl⟩ (by simp) (fun _ => rfl)
      ⟨rfl, rfl, rfl, rfl⟩ rfl id
  | consume n =>
    obtain ⟨-, -, hnext, hlast, hdead⟩ := consume_conn h n
    have hblk : (consume h n).blk = h.blk := by
      unfold consume streamRenewed
      split <;> simp [connRenewed]
    refine hr.goesOn [] (by simp) ⟨hnext, hlast⟩ (by simp) (fun v => ?_)
      ⟨rfl, rfl, rfl, rfl⟩ hblk fun hd => hdead.symm.trans hd
    have hs : ({ consume h n with f := { h.f with left := h.f.left - n } } : H2Core).stream v =
        (consume h n).stream v := rfl
    rw [hs, consume_stream]
    split <;> rfl
  | beginOther _ _ _ _ ht hp =>
    exact hr.begins rfl ⟨rfl, rfl⟩ (fun _ => rfl) fun hd =>
      (hr.noted hd).begins (fun hl => absurd hl hp) ht.2 rfl
  | beginIgnored f _ _ ht =>
    have htype : f.type ≠ .headers ∧ f.type ≠ .continuation := by simp [ht]
    exact hr.begins rfl ⟨rfl, rfl⟩ (fun _ => rfl) fun hd =>
      (hr.noted hd).begins (fun _ => ht) htype rfl
  | beginData f w _ _ ht =>
    refine hr.begins (f := f) (by simp)
      (by simp) (fun v => by cases v <;> cases w <;> rfl) fun hd => ?_
    have hlive : h.dead = false := by cases w <;> exact hd
    have hn := (hr.noted hlive).begins (g := f) (fun _ => ht) (by simp [ht]) rfl
    cases w <;> exact hn
  | beginHeaders f blk _ _ ht hend htrail hcont =>
    refine hr.begins rfl ⟨rfl, rfl⟩ (fun _ => rfl) fun hd => ?_
    refine .opens f blk (.inl ht) hcont ⟨fun he => ?_, fun hb => ?_⟩
    · refine ⟨_, List.mem_append_right _ (List.mem_singleton_self _), ?_⟩
      simp [H2Event.endsStream, ht, ← hend, he]
    · obtain ⟨w, hw, hfinal⟩ := htrail hb
      have hacc := ((hr.streams w).final hfinal).2.2
      rw [(streamOf_some hw).2] at hacc
      exact ⟨_, List.mem_append_left _ hacc⟩
  | beginContinuation f blk _ _ ht hc hsid hend htrail hcont =>
    refine hr.begins rfl ⟨rfl, rfl⟩ (fun _ => rfl) fun hd => ?_
    refine .opens f blk (.inr ht) hcont ?_
    rw [← hsid]
    exact ((hr.noted hd).cont hc).kept ⟨hend, htrail⟩ _
  | rubble _ _ _ _ _ _ _ _ hd =>
    refine hr.quiet [] (by simp) rfl rfl (by simp) (fun v => by cases v <;> rfl) fun hlive => ?_
    exact absurd (hd.symm.trans hlive) (by simp)

lemma Responsive.renew {g : H2Core} (hr : Responsive h)
    (evs : List H2Event) (hlog : g.log = h.log ++ evs) (hevs : ∀ e ∈ evs, e.about = none)
    (hframe : g.f = h.f ∧ g.blk = h.blk ∧ g.dead = h.dead)
    (hs : g.stream w = s) (hother : ∀ v, v ≠ w → g.stream v = h.stream v)
    (hnext : g.lastId < g.nextId) (hlast : h.lastId ≤ g.lastId) (hmore : h.nextId ≤ g.nextId)
    (hid : s.id = 0 ∧ s.isOpen = false ∨ h.nextId ≤ s.id ∧ s.id ≤ g.lastId)
    (hclosed : s.closed = false) (hfinal : s.final = false) (hst : s.status = 0)
    (hlen : s.recvLen = 0) (hhead : 0 < s.id → false = s.haveStatus ∧ false = s.pseudoDone ∧
      -1 = s.contentLength) : Responsive g := by
  have hlow := hr.low
  have hnew : ∀ e ∈ h.log ++ evs, e.about ≠ some s.id := by
    intro e he hab
    rcases List.mem_append.mp he with he | he
    · have := hr.known e he _ hab
      omega
    · rw [hevs e he] at hab
      cases hab
  have hold := hr.next
  refine ⟨hnext, fun v => ?_, ?_, fun v ho => ?_, fun e he sid hsid => ?_, fun hd => ?_, fun v => ?_,
    fun v => ?_⟩
  · by_cases hv : v = w
    · rw [hv, hs]
      omega
    · rw [hother v hv]
      exact (hlow v).trans hlast
  · have hm : h.s.id ≤ h.lastId := hlow .main
    have hv : h.side.id ≤ h.lastId := hlow .side
    cases w with
    | main =>
      have hmain : g.s = s := hs
      have hside : g.side = h.side := hother .side (by decide)
      rw [hmain, hside]
      omega
    | side =>
      have hmain : g.s = h.s := hother .main (by decide)
      have hside : g.side = s := hs
      rw [hmain, hside]
      omega
  · by_cases hv : v = w
    · rw [hv, hs] at ho ⊢
      rcases hid with ⟨-, hno⟩ | ⟨hid, -⟩
      · exact absurd (ho.symm.trans hno) (by simp)
      · omega
    · rw [hother v hv] at ho ⊢
      exact hr.pos v ho
  · rw [hlog] at he
    rcases List.mem_append.mp he with he | he
    · have := hr.known e he sid hsid
      omega
    · rw [hevs e he] at hsid
      cases hsid
  · obtain ⟨hf, hblk, hdead⟩ := hframe
    rw [hf, hblk, hlog]
    exact (hr.noted (hdead.symm.trans hd)).kept .inl rfl rfl rfl ⟨rfl, rfl⟩ (.inr rfl) evs
  · rw [hlog]
    by_cases hv : v = w
    · rw [hv, hs]
      exact responding_new hnew hclosed hfinal hlen
    · rw [hother v hv]
      exact (hr.streams v).append fun e he => aside_of_about (by rw [hevs e he]; rintro ⟨⟩)
  · rw [hlog]
    by_cases hv : v = w
    · rw [hv, hs]
      exact reads_new hnew hfinal hst hhead
    · rw [hother v hv]
      exact (hr.reads v).quiet (fun e he => part_other (by rw [hevs e he]; rintro ⟨⟩)) rfl

lemma opened_responsive (hr : Responsive h) (w : H2Slot) (body : Bytes) :
    Responsive (opened h w body) := by
  have hnext := hr.next
  refine hr.renew (w := w) (s := .fresh h.nextId h.peer.initialWin body)
    (g := opened h w body) [.note (.opened h.nextId body)] ?_ (by simp) ?_
    (by cases w <;> rfl) (fun v hv => ?_) ?_ ?_ ?_ (.inr ⟨le_rfl, ?_⟩) rfl rfl rfl rfl
    fun _ => ⟨rfl, rfl, rfl⟩
  all_goals try simp [opened, opening]
  · cases v <;> cases w <;> first | rfl | exact absurd rfl hv
  · exact hnext.le
  · exact le_rfl

lemma act_responsive {x y : H2Core × List OutFrame} (ha : H2Act io x y) (hr : Responsive x.1) :
    Responsive y.1 := by
  cases ha with
  | wire hw => exact content_responsive (.wire hw) hr
  | start | startFail =>
    exact hr.goesOn [.send helloFrames] rfl ⟨rfl, rfl⟩ (by simp)
      (fun _ => rfl) ⟨rfl, rfl, rfl, rfl⟩ rfl (by first | exact id | rintro ⟨⟩)
  | begin =>
    exact hr.goesOn [] (by simp) ⟨rfl, rfl⟩ (by simp) (fun _ => rfl)
      ⟨rfl, rfl, rfl, rfl⟩ rfl id
  | cancel h ho =>
    refine hr.touch .side [] (by simp [closeStream]) rfl rfl (by simp) (fun v hv => ?_) rfl
      (by rintro ⟨⟩) ?_ ((hr.reads .side).quiet (by simp) rfl)
      fun hd => (hr.noted hd).kept .inl rfl rfl rfl ⟨rfl, rfl⟩ (.inr rfl) []
    · cases v with
      | main => rfl
      | side => exact absurd rfl hv
    · rw [List.append_nil]
      exact (hr.streams .side).close ho _ (by rintro ⟨⟩)
  | data _ _ w =>
    refine hr.goesOn [] ?_ ?_ (by simp) (fun v => by cases v <;> cases w <;> rfl) ?_ ?_ ?_ <;>
      simp [putDataFrame]
  | send h b | fail h b =>
    exact hr.goesOn [.txSend b] rfl ⟨rfl, rfl⟩ (by simp)
      (fun _ => rfl) ⟨rfl, rfl, rfl, rfl⟩ rfl (by first | exact id | rintro ⟨⟩)

lemma step_responsive {x y : H2Core × List OutFrame} (hs : H2Step io x y) (hr : Responsive x.1) :
    Responsive y.1 := by
  rcases hs with hm | (hact | ⟨_, _, w, body⟩ | _)
  · exact move_responsive hm hr
  · exact act_responsive hact hr
  · exact opened_responsive hr w body
  · refine hr.renew (w := .side) (s := .zero) [] (by simp) (by simp) ⟨rfl, rfl, rfl⟩ rfl
      (fun v hv => ?_) hr.next le_rfl le_rfl (.inl ⟨rfl, rfl⟩) rfl rfl rfl rfl
      (fun hpos => absurd hpos (lt_irrefl 0))
    cases v with
    | main => rfl
    | side => exact absurd rfl hv

lemma init_responsive : Responsive h2cInit := by
  have hblk (sid : ℕ) : BlockNoted h2cInit.blk sid h2cInit.log := ⟨by rintro ⟨⟩, by rintro ⟨⟩⟩
  refine ⟨by decide, fun w => by cases w <;> decide, fun _ => rfl, fun w ho => ?_,
    by simp [h2cInit], fun _ => ⟨by unfold Loaded; decide, by decide, fun _ => hblk _, fun _ => hblk _⟩,
    fun w => ?_, fun w => ?_⟩
  · cases w <;> cases ho
  · refine responding_new (by simp [h2cInit]) ?_ ?_ ?_ <;> cases w <;> rfl
  · refine reads_new (by simp [h2cInit]) ?_ ?_ fun hpos => ?_
    · cases w <;> rfl
    · cases w <;> rfl
    · cases w <;> exact absurd hpos (lt_irrefl 0)

/-- A main stream that closed without an error code carried a complete response, if the server did
not reset it with that code while it was open. -/
theorem clean_close_is_complete {io : H2Io} (E : H2Run io) {n : ℕ} (hn : n ≤ E.length)
    (hreset : .note (.rstStream (E.state n).s.id h2NoError) ∉ (E.state n).log)
    (hclosed : (E.state n).s.closed = true) (herr : (E.state n).s.closeErr = h2NoError) :
    CompleteResponse (E.state n).log (E.state n).s := by
  have hr : Responsive (E.state n) :=
    session_invariant E (P := fun x => Responsive x.1) init_responsive
      (fun x y hs => step_responsive hs) hn
  have hmain : Responding (E.state n).log .main (E.state n).s := hr.streams .main
  obtain ⟨hfinal, hended, hlen⟩ := (hmain.complete hclosed herr).resolve_left hreset
  obtain ⟨-, hnot, hacc⟩ := hmain.final hfinal
  refine ⟨⟨_, hnot, hacc⟩, hended, hlen, fun f hf hname => ?_, hmain.received rfl ?_⟩
  · obtain ⟨-, -, -, ⟨he, hpos⟩ | ⟨-, h304, hz⟩⟩ := hmain.declared f hf hname
    · exact .inl (by omega)
    · exact .inr ⟨h304, by omega⟩
  · exact .inr ⟨hclosed, herr⟩

section Sample
open StepSystem

def declaredFive (body rest : Bytes) : List H2Call :=
  [.start, .request none ⟨[], []⟩, .feed [0, 0, 5, 1, 4, 0, 0, 0, 1, 0x88, 0x0f, 0x0d, 1, 0x35],
    .feed body, .feed rest]

def wholeRun : H2Run (.willing 1024) := runOf h2cInit rfl .pump
  (declaredFive [0, 0, 3, 0, 0, 0, 0, 0, 1, 1, 2, 3] [0, 0, 2, 0, 1, 0, 0, 0, 1, 4, 5]) rfl

theorem answered_is_complete : (delivered 1 (wholeRun.state 5).log).length = 5 ∧
    CompleteResponse (wholeRun.state 5).log (wholeRun.state 5).s :=
  ⟨by decide +kernel, clean_close_is_complete wholeRun (n := 5) (by decide) (by decide +kernel)
    (by decide +kernel) (by decide +kernel)⟩

def truncatedRun : H2Run (.willing 1024) := runOf h2cInit rfl .pump
  (declaredFive [0, 0, 3, 0, 0, 0, 0, 0, 1, 1, 2, 3] [0, 0, 4, 3, 0, 0, 0, 0, 1, 0, 0, 0, 0]) rfl

theorem truncated_looks_clean : (truncatedRun.state 5).s.closed = true ∧
    (truncatedRun.state 5).s.closeErr = h2NoError ∧ (truncatedRun.state 5).dead = false ∧
    (truncatedRun.state 5).s.contentLength = 5 ∧ (truncatedRun.state 5).s.recvLen = 3 ∧
    ¬ Ended 1 (truncatedRun.state 5).log ∧
    ¬ CompleteResponse (truncatedRun.state 5).log (truncatedRun.state 5).s := by
  have hlen : (truncatedRun.state 5).s.contentLength = 5 ∧ (truncatedRun.state 5).s.recvLen = 3 := by
    decide +kernel
  refine ⟨by decide +kernel, by decide +kernel, by decide +kernel, hlen.1, hlen.2,
    by decide +kernel, fun hc => ?_⟩
  have := hc.length
  rw [hlen.1, hlen.2] at this
  omega

end Sample

end TinyLink.Proofs
