import TinyLink.Proofs.DerpWriters

/-!
# The streams of a whole run

What one step does to each connection, where a writer's frame comes from, and what follows for runs.
-/

namespace TinyLink.Proofs
open DerpWorld StepSystem

variable {c : DerpConn} {f : DerpFrame} {g k : ℕ}
    {ι : Type} {cfg : DerpConfig} {s s' : DerpWorld ι} {i : ι}

/-- What a step from `s` may do to a connection. -/
structure ConnMove (s : DerpWorld ι) (a : DerpAction ι) (c c' : DerpConn) : Prop where
  gen : c'.gen = c.gen
  broken : c.broken = true → c'.broken = true
  begun : c'.frames = c.frames ∨ ∃ i writable f, a = .writer i (.enter writable) ∧
    (s.writers i).flight = some (f, c.gen) ∧ c'.frames = c.frames ++ [f]
  written : c'.stream ≠ c.stream → c.broken = false ∧ c.loggedIn = true ∧
    ∃ i r f, a = .writer i (.write r) ∧ (s.writers i).flight = some (f, c.gen)
  destroyed : c'.destroyed ≠ c.destroyed → ∀ i, (s.writers i).inside = false

lemma ConnMove.refl (a : DerpAction ι) (c : DerpConn) : ConnMove s a c c :=
  ⟨rfl, id, .inl rfl, fun h => absurd rfl h, fun h => absurd rfl h⟩

lemma ConnsKept.move {conns : List DerpConn} (hs : WriteSafe cfg s) (hp : serving s.sup = false)
    (hk : ConnsKept s.conns conns) (a : DerpAction ι)
    (hc : s.conns[k]? = some c) : ∃ c', conns[k]? = some c' ∧ ConnMove s a c c' := by
  obtain ⟨c', hc', hgen, hstream, hframes, hbroken⟩ := hk.old k c hc
  exact ⟨c', hc', hgen, fun h => hbroken.trans h, .inl hframes, fun h => absurd hstream h,
    fun _ => hs.none_inside hp⟩

lemma WriteSafe.sup_conn (hs : WriteSafe cfg s) (hm : SupMove cfg s s') (a : DerpAction ι)
    (hc : s.conns[k]? = some c) :
    ∃ c', s'.conns[k]? = some c' ∧ ConnMove s a c c' := by
  cases hm with
  | serve | take | unmade | give | setUp => exact ⟨c, hc, .refl a c⟩
  | destroy _ hp => exact (ConnsKept.destroyed s).move hs (by rw [hp]; rfl) a hc
  | connect _ _ _ _ _ _ _ hp _ _ _ _ hk => exact hk.move hs hp a hc
  | opened _ _ hp _ hk => exact (hk.push s.gen).move hs hp a hc
  | loginWrite b _ hp => exact (hs.hello_kept hp b).move hs (by rw [hp]; rfl) a hc
  | loggedIn _ hp => exact (ConnsKept.loggedIn s).move hs (by rw [hp]; rfl) a hc

lemma write_kept (c : DerpConn) (b : Bytes) :
    (c.write b).gen = c.gen ∧ (c.write b).frames = c.frames ∧
      (c.write b).destroyed = c.destroyed := by
  unfold DerpConn.write
  split <;> exact ⟨rfl, rfl, rfl⟩

lemma WriteSafe.write_move (hs : WriteSafe cfg s) {bufs : List DerpBuf}
    {sent idle : ℕ} (hpc : s.writers i = .writes f g bufs sent idle) (r : WriteCall)
    {c' : DerpConn} (hc : current s = some c) (hkept : c'.gen = c.gen ∧ c'.frames = c.frames ∧
      c'.destroyed = c.destroyed) : ConnMove s (.writer i (.write r)) c c' := by
  have hw := hs.writer i
  rw [hpc] at hw
  obtain ⟨hg, p, ⟨d, ⟨hcur, hd, hin, -⟩, hb, -⟩, -⟩ := hw
  obtain rfl : c = d := Option.some.inj (hc.symm.trans hcur)
  have hflight : (s.writers i).flight = some (f, c.gen) := by
    rw [hpc, hd, ← hg]
    rfl
  exact
    { gen := hkept.1
      broken := fun h => absurd h (by rw [hb]; nofun)
      begun := .inl hkept.2.1
      written := fun _ => ⟨hb, hin, i, r, f, rfl, hflight⟩
      destroyed := fun h => absurd hkept.2.2 h }

lemma flight_nextWrite (s : DerpWorld ι) (f : DerpFrame) (g : ℕ) (bufs : List DerpBuf)
    (sent idle : ℕ) :
    (s.nextWrite f g bufs sent idle).flight = none ∨
      (s.nextWrite f g bufs sent idle).flight = some (f, g) := by
  rcases nextWrite_cases s f g bufs sent idle with ⟨hn, -⟩ | ⟨bufs', sent', idle', hn, -⟩
  · exact .inl (by rw [hn]; rfl)
  · exact .inr (by rw [hn]; rfl)

lemma WriteSafe.stream (hs : WriteSafe cfg s) (hc : s.conns[k]? = some c) : Whole c ∨
    ∃ f p, Amid f p c ∧ p <+: f.encode ∧ (c.broken = true ∨ s.tls = some k ∧
      ∃ i, (s.writers i).flight = some (f, c.gen) ∧ (s.writers i).inside = true) := by
  by_cases hq : s.tls = some k ∧ ∃ i, writing (s.writers i) = true
  · obtain ⟨htls, i, hi⟩ := hq
    have hw := hs.writer i
    cases hpc : s.writers i with
    | polls f g _ _ _ | writes f g _ _ _ =>
      rw [hpc] at hw
      obtain ⟨hg, p, ⟨d, ⟨hcur, hd, -⟩, -, hamid⟩, hl⟩ := hw
      obtain rfl : c = d := Option.some.inj ((current_of_tls htls hc).symm.trans hcur)
      refine .inr ⟨f, p, hamid, ⟨_, hl⟩, .inr ⟨htls, i, ?_, ?_⟩⟩
      · rw [hpc, hd, ← hg]
        rfl
      · rw [hpc]
        rfl
    | _ =>
      rw [hpc] at hi
      cases hi
  · refine (hs.streams k c hc fun htls i => ?_).imp_right fun ⟨hb, f, p, hamid, hp⟩ =>
      ⟨f, p, hamid, hp, .inl hb⟩
    exact Bool.eq_false_of_not_eq_true fun hi => hq ⟨htls, i, hi⟩

variable [DecidableEq ι]

lemma WriteSafe.writer_conn (hs : WriteSafe cfg s) {a : WriterAction}
    (hm : WriterMove cfg s i a s') (hc : s.conns[k]? = some c) :
    ∃ c', s'.conns[k]? = some c' ∧ ConnMove s (.writer i a) c c' := by
  cases hm with
  | refuse | setOut | outside | take | seeUp | hold | poll | again | failUp | shut | abort | leave
  | give => exact ⟨c, hc, .refl _ c⟩
  | enter writable f _ g hpc =>
    have hw := hs.writer i
    rw [hpc] at hw
    obtain ⟨rfl, d, ⟨hcur, hd, -⟩, -⟩ := hw
    have hk := getElem?_onConn s (fun c => { c with frames := c.frames ++ [f] }) k
    rw [hc, Option.map_some] at hk
    refine ⟨_, hk, ?_⟩
    split
    · rename_i htls
      obtain rfl : c = d := Option.some.inj ((current_of_tls htls hc).symm.trans hcur)
      have hflight : (s.writers i).flight = some (f, c.gen) := by
        rw [hpc, hd]
        rfl
      exact ⟨rfl, id, .inr ⟨i, writable, f, rfl, hflight, rfl⟩, fun h => absurd rfl h,
        fun h => absurd rfl h⟩
    · exact .refl _ c
  | wrote r _ _ b _ sent _ n hpc =>
    have hkept := write_kept c (((s.bufBytes b).drop sent).take n)
    have hk := getElem?_onConn s (·.write (((s.bufBytes b).drop sent).take n)) k
    rw [hc, Option.map_some] at hk
    refine ⟨_, hk, ?_⟩
    split
    · rename_i htls
      exact hs.write_move hpc r (current_of_tls htls hc) hkept
    · exact .refl _ c
  | fail r _ _ b _ sent _ n hpc =>
    have hkept := write_kept c (((s.bufBytes b).drop sent).take n)
    have hsent := getElem?_onConn s (·.write (((s.bufBytes b).drop sent).take n)) k
    have hk := getElem?_onConn (s.sendBytes b sent n) (fun c => { c with broken := true }) k
    change _ = ((s.onConn _)[k]?).map fun c => if s.tls = some k then _ else c at hk
    rw [hsent, hc, Option.map_some, Option.map_some] at hk
    refine ⟨_, hk, ?_⟩
    split
    · rename_i htls
      exact hs.write_move hpc r (current_of_tls htls hc) hkept
    · exact .refl _ c
  | cut =>
    have hk := getElem?_onConn s (fun c => { c with broken := true }) k
    rw [hc, Option.map_some] at hk
    refine ⟨_, hk, ?_⟩
    split
    · exact ⟨rfl, fun _ => rfl, .inl rfl, fun h => absurd rfl h, fun h => absurd rfl h⟩
    · exact .refl _ c

lemma WriteSafe.conn_step (hs : WriteSafe cfg s) {a : DerpAction ι}
    (h : derpStep cfg s a = some s') (hc : s.conns[k]? = some c) :
    ∃ c', s'.conns[k]? = some c' ∧ ConnMove s a c c' := by
  cases a with
  | writer => exact hs.writer_conn (writerStep_cases h) hc
  | sup => exact hs.sup_conn (supStep_cases h) _ hc

lemma WriterMove.flight {a : WriterAction} (hm : WriterMove cfg s i a s') :
    ∃ pc, s'.writers = Function.update s.writers i pc ∧
      (pc.flight = none ∨ pc.flight = (s.writers i).flight ∨
        ∃ f noWait, a = .send f noWait ∧ pc.flight = some (f, s.gen)) := by
  cases hm with
  | refuse | abort | leave | give => exact ⟨_, rfl, .inl rfl⟩
  | setOut f noWait => exact ⟨_, rfl, .inr (.inr ⟨f, noWait, rfl, rfl⟩)⟩
  | outside _ pc _ _ _ hf' => exact ⟨pc, rfl, hf'.imp_right .inl⟩
  | enter _ f _ g hpc =>
    refine ⟨_, rfl, (flight_nextWrite _ f g _ 0 0).imp_right fun h => .inl ?_⟩
    rw [h, hpc]
    rfl
  | wrote _ f g _ _ _ _ _ hpc =>
    refine ⟨_, rfl, (flight_nextWrite s f g _ _ 0).imp_right fun h => .inl ?_⟩
    rw [h, hpc]
    rfl
  | cut _ _ _ _ _ _ hpc =>
    refine ⟨_, rfl, .inr (.inl ?_)⟩
    rcases hpc with hpc | hpc <;> rw [hpc] <;> rfl
  | take _ _ _ _ _ hpc | seeUp _ _ _ _ _ hpc | hold _ _ _ _ _ hpc | poll _ _ _ _ _ _ hpc
  | again _ _ _ _ _ _ hpc | fail _ _ _ _ _ _ _ _ hpc | failUp _ _ _ hpc | shut _ _ _ hpc =>
    exact ⟨_, rfl, .inr (.inl (by rw [hpc]; rfl))⟩

lemma flight_step {a : DerpAction ι} (h : derpStep cfg s a = some s')
    (hf : (s'.writers i).flight = some (f, g)) :
    (s.writers i).flight = some (f, g) ∨ (∃ noWait, a = .writer i (.send f noWait)) ∧ s.gen = g := by
  cases a with
  | sup =>
    have hw : s'.writers = s.writers := by
      cases supStep_cases h <;> rfl
    rw [hw] at hf
    exact .inl hf
  | writer j =>
    obtain ⟨pc, hw, hpc⟩ := (writerStep_cases h).flight
    rw [hw] at hf
    by_cases hj : i = j
    · subst hj
      rw [Function.update_self] at hf
      obtain hnone | hsame | ⟨f', noWait, rfl, hnew⟩ := hpc
      · rw [hnone] at hf
        cases hf
      · exact .inl (hsame.symm.trans hf)
      · obtain ⟨rfl, rfl⟩ : f' = f ∧ s.gen = g :=
          Prod.mk.injEq .. ▸ Option.some.inj (hnew.symm.trans hf)
        exact .inr ⟨⟨noWait, rfl⟩, rfl⟩
    · rw [Function.update_of_ne hj] at hf
      exact .inl hf

/-- At step `j` writer `i` set out with `f` and read the generation `g`, and up to step `k` it is on
its way with them. -/
def SetOut (E : DerpRun ι cfg) (i : ι) (f : DerpFrame) (g j k : ℕ) : Prop :=
  Since (fun j => (∃ noWait, E.act j = .writer i (.send f noWait)) ∧ (E.state j).gen = g)
    (fun m => ((E.state m).writers i).flight ≠ some (f, g)) k j

lemma set_out (E : DerpRun ι cfg) (hk : k ≤ E.length)
    (hf : ((E.state k).writers i).flight = some (f, g)) : ∃ j, SetOut E i f g j k := by
  revert hf
  refine E.along (P := fun k => ((E.state k).writers i).flight = some (f, g) →
    ∃ j, SetOut E i f g j k) ?_ ?_ k hk
  · intro hf
    rw [E.starts] at hf
    cases hf
  · intro k hk ih hf
    rcases flight_step (E.steps k hk) hf with hbefore | hsend
    · obtain ⟨j, hj⟩ := ih hbefore
      exact ⟨j, hj.succ fun hne => hne hbefore⟩
    · exact ⟨k, since_self hsend⟩

lemma broken_stream_kept (E : DerpRun ι cfg) {j n : ℕ} (hjk : j ≤ k)
    (hk : k ≤ E.length) (hc : (E.state j).conns[n]? = some c) (hb : c.broken) :
    ∃ c', (E.state k).conns[n]? = some c' ∧ c'.broken = true ∧ c'.stream = c.stream := by
  refine stretch hjk ⟨c, hc, hb, rfl⟩ fun m _ hm ⟨d, hd, hdb, hds⟩ => ?_
  obtain ⟨c', hc', hmove⟩ := (write_safe E (by omega)).conn_step (E.steps m (by omega)) hd
  refine ⟨c', hc', hmove.broken hdb, ?_⟩
  by_contra hne
  have hwritten := hmove.written fun h => hne (h.trans hds)
  rw [hdb] at hwritten
  cases hwritten.1

/-- In every interleaving: a stream has the frames that writers began on the connection, in order,
the last one cut short only while it is written or behind a failed write; they are frames that writers
set out with on its generation, and only writers on their way with it write; behind a failed write
there are no bytes; no context is destroyed under a writer; the close goes on only with the lock; a wait
is reported overdue once. -/
theorem derp_writers_keep_streams (E : DerpRun ι cfg) :
    (∀ k ≤ E.length, ∀ (n : ℕ) (c : DerpConn), (E.state k).conns[n]? = some c →
      c.stream = (c.frames.map DerpFrame.encode).flatten ∨
      ∃ fs f p, c.frames = fs ++ [f] ∧ c.stream = (fs.map DerpFrame.encode).flatten ++ p ∧
        p <+: f.encode ∧ (c.broken = true ∨ (E.state k).tls = some n ∧
          ∃ i, ((E.state k).writers i).flight = some (f, c.gen) ∧
            ((E.state k).writers i).inside = true)) ∧
    (∀ k < E.length, ∀ (n : ℕ) (c c' : DerpConn), (E.state k).conns[n]? = some c →
      (E.state (k + 1)).conns[n]? = some c' → c'.frames = c.frames ∨
        ∃ i writable f j, E.act k = .writer i (.enter writable) ∧ SetOut E i f c.gen j k ∧
          c'.frames = c.frames ++ [f]) ∧
    (∀ k < E.length, ∀ (n : ℕ) (c c' : DerpConn), (E.state k).conns[n]? = some c →
      (E.state (k + 1)).conns[n]? = some c' → c'.stream ≠ c.stream →
        ∃ i r f j, E.act k = .writer i (.write r) ∧ SetOut E i f c.gen j k) ∧
    (∀ j k, j ≤ k → k ≤ E.length → ∀ (n : ℕ) (c : DerpConn), (E.state j).conns[n]? = some c →
      c.broken = true → ∃ c', (E.state k).conns[n]? = some c' ∧ c'.stream = c.stream) ∧
    (∀ k < E.length, ∀ (n : ℕ) (c c' : DerpConn), (E.state k).conns[n]? = some c →
      (E.state (k + 1)).conns[n]? = some c' → c'.destroyed ≠ c.destroyed →
        ∀ i, ((E.state k).writers i).inside = false) ∧
    (∀ k ≤ E.length, ∀ i, ((E.state k).writers i).inside = true →
      ∃ c, current (E.state k) = some c ∧ c.destroyed = false) ∧
    (∀ k ≤ E.length, ∀ next, (E.state k).sup = .destroy next →
      (E.state k).holder = some none) ∧
    (∀ k ≤ E.length, (∀ i, Polite ((E.state k).writers i).wait.told) ∧
      Polite (E.state k).sup.wait.told) := by
  have hmove {k n : ℕ} {c c' : DerpConn} (hk : k < E.length)
      (hc : (E.state k).conns[n]? = some c) (hc' : (E.state (k + 1)).conns[n]? = some c') :
      ConnMove (E.state k) (E.act k) c c' := by
    obtain ⟨d, hd, hmove⟩ := (write_safe E hk.le).conn_step (E.steps k hk) hc
    obtain rfl : d = c' := Option.some.inj (hd.symm.trans hc')
    exact hmove
  refine ⟨?_, ?_, ?_, ?_, ?_, ?_, ?_, ?_⟩
  · intro k hk n c hc
    refine ((write_safe E hk).stream hc).imp_right ?_
    rintro ⟨f, p, ⟨fs, hfs, hp⟩, hcut, hwhy⟩
    exact ⟨fs, f, p, hfs, hp, hcut, hwhy⟩
  · intro k hk n c c' hc hc'
    refine (hmove hk hc hc').begun.imp_right ?_
    rintro ⟨i, writable, f, hact, hflight, hframes⟩
    obtain ⟨j, hj⟩ := set_out E hk.le hflight
    exact ⟨i, writable, f, j, hact, hj, hframes⟩
  · intro k hk n c c' hc hc' hne
    obtain ⟨-, -, i, r, f, hact, hflight⟩ := (hmove hk hc hc').written hne
    obtain ⟨j, hj⟩ := set_out E hk.le hflight
    exact ⟨i, r, f, j, hact, hj⟩
  · intro j k hjk hk n c hc hb
    obtain ⟨c', hc', -, hstream⟩ := broken_stream_kept E hjk hk hc hb
    exact ⟨c', hc', hstream⟩
  · intro k hk n c c' hc hc' hne
    exact (hmove hk hc hc').destroyed hne
  · intro k hk i hin
    obtain ⟨c, hcur, -, -, hkept, -⟩ := serves_of_inside ((write_safe E hk).writer i) hin
    exact ⟨c, hcur, hkept⟩
  · intro k hk next hp
    have hheld : holding (E.state k) none = true := by
      rw [holding, hp]
      rfl
    exact ((write_safe E hk).owned none).mp hheld
  · intro k hk
    have hs := write_safe E hk
    exact ⟨fun i => (hs.fed i).polite, hs.supFed.polite⟩

def pongFrame : DerpFrame := ⟨0x13, none, [1, 2], by decide⟩

def derpTimes : DerpConfig := ⟨1000, 1000, 240000, 4⟩

def cutFrameActions : List (DerpAction Bool) :=
  [.sup .connect, .sup .bump, .sup (.reset true false), .sup (.dial .opened),
    .sup (.loginWrite [7]), .sup (.login true), .sup .setUp] ++
  (setOutAndEnter false ++ [.writer false (.write (.wrote 100)), .writer false .give]) ++
  (setOutAndEnter true ++ [.writer true (.write (.failed 3)), .writer true .fail,
    .writer true .fail, .writer true .fail, .writer true .give]) ++
  [.sup .close, .sup .drop, .sup (.take true), .sup .destroy, .sup .give]
where
  setOutAndEnter (i : Bool) : List (DerpAction Bool) :=
    [.writer i (.send pongFrame false), .writer i .loadUp, .writer i (.take true),
      .writer i .loadUp, .writer i .loadGen, .writer i (.enter true), .writer i .poll]

def cutFrameRun : DerpRun Bool derpTimes :=
  runOf .init rfl (.sup .connect) cutFrameActions (by decide +kernel)

theorem cut_frame_ends_stream :
    (cutFrameRun.state 24).conns.map (fun c => (c.stream, c.frames.length, c.broken, c.destroyed)) =
        [(pongFrame.encode ++ pongFrame.encode.take 3, 2, true, false)] ∧
      (cutFrameRun.state 33).conns.map (·.destroyed) = [true] ∧
      ∀ (n : ℕ) (c : DerpConn), (cutFrameRun.state 24).conns[n]? = some c → c.broken = true →
        ∃ c' : DerpConn, (cutFrameRun.state 33).conns[n]? = some c' ∧ c'.stream = c.stream :=
  ⟨by decide +kernel, by decide +kernel,
    fun n c => (derp_writers_keep_streams cutFrameRun).2.2.2.1 24 33 (by decide) (by decide +kernel) n c⟩

end TinyLink.Proofs
