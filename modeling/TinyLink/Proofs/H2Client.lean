import TinyLink.H2Client
import TinyLink.Proofs.H2Response

/-!
# The status that the HTTP/2 client reports

It follows the `:status` fields of the main stream one by one; the engine accepts a final response
only when its header block is complete.
-/

namespace TinyLink.Proofs
open StepSystem

variable {io : H2Io} {c : H2Conn} {h h' : H2Core} {r : H2Leave}

@[simp] def heard (v : ℕ) : H2Event → ℕ
  | .onStatus _ st => st
  | _ => v

def face (s : H2Stream) : ℕ × ℕ × Bool := (s.id, s.status, s.final)

/-- The hooks were called for `evs` while `h` became `h'`, and follow the two streams. -/
structure Reports (h h' : H2Core) (evs : List H2Event) : Prop where
  log : h'.log = h.log ++ evs
  status : evs.foldl heard h.s.status = h'.s.status
  id : h'.s.id = h.s.id
  closed : h.s.isOpen = false → h'.s.isOpen = false ∧ ∀ v, evs.foldl heard v = v
  side : h.side.isOpen = false → h'.side.isOpen = false ∧ face h'.side = face h.side

lemma Reports.refl (h : H2Core) : Reports h h [] :=
  ⟨by simp, rfl, rfl, fun ho => ⟨ho, fun _ => rfl⟩, fun ho => ⟨ho, rfl⟩⟩

lemma Reports.trans {g k : H2Core} {as bs : List H2Event} (hg : Reports h g as)
    (hk : Reports g k bs) : Reports h k (as ++ bs) := by
  refine ⟨?_, ?_, hk.id.trans hg.id, fun ho => ?_, fun ho => ?_⟩
  · rw [hk.log, hg.log, List.append_assoc]
  · rw [List.foldl_append, hg.status, hk.status]
  · obtain ⟨hog, hvg⟩ := hg.closed ho
    obtain ⟨hok, hvk⟩ := hk.closed hog
    exact ⟨hok, fun v => by rw [List.foldl_append, hvg, hvk]⟩
  · obtain ⟨hog, hfg⟩ := hg.side ho
    obtain ⟨hok, hfk⟩ := hk.side hog
    exact ⟨hok, hfk.trans hfg⟩

lemma foldl_heard {evs : List H2Event} (hq : ∀ e ∈ evs, ∀ v, heard v e = v) (v : ℕ) :
    evs.foldl heard v = v := by
  induction evs with
  | nil => rfl
  | cons e _ ih =>
    rw [List.foldl_cons, hq e (by simp)]
    exact ih fun e' he' => hq e' (by simp [he'])

lemma Reports.quiet (evs : List H2Event) (hlog : h'.log = h.log ++ evs)
    (hq : ∀ e ∈ evs, ∀ v, heard v e = v) (hkept : ∀ w, face (h'.stream w) = face (h.stream w) ∧
      ((h.stream w).isOpen = false → (h'.stream w).isOpen = false)) : Reports h h' evs := by
  obtain ⟨hmain, hopen⟩ := hkept .main
  simp only [face, H2Core.stream, Prod.mk.injEq] at hmain hopen
  refine ⟨hlog, ?_, hmain.1, fun ho => ⟨hopen ho, foldl_heard hq⟩, fun ho => ?_⟩
  · rw [foldl_heard hq, hmain.2.1]
  · exact ⟨(hkept .side).2 ho, (hkept .side).1⟩

section Calls
variable (io : H2Io)

end Calls

section Client
variable (env : H2Env) (t : H2Turn)

/-- What no hook touches. -/
def backing (c : H2Conn) : H2Core × Bytes × Option ℕ × List H2SideResult :=
  (c.h2, c.rx, c.streamId, c.results)

lemma hear_backing (c : H2Conn) (e : H2Event) :
    backing (c.hear env e) = backing c ∧ (c.hear env e).status = heard c.status e := by
  cases e with
  | onStatus =>
    unfold H2Conn.hear h2IoOnStatus
    dsimp only
    split_ifs <;> exact ⟨rfl, rfl⟩
  | onHeader =>
    unfold H2Conn.hear h2IoOnHeader
    dsimp only
    split_ifs <;> exact ⟨rfl, rfl⟩
  | onSideHeader =>
    unfold H2Conn.hear h2IoOnSideHeader
    dsimp only
    split_ifs <;> exact ⟨rfl, rfl⟩
  | _ => exact ⟨rfl, rfl⟩

lemma foldl_hear (evs : List H2Event) (c : H2Conn) :
    backing (evs.foldl (H2Conn.hear env) c) = backing c ∧
      (evs.foldl (H2Conn.hear env) c).status = evs.foldl heard c.status := by
  induction evs generalizing c with
  | nil => exact ⟨rfl, rfl⟩
  | cons e _ ih =>
    obtain ⟨hb, hs⟩ := hear_backing env c e
    obtain ⟨hb', hs'⟩ := ih (c.hear env e)
    exact ⟨hb'.trans hb, by rw [List.foldl_cons, List.foldl_cons, hs', hs]⟩

lemma call_eq (c : H2Conn) {f : H2Core → H2Res} {evs : List H2Event}
    (hlog : (f c.h2).1.log = c.h2.log ++ evs) :
    backing (c.call env f).1 = ((f c.h2).1, c.rx, c.streamId, c.results) ∧
      (c.call env f).1.status = evs.foldl heard c.status := by
  have hdrop : (f c.h2).1.log.drop c.h2.log.length = evs := by rw [hlog, List.drop_left]
  unfold H2Conn.call
  dsimp only
  rw [hdrop]
  exact foldl_hear env evs _

/-- The client follows the main stream of its request, and heard of the side stream when it had
closed. -/
structure Following (c : H2Conn) : Prop where
  engine : Responsive c.h2
  pending : c.rx = []
  status : c.status = c.h2.s.status
  id : c.streamId = some c.h2.s.id
  results : ∀ r ∈ c.results, c.h2.side.isOpen = false ∧
    r.status = if c.h2.side.final then c.h2.side.status else 0

/-- The results may grow by the outcome of a closed side stream. -/
lemma Following.told_more {c' : H2Conn} (hc : Following c) (hh2 : c'.h2 = c.h2)
    (hrx : c'.rx = c.rx) (hs : c'.status = c.status) (hid : c'.streamId = c.streamId)
    (hres : ∀ r ∈ c'.results, r ∈ c.results ∨ c.h2.side.isOpen = false ∧
      r.status = if c.h2.side.final then c.h2.side.status else 0) : Following c' := by
  refine ⟨by rw [hh2]; exact hc.engine, hrx.trans hc.pending, ?_, ?_, fun r hmem => ?_⟩
  · rw [hs, hh2, hc.status]
  · rw [hid, hh2, hc.id]
  · rw [hh2]
    exact (hres r hmem).elim (hc.results r) fun hnew => hnew

lemma Following.same {c' : H2Conn} (hc : Following c) (hb : backing c' = backing c)
    (hs : c'.status = c.status) : Following c' := by
  simp only [backing, Prod.mk.injEq] at hb
  obtain ⟨hh2, hrx, hid, hres⟩ := hb
  exact hc.told_more hh2 hrx hs hid fun r hmem => .inl (hres ▸ hmem)

lemma Following.call (hc : Following c) {f : H2Core → H2Res}
    (hr : ∃ evs, Reports c.h2 (f c.h2).1 evs) (he : Responsive (f c.h2).1) :
    Following (c.call env f).1 := by
  obtain ⟨evs, hr⟩ := hr
  obtain ⟨hb, hs⟩ := call_eq env c hr.log
  simp only [backing, Prod.mk.injEq] at hb
  obtain ⟨hh2, hrx, hid, hres⟩ := hb
  refine ⟨by rwa [hh2], hrx.trans hc.pending, ?_, ?_, fun r hmem => ?_⟩
  · rw [hs, hc.status, hr.status, hh2]
  · rw [hid, hc.id, hh2, hr.id]
  · rw [hres] at hmem
    obtain ⟨hopen, hstatus⟩ := hc.results r hmem
    obtain ⟨hopen', hface⟩ := hr.side hopen
    simp only [face, Prod.mk.injEq] at hface
    rw [hh2, hface.2.1, hface.2.2]
    exact ⟨hopen', hstatus⟩

lemma Following.told (hc : Following c) {r : H2SideResult} (hr : r ∈ c.results)
    (hne : r.status ≠ 0) : r.status = c.h2.side.status ∧ r.status / 100 ≠ 1 ∧
      .note (.accepted c.h2.side.id r.status) ∈ c.h2.log := by
  have hside : Responding c.h2.log .side c.h2.side := hc.engine.streams .side
  obtain ⟨-, hstatus⟩ := hc.results r hr
  split at hstatus
  case isFalse => exact absurd hstatus hne
  case isTrue hfinal =>
    rw [hstatus]
    exact ⟨rfl, (hside.final hfinal).2⟩

/-- A connection between requests: bytes are left over only before the first one. -/
structure Idle (c : H2Conn) : Prop where
  engine : Responsive c.h2
  pending : c.rx = [] ∨ c.h2.s.isOpen = false

end Client

section Sample

end Sample

end TinyLink.Proofs
