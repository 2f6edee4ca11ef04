import TinyLink.ControlDial

/-!
# The control dial policy

What a connect can dial, and what the memory of the dials says about the calls before it.
-/

namespace TinyLink.Proofs
open StepSystem

inductive PortMove (addr : Ipv4) (plain : Bool) (c : Connecting) : Connecting → Prop where
  | atAddr (got ab) (htry : c.tryAddr = true) (hgot : got = some addr ∨ (got = none ∧ ab = true)) :
      PortMove addr plain c ⟨c.dials ++ [⟨plain, some addr, got, ab⟩], ab, true, got.isSome, got⟩
  | byName (front got ab)
      (hfront : front = [] ∨ (c.tryAddr = true ∧ front = [⟨plain, some addr, none, false⟩])) :
      PortMove addr plain c ⟨c.dials ++ (front ++ [⟨plain, none, got, ab⟩]), ab, false, false, got⟩

lemma connectPort_move (ends : ℕ → DialEnd) (addr : Ipv4) (c : Connecting) (plain : Bool) :
    PortMove addr plain c (connectPort ends addr c plain) := by
  unfold connectPort
  by_cases htry : c.tryAddr = true
  · rw [if_pos htry]
    cases hok : (ends c.dials.length).ok with
    | true =>
      simp only [connectOn, hok, if_true, Option.getD_some, Option.isSome_some, Bool.true_or, htry]
      exact .atAddr (some addr) _ htry (.inl rfl)
    | false =>
      cases hab : (c.abort || (ends c.dials.length).abort) with
      | true =>
        simp only [connectOn, hok, hab, Bool.false_eq_true, if_false, Option.isSome_none, if_true,
          Bool.or_true, htry]
        exact .atAddr none true htry (.inr ⟨rfl, rfl⟩)
      | false =>
        simp only [connectOn, hok, hab, Bool.false_eq_true, if_false, Option.isSome_none,
          Bool.or_false, List.append_assoc]
        exact .byName [⟨plain, some addr, none, false⟩] _ _ (.inr ⟨htry, rfl⟩)
  · rw [if_neg htry]
    exact .byName [] _ _ (.inl rfl)

/-- What `ts2021_connect` can dial; `off` says whether it switches port 80 off. -/
inductive ConnectMove (addr : Ipv4) (tryAddr plain : Bool) : Bool → Connecting → Prop where
  | onePort {c : Connecting} (h : PortMove addr plain ⟨[], false, tryAddr, false, none⟩ c) :
      ConnectMove addr tryAddr plain false c
  | bothPorts (front : List Dial) (got : Option Ipv4) (ab : Bool) (hplain : plain = true)
      (hfront : front = [] ∨ (tryAddr = true ∧ front = [⟨true, some addr, none, false⟩])) :
      ConnectMove addr tryAddr plain got.isSome
        ⟨front ++ [⟨true, none, none, false⟩, ⟨false, none, got, ab⟩], ab, false, false, got⟩

lemma ts2021Connect_move (cfgPlain : Bool) (s : DialMemory) (keyPinned : Bool) (t0 tEnd : ℤ)
    (ends : ℕ → DialEnd) : ∃ off c,
      ConnectMove s.addr (triesAddr s t0) (dialsPlain cfgPlain s keyPinned) off c ∧
      ts2021Connect cfgPlain s keyPinned t0 tEnd ends = (s.settle off c tEnd, c.dials) := by
  unfold ts2021Connect
  cases dialsPlain cfgPlain s keyPinned with
  | false =>
    refine ⟨false, _, .onePort (connectPort_move ends s.addr _ false), ?_⟩
    simp only [Bool.false_eq_true, if_false, Bool.not_false, Bool.true_or, if_true, Bool.and_false]
  | true =>
    simp only [if_true, Bool.not_true, Bool.false_or, Bool.and_true]
    have hmove := connectPort_move ends s.addr ⟨[], false, triesAddr s t0, false, none⟩ true
    generalize connectPort ends s.addr _ true = c at hmove ⊢
    cases hfall : (c.got.isNone && !c.abort) with
    | false =>
      refine ⟨false, c, .onePort hmove, ?_⟩
      simp only [Bool.false_eq_true, if_false, Bool.false_and]
    | true =>
      rw [Bool.and_eq_true] at hfall
      cases hmove with
      | atAddr got ab htry hgot =>
        rcases hgot with rfl | ⟨rfl, rfl⟩
        · cases hfall.1
        · cases hfall.2
      | byName front got ab hfront =>
        obtain rfl := Option.isNone_iff_eq_none.mp hfall.1
        obtain rfl : ab = false := by simpa using hfall.2
        have hnext := connectPort_move ends s.addr
          ⟨[] ++ (front ++ [⟨true, none, none, false⟩]), false, false, false, none⟩ false
        generalize connectPort ends s.addr _ false = c at hnext ⊢
        cases hnext with
        | atAddr got ab htry => cases htry
        | byName front' got ab hfront' =>
          obtain rfl : front' = [] := hfront'.resolve_right fun h => by cases h.1
          refine ⟨_, _, .bothPorts front got ab rfl hfront, ?_⟩
          simp

/-- The dials of a connect; all but the first by name are on port 443. -/
inductive Dialed (addr : Ipv4) (tryAddr plain : Bool) : List Dial → Prop where
  | atAddr (got : Option Ipv4) (ab : Bool) (htry : tryAddr = true)
      (hgot : got = some addr ∨ (got = none ∧ ab = true)) :
      Dialed addr tryAddr plain [⟨plain, some addr, got, ab⟩]
  | byName (d : Dial) (more : List Dial) (hd : d.ip = none ∧ d.plain = plain)
      (hmore : ∀ e ∈ more, e.ip = none ∧ e.plain = false) : Dialed addr tryAddr plain (d :: more)
  | failed (d : Dial) (more : List Dial) (htry : tryAddr = true)
      (hd : d.ip = none ∧ d.plain = plain) (hmore : ∀ e ∈ more, e.ip = none ∧ e.plain = false) :
      Dialed addr tryAddr plain (⟨plain, some addr, none, false⟩ :: d :: more)

section Connect
variable {addr : Ipv4} {tryAddr plain off : Bool} {c : Connecting} {ds : List Dial} {d : Dial}

lemma dialed_front {front : List Dial} {more : List Dial}
    (hfront : front = [] ∨ (tryAddr = true ∧ front = [⟨plain, some addr, none, false⟩]))
    (hd : d.ip = none ∧ d.plain = plain) (hmore : ∀ e ∈ more, e.ip = none ∧ e.plain = false) :
    Dialed addr tryAddr plain (front ++ d :: more) := by
  rcases hfront with rfl | ⟨htry, rfl⟩
  · exact .byName d more hd hmore
  · exact .failed d more htry hd hmore

lemma ConnectMove.dialed (h : ConnectMove addr tryAddr plain off c) :
    Dialed addr tryAddr plain c.dials := by
  cases h with
  | onePort h =>
    cases h with
    | atAddr got ab htry hgot => exact .atAddr got ab htry hgot
    | byName front got ab hfront => exact dialed_front hfront ⟨rfl, rfl⟩ (by simp)
  | bothPorts front got ab hplain hfront =>
    subst hplain
    exact dialed_front hfront ⟨rfl, rfl⟩ (by simp)

lemma Dialed.plain_iff (h : Dialed addr tryAddr plain ds) :
    (∃ d ∈ ds, d.plain = true) ↔ plain = true := by
  have hmore {more : List Dial} (h : ∀ e ∈ more, e.ip = none ∧ e.plain = false) :
      ¬ ∃ d ∈ more, d.plain = true := by
    rintro ⟨d, hd, hp⟩
    rw [(h d hd).2] at hp
    cases hp
  cases h with
  | atAddr => simp
  | byName d more hd hm => simp only [List.exists_mem_cons_iff, hd.2, hmore hm, or_false]
  | failed d more htry hd hm =>
    simp only [List.exists_mem_cons_iff, hd.2, hmore hm, or_false, or_self]

lemma named_ip {more : List Dial} (hd : d.ip = none ∧ d.plain = plain)
    (hmore : ∀ e ∈ more, e.ip = none ∧ e.plain = false) : ∀ e ∈ d :: more, e.ip = none :=
  List.forall_mem_cons.mpr ⟨hd.1, fun e he => (hmore e he).1⟩

section
variable (h : Dialed addr tryAddr plain ds)
include h

lemma Dialed.tried (hd : d ∈ ds) {a : Ipv4}
    (ha : d.ip = some a) : a = addr ∧ tryAddr = true := by
  cases h with
  | atAddr got ab htry =>
    obtain rfl := List.mem_singleton.mp hd
    exact ⟨(Option.some.inj ha).symm, htry⟩
  | byName e more he hmore =>
    rw [named_ip he hmore d hd] at ha
    cases ha
  | failed e more htry he hmore =>
    rcases List.mem_cons.mp hd with rfl | hd
    · exact ⟨(Option.some.inj ha).symm, htry⟩
    · rw [named_ip he hmore d hd] at ha
      cases ha

lemma Dialed.once : ds.countP (·.ip.isSome) ≤ 1 := by
  have hnamed {ds : List Dial} (h : ∀ e ∈ ds, e.ip = none) : ds.countP (·.ip.isSome) = 0 :=
    List.countP_eq_zero.mpr fun e he => by simp [h e he]
  cases h with
  | atAddr => exact Nat.le_refl 1
  | byName d more hd hmore =>
    rw [hnamed (named_ip hd hmore)]
    exact Nat.zero_le 1
  | failed d more htry hd hmore =>
    rw [List.countP_cons, hnamed (named_ip hd hmore)]
    exact Nat.le_refl 1

lemma Dialed.followed {front rest : List Dial}
    (hds : ds = front ++ d :: rest) (hip : d.ip.isSome) (hgot : d.got = none)
    (hab : d.abort = false) : ∃ e rest', rest = e :: rest' ∧ e.plain = d.plain ∧ e.ip = none := by
  have hnot {ds : List Dial} (h : ∀ e ∈ ds, e.ip = none) : d ∉ ds := by
    intro hd
    rw [h d hd] at hip
    cases hip
  cases h with
  | atAddr got ab htry hg =>
    obtain rfl : d = ⟨plain, some addr, got, ab⟩ := List.mem_singleton.mp (by rw [hds]; simp)
    rcases hg with rfl | ⟨_, rfl⟩
    · cases hgot
    · cases hab
  | byName e more he hmore => exact absurd (by rw [hds]; simp) (hnot (named_ip he hmore))
  | failed e more htry he hmore =>
    cases front with
    | nil =>
      obtain ⟨rfl, rfl⟩ := List.cons.inj hds
      exact ⟨e, more, rfl, he.2, he.1⟩
    | cons f front =>
      obtain ⟨-, htail⟩ := List.cons.inj hds
      exact absurd (by rw [htail]; simp) (hnot (named_ip he hmore))

end

lemma ConnectMove.got (h : ConnectMove addr tryAddr plain off c) {peer : Ipv4}
    (hgot : c.got = some peer) : (c.atAddr = true ∧ peer = addr) ∨
      (c.atAddr = false ∧ ∃ d ∈ c.dials, d.ip = none ∧ d.got = some peer) := by
  cases h with
  | onePort h =>
    cases h with
    | atAddr got ab htry hg =>
      obtain rfl : got = some peer := hgot
      exact .inl ⟨rfl, Option.some.inj (hg.resolve_right fun h => by cases h.1)⟩
    | byName front got ab hfront => exact .inr ⟨rfl, ⟨plain, none, got, ab⟩, by simp, rfl, hgot⟩
  | bothPorts front got ab hplain hfront =>
    exact .inr ⟨rfl, ⟨false, none, got, ab⟩, by simp, rfl, hgot⟩

lemma ConnectMove.switches (h : ConnectMove addr tryAddr plain true c) : ∃ front a ab,
    c.dials = front ++ [⟨true, none, none, false⟩, ⟨false, none, some a, ab⟩] := by
  generalize ho : true = off at h
  cases h with
  | onePort => cases ho
  | bothPorts front got ab =>
    obtain ⟨a, rfl⟩ := Option.isSome_iff_exists.mp ho.symm
    exact ⟨front, a, ab, rfl⟩

end Connect

section Run
variable {cfgPlain : Bool} (E : DialRun cfgPlain)

def dialsAt (k : ℕ) : List Dial := (E.act k).dials cfgPlain (E.state k)

def ConnectAt (k : ℕ) : Prop := ∃ pinned t0 tEnd ends, E.act k = .connect pinned t0 tEnd ends

/-- A plain conn that failed early is closed. -/
def DropAt (k : ℕ) : Prop := ∃ c now, E.act k = .close c now ∧
  (c.plain && c.connected && c.ioFailed && c.young now) = true

/-- The address `a` is set at the time `t`, or reached by name. -/
def LearnAt (a : Ipv4) (t : ℤ) (k : ℕ) : Prop :=
  E.act k = .setAddr (some a) t ∨
    ∃ pinned t0 ends, E.act k = .connect pinned t0 t ends ∧
      ∃ d ∈ dialsAt E k, d.ip = none ∧ d.got = some a

variable {E}

lemma state_succ {k : ℕ} (hk : k < E.length) {a : DialCall} (hact : E.act k = a) {s : DialMemory}
    (h : dialStep cfgPlain (E.state k) a = some s) : E.state (k + 1) = s := by
  have hstep := E.steps k hk
  rw [hact, h] at hstep
  exact (Option.some.inj hstep).symm

lemma connect_move {k : ℕ} (hk : k < E.length) {pinned : Bool} {t0 tEnd : ℤ} {ends : ℕ → DialEnd}
    (hact : E.act k = .connect pinned t0 tEnd ends) : ∃ off c,
      ConnectMove (E.state k).addr (triesAddr (E.state k) t0)
        (dialsPlain cfgPlain (E.state k) pinned) off c ∧
      E.state (k + 1) = (E.state k).settle off c tEnd ∧ dialsAt E k = c.dials := by
  obtain ⟨off, c, hmove, heq⟩ := ts2021Connect_move cfgPlain (E.state k) pinned t0 tEnd ends
  refine ⟨off, c, hmove, state_succ hk hact (by rw [dialStep, heq]), ?_⟩
  rw [dialsAt, hact, DialCall.dials, heq]

lemma settle_flags (s : DialMemory) (off : Bool) (c : Connecting) (tEnd : ℤ) :
    (s.settle off c tEnd).tlsNext = false ∧
      (s.settle off c tEnd).plainOff = (s.plainOff || off) := by
  unfold DialMemory.settle
  cases c.got with
  | none => exact ⟨rfl, rfl⟩
  | some => exact ⟨rfl, rfl⟩

lemma tlsNext_iff : ∀ k, k ≤ E.length →
    ((E.state k).tlsNext = true ↔ ∃ i, Since (DropAt E) (ConnectAt E) k i) := by
  refine E.along ?_ fun k hk ih => ?_
  · rw [E.starts]
    exact ⟨by rintro ⟨⟩, fun ⟨i, h⟩ => absurd h not_since_zero⟩
  · rw [exists_since_succ, ← ih]
    cases hact : E.act k with
    | connect pinned t0 tEnd ends =>
      obtain ⟨off, c, -, hstate, -⟩ := connect_move hk hact
      have hdrop : ¬ DropAt E k := by simp [DropAt, hact]
      have hconn : ConnectAt E k := ⟨pinned, t0, tEnd, ends, hact⟩
      simp [hstate, settle_flags, hdrop, hconn]
    | close c now =>
      have hstate := state_succ hk hact rfl
      have hconn : ¬ ConnectAt E k := by simp [ConnectAt, hact]
      have hdrop : DropAt E k ↔ (c.plain && c.connected && c.ioFailed && c.young now) = true := by
        simp [DropAt, hact]
      rw [hstate, hdrop]
      simp only [ts2021Close, Bool.or_eq_true, hconn, not_false_eq_true, and_true]
      exact Or.comm
    | setAddr ip now =>
      have hstate := state_succ hk hact rfl
      have hconn : ¬ ConnectAt E k := by simp [ConnectAt, hact]
      have hdrop : ¬ DropAt E k := by simp [DropAt, hact]
      rw [hstate]
      simp [ts2021SetAddr, hdrop, hconn]

lemma addr_learned : ∀ k, k ≤ E.length → tlIpv4Usable (E.state k).addr = true →
    ∃ i t, i < k ∧ LearnAt E (E.state k).addr t i ∧
      (E.state k).addrUntilUs = t + ts2021AddrTtlUs := by
  refine E.along ?_ fun k hk ih => ?_
  · rw [E.starts]
    intro h
    cases h
  · have hkeep (haddr : (E.state (k + 1)).addr = (E.state k).addr)
        (huntil : (E.state (k + 1)).addrUntilUs = (E.state k).addrUntilUs) :
        tlIpv4Usable (E.state (k + 1)).addr = true → ∃ i t, i < k + 1 ∧
          LearnAt E (E.state (k + 1)).addr t i ∧
          (E.state (k + 1)).addrUntilUs = t + ts2021AddrTtlUs := by
      rw [haddr, huntil]
      intro h
      obtain ⟨i, t, hi, hlearn, ht⟩ := ih h
      exact ⟨i, t, Nat.lt_succ_of_lt hi, hlearn, ht⟩
    cases hact : E.act k with
    | connect pinned t0 tEnd ends =>
      obtain ⟨off, c, hmove, hstate, hdials⟩ := connect_move hk hact
      cases hgot : c.got with
      | none =>
        refine hkeep ?_ ?_
        · simp [hstate, DialMemory.settle, hgot]
        · simp [hstate, DialMemory.settle, hgot]
      | some peer =>
        rcases hmove.got hgot with ⟨hat, rfl⟩ | ⟨hat, hd⟩
        · refine hkeep ?_ ?_
          · simp [hstate, DialMemory.settle, hgot]
          · simp [hstate, DialMemory.settle, hgot, hat]
        · intro _
          refine ⟨k, tEnd, Nat.lt_succ_self k, .inr ⟨pinned, t0, ends, hact, ?_⟩, ?_⟩
          · simpa [hdials, hstate, DialMemory.settle, hgot] using hd
          · simp [hstate, DialMemory.settle, hgot, hat]
    | close c now =>
      have hstate := state_succ hk hact rfl
      exact hkeep (by rw [hstate]; rfl) (by rw [hstate]; rfl)
    | setAddr ip now =>
      have hstate := state_succ hk hact rfl
      rw [hstate]
      intro h
      have hzero : tlIpv4Usable (ipv4Of 0 0 0 0) = false := by decide
      cases ip with
      | none => exact absurd (hzero.symm.trans h) (by decide)
      | some a =>
        by_cases ha : tlIpv4Usable a = true
        · have haddr : (ts2021SetAddr (E.state k) (some a) now).addr = a := by
            simp [ts2021SetAddr, Option.filter, ha]
          exact ⟨k, now, Nat.lt_succ_self k, .inl (by rw [haddr, hact]), rfl⟩
        · simp [ts2021SetAddr, Option.filter, ha, hzero] at h

lemma plainOff_succ {k : ℕ} (hk : k < E.length) (h : (E.state k).plainOff) :
    (E.state (k + 1)).plainOff = true := by
  cases hact : E.act k with
  | connect =>
    obtain ⟨off, c, -, hstate, -⟩ := connect_move hk hact
    rw [hstate, (settle_flags _ off c _).2, h, Bool.true_or]
  | close | setAddr => rwa [state_succ hk hact rfl]

end Run

/-- Port 80 is dialed exactly by the connects with a pinned key that have not seen it switched off
nor, since the connect before, an early drop; it is switched off only where a dial by name failed on
it and port 443 answered; the cached address is dialed while fresh, once, in front of its name. -/
theorem control_dial_policy {cfgPlain : Bool} (E : DialRun cfgPlain) {k : ℕ} (hk : k < E.length) :
    ((∃ d ∈ dialsAt E k, d.plain = true) ↔
      ∃ t0 tEnd ends, E.act k = .connect true t0 tEnd ends ∧ cfgPlain = true ∧
        (E.state k).plainOff = false ∧ ¬ ∃ i, Since (DropAt E) (ConnectAt E) k i) ∧
    ((E.state k).plainOff = false → (E.state (k + 1)).plainOff = true → ∃ front a ab,
      dialsAt E k = front ++ [⟨true, none, none, false⟩, ⟨false, none, some a, ab⟩]) ∧
    ((E.state k).plainOff = true → ∀ j, k ≤ j → j ≤ E.length → (E.state j).plainOff = true) ∧
    (∀ d ∈ dialsAt E k, ∀ a, d.ip = some a → ∃ pinned t0 tEnd ends i t,
      E.act k = .connect pinned t0 tEnd ends ∧ i < k ∧ LearnAt E a t i ∧ t0 < t + ts2021AddrTtlUs) ∧
    (dialsAt E k).countP (·.ip.isSome) ≤ 1 ∧
    (∀ front d rest, dialsAt E k = front ++ d :: rest → d.ip.isSome = true → d.got = none →
      d.abort = false → ∃ e rest', rest = e :: rest' ∧ e.plain = d.plain ∧ e.ip = none) := by
  have hoff : (E.state k).plainOff = true →
      ∀ j, k ≤ j → j ≤ E.length → (E.state j).plainOff = true := by
    intro h j hkj hj
    exact stretch hkj h fun m _ hm hoff => plainOff_succ (by omega) hoff
  cases hact : E.act k with
  | connect pinned t0 tEnd ends =>
    obtain ⟨off, c, hmove, hstate, hdials⟩ := connect_move hk hact
    rw [hdials]
    refine ⟨?_, fun hold hnew => ?_, hoff, fun d hd a ha => ?_, hmove.dialed.once,
      fun _ _ _ hds hip hgot hab => hmove.dialed.followed hds hip hgot hab⟩
    · rw [hmove.dialed.plain_iff, ← tlsNext_iff k (Nat.le_of_lt hk), dialsPlain]
      cases pinned <;> simp [and_assoc]
    · rw [hstate, (settle_flags _ off c _).2, hold, Bool.false_or] at hnew
      subst hnew
      exact hmove.switches
    · obtain ⟨rfl, htry⟩ := hmove.dialed.tried hd ha
      simp only [triesAddr, Bool.and_eq_true, decide_eq_true_eq] at htry
      obtain ⟨i, t, hi, hlearn, huntil⟩ := addr_learned k (Nat.le_of_lt hk) htry.1.1
      exact ⟨pinned, t0, tEnd, ends, i, t, rfl, hi, hlearn, huntil ▸ htry.2⟩
  | close | setAddr =>
    have hnil : dialsAt E k = [] := by rw [dialsAt, hact]; rfl
    rw [hnil]
    refine ⟨by simp, fun hold hnew => ?_, hoff, by simp, by simp, by simp⟩
    rw [state_succ hk hact rfl] at hnew
    exact absurd (hold.symm.trans hnew) (by decide)

section Sample

def plainBlocked : DialRun true :=
  runOf .boot rfl (.setAddr none 0)
    [.setAddr (some (ipv4Of 192 200 0 1)) 0,
     .connect true 1 2 fun n => ⟨n = 2, ipv4Of 192 200 0 2, false⟩] rfl

theorem plain_blocked_switches_off : ∃ front a ab,
    dialsAt plainBlocked 1 = front ++ [⟨true, none, none, false⟩, ⟨false, none, some a, ab⟩] :=
  (control_dial_policy plainBlocked (by decide : 1 < 2)).2.1 rfl rfl

end Sample

end TinyLink.Proofs
