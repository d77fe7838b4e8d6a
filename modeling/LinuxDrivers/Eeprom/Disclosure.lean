import LinuxDrivers.Eeprom.Messages
import LinuxDrivers.Eeprom.Reads
import LinuxDrivers.Lib.Run

set_option autoImplicit false

/-! # What a read gives away of earlier traffic

All calls of a session share the buffer `dev->data`. `HidesTraffic` compares two histories of
reads and writes that end with the same chip and the same cursor: the next read should not be
able to tell them apart.

A read whose transfer delivers all of its bytes cannot (`answer_eq`). One whose transfer fails,
or whose length is zero in the 16 bits of the message, hands out what the buffer held before,
for example the bytes of a write that the chip refused (`exists_history`). `hidesTraffic_iff`
is the exact condition. -/

namespace LinuxDrivers.Eeprom

open Lib

/-! ## Sessions -/

/-- A call within a session. -/
inductive SessionCall where
  | read (c : ReadCall)
  | write (c : WriteCall)

def callStep (a : Arch) (k : Kern) : SessionCall → Option Kern
  | .read c =>
      match eepRead a k c with
      | .ok out => some out.kern
      | .error _ => none
  | .write c =>
      match (eepWrite a k c).ret with
      | .ok _ => some (eepWrite a k c).kern
      | .error _ => none

/-- The chip has the same contents and the next call starts at the same address. -/
structure SameView (s s' : Kern) : Prop where
  chip : s.chip.cell = s'.chip.cell
  cursor : s.dev.current_pointer = s'.dev.current_pointer

/-- What the caller of a read learns. -/
def ReadOut.answer (out : ReadOut) : Int × List U8 := (out.ret, out.user)

/-- The read `c` at the address `p` gives the same answer after any two histories of a session
that end with the same view. -/
def HidesTraffic (a : Arch) (p : Nat) (c : ReadCall) : Prop :=
  ∀ k es es' s s', run (callStep a) (eepOpen true k).2 es = some s →
    run (callStep a) (eepOpen true k).2 es' = some s' → SameView s s' →
    s.dev.current_pointer = p →
    (eepRead a s c).map ReadOut.answer = (eepRead a s' c).map ReadOut.answer

/-- The call returns before its transfer or hands out nothing; or else the transfer succeeds,
the end of the request does not overflow, and the request is not for the whole chip. -/
def AnswersFresh (a : Arch) (p : Nat) (c : ReadCall) : Prop :=
  c.killed = true ∨ EEP_SIZE ≤ c.f_pos ∨ EEP_SIZE ≤ p ∨ c.count = 0 ∨ c.room = 0 ∨
    (c.ack = true ∧ p + c.count < 2 ^ a.bits ∧ (p = 0 → c.count < EEP_SIZE))

/-! ## The state between two calls -/

/-- The buffer is live and the cursor is an address, possibly beyond the chip. -/
structure Ready (k : Kern) : Prop where
  buffer : Buffered k
  cursor : ∃ p : Nat, k.dev.current_pointer = p

section

variable {a : Arch} {k : Kern}

theorem ready_open (k : Kern) : Ready (eepOpen true k).2 where
  buffer := ⟨_, (eepOpen_true k).2.2.2, rfl⟩
  cursor := ⟨0, (eepOpen_true k).2.1⟩

theorem Ready.read {c : ReadCall} {out : ReadOut} (h : Ready k) (hrun : eepRead a k c = .ok out) :
    Ready out.kern := by
  rcases eepRead_frame a (c := c) h.buffer with ⟨out', hrun', hbuf, -, -, hcur⟩
  obtain rfl : out = out' := Except.ok.inj (hrun.symm.trans hrun')
  rcases h.cursor with ⟨p, hp⟩
  refine ⟨hbuf, ?_⟩
  rcases hcur with hcur | ⟨hlt, hcur⟩
  · exact ⟨p, hcur.trans hp⟩
  · rw [hp] at hlt hcur
    exact ⟨_, hcur.trans (cursor_add a (Int.ofNat_lt.mp hlt) (clampRead_le a p c.count))⟩

theorem Ready.write {c : WriteCall} (h : Ready k) : Ready (eepWrite a k c).kern := by
  refine ⟨(eepWrite_frame a h.buffer).1, ?_⟩
  rcases h.cursor with ⟨p, hp⟩
  by_cases hsends : c.Sends a k
  · rcases eepWrite_sending a hp h.buffer hsends with
      ⟨heap, b, w, ms, j, -, -, -, hsending, -, -, hkern⟩
    rw [hkern]
    exact ⟨_, hsending.pos.cursor⟩
  · rcases eepWrite_of_not_sends a h.buffer hsends with ⟨ret, heap, -, hrun, -, -⟩
    rw [hrun]
    exact ⟨p, hp⟩

theorem Ready.step {e : SessionCall} {k' : Kern} (h : Ready k) (hstep : callStep a k e = some k') :
    Ready k' := by
  cases e with
  | read c =>
      rcases eepRead_frame a (c := c) h.buffer with ⟨out, hrun, -⟩
      simp only [callStep, hrun] at hstep
      obtain rfl := Option.some.inj hstep
      exact h.read hrun
  | write c =>
      cases hret : (eepWrite a k c).ret with
      | error f =>
          simp only [callStep, hret] at hstep
          cases hstep
      | ok r =>
          simp only [callStep, hret] at hstep
          obtain rfl := Option.some.inj hstep
          exact h.write

/-- Every state a session comes through. -/
theorem ready_of_run {es : List SessionCall} {s : Kern}
    (hrun : run (callStep a) (eepOpen true k).2 es = some s) : Ready s :=
  run_induct_all (I := fun _ s => Ready s) (ready_open k)
    (fun _ _ _ _ _ h hstep => h.step hstep) es s hrun

end

/-! ## Two histories -/

section

variable {a : Arch} {s s' : Kern} {c : ReadCall} {p : Nat}

/-- A transfer that delivers everything overwrites what was in the buffer. -/
theorem slice_fetched_full {data : Nat → U8} {n : Nat} (h : (fetched s c.ack n).length = n) :
    slice (splice data 0 (fetched s c.ack n)) 0 n = fetched s c.ack n := by
  have hself := slice_splice_self data 0 (fetched s c.ack n)
  rw [h] at hself
  exact hself

/-- **A read that answers fresh cannot tell two histories apart.** -/
theorem answer_eq (hs : Ready s) (hs' : Ready s') (hview : SameView s s')
    (hp : s.dev.current_pointer = p) (hfresh : AnswersFresh a p c) :
    (eepRead a s c).map ReadOut.answer = (eepRead a s' c).map ReadOut.answer := by
  have hp' : s'.dev.current_pointer = p := hview.cursor.symm.trans hp
  by_cases hreads : c.killed = false ∧ c.f_pos < EEP_SIZE ∧ (p : Int) < EEP_SIZE
  swap
  · rw [eepRead_of_not_reads a (by rw [hp]; exact hreads),
      eepRead_of_not_reads a (by rw [hp']; exact hreads)]
    rfl
  rcases hreads with ⟨hkill, hpos, hlt⟩
  have hlt' : p < EEP_SIZE := Int.ofNat_lt.mp hlt
  rcases hs.buffer with ⟨b, hb, hsize⟩
  rcases hs'.buffer with ⟨b', hb', hsize'⟩
  rcases eepRead_of_reads a hb hsize hkill hpos (by rw [hp]; exact hlt) (by rw [hp]) with
    ⟨heap, chip, -, -, -, hrun⟩
  rcases eepRead_of_reads a hb' hsize' hkill hpos (by rw [hp']; exact hlt) (by rw [hp']) with
    ⟨heap', chip', -, -, -, hrun'⟩
  rw [hrun, hrun']
  -- the returned values agree in any case, so it is the bytes that matter
  refine congrArg (fun user => Except.ok (_, user)) ?_
  have hn : clampRead a p c.count ≤ EEP_SIZE := clampRead_le a p c.count
  rcases hfresh with hk | hf | hend | hcount | hroom | ⟨hack, hover, hwhole⟩
  · rw [hkill] at hk
    cases hk
  · omega
  · omega
  · rw [hcount, clampRead_eq a hlt' (by have := a.two_pow_32_le; unfold EEP_SIZE at hlt'; omega),
      Nat.zero_min]
    rfl
  · rw [hroom, List.take_zero, List.take_zero]
  · have hlen : clampRead a p c.count < 2 ^ 16 := by
      rw [clampRead_eq a hlt' hover]
      unfold EEP_SIZE at *
      omega
    have hsame : fetched s c.ack (clampRead a p c.count)
        = fetched s' c.ack (clampRead a p c.count) := by
      rw [hack, fetched_true hp hlt', fetched_true hp' hlt', hview.chip]
    have hfull : (fetched s' c.ack (clampRead a p c.count)).length = clampRead a p c.count := by
      rw [hack, fetched_true hp' hlt', slice_length, Nat.mod_eq_of_lt hlen]
    rw [slice_fetched_full (by rw [hsame]; exact hfull), slice_fetched_full hfull, hsame]

end

/-! ## A history that leaves a byte behind -/

/-- A read of `p` bytes whose transfer fails, which moves the cursor to `p`, and a write of the
byte `x` that the chip refuses. -/
def leavesByte (p : Nat) (x : U8) : List SessionCall :=
  [.read { readCall p with ack := false }, .write ⟨false, fun _ => false, [x], 1, 0⟩]

section

variable (a : Arch) {k : Kern} {p : Nat}

/-- A refused write leaves nothing but its bytes in the buffer. -/
theorem eepWrite_refused (x : U8) (hp : k.dev.current_pointer = p) (hlt : p < EEP_SIZE)
    (hk : Buffered k) :
    ∃ b, (eepWrite a k ⟨false, fun _ => false, [x], 1, 0⟩).ret = .ok (-1) ∧
      Holds (eepWrite a k ⟨false, fun _ => false, [x], 1, 0⟩).kern.heap
        (eepWrite a k ⟨false, fun _ => false, [x], 1, 0⟩).kern.dev.data b ∧
      b.size = EEP_SIZE ∧ b.elem 0 = x ∧
      (eepWrite a k ⟨false, fun _ => false, [x], 1, 0⟩).kern.chip.cell = k.chip.cell ∧
      (eepWrite a k ⟨false, fun _ => false, [x], 1, 0⟩).kern.dev.current_pointer = p := by
  have h32 := a.two_pow_32_le
  have hE : EEP_SIZE = 65536 := rfl
  have hclamp : clampWrite a p 1 = 1 := by
    rw [clampWrite_eq a hlt (by omega)]
    omega
  have hsends : (⟨false, fun _ => false, [x], 1, 0⟩ : WriteCall).Sends a k := by
    refine ⟨rfl, by rw [hp]; exact Int.ofNat_lt.mpr hlt, by show (0 : Int) < EEP_SIZE; omega, ?_⟩
    rw [hp]
    exact Nat.le_of_eq hclamp
  rcases eepWrite_sending a hp hk hsends with
    ⟨heap, b, w, ms, j, hb, hsize, hslice, hsending, hleaves, -, hkern⟩
  have hbyte : b.elem 0 = x := by
    have := hslice 1 (Nat.le_of_eq hclamp.symm)
    exact (List.cons.inj this).1
  have hpages := onPages_plan a p (clampWrite a p 1)
  have hpos : 0 < (plan a p (clampWrite a p 1)).length := by
    by_contra hzero
    have hnil : plan a p (clampWrite a p 1) = [] := List.length_eq_zero_iff.mp (by omega)
    rw [hclamp] at hnil
    by_cases hpage : headLen p ≤ 1
    · have := plan_sum a (p := p) (n := 1) (by omega) hpage
      rw [hnil] at this
      cases this
    · have := lt_plan_sum_of_short a (p := p) (n := 1) (by omega)
      rw [hnil] at this
      cases this
  have hj : j = 0 := by
    by_contra hj
    exact absurd (hsending.acks 0 (by omega)) Bool.false_ne_true
  subst hj
  generalize hret : (eepWrite a k ⟨false, fun _ => false, [x], 1, 0⟩).ret = ret at hleaves
  have hneg : ret = .ok (-1) := by
    cases hleaves with
    | done hj _ => exact absurd hj.symm (Nat.ne_of_gt hpos)
    | refused _ _ _ => rfl
    | faulted f _ _ hfault =>
        have hbounds := (hpages.bounds 0 hpos).2.2
        rw [hsize] at hfault
        change EEP_SIZE < 0 + ((plan a p (clampWrite a p 1)).take (0 + 1)).sum at hfault
        omega
  rw [hkern]
  refine ⟨b, hneg, hb, hsize, hbyte, ?_, ?_⟩
  · show w.chip.cell = _
    rw [hsending.chip rfl]
  · exact hsending.pos.cursor

/-- **Two histories with the same view**, one for every byte. -/
theorem exists_history (hlt : p < EEP_SIZE) (x : U8) :
    ∃ s b, run (callStep a) (openedAt 0) (leavesByte p x) = some s ∧
      s.dev.current_pointer = p ∧ s.chip.cell = blankChip.cell ∧
      Holds s.heap s.dev.data b ∧ b.size = EEP_SIZE ∧ b.elem 0 = x := by
  have h32 := a.two_pow_32_le
  have hE : EEP_SIZE = 65536 := rfl
  have hclamp : clampRead a (0 : Nat) p = p := by
    rw [clampRead_eq a (by decide) (by omega)]
    omega
  have hcur : toInt (a.sizeT (((0 : Nat) : Int) + p) : Nat) = p := by
    rw [cursor_add a (by decide) (by omega), Nat.zero_add]
  rcases openedAt_buffered 0 with ⟨b₀, hb₀, hsize₀⟩
  rcases eepRead_of_reads a (c := { readCall p with ack := false }) hb₀ hsize₀ rfl
    (by show (0 : Int) < EEP_SIZE; omega) (by decide) hclamp with ⟨heap, chip, hb₁, -, hcell, hread⟩
  rw [if_pos (show p ≤ (readCall p).room from Nat.le_refl p),
    if_pos (show p ≤ (readCall p).room from Nat.le_refl p)] at hread
  change _ = Except.ok (ReadOut.mk p _ ⟨⟨_, toInt (a.sizeT (((0 : Nat) : Int) + p) : Nat)⟩, _, _⟩)
    at hread
  rw [hcur] at hread
  rcases eepWrite_refused a (k := ⟨⟨(openedAt 0).dev.data, p⟩, heap, chip⟩) x rfl hlt
    ⟨_, hb₁, hsize₀⟩ with ⟨b, hret, hb, hsize, hbyte, hchip, hcur'⟩
  refine ⟨_, b, ?_, hcur', hchip.trans hcell, hb, hsize, hbyte⟩
  simp only [leavesByte, run_cons, run_nil, callStep, hread, Option.bind_some, hret]

/-- A read that does not answer fresh and gets to its transfer brings nothing. -/
theorem fetched_eq_nil {c : ReadCall} (hlt : p < EEP_SIZE) (hcount : c.count < 2 ^ a.bits)
    (hstale : ¬ (c.ack = true ∧ p + c.count < 2 ^ a.bits ∧ (p = 0 → c.count < EEP_SIZE))) :
    fetched k c.ack (clampRead a p c.count) = [] := by
  cases hack : c.ack with
  | false => rfl
  | true =>
      have hwhole : clampRead a p c.count = EEP_SIZE := by
        by_cases hover : p + c.count < 2 ^ a.bits
        · have hzero : p = 0 ∧ EEP_SIZE ≤ c.count := by
            by_contra hnot
            exact hstale ⟨hack, hover, fun h0 => by omega⟩
          rw [clampRead_eq a hlt hover]
          omega
        · exact clampRead_of_overflow a hlt hcount (by omega)
      rw [hwhole, fetched_whole]

/-- The first byte such a read hands out is the one the history has left. -/
theorem answer_head {c : ReadCall} {b : Block U8} (hp : k.dev.current_pointer = p)
    (hlt : p < EEP_SIZE) (hcount : c.count < 2 ^ a.bits) (hb : Holds k.heap k.dev.data b)
    (hsize : b.size = EEP_SIZE) (hstale : ¬ AnswersFresh a p c) :
    ∃ out, eepRead a k c = .ok out ∧ out.user.head? = some (b.elem 0) := by
  unfold AnswersFresh at hstale
  simp only [not_or] at hstale
  rcases hstale with ⟨hkill, hpos, -, hzero, hroom, hack⟩
  rcases eepRead_of_reads a hb hsize (by simpa using hkill) (lt_of_not_ge hpos)
    (by rw [hp]; exact Int.ofNat_lt.mpr hlt) (by rw [hp]) with ⟨heap, chip, -, -, -, hrun⟩
  rw [fetched_eq_nil a hlt hcount hack, splice_nil] at hrun
  refine ⟨_, hrun, ?_⟩
  have hn : 0 < clampRead a p c.count := by
    have hE : EEP_SIZE = 65536 := rfl
    by_cases hover : p + c.count < 2 ^ a.bits
    · rw [clampRead_eq a hlt hover]
      omega
    · rw [clampRead_of_overflow a hlt hcount (by omega)]
      omega
  rw [List.head?_take, if_neg hroom, List.head?_eq_getElem?, slice_getElem? _ _ hn]

end

/-- **Two histories that leave different bytes are told apart** by a read that does not answer
fresh. -/
theorem not_hidesTraffic_of_stale (a : Arch) {p : Nat} {c : ReadCall}
    (hcount : c.count < 2 ^ a.bits) (hstale : ¬ AnswersFresh a p c) : ¬ HidesTraffic a p c := by
  intro h
  have hlt : p < EEP_SIZE := by
    by_contra hend
    exact hstale (Or.inr (Or.inr (Or.inl (by omega))))
  rcases exists_history a hlt 0 with ⟨s, b, hrun, hp, hchip, hb, hsize, hbyte⟩
  rcases exists_history a hlt 1 with ⟨s', b', hrun', hp', hchip', hb', hsize', hbyte'⟩
  rcases answer_head a hp hlt hcount hb hsize hstale with ⟨out, hout, hhead⟩
  rcases answer_head a hp' hlt hcount hb' hsize' hstale with ⟨out', hout', hhead'⟩
  have hsame := h ⟨⟨none, 0⟩, Heap.empty, blankChip⟩ _ _ s s' hrun hrun'
    ⟨hchip.trans hchip'.symm, hp.trans hp'.symm⟩ hp
  rw [hout, hout'] at hsame
  have huser : out.user = out'.user := (Prod.mk.inj (Except.ok.inj hsame)).2
  rw [huser, hhead', hbyte, hbyte'] at hhead
  exact absurd (Option.some.inj hhead) (by decide)

/-- **When a read does not depend on what earlier calls left in `dev->data`.** -/
theorem hidesTraffic_iff (a : Arch) (p : Nat) (c : ReadCall) (hcount : c.count < 2 ^ a.bits) :
    HidesTraffic a p c ↔ AnswersFresh a p c := by
  constructor
  · intro h
    by_contra hstale
    exact not_hidesTraffic_of_stale a hcount hstale h
  · intro hfresh k es es' s s' hrun hrun' hview hp
    exact answer_eq (ready_of_run hrun) (ready_of_run hrun') hview hp hfresh

/-- Ten bytes at the address 3, the transfer acknowledged. -/
theorem hidesTraffic_ten : HidesTraffic .lp64 3 (readCall 10) :=
  (hidesTraffic_iff .lp64 3 (readCall 10) (by decide)).mpr
    (Or.inr (Or.inr (Or.inr (Or.inr (Or.inr ⟨rfl, by decide, fun h => absurd h (by decide)⟩)))))

/-- **One byte, the transfer refused**: the user gets the byte of an earlier write that the
chip did not take. -/
theorem not_hidesTraffic_nack : ¬ HidesTraffic .lp64 0 { readCall 1 with ack := false } := by
  apply not_hidesTraffic_of_stale .lp64 (by decide)
  unfold AnswersFresh
  decide

end LinuxDrivers.Eeprom
