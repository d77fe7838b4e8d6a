import LinuxDrivers.Gpio.Commands

set_option autoImplicit false

/-! # Reading a pin

`mcp23016_get_value` reads INTCAPx, not GPx. It therefore returns the level that the pin had
when the last change interrupt of its port captured it. To say so without the register, the
chip is watched: `seen` records the level of each pin right after the last change interrupt of
its port, from the levels alone.

`getsAgree_iff`: in every run, the calls return the level of the pin exactly when the level is
the one that was seen last. -/

namespace LinuxDrivers.Gpio

open Lib

/-- The chip and, for each pin, its level right after the last change interrupt of its port. -/
structure Watched where
  chip : Chip
  seen : Pin → Bool

def Watched.serve (w : Watched) (op : Smbus) : Watched × S32 :=
  ({ w with chip := (w.chip.serve op).1 }, (w.chip.serve op).2)

def Watched.change (w : Watched) (e : InputChange) : Watched where
  chip := w.chip.change e
  seen pin :=
    if pin.bank = e.bank ∧ (w.chip.bank e.bank).interrupts e.ext then (w.chip.change e).level pin
    else w.seen pin

/-- Before the first interrupt of a port, what INTCAPx holds at start stands for its levels. -/
def Watched.start (c : Chip) : Watched := ⟨c, fun pin => (c.bank pin.bank).intcap.getLsbD pin.bit⟩

/-- What a read of the level would return. -/
def levelValue (v : Bool) : S32 := if v then 1 else 0

/-- Every finished `mcp23016_get_value` returned the level the pin had at its transfer. -/
def GetsAgree (u : User Watched GpioCall Smbus S32 S32) : Prop :=
  ∀ pin ret w, (.getValue pin, ret, w) ∈ u.done → ret = levelValue (w.chip.level pin)

/-- At each of these transfers the pin had the level seen at the last change interrupt of its
port. -/
def GetsSeen (u : User Watched GpioCall Smbus S32 S32) : Prop :=
  ∀ pin ret w, (.getValue pin, ret, w) ∈ u.done → w.chip.level pin = w.seen pin

/-! ## The captured port -/

/-- INTCAPx holds the levels seen. -/
def Captured (w : Watched) : Prop :=
  ∀ pin, (w.chip.bank pin.bank).intcap.getLsbD pin.bit = w.seen pin

theorem Bank.write_intcap (b : Bank) (r : Nat) (value : U8) :
    (b.write r value).intcap = b.intcap := by
  unfold Bank.write
  split_ifs <;> rfl

theorem captured_serve (w : Watched) (op : Smbus) (h : Captured w) : Captured (w.serve op).1 := by
  cases op with
  | readByteData command => exact h
  | writeByteData command value =>
      intro pin
      refine Eq.trans ?_ (h pin)
      show (Function.update w.chip.bank _ _ pin.bank).intcap.getLsbD _ = _
      by_cases hbank : pin.bank = registerBank command
      · rw [hbank, Function.update_self, Bank.write_intcap]
      · rw [Function.update_of_ne hbank]

theorem captured_change (w : Watched) (e : InputChange) (h : Captured w) :
    Captured (w.change e) := by
  intro pin
  by_cases hbank : pin.bank = e.bank
  · by_cases hint : (w.chip.bank e.bank).interrupts e.ext
    · -- the interrupt captures the levels that are seen
      show _ = if _ then _ else _
      rw [if_pos ⟨hbank, hint⟩]
      simp [Watched.change, Chip.change, Chip.level, hbank, Bank.change, hint, Bank.level]
    · show _ = if _ then _ else _
      rw [if_neg (fun h => hint h.2), ← h pin]
      simp [Watched.change, Chip.change, hbank, Bank.change, hint]
  · show _ = if _ then _ else _
    rw [if_neg (fun h => hbank h.1), ← h pin]
    simp [Watched.change, Chip.change, hbank]

theorem captured_start (c : Chip) : Captured (Watched.start c) := fun _ => rfl

/-- `(value >> bit) & 0x1` of a byte. -/
theorem shift_answer (v : U8) {i : Nat} (hi : i < 8) :
    ((v.setWidth 32 : S32).sshiftRight i) &&& 0x1 = levelValue (v.getLsbD i) := by
  have hmsb : (v.setWidth 32 : S32).msb = false := by
    revert v
    decide
  rw [BitVec.sshiftRight_eq_of_msb_false hmsb]
  show _ &&& 1#32 = _
  rw [BitVec.and_one_eq_setWidth_ofBool_getLsbD, BitVec.getLsbD_ushiftRight,
    BitVec.getLsbD_setWidth, decide_eq_true (show i + 0 < 32 by omega)]
  cases v.getLsbD i <;> rfl

/-! ## The calls -/

/-- The device keeps what it has captured. -/
def Keeps (w w' : Watched) : Prop := Captured w → Captured w'

theorem keeps_change (w : Watched) (e : InputChange) : Keeps w (w.change e) :=
  captured_change w e

/-- `mcp23016_get_value` returns the level seen. -/
theorem getValue_seen (pin : Pin) {w : Watched} (hw : Captured w) :
    (mcp23016GetValue pin.val).Meets Watched.serve Keeps
      (fun ret t => Captured t ∧ ret = levelValue (t.seen pin)) w := by
  unfold mcp23016GetValue i2cSmbusReadByteData
  rw [Prog.send_bind]
  intro t ht
  have hread : t.serve (.readByteData (regIntcap (pin.val / 8)))
      = (t, (t.chip.bank pin.bank).intcap.setWidth 32) := by
    unfold Watched.serve
    rw [serve_readIntcap]
  rw [hread]
  refine ⟨ht hw, ?_⟩
  show (if _ then _ else _) = _
  rw [if_pos (toInt_answer _), ← ht hw pin]
  exact shift_answer _ pin.bit_lt

/-- After every call the finished `mcp23016_get_value`s have returned the levels seen. -/
def SeenReturned (done : List (GpioCall × S32 × Watched)) : Prop :=
  ∀ pin ret w, (.getValue pin, ret, w) ∈ done → ret = levelValue (w.seen pin)

theorem call_seen (done : List (GpioCall × S32 × Watched)) (w : Watched) (call : GpioCall)
    (hdone : SeenReturned done) (hw : Captured w) :
    call.prog.Meets Watched.serve Keeps
      (fun ret t => SeenReturned (done ++ [(call, ret, t)]) ∧ Captured t) w := by
  have hconcat : ∀ ret t, (∀ pin, call = .getValue pin → ret = levelValue (t.seen pin)) →
      SeenReturned (done ++ [(call, ret, t)]) := by
    intro ret t hlast pin ret' t' hmem
    rw [List.mem_append, List.mem_singleton] at hmem
    rcases hmem with hmem | hmem
    · exact hdone pin ret' t' hmem
    · injection hmem with hcall hrest
      injection hrest with hret ht
      rw [hret, ht]
      exact hlast pin hcall.symm
  -- a call that is not a read of a pin returns nothing that matters here
  by_cases hget : ∃ pin, call = .getValue pin
  · rcases hget with ⟨pin, rfl⟩
    refine (getValue_seen pin hw).mono fun ret t ht => ⟨hconcat ret t ?_, ht.1⟩
    intro p hp
    injection hp with hp
    rw [← hp]
    exact ht.2
  · refine (Prog.Meets.always captured_serve (fun s t hs hst => hst hs) call.prog hw).mono
      fun ret t ht => ⟨hconcat ret t ?_, ht⟩
    intro p hp
    exact absurd ⟨p, hp⟩ hget

/-! ## Runs -/

/-- The watched expander with one user. -/
abbrev watchedStep := userStep Watched.serve Watched.change GpioCall.prog

/-- **When reading a pin agrees with the pin.** In every run the calls of `mcp23016_get_value`
return the level of their pin exactly if this is, at each of them, the level that the pin had
right after the last change interrupt of its port. -/
theorem getsAgree_iff (c : Chip) (es : List (UserEvent GpioCall InputChange))
    (u : User Watched GpioCall Smbus S32 S32)
    (hrun : run watchedStep (User.start (Watched.start c)) es = some u) :
    GetsAgree u ↔ GetsSeen u := by
  have hinv : UserInv Watched.serve Keeps (fun done w => SeenReturned done ∧ Captured w) u := by
    refine user_induct (fun _ h => h) (fun _ _ _ h h' hw => h' (h hw)) keeps_change ?_ ?_
      ⟨fun _ _ _ hmem => absurd hmem List.not_mem_nil, captured_start c⟩ hrun
    · rintro done w e ⟨hdone, hw⟩
      exact ⟨hdone, captured_change w e hw⟩
    · rintro done w call ⟨hdone, hw⟩
      exact call_seen done w call hdone hw
  -- a call in progress will end, and what is true of all calls then is true of those before it
  have hseen : SeenReturned u.done := by
    unfold UserInv at hinv
    cases hcur : u.cur with
    | none =>
        rw [hcur] at hinv
        exact hinv.1
    | some cp =>
        rw [hcur] at hinv
        obtain ⟨ret, t, hend, -⟩ := hinv.2.outcome (fun _ h => h)
        intro pin ret' t' hmem
        exact hend pin ret' t' (List.mem_append_left _ hmem)
  constructor
  · intro hagree pin ret w hmem
    have heq := (hagree pin ret w hmem).symm.trans (hseen pin ret w hmem)
    revert heq
    cases w.chip.level pin <;> cases w.seen pin <;> decide
  · intro hget pin ret w hmem
    rw [hseen pin ret w hmem, hget pin ret w hmem]

/-- An input pin whose change has raised the interrupt is read as it is. -/
theorem getsAgree_input :
    ∃ u, run watchedStep (User.start (Watched.start idleChip))
      [.env ⟨1, 0x02⟩, .call (.getValue 9), .serve] = some u ∧ GetsAgree u := by
  have hrun : (run watchedStep (User.start (Watched.start idleChip))
      [.env ⟨1, 0x02⟩, .call (.getValue 9), .serve]).any (fun u => u.done.all (fun d =>
        decide (∀ pin : Pin, d.2.2.chip.level pin = d.2.2.seen pin))) = true := by
    decide +kernel
  rcases (Option.any_eq_true _ _).mp hrun with ⟨u, hu, hseen⟩
  refine ⟨u, hu, (getsAgree_iff _ _ u hu).mpr fun pin ret w hmem => ?_⟩
  exact of_decide_eq_true (List.all_eq_true.mp hseen _ hmem) pin

/-- **An output pin that has been set to 1 is read as 0**: writing the latch captures
nothing. -/
theorem not_getsAgree_output :
    ∃ u, run watchedStep (User.start (Watched.start idleChip))
      [.call (.directionOutput 0 1), .serve, .serve, .serve, .serve,
        .call (.getValue 0), .serve] = some u ∧ ¬ GetsAgree u := by
  have hrun : (run watchedStep (User.start (Watched.start idleChip))
      [.call (.directionOutput 0 1), .serve, .serve, .serve, .serve,
        .call (.getValue 0), .serve]).any (fun u => u.done.any (fun d =>
        (match d.1 with | .getValue pin => decide (pin = 0) | _ => false) &&
          decide (d.2.1 ≠ levelValue (d.2.2.chip.level 0)))) = true := by
    decide +kernel
  rcases (Option.any_eq_true _ _).mp hrun with ⟨u, hu, hany⟩
  refine ⟨u, hu, fun hagree => ?_⟩
  rcases List.any_eq_true.mp hany with ⟨⟨call, ret, w⟩, hmem, hd⟩
  rw [Bool.and_eq_true, decide_eq_true_eq] at hd
  cases call with
  | getValue pin =>
      obtain rfl : pin = 0 := of_decide_eq_true hd.1
      exact hd.2 (hagree 0 ret w hmem)
  | directionInput pin => exact Bool.noConfusion hd.1
  | directionOutput pin val => exact Bool.noConfusion hd.1
  | setValue pin val => exact Bool.noConfusion hd.1

end LinuxDrivers.Gpio
