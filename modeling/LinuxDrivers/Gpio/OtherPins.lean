import LinuxDrivers.Gpio.Commands

set_option autoImplicit false

/-! # What the calls on other pins do to a pin

An update of a port rewrites the latches of all eight pins of the bank with what it has read
from the port. There the bit of an output pin is its latch, but the bit of an input pin is the
level outside. So an input pin keeps its latch only as long as every such read finds it at that
level (`SeesLatch`); `pinKept_of_seesLatch` is this over whole runs. Directions are read from
the register they are written to, and stay in any case.

`set_keeps` and `direction_keeps` follow the two kinds of update and say nothing about what is
kept. -/

namespace LinuxDrivers.Gpio

open Lib

/-- The pin a call is for. -/
def GpioCall.pin : GpioCall → Pin
  | .directionInput pin => pin
  | .directionOutput pin _ => pin
  | .setValue pin _ => pin
  | .getValue pin => pin

/-! ## The updates and what they keep -/

section

variable {G : Chip → Smbus → Prop} {I : Chip → Prop} {c : Chip} (pin : Pin) (val : Int)

/-- `t` is the chip as the port is read, `t'` as it is written. -/
theorem set_keeps (hstable : ∀ s t, I s → SameRegs s t → I t)
    (hwrite : ∀ t t', I t → I t' → SameRegs t t' → G t (.readByteData (regGpio (pin.val / 8))) →
      I (t'.withOlat pin.bank (updated (t.bank pin.bank).level pin (val ≠ 0))))
    (hc : I c) : (mcp23016Set pin.val val).Keeps Chip.serve SameRegs G I c := by
  unfold mcp23016Set i2cSmbusReadByteData
  rw [Prog.send_bind]
  refine ⟨hc, fun t ht hG => ?_⟩
  have hIt := hstable c t hc ht
  rw [serve_readGpio]
  show Prog.Keeps _ _ _ _ (setRead _ _ _ _) t
  rw [setRead, if_pos (toInt_answer _)]
  refine ⟨hIt, fun t' ht' _ => ?_⟩
  rw [serve_writeGpio]
  exact hwrite t t' hIt (hstable t t' hIt ht') ht' hG

theorem direction_keeps (direction : Nat) (hstable : ∀ s t, I s → SameRegs s t → I t)
    (hwrite : ∀ t t', I t → I t' → SameRegs t t' →
      I (t'.withIodir pin.bank (updated (t.bank pin.bank).iodir pin (direction ≠ 0))))
    (hset : ∀ s, direction = 0 → I s → (mcp23016Set pin.val val).Keeps Chip.serve SameRegs G I s)
    (hc : I c) : (mcp23016Direction pin.val direction val).Keeps Chip.serve SameRegs G I c := by
  unfold mcp23016Direction i2cSmbusReadByteData i2cSmbusWriteByteData
  rw [Prog.send_bind]
  refine ⟨hc, fun t ht _ => ?_⟩
  have hIt := hstable c t hc ht
  rw [serve_readIodir]
  show Prog.Keeps _ _ _ _ (Prog.call _ _) t
  refine ⟨hIt, fun t' ht' _ => ?_⟩
  rw [serve_writeIodir]
  have hIt' := hwrite t t' hIt (hstable t t' hIt ht') ht'
  show Prog.Keeps _ _ _ _ (directionWritten _ _ _ _) _
  unfold directionWritten
  split_ifs with hdir
  · exact hIt'
  · exact hset _ (by simpa using hdir) hIt'

theorem setValue_keeps
    (hset : (mcp23016Set pin.val val).Keeps Chip.serve SameRegs G I c) :
    (GpioCall.setValue pin val).prog.Keeps Chip.serve SameRegs G I c := by
  show Prog.Keeps _ _ _ _ (mcp23016SetValue pin.val val >>= fun _ => Prog.ret 0) c
  exact (hset.bind _ fun _ _ h => h).bind _ fun _ _ h => h

theorem getValue_keeps (hstable : ∀ s t, I s → SameRegs s t → I t) (hc : I c) :
    (mcp23016GetValue pin.val).Keeps Chip.serve SameRegs G I c := by
  unfold mcp23016GetValue i2cSmbusReadByteData
  rw [Prog.send_bind]
  refine ⟨hc, fun t ht _ => ?_⟩
  rw [serve_readIntcap]
  exact hstable c t hc ht

end

/-! ## One pin -/

/-- The call is for another pin than `j`. -/
def GpioCall.Other (j : Pin) (call : GpioCall) : Prop := call.pin ≠ j

/-- A read of the port of pin `j` finds there its latch. -/
def ShowsLatch (j : Pin) (c : Chip) (op : Smbus) : Prop :=
  op = .readByteData (regGpio (j.val / 8)) → c.level j = c.latch j

instance (j : Pin) (c : Chip) (op : Smbus) : Decidable (ShowsLatch j c op) :=
  inferInstanceAs (Decidable (op = _ → c.level j = c.latch j))

/-- Whenever an event of the run serves a read of the port of `j`, the pin is at its latch. -/
abbrev SeesLatch (j : Pin) (u : User Chip GpioCall Smbus S32 S32)
    (e : UserEvent GpioCall InputChange) : Prop :=
  RequestMeets (ShowsLatch j) u e

/-- Pin `j` has the latch bit `l` and the direction bit `i`. -/
def PinIs (j : Pin) (l i : Bool) (c : Chip) : Prop := c.latch j = l ∧ c.isInput j = i

section

variable {j : Pin} {l i : Bool} {c t t' : Chip} {pin : Pin}

theorem SameRegs.latch (h : SameRegs c t) (p : Pin) : t.latch p = c.latch p := by
  unfold Chip.latch
  rw [(h p.bank).1]

theorem SameRegs.isInput (h : SameRegs c t) (p : Pin) : t.isInput p = c.isInput p := by
  unfold Chip.isInput
  rw [(h p.bank).2]

theorem PinIs.stable (s t : Chip) (hs : PinIs j l i s) (h : SameRegs s t) : PinIs j l i t :=
  ⟨(h.latch j).trans hs.1, (h.isInput j).trans hs.2⟩

/-- An update of a port, seen from another pin of the bank or from another bank. -/
theorem latch_updated (v : Bool) (hne : j ≠ pin) :
    (t'.withOlat pin.bank (updated (t.bank pin.bank).level pin v)).latch j
      = if j.bank = pin.bank then t.level j else t'.latch j := by
  rw [withOlat_latch, getLsbD_updated]
  by_cases hbank : j.bank = pin.bank
  · rw [if_pos hbank, if_pos hbank, if_neg fun hbit => hne (Pin.ext hbank hbit), ← hbank]
    rfl
  · rw [if_neg hbank, if_neg hbank]

theorem isInput_updated (v : Bool) (hne : j ≠ pin) (hsame : SameRegs t t') :
    (t'.withIodir pin.bank (updated (t.bank pin.bank).iodir pin v)).isInput j = t'.isInput j := by
  rw [withIodir_isInput, getLsbD_updated]
  by_cases hbank : j.bank = pin.bank
  · rw [if_pos hbank, if_neg fun hbit => hne (Pin.ext hbank hbit), ← hbank, ← (hsame j.bank).2]
    rfl
  · rw [if_neg hbank]

theorem PinIs.set (val : Int) (hne : pin ≠ j) (hc : PinIs j l i c) :
    (mcp23016Set pin.val val).Keeps Chip.serve SameRegs (ShowsLatch j) (PinIs j l i) c := by
  refine set_keeps pin val PinIs.stable (fun t t' ht ht' _ hsees => ⟨?_, ?_⟩) hc
  · rw [latch_updated _ hne.symm]
    by_cases hbank : j.bank = pin.bank
    · have hport : pin.val / 8 = j.val / 8 := (congrArg Fin.val hbank).symm
      rw [if_pos hbank, hsees (by rw [hport])]
      exact ht.1
    · rw [if_neg hbank]
      exact ht'.1
  · rw [withOlat_isInput]
    exact ht'.2

theorem PinIs.direction (direction : Nat) (val : Int) (hne : pin ≠ j) (hc : PinIs j l i c) :
    (mcp23016Direction pin.val direction val).Keeps Chip.serve SameRegs (ShowsLatch j)
      (PinIs j l i) c := by
  refine direction_keeps pin val direction PinIs.stable (fun t t' _ ht' hsame => ⟨?_, ?_⟩)
    (fun s _ hs => hs.set val hne) hc
  · rw [withIodir_latch]
    exact ht'.1
  · rw [isInput_updated _ hne.symm hsame]
    exact ht'.2

theorem PinIs.call (call : GpioCall) (hother : call.Other j) (hc : PinIs j l i c) :
    call.prog.Keeps Chip.serve SameRegs (ShowsLatch j) (PinIs j l i) c := by
  cases call with
  | directionInput pin => exact hc.direction INPUT 0 hother
  | directionOutput pin val => exact hc.direction OUTPUT val hother
  | setValue pin val => exact setValue_keeps pin val (hc.set val hother)
  | getValue pin => exact getValue_keeps pin PinIs.stable hc

end

/-- **Calls on other pins leave a pin alone.** In every run of calls on other pins in which each
read of the port of `j` finds the pin at its latch, every state reached has the latch bit and
the direction bit of `j` that the run started with. -/
theorem pinKept_of_seesLatch (chip : Chip) (j : Pin)
    (es : List (UserEvent GpioCall InputChange)) (u : User Chip GpioCall Smbus S32 S32)
    (hother : ∀ call, .call call ∈ es → call.Other j)
    (hsees : Along gpioStep (fun _ => SeesLatch j) (User.start chip) es)
    (hrun : run gpioStep (User.start chip) es = some u) :
    u.dev.latch j = chip.latch j ∧ u.dev.isInput j = chip.isInput j := by
  have hstart : UserKeeps Chip.serve SameRegs (ShowsLatch j)
      (PinIs j (chip.latch j) (chip.isInput j))
      (User.start chip : User Chip GpioCall Smbus S32 S32) := ⟨rfl, rfl⟩
  exact (user_keeps (C := GpioCall.Other j) SameRegs.refl SameRegs.trans sameRegs_change
    PinIs.stable (fun s call hcall hs => hs.call call hcall) hstart hother hsees hrun).here

/-- Pin 4 is set while pin 3 of its bank, an input, is low outside and in its latch; afterwards
the level of pin 3 changes and pin 9 of the other bank is set. -/
theorem pinKept_run :
    ∃ u : User Chip GpioCall Smbus S32 S32, run gpioStep (User.start idleChip)
        [.call (.directionOutput 4 1), .serve, .serve, .serve, .serve, .env ⟨0, 0x08⟩,
          .call (.setValue 9 1), .serve, .serve] = some u ∧
      u.dev.latch 3 = idleChip.latch 3 ∧ u.dev.isInput 3 = idleChip.isInput 3 := by
  have hrun : (run gpioStep (User.start idleChip)
      [.call (.directionOutput 4 1), .serve, .serve, .serve, .serve, .env ⟨0, 0x08⟩,
        .call (.setValue 9 1), .serve, .serve]).isSome = true := by
    decide +kernel
  have hsees : checkAlong gpioStep (SeesLatch 3) (User.start idleChip)
      [.call (.directionOutput 4 1), .serve, .serve, .serve, .serve, .env ⟨0, 0x08⟩,
        .call (.setValue 9 1), .serve, .serve] = true := by
    decide +kernel
  have hother : ∀ call, UserEvent.call call ∈ ([.call (.directionOutput 4 1), .serve, .serve,
      .serve, .serve, .env ⟨0, 0x08⟩, .call (.setValue 9 1), .serve, .serve] :
        List (UserEvent GpioCall InputChange)) → call.Other 3 := by
    intro call hcall
    simp only [List.mem_cons, UserEvent.call.injEq, reduceCtorEq, List.not_mem_nil, or_false,
      false_or] at hcall
    rcases hcall with rfl | rfl
    · exact fun h => absurd (show (4 : Pin) = 3 from h) (by decide)
    · exact fun h => absurd (show (9 : Pin) = 3 from h) (by decide)
  rcases Option.isSome_iff_exists.mp hrun with ⟨u, hu⟩
  exact ⟨u, hu, pinKept_of_seesLatch idleChip 3 _ u hother (along_of_checkAlong _ _ hsees) hu⟩

/-- **Setting pin 4 sets the latch of pin 3**, an input that is high outside. -/
theorem latch_lost :
    ∃ u : User Chip GpioCall Smbus S32 S32, run gpioStep (User.start idleChip)
        [.env ⟨0, 0x08⟩, .call (.setValue 4 1), .serve, .serve] = some u ∧ u.cur.isNone ∧
      u.dev.latch 3 ≠ idleChip.latch 3 := by
  have hrun : (run gpioStep (User.start idleChip)
      [.env ⟨0, 0x08⟩, .call (.setValue 4 1), .serve, .serve]).any
        (fun u => u.cur.isNone && decide (u.dev.latch 3 ≠ idleChip.latch 3)) = true := by
    decide +kernel
  rcases (Option.any_eq_true _ _).mp hrun with ⟨u, hu, hany⟩
  rw [Bool.and_eq_true, decide_eq_true_eq] at hany
  exact ⟨u, hu, hany.1, hany.2⟩

end LinuxDrivers.Gpio
