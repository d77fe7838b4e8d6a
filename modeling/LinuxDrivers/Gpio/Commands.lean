import LinuxDrivers.Gpio.Driver

set_option autoImplicit false

/-! # The expander follows the commands

One user makes calls of the driver one after the other, while the levels on the input pins
change at any moment, also between the two transfers of an update. `commanded` says what the
calls so far ask of each pin: to be an input, or an output at some value. `Tracks` says that
the chip does it.

The update of a port reads levels, not latches. On an output pin the two agree, and on an input
pin the latch does not matter, which is why one update keeps `Tracks` for all the other
pins. -/

namespace LinuxDrivers.Gpio

open Lib

/-- A call of the driver on one pin. -/
inductive GpioCall where
  | directionInput (pin : Pin)
  | directionOutput (pin : Pin) (val : Int)
  | setValue (pin : Pin) (val : Int)
  | getValue (pin : Pin)

/-- The program of a call; `mcp23016_set_value` returns nothing, here 0. -/
def GpioCall.prog : GpioCall → SmbusProg S32
  | .directionInput pin => mcp23016DirectionInput pin.val
  | .directionOutput pin val => mcp23016DirectionOutput pin.val val
  | .setValue pin val => do
      mcp23016SetValue pin.val val
      return 0
  | .getValue pin => mcp23016GetValue pin.val

/-! ## What the calls ask for -/

inductive Commanded where
  | input
  | output (v : Bool)

/-- A direction command decides; a value counts as long as the pin is an output. -/
def GpioCall.command (d : Pin → Commanded) : GpioCall → Pin → Commanded
  | .directionInput pin => Function.update d pin .input
  | .directionOutput pin val => Function.update d pin (.output (val ≠ 0))
  | .setValue pin val =>
      match d pin with
      | .input => d
      | .output _ => Function.update d pin (.output (val ≠ 0))
  | .getValue _ => d

section

variable {d : Pin → Commanded} {pin p : Pin} (val : Int)

theorem command_setValue_of_input (h : d pin = .input) :
    (GpioCall.setValue pin val).command d = d := by
  simp [GpioCall.command, h]

theorem command_setValue_of_output {v : Bool} (h : d pin = .output v) :
    (GpioCall.setValue pin val).command d = Function.update d pin (.output (val ≠ 0)) := by
  simp [GpioCall.command, h]

theorem command_setValue_of_ne (h : p ≠ pin) :
    (GpioCall.setValue pin val).command d p = d p := by
  cases hd : d pin with
  | input => rw [command_setValue_of_input val hd]
  | output v => rw [command_setValue_of_output val hd, Function.update_of_ne h]

end

/-- All pins are inputs at start. -/
def commanded (calls : List GpioCall) : Pin → Commanded :=
  calls.foldl GpioCall.command (fun _ => .input)

/-- The direction of the pin, and its level if it is an output. -/
def Chip.Does (c : Chip) (pin : Pin) : Commanded → Prop
  | .input => c.isInput pin = true
  | .output v => c.isInput pin = false ∧ c.level pin = v

def Tracks (d : Pin → Commanded) (c : Chip) : Prop := ∀ pin, c.Does pin (d pin)

/-- `c'` has the latches and the directions of `c`. -/
def SameRegs (c c' : Chip) : Prop :=
  ∀ b, (c'.bank b).olat = (c.bank b).olat ∧ (c'.bank b).iodir = (c.bank b).iodir

theorem SameRegs.refl (c : Chip) : SameRegs c c := fun _ => ⟨rfl, rfl⟩

theorem SameRegs.trans (c c' c'' : Chip) (h : SameRegs c c') (h' : SameRegs c' c'') :
    SameRegs c c'' :=
  fun b => ⟨(h' b).1.trans (h b).1, (h' b).2.trans (h b).2⟩

/-- Changes from outside leave the latches and the directions. -/
theorem sameRegs_change (c : Chip) (e : InputChange) : SameRegs c (c.change e) := by
  intro b
  unfold Chip.change
  by_cases h : b = e.bank
  · subst h
    unfold Bank.change
    simp only [Function.update_self]
    split_ifs <;> exact ⟨rfl, rfl⟩
  · simp [h]

theorem Chip.does_output_iff {c : Chip} {pin : Pin} {v : Bool} :
    c.Does pin (.output v) ↔ c.isInput pin = false ∧ c.latch pin = v := by
  unfold Chip.Does
  constructor
  · rintro ⟨hout, hlevel⟩
    exact ⟨hout, by rw [← hlevel, Chip.level_of_output hout]⟩
  · rintro ⟨hout, hlatch⟩
    exact ⟨hout, by rw [Chip.level_of_output hout, hlatch]⟩

theorem SameRegs.does {c c' : Chip} (h : SameRegs c c') {pin : Pin} {d : Commanded}
    (hd : c.Does pin d) : c'.Does pin d := by
  have hin : c'.isInput pin = c.isInput pin := by
    unfold Chip.isInput
    rw [(h pin.bank).2]
  have hlatch : c'.latch pin = c.latch pin := by
    unfold Chip.latch
    rw [(h pin.bank).1]
  cases d with
  | input => exact hin.trans hd
  | output v =>
      rw [Chip.does_output_iff] at hd ⊢
      rw [hin, hlatch]
      exact hd

theorem SameRegs.tracks {c c' : Chip} (h : SameRegs c c') {d : Pin → Commanded}
    (hd : Tracks d c) : Tracks d c' :=
  fun pin => h.does (hd pin)

/-! ## The two updates -/

/-- The byte that an update writes back: the bit of the pin is set or cleared, the others are
as they were read. -/
def updated (read : U8) (pin : Pin) (v : Bool) : U8 :=
  (assignBit (read.setWidth 32) pin.bit v).setWidth 8

theorem getLsbD_updated (read : U8) (pin p : Pin) (v : Bool) :
    (updated read pin v).getLsbD p.bit = if p.bit = pin.bit then v else read.getLsbD p.bit := by
  unfold updated
  rw [getLsbD_assignBit _ _ p.bit_lt, BitVec.getLsbD_setWidth]
  simp [show p.bit < 32 by have := p.bit_lt; omega]

/-- Writing back the levels read from the port sets the pin and keeps the other outputs. -/
theorem Tracks.setValue {d : Pin → Commanded} {c t : Chip} (hc : Tracks d c) (ht : Tracks d t)
    (pin : Pin) (val : Int) :
    Tracks ((GpioCall.setValue pin val).command d)
      (t.withOlat pin.bank (updated (c.bank pin.bank).level pin (val ≠ 0))) := by
  -- the latch of a pin after the update
  have hlatch : ∀ p v, d p = .output v →
      (t.withOlat pin.bank (updated (c.bank pin.bank).level pin (val ≠ 0))).latch p
        = if p = pin then decide (val ≠ 0) else v := by
    intro p v hp
    have hcp := hc p
    have htp := ht p
    rw [hp, Chip.does_output_iff] at htp
    rw [hp] at hcp
    rw [withOlat_latch, getLsbD_updated]
    by_cases hbank : p.bank = pin.bank
    · rw [if_pos hbank]
      by_cases hbit : p.bit = pin.bit
      · rw [if_pos hbit, if_pos (Pin.ext hbank hbit)]
      · -- another output of the bank: what was read from the port is its latch
        rw [if_neg hbit, if_neg (fun h => hbit (by rw [h])), ← hbank]
        exact hcp.2
    · rw [if_neg hbank, if_neg (fun h => hbank (by rw [h]))]
      exact htp.2
  intro p
  have htp := ht p
  cases hp : d p with
  | input =>
      have hd : (GpioCall.setValue pin val).command d p = .input := by
        by_cases hpin : p = pin
        · rw [← hpin, command_setValue_of_input val hp, hp]
        · rw [command_setValue_of_ne val hpin, hp]
      rw [hd]
      rw [hp] at htp
      exact (withOlat_isInput ..).trans htp
  | output v =>
      have hd : (GpioCall.setValue pin val).command d p
          = .output (if p = pin then decide (val ≠ 0) else v) := by
        by_cases hpin : p = pin
        · rw [if_pos hpin, ← hpin, command_setValue_of_output val hp, Function.update_self]
        · rw [if_neg hpin, command_setValue_of_ne val hpin, hp]
      rw [hd, Chip.does_output_iff, withOlat_isInput]
      rw [hp] at htp
      exact ⟨htp.1, hlatch p v hp⟩

/-- Writing back the directions makes the pin an input, or an output at its latch. -/
theorem Tracks.direction {d : Pin → Commanded} {c t : Chip} (ht : Tracks d t)
    (hsame : SameRegs c t) (pin : Pin) (dir : Bool) :
    Tracks (Function.update d pin (if dir then .input else .output (t.latch pin)))
      (t.withIodir pin.bank (updated (c.bank pin.bank).iodir pin dir)) := by
  have hin : ∀ p, (t.withIodir pin.bank (updated (c.bank pin.bank).iodir pin dir)).isInput p
      = if p = pin then dir else t.isInput p := by
    intro p
    rw [withIodir_isInput, getLsbD_updated, ← (hsame pin.bank).2]
    by_cases hbank : p.bank = pin.bank
    · rw [if_pos hbank]
      by_cases hbit : p.bit = pin.bit
      · rw [if_pos hbit, if_pos (Pin.ext hbank hbit)]
      · rw [if_neg hbit, if_neg (fun h => hbit (by rw [h])), ← hbank]
        rfl
    · rw [if_neg hbank, if_neg (fun h => hbank (by rw [h]))]
  intro p
  by_cases hpin : p = pin
  · subst hpin
    rw [Function.update_self]
    cases dir with
    | true => exact (hin p).trans (if_pos rfl)
    | false =>
        show Chip.Does _ p (.output (t.latch p))
        rw [Chip.does_output_iff, hin p, if_pos rfl, withIodir_latch]
        exact ⟨rfl, rfl⟩
  · have htp := ht p
    rw [Function.update_of_ne hpin]
    cases hp : d p with
    | input =>
        rw [hp] at htp
        exact ((hin p).trans (if_neg hpin)).trans htp
    | output v =>
        rw [hp, Chip.does_output_iff] at htp
        rw [Chip.does_output_iff, hin p, if_neg hpin, withIodir_latch]
        exact htp

/-! ## The calls -/

section

variable {d : Pin → Commanded} {c : Chip} (pin : Pin) (val : Int)

theorem set_meets (hc : Tracks d c) :
    (mcp23016Set pin.val val).Meets Chip.serve SameRegs
      (fun _ t => Tracks ((GpioCall.setValue pin val).command d) t) c := by
  unfold mcp23016Set i2cSmbusReadByteData
  rw [Prog.send_bind]
  -- `t` is the chip at the read, `t'` the chip at the write
  intro t ht
  rw [serve_readGpio]
  show Prog.Meets _ _ _ (setRead _ _ _ _) t
  rw [setRead, if_pos (toInt_answer _)]
  intro t' ht'
  rw [serve_writeGpio]
  exact (ht.tracks hc).setValue (ht'.tracks (ht.tracks hc)) pin val

theorem setValue_meets (hc : Tracks d c) :
    (GpioCall.setValue pin val).prog.Meets Chip.serve SameRegs
      (fun _ t => Tracks ((GpioCall.setValue pin val).command d) t) c := by
  show Prog.Meets _ _ _ (mcp23016SetValue pin.val val >>= fun _ => Prog.ret 0) c
  exact ((set_meets pin val hc).discard _).discard _

/-- Up to the point where IODIR has been written, the two directions are alike. -/
theorem direction_meets {Q : S32 → Chip → Prop} (direction : Nat) (hc : Tracks d c)
    (hrest : ∀ t v, Tracks (Function.update d pin
      (if direction ≠ 0 then .input else .output (c.latch pin))) t →
      (directionWritten pin.val direction val v).Meets Chip.serve SameRegs Q t) :
    (mcp23016Direction pin.val direction val).Meets Chip.serve SameRegs Q c := by
  unfold mcp23016Direction i2cSmbusReadByteData i2cSmbusWriteByteData
  rw [Prog.send_bind]
  intro t ht
  rw [serve_readIodir]
  show Prog.Meets _ _ _ (Prog.call _ _) t
  intro t' ht'
  rw [serve_writeIodir]
  apply hrest
  have hlatch : t'.latch pin = c.latch pin := by
    unfold Chip.latch
    rw [(ht' pin.bank).1, (ht pin.bank).1]
  have htracks := (ht'.tracks (ht.tracks hc)).direction ht' pin (direction ≠ 0)
  rw [hlatch] at htracks
  simp only [decide_eq_true_eq] at htracks
  exact htracks

theorem directionInput_meets (hc : Tracks d c) :
    (mcp23016DirectionInput pin.val).Meets Chip.serve SameRegs
      (fun _ t => Tracks ((GpioCall.directionInput pin).command d) t) c := by
  exact direction_meets pin 0 INPUT hc fun t v ht => ht

theorem directionOutput_meets (hc : Tracks d c) :
    (mcp23016DirectionOutput pin.val val).Meets Chip.serve SameRegs
      (fun _ t => Tracks ((GpioCall.directionOutput pin val).command d) t) c := by
  apply direction_meets pin val OUTPUT hc
  intro t v ht
  apply (set_meets pin val ht).mono
  intro _ t' ht'
  -- the value replaces the latch the pin had as it became an output
  have hd : (GpioCall.setValue pin val).command (Function.update d pin
      (if OUTPUT ≠ 0 then .input else .output (c.latch pin)))
      = (GpioCall.directionOutput pin val).command d := by
    simp [GpioCall.command, OUTPUT]
  rw [hd] at ht'
  exact ht'

theorem getValue_meets (hc : Tracks d c) :
    (mcp23016GetValue pin.val).Meets Chip.serve SameRegs (fun _ t => Tracks d t) c := by
  unfold mcp23016GetValue i2cSmbusReadByteData
  rw [Prog.send_bind]
  intro t ht
  rw [serve_readIntcap]
  exact ht.tracks hc

theorem call_meets (call : GpioCall) (hc : Tracks d c) :
    call.prog.Meets Chip.serve SameRegs (fun _ t => Tracks (call.command d) t) c := by
  cases call with
  | directionInput pin => exact directionInput_meets pin hc
  | directionOutput pin val => exact directionOutput_meets pin val hc
  | setValue pin val => exact setValue_meets pin val hc
  | getValue pin => exact getValue_meets pin hc

end

/-! ## Runs -/

/-- The chip after power-up, as far as the header comments fix it: all pins are inputs. -/
def PowerUp (c : Chip) : Prop := ∀ b, (c.bank b).iodir = 0xFF

theorem tracks_powerUp {c : Chip} (h : PowerUp c) : Tracks (commanded []) c := by
  intro pin
  show c.isInput pin = true
  have hbit := pin.bit_lt
  unfold Chip.isInput
  rw [h]
  generalize pin.bit = i at hbit
  revert i
  decide

/-- The expander with one user. -/
abbrev gpioStep := userStep Chip.serve Chip.change GpioCall.prog

/-- **The expander follows the commands.** Whenever no call is in progress, every pin has the
direction that the finished calls ask for, and every output the value. -/
theorem tracks_commanded (chip : Chip) (hstart : PowerUp chip)
    (es : List (UserEvent GpioCall InputChange)) (u : User Chip GpioCall Smbus S32 S32)
    (hrun : run gpioStep (User.start chip) es = some u) (hidle : u.cur = none) :
    Tracks (commanded u.calls) u.dev := by
  have hinv : UserInv Chip.serve SameRegs
      (fun done c => Tracks (commanded (done.map (·.1))) c) u := by
    refine user_induct SameRegs.refl SameRegs.trans sameRegs_change ?_ ?_
      (tracks_powerUp hstart) hrun
    · intro done c e hc
      exact (sameRegs_change c e).tracks hc
    · intro done c call hc
      apply (call_meets call hc).mono
      intro a t ht
      rw [List.map_append, commanded, List.foldl_append]
      exact ht
  unfold UserInv at hinv
  rw [hidle] at hinv
  exact hinv

/-- Pins 3 and 4 share a bank; the level outside of pin 3 changes in the middle of an update. -/
theorem tracks_commanded_run :
    ∃ u : User Chip GpioCall Smbus S32 S32,
      run gpioStep (User.start idleChip)
        [.call (.directionOutput 4 1), .serve, .serve, .serve, .env ⟨0, 0x08⟩, .serve,
          .call (.setValue 4 0), .serve, .serve] = some u ∧ Tracks (commanded u.calls) u.dev := by
  have hrun : (run gpioStep (User.start idleChip)
      [.call (.directionOutput 4 1), .serve, .serve, .serve, .env ⟨0, 0x08⟩, .serve,
        .call (.setValue 4 0), .serve, .serve]).any (fun u => u.cur.isNone) = true := by
    decide +kernel
  rcases (Option.any_eq_true _ _).mp hrun with ⟨u, hu, hidle⟩
  exact ⟨u, hu, tracks_commanded _ (fun _ => rfl) _ u hu (Option.isNone_iff_eq_none.mp hidle)⟩

end LinuxDrivers.Gpio
