import LinuxDrivers.Gpio.Chip
import LinuxDrivers.Lib.Prog

set_option autoImplicit false

/-! # The mcp23016 driver

The `gpio_chip` operations of `mcp23016.c` as programs that send SMBus transfers. A transfer
answers with a negative number when it fails. `offset` is the number of the pin. -/

namespace LinuxDrivers.Gpio

open Lib

def INPUT : Nat := 1
def OUTPUT : Nat := 0

/-- A program that sends SMBus transfers. -/
abbrev SmbusProg := Prog Smbus S32

def i2cSmbusReadByteData (command : U8) : SmbusProg S32 := .send (.readByteData command)

/-- The value is passed as a byte. -/
def i2cSmbusWriteByteData (command : U8) (value : S32) : SmbusProg S32 :=
  .send (.writeByteData command (value.setWidth 8))

def regIntcap (bank : Nat) : U8 := if bank = 0 then INTCAP0 else INTCAP1
def regGpio (bank : Nat) : U8 := if bank = 0 then GP0 else GP1
def regIodir (bank : Nat) : U8 := if bank = 0 then IODIR0 else IODIR1

/-- `value |= 1 << bit` or `value &= ~(1 << bit)`. -/
def assignBit (value : S32) (bit : Nat) (set : Bool) : S32 :=
  if set then value ||| (1#32 <<< bit) else value &&& ~~~(1#32 <<< bit)

def mcp23016GetValue (offset : Nat) : SmbusProg S32 := do
  let bank := offset / 8
  let bit := offset % 8
  let value ← i2cSmbusReadByteData (regIntcap bank)
  return if 0 ≤ value.toInt then (value.sshiftRight bit) &&& 0x1 else 0

/-- What `mcp23016_set` does with the byte it has read. -/
def setRead (bank bit : Nat) (val : Int) (value : S32) : SmbusProg S32 :=
  if 0 ≤ value.toInt then
    i2cSmbusWriteByteData (regGpio bank) (assignBit value bit (val ≠ 0))
  else return value

def mcp23016Set (offset : Nat) (val : Int) : SmbusProg S32 := do
  let bank := offset / 8
  let bit := offset % 8
  let value ← i2cSmbusReadByteData (regGpio bank)
  setRead bank bit val value

/-- The result of the set is dropped. -/
def mcp23016SetValue (offset : Nat) (val : Int) : SmbusProg Unit := do
  let _ ← mcp23016Set offset val
  return ()

/-- What `mcp23016_direction` does once IODIR has been written. -/
def directionWritten (offset direction : Nat) (val : Int) (iodirval : S32) : SmbusProg S32 :=
  if direction ≠ 0 then return iodirval else mcp23016Set offset val

/-- The answers of the two IODIR transfers are not checked. -/
def mcp23016Direction (offset direction : Nat) (val : Int) : SmbusProg S32 := do
  let bank := offset / 8
  let bit := offset % 8
  let iodirval ← i2cSmbusReadByteData (regIodir bank)
  let iodirval := assignBit iodirval bit (direction ≠ 0)
  let _ ← i2cSmbusWriteByteData (regIodir bank) iodirval
  directionWritten offset direction val iodirval

def mcp23016DirectionOutput (offset : Nat) (val : Int) : SmbusProg S32 :=
  mcp23016Direction offset OUTPUT val

def mcp23016DirectionInput (offset : Nat) : SmbusProg S32 :=
  mcp23016Direction offset INPUT 0

/-! ## What the transfers of the driver do to the chip -/

section

variable (c : Chip) (pin : Pin)

theorem registerBank_eq (pin : Pin) :
    registerBank (regGpio (pin.val / 8)) = pin.bank ∧
      registerBank (regIodir (pin.val / 8)) = pin.bank ∧
      registerBank (regIntcap (pin.val / 8)) = pin.bank := by
  revert pin
  decide

theorem register_eq (bank : Nat) :
    (regGpio bank).toNat / 2 = 0 ∧ (regIodir bank).toNat / 2 = 3 ∧
      (regIntcap bank).toNat / 2 = 4 := by
  unfold regGpio regIodir regIntcap
  by_cases h : bank = 0
  · simp only [h, if_true]
    decide
  · simp only [h, if_false]
    decide

theorem serve_readGpio :
    c.serve (.readByteData (regGpio (pin.val / 8)))
      = (c, (c.bank pin.bank).level.setWidth 32) := by
  simp [Chip.serve, registerBank_eq, register_eq, Bank.read]

theorem serve_readIodir :
    c.serve (.readByteData (regIodir (pin.val / 8)))
      = (c, (c.bank pin.bank).iodir.setWidth 32) := by
  simp [Chip.serve, registerBank_eq, register_eq, Bank.read]

theorem serve_readIntcap :
    c.serve (.readByteData (regIntcap (pin.val / 8)))
      = (c, (c.bank pin.bank).intcap.setWidth 32) := by
  simp [Chip.serve, registerBank_eq, register_eq, Bank.read]

/-- `c` with another latch byte in one bank. -/
def Chip.withOlat (c : Chip) (b : Fin 2) (olat : U8) : Chip :=
  ⟨Function.update c.bank b { c.bank b with olat := olat }⟩

/-- `c` with another direction byte in one bank. -/
def Chip.withIodir (c : Chip) (b : Fin 2) (iodir : U8) : Chip :=
  ⟨Function.update c.bank b { c.bank b with iodir := iodir }⟩

theorem serve_writeGpio (value : U8) :
    c.serve (.writeByteData (regGpio (pin.val / 8)) value) = (c.withOlat pin.bank value, 0) := by
  simp [Chip.serve, registerBank_eq, register_eq, Bank.write, Chip.withOlat]

theorem serve_writeIodir (value : U8) :
    c.serve (.writeByteData (regIodir (pin.val / 8)) value)
      = (c.withIodir pin.bank value, 0) := by
  simp [Chip.serve, registerBank_eq, register_eq, Bank.write, Chip.withIodir]

end

section

variable (c : Chip) (b : Fin 2) (v : U8) (pin : Pin)

@[simp] theorem withOlat_isInput : (c.withOlat b v).isInput pin = c.isInput pin := by
  unfold Chip.isInput Chip.withOlat
  by_cases h : pin.bank = b <;> simp [h]

theorem withOlat_latch :
    (c.withOlat b v).latch pin = if pin.bank = b then v.getLsbD pin.bit else c.latch pin := by
  unfold Chip.latch Chip.withOlat
  by_cases h : pin.bank = b <;> simp [h]

@[simp] theorem withIodir_latch : (c.withIodir b v).latch pin = c.latch pin := by
  unfold Chip.latch Chip.withIodir
  by_cases h : pin.bank = b <;> simp [h]

theorem withIodir_isInput :
    (c.withIodir b v).isInput pin = if pin.bank = b then v.getLsbD pin.bit else c.isInput pin := by
  unfold Chip.isInput Chip.withIodir
  by_cases h : pin.bank = b <;> simp [h]

end

/-! ## The bytes in between -/

theorem getLsbD_assignBit (value : S32) {i bit : Nat} (set : Bool) (hi : i < 8) :
    ((assignBit value bit set).setWidth 8).getLsbD i
      = if i = bit then set else value.getLsbD i := by
  have hi32 : i < 32 := by omega
  have hone : (1#32 <<< bit).getLsbD i = decide (i = bit) := by
    rw [← BitVec.twoPow_eq, BitVec.getLsbD_twoPow]
    by_cases h : i = bit
    · simp [h, show bit < 32 by omega]
    · simp [h, Ne.symm h]
  rw [BitVec.getLsbD_setWidth, decide_eq_true hi, Bool.true_and]
  -- set with the mask, or cleared with its complement
  cases set with
  | true =>
      rw [assignBit, if_pos rfl, BitVec.getLsbD_or, hone]
      by_cases h : i = bit <;> simp [h]
  | false =>
      rw [assignBit, if_neg Bool.false_ne_true, BitVec.getLsbD_and, BitVec.getLsbD_not, hone,
        decide_eq_true hi32]
      by_cases h : i = bit <;> simp [h]

/-- A byte that a read answers with is not negative. -/
theorem toInt_answer (v : U8) : 0 ≤ (v.setWidth 32 : S32).toInt := by
  revert v
  decide

end LinuxDrivers.Gpio
