import LinuxDrivers.Kernel.CTypes

set_option autoImplicit false

/-! # The MCP23016 on the SMBus

Two banks of eight pins. Each bank has its registers at the addresses `2 * r + bank`: the port
GPx, the output latch OLATx, the direction IODIRx and the port captured at the last change
interrupt, INTCAPx. The polarity registers are never written and stay 0, so a pin reads as its
level.

An input pin has the level put on it from outside, an output pin that of its latch bit. -/

namespace LinuxDrivers.Gpio

def GP0 : U8 := 0x0
def GP1 : U8 := 0x1
def IODIR0 : U8 := 0x6
def IODIR1 : U8 := 0x7
def INTCAP0 : U8 := 0x8
def INTCAP1 : U8 := 0x9

def GPIO_NUM : Nat := 16

instance : NeZero GPIO_NUM := ⟨by decide⟩

/-- One of the 16 pins. -/
abbrev Pin := Fin GPIO_NUM

/-- The registers of one bank, and the levels put on its pins from outside. -/
structure Bank where
  olat : U8
  iodir : U8
  intcap : U8
  ext : U8

structure Chip where
  bank : Fin 2 → Bank

/-- The chip at power-up, with nothing connected to it. -/
def idleChip : Chip := ⟨fun _ => ⟨0, 0xFF, 0, 0⟩⟩

/-! ## Pins -/

def Pin.bank (pin : Pin) : Fin 2 := ⟨pin.val / 8, by have := pin.isLt; unfold GPIO_NUM at this; omega⟩

def Pin.bit (pin : Pin) : Nat := pin.val % 8

theorem Pin.bit_lt (pin : Pin) : pin.bit < 8 := Nat.mod_lt _ (by omega)

theorem Pin.ext {p q : Pin} (hbank : p.bank = q.bank) (hbit : p.bit = q.bit) : p = q := by
  have h : p.val / 8 = q.val / 8 := congrArg Fin.val hbank
  unfold Pin.bit at hbit
  apply Fin.ext
  omega

/-- The levels of the pins of a bank. -/
def Bank.level (b : Bank) : U8 := (b.ext &&& b.iodir) ||| (b.olat &&& ~~~b.iodir)

def Chip.isInput (c : Chip) (pin : Pin) : Bool := (c.bank pin.bank).iodir.getLsbD pin.bit

def Chip.latch (c : Chip) (pin : Pin) : Bool := (c.bank pin.bank).olat.getLsbD pin.bit

def Chip.level (c : Chip) (pin : Pin) : Bool := (c.bank pin.bank).level.getLsbD pin.bit

theorem Bank.getLsbD_level (b : Bank) {i : Nat} (hi : i < 8) :
    b.level.getLsbD i = if b.iodir.getLsbD i then b.ext.getLsbD i else b.olat.getLsbD i := by
  unfold Bank.level
  rw [BitVec.getLsbD_or, BitVec.getLsbD_and, BitVec.getLsbD_and, BitVec.getLsbD_not]
  cases b.iodir.getLsbD i <;> simp [hi]

/-- An output pin is driven at its latch bit. -/
theorem Chip.level_of_output {c : Chip} {pin : Pin} (h : c.isInput pin = false) :
    c.level pin = c.latch pin := by
  unfold Chip.isInput at h
  unfold Chip.level Chip.latch
  rw [Bank.getLsbD_level _ pin.bit_lt, h]
  rfl

/-! ## Transfers and changes from outside -/

/-- `i2c_smbus_read_byte_data` and `i2c_smbus_write_byte_data`. -/
inductive Smbus where
  | readByteData (command : U8)
  | writeByteData (command value : U8)
  deriving DecidableEq

/-- The value of a register; `r` is half its address. -/
def Bank.read (b : Bank) (r : Nat) : U8 :=
  if r = 0 then b.level
  else if r = 1 then b.olat
  else if r = 3 then b.iodir
  else if r = 4 then b.intcap
  else 0

/-- Writing GPx sets the latch, as writing OLATx does. -/
def Bank.write (b : Bank) (r : Nat) (value : U8) : Bank :=
  if r = 0 ∨ r = 1 then { b with olat := value }
  else if r = 3 then { b with iodir := value }
  else b

/-- The bank a register belongs to. -/
def registerBank (command : U8) : Fin 2 := ⟨command.toNat % 2, Nat.mod_lt _ (by omega)⟩

/-- A transfer that succeeds: a read answers with the byte, a write with 0. -/
def Chip.serve (c : Chip) : Smbus → Chip × S32
  | .readByteData command =>
      (c, ((c.bank (registerBank command)).read (command.toNat / 2)).setWidth 32)
  | .writeByteData command value =>
      (⟨Function.update c.bank (registerBank command)
        ((c.bank (registerBank command)).write (command.toNat / 2) value)⟩, 0)

/-- The levels put on the pins of a bank change. If the level of an input pin changes, the
interrupt captures the port. -/
structure InputChange where
  bank : Fin 2
  ext : U8

def Bank.interrupts (b : Bank) (ext : U8) : Bool := (b.ext ^^^ ext) &&& b.iodir != 0

def Bank.change (b : Bank) (ext : U8) : Bank :=
  let b' := { b with ext := ext }
  if b.interrupts ext then { b' with intcap := b'.level } else b'

def Chip.change (c : Chip) (e : InputChange) : Chip :=
  ⟨Function.update c.bank e.bank ((c.bank e.bank).change e.ext)⟩

end LinuxDrivers.Gpio
