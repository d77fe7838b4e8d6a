import LinuxDrivers.Kernel.CTypes
import LinuxDrivers.Lib.Slice

set_option autoImplicit false

/-! # The 24LC512 on the I2C bus

The chip holds 65536 bytes and takes a 16-bit address, most significant byte first. A write
message is two address bytes followed by data; inside the message the low seven bits of the
address count up and wrap, so the data never leaves the 128-byte page it starts in. A read
message runs over the whole chip from the current address.

`pageWrite_eq_splice` and `pageCells_eq_range'` say that a message which stays inside its page
does what one expects. -/

namespace LinuxDrivers.Eeprom

open Lib

structure Chip where
  cell : Nat → U8
  addr : Nat

/-- A chip that holds zeros. -/
def blankChip : Chip := ⟨fun _ => 0, 0⟩

/-- One message of `i2c_transfer`. -/
inductive I2cMsg where
  | write (buf : List U8)
  | read (len : Nat)

/-- The address two bytes stand for. -/
def address (hi lo : U8) : Nat := hi.toNat * 256 + lo.toNat

/-- The address after one data byte: it stays in the page. -/
def nextInPage (a : Nat) : Nat := a - a % 128 + (a + 1) % 128

/-- The cells after data bytes written from address `a` on. -/
def pageWrite (f : Nat → U8) : Nat → List U8 → Nat → U8
  | _, [] => f
  | a, d :: ds => pageWrite (Function.update f a d) (nextInPage a) ds

/-- The cells that `n` data bytes from address `a` on go to. -/
def pageCells : Nat → Nat → List Nat
  | _, 0 => []
  | a, n + 1 => a :: pageCells (nextInPage a) n

/-- The cells a write message goes to. -/
def wireCells : List U8 → List Nat
  | hi :: lo :: ds => pageCells (address hi lo) ds.length
  | _ => []

/-- The chip's reaction to one message, and the bytes it sends. -/
def Chip.message (c : Chip) : I2cMsg → Chip × List U8
  | .write (hi :: lo :: ds) =>
      (⟨pageWrite c.cell (address hi lo) ds, nextInPage^[ds.length] (address hi lo)⟩, [])
  | .write _ => (c, [])
  | .read n =>
      (⟨c.cell, (c.addr + n) % 65536⟩, slice (fun i => c.cell (i % 65536)) c.addr n)

/-- `i2c_transfer` of messages that are all acknowledged. -/
def Chip.transfer (c : Chip) : List I2cMsg → Chip × List U8
  | [] => (c, [])
  | m :: ms =>
      let (c', bs) := c.message m
      let (c'', bs') := c'.transfer ms
      (c'', bs ++ bs')

/-! ## Messages that stay inside their page -/

theorem nextInPage_eq {a : Nat} (h : a % 128 + 1 < 128) : nextInPage a = a + 1 := by
  unfold nextInPage
  omega

theorem pageWrite_eq_splice (f : Nat → U8) (a : Nat) (ds : List U8)
    (h : a % 128 + ds.length ≤ 128) : pageWrite f a ds = splice f a ds := by
  induction ds generalizing f a with
  | nil => simp [pageWrite]
  | cons d ds ih =>
      rw [List.length_cons] at h
      rw [pageWrite, splice_cons]
      cases ds with
      | nil => simp [pageWrite]
      | cons e es =>
          rw [List.length_cons] at h
          rw [nextInPage_eq (by omega)]
          exact ih _ _ (by rw [List.length_cons]; omega)

theorem pageCells_eq_range' (a n : Nat) (h : a % 128 + n ≤ 128) :
    pageCells a n = List.range' a n := by
  induction n generalizing a with
  | zero => rfl
  | succ n ih =>
      rw [pageCells, List.range'_succ]
      cases n with
      | zero => rfl
      | succ n =>
          rw [nextInPage_eq (by omega)]
          congr 1
          exact ih (a + 1) (by omega)

/-! ## The address bytes -/

/-- The two address bytes the driver computes from `_reg_addr`: `(u8)(_reg_addr >> 8)` and
`(u8)(_reg_addr & 0xFF)`. -/
def regBytes (reg_addr : Int) : List U8 :=
  [BitVec.ofInt 8 (reg_addr / 256), BitVec.ofInt 8 (reg_addr % 256)]

/-- The higher bits of the register are cut off. -/
theorem address_regBytes_mod (reg : Nat) :
    address (BitVec.ofInt 8 ((reg : Int) / 256)) (BitVec.ofInt 8 ((reg : Int) % 256)) =
      reg % 65536 := by
  unfold address
  rw [BitVec.toNat_ofInt, BitVec.toNat_ofInt]
  omega

theorem address_regBytes {reg : Nat} (h : reg < 65536) :
    address (BitVec.ofInt 8 ((reg : Int) / 256)) (BitVec.ofInt 8 ((reg : Int) % 256)) = reg := by
  rw [address_regBytes_mod, Nat.mod_eq_of_lt h]

/-- A write message in full: it overwrites the cells from its address on. -/
theorem transfer_write (c : Chip) {reg : Nat} (ds : List U8) (hreg : reg < 65536)
    (hpage : reg % 128 + ds.length ≤ 128) :
    (c.transfer [.write (regBytes reg ++ ds)]).1.cell = splice c.cell reg ds := by
  show pageWrite c.cell (address _ _) ds = _
  rw [address_regBytes hreg]
  exact pageWrite_eq_splice c.cell reg ds hpage

/-- The cells of a message that keeps to its page follow each other. -/
theorem wireCells_regBytes_mod {reg : Nat} (ds : List U8) (hpage : reg % 128 + ds.length ≤ 128) :
    wireCells (regBytes reg ++ ds) = List.range' (reg % 65536) ds.length := by
  show pageCells (address _ _) ds.length = _
  rw [address_regBytes_mod]
  exact pageCells_eq_range' _ _ (by omega)

theorem wireCells_regBytes {reg : Nat} (ds : List U8) (hreg : reg < 65536)
    (hpage : reg % 128 + ds.length ≤ 128) :
    wireCells (regBytes reg ++ ds) = List.range' reg ds.length := by
  rw [wireCells_regBytes_mod ds hpage, Nat.mod_eq_of_lt hreg]

end LinuxDrivers.Eeprom
