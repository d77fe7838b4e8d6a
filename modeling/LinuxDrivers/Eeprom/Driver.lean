import LinuxDrivers.Eeprom.Chip
import LinuxDrivers.Kernel.Memory

set_option autoImplicit false

/-! # The ee24lc512 driver

The file operations of `ee24lc512.c` on one device. What the driver does not decide is an
argument: whether `kzalloc` finds memory, whether the lock is interrupted by a fatal signal,
which I2C transfers are acknowledged, how much of the user's buffer can be accessed.

The counters of `eep_write` are plain integers. In `eepWriteBody` they never pass the size of
`dev->data` by more than a page, because `memcpy` faults first, so no `int` overflows. -/

namespace LinuxDrivers.Eeprom

open Lib

def EEP_PAGE_SIZE : Nat := 128
def EEP_SIZE : Nat := 1024 * 64

/-- `struct eep_dev`, as far as the file operations use it. -/
structure EepDev where
  data : Ptr
  current_pointer : Int

/-- The device, the memory it allocates from and the chip. -/
structure Kern where
  dev : EepDev
  heap : Heap (Block U8)
  chip : Chip

/-! ## Open, release and seek -/

/-- `container_of` never yields NULL and `i_cdev` is the device's own, so the two `-ENODEV`
exits are never taken. -/
def eepOpen (avail : Bool) (k : Kern) : Int × Kern :=
  let dev := { k.dev with current_pointer := 0 }
  let (data, heap) := kzalloc avail EEP_SIZE k.heap
  let dev := { dev with data := data }
  if dev.data = none then (-ENOMEM, { k with dev := dev, heap := heap })
  else (0, { k with dev := dev, heap := heap })

def eepRelease (k : Kern) : Except Fault (Int × Kern) :=
  if k.dev.data = none then .ok (0, { k with dev := { k.dev with current_pointer := 0 } })
  else
    match kfree k.heap k.dev.data with
    | .error f => .error f
    | .ok heap => .ok (0, { k with dev := ⟨none, 0⟩, heap := heap })

/-- The position a seek asks for; `none` for `SEEK_END` and for anything unknown. -/
def seekTarget (f_pos off : Int) (whence : Int) : Option Int :=
  if whence = 0 then some off
  else if whence = 1 then some (f_pos + off)
  else none

/-- `if (newpos < 0 || EEP_SIZE)`: the second operand is the constant itself. The results are
the returned value, the file position and the device. -/
def eepLlseek (f_pos : Int) (k : Kern) (off whence : Int) : Int × Int × Kern :=
  match seekTarget f_pos off whence with
  | none => (-EINVAL, f_pos, k)
  | some newpos =>
      if newpos < 0 ∨ EEP_SIZE ≠ 0 then (-EINVAL, f_pos, k)
      else (newpos, newpos, { k with dev := { k.dev with current_pointer := toInt newpos } })

/-! ## Read -/

/-- One call of `eep_read`: the signal, the I2C transfer and the user's buffer as the call
meets them, and its arguments. -/
structure ReadCall where
  killed : Bool
  ack : Bool
  room : Nat
  count : Nat
  f_pos : Int

structure ReadOut where
  ret : Int
  user : List U8
  kern : Kern

/-- The count after the two clamps. -/
def clampRead (a : Arch) (current_pointer : Int) (count : Nat) : Nat :=
  let count := if a.sizeT (current_pointer + count) > EEP_SIZE then
    a.sizeT (EEP_SIZE - current_pointer) else count
  if count > EEP_SIZE then EEP_SIZE else count

def eepRead (a : Arch) (k : Kern) (c : ReadCall) : Except Fault ReadOut :=
  if c.killed then .ok ⟨-EINTR, [], k⟩
  else if c.f_pos ≥ EEP_SIZE then .ok ⟨0, [], k⟩
  else if k.dev.current_pointer ≥ EEP_SIZE then .ok ⟨0, [], k⟩
  else
    let count := clampRead a k.dev.current_pointer c.count
    -- `msg[1].len` has 16 bits
    let msg := [.write (regBytes k.dev.current_pointer), .read (count % 2 ^ 16)]
    -- a transfer that fails is only logged
    let (chip, bytes) := if c.ack then k.chip.transfer msg else (k.chip, [])
    match store k.heap k.dev.data 0 bytes with
    | .error f => .error f
    | .ok heap =>
        match copyToUser heap k.dev.data c.room count with
        | .error f => .error f
        | .ok (left, user) =>
            if left ≠ 0 then .ok ⟨- EIO, user, { k with heap := heap, chip := chip }⟩
            else
              let current_pointer := toInt (a.sizeT (k.dev.current_pointer + count))
              .ok ⟨count, user, ⟨{ k.dev with current_pointer := current_pointer }, heap, chip⟩⟩

/-! ## Write -/

/-- A data message handed to `transacWrite`: the arguments, the cursor and the number of bytes
copied from the user at that moment, the bytes on the bus and whether the chip took them. -/
structure Sent where
  reg_addr : Int
  current_pointer : Int
  offset : Int
  len : Nat
  copied : Nat
  wire : List U8
  ack : Bool

/-- The cells the message goes to. -/
def Sent.cells (m : Sent) : List Nat := wireCells m.wire

/-- The variables of `eep_write` that change while it sends, the chip, and the messages sent. -/
structure Wr where
  current_pointer : Int
  reg_addr : Int
  offset : Int
  retval : Int
  chip : Chip
  sent : List Sent

/-- The variables that stay: `dev->data` with the user's bytes, their number, and which
messages the chip acknowledges. -/
structure WrCtx where
  heap : Heap (Block U8)
  data : Ptr
  count : Nat
  ack : Nat → Bool

/-- The ways out of the sending part before its end. -/
inductive Stop where
  | endWrite (w : Wr)
  | fault (f : Fault) (w : Wr)

/-- The returned value, the chip, and the bytes put on the bus. -/
def transacWrite (ctx : WrCtx) (chip : Chip) (ack : Bool) (reg_addr offset : Int) (len : Nat) :
    Except Fault (Int × Chip × List U8) :=
  match load ctx.heap ctx.data offset.toNat len with
  | .error f => .error f
  | .ok bytes =>
      let tmp := regBytes reg_addr ++ bytes
      -- `msg[0].len` has 16 bits
      let wire := tmp.take ((len + 2) % 2 ^ 16)
      if ack then .ok (toInt len, (chip.transfer [.write wire]).1, wire)
      else .ok (-1, chip, wire)

/-- The steps that the head, the page loop and the tail have in common: send, leave at an
error, count. -/
def writeChunk (ctx : WrCtx) (len : Nat) (w : Wr) : Except Stop Wr :=
  let ack := ctx.ack w.sent.length
  match transacWrite ctx w.chip ack w.reg_addr w.offset len with
  | .error f => .error (.fault f w)
  | .ok (retval, chip, wire) =>
      let m : Sent := ⟨w.reg_addr, w.current_pointer, w.offset, len, ctx.count, wire, ack⟩
      let w := { w with retval := retval, chip := chip, sent := w.sent ++ [m] }
      if w.retval < 0 then .error (.endWrite w)
      else
        .ok { w with
          offset := w.offset + len
          current_pointer := w.current_pointer + len
          reg_addr := w.reg_addr + len
          retval := w.offset + len }

/-- `for (i=0; i < nb_page; i++)`. -/
def writePages (ctx : WrCtx) : Nat → Wr → Except Stop Wr
  | 0, w => .ok w
  | n + 1, w => do
      let w ← writeChunk ctx EEP_PAGE_SIZE w
      writePages ctx n w

def remainInPage (current_pointer : Int) : Int :=
  ((EEP_PAGE_SIZE : Int) - current_pointer.tmod EEP_PAGE_SIZE).tmod EEP_PAGE_SIZE

def nbPage (a : Arch) (count : Nat) (remain_in_page : Int) : Int :=
  toInt (a.sizeT (count - remain_in_page) / EEP_PAGE_SIZE : Nat)

def lastRemain (a : Arch) (count : Nat) (remain_in_page : Int) : Int :=
  toInt (a.sizeT (count - remain_in_page) % EEP_PAGE_SIZE : Nat)

/-- The head and the tail: `if (len > 0)` send a message of that length. -/
def writePart (ctx : WrCtx) (len : Int) (w : Wr) : Except Stop Wr :=
  if len > 0 then writeChunk ctx len.toNat w else .ok w

/-- The page loop and the tail, with the early exit before them. -/
def writeRest (ctx : WrCtx) (nb_page last_remain : Int) (w : Wr) : Except Stop Wr :=
  if nb_page < 1 ∧ last_remain < 1 then .error (.endWrite w)
  else do
    let w ← writePages ctx nb_page.toNat w
    writePart ctx last_remain w

/-- `eep_write` after the user's bytes have been copied. -/
def eepWriteBody (a : Arch) (ctx : WrCtx) (w : Wr) : Except Stop Wr := do
  let remain_in_page := remainInPage w.current_pointer
  let nb_page := nbPage a ctx.count remain_in_page
  let last_remain := lastRemain a ctx.count remain_in_page
  let w ← writePart ctx remain_in_page w
  writeRest ctx nb_page last_remain w

/-- One call of `eep_write`: the signal, the acknowledgement of each message and the readable
bytes of the user's buffer as the call meets them, and its arguments. -/
structure WriteCall where
  killed : Bool
  ack : Nat → Bool
  buf : List U8
  count : Nat
  f_pos : Int

structure WriteOut where
  ret : Except Fault Int
  kern : Kern
  sent : List Sent

/-- The count after the two clamps. -/
def clampWrite (a : Arch) (current_pointer : Int) (count : Nat) : Nat :=
  let count := if a.sizeT (current_pointer + count) ≥ EEP_SIZE then
    a.sizeT (EEP_SIZE - current_pointer) else count
  if count > EEP_SIZE then EEP_SIZE else count

/-- The returned value and the variables at `end_write`, or where the kernel stops. -/
def atEnd : Except Stop Wr → Except Fault Int × Wr
  | .ok w => (.ok w.retval, w)
  | .error (.endWrite w) => (.ok w.retval, w)
  | .error (.fault f w) => (.error f, w)

def eepWrite (a : Arch) (k : Kern) (c : WriteCall) : WriteOut :=
  if c.killed then ⟨.ok (-EINTR), k, []⟩
  else if k.dev.current_pointer ≥ EEP_SIZE then ⟨.ok (-EINVAL), k, []⟩
  else if c.f_pos ≥ EEP_SIZE then ⟨.ok (-EINVAL), k, []⟩
  else
    let count := clampWrite a k.dev.current_pointer c.count
    match copyFromUser k.heap k.dev.data c.buf count with
    | .error f => ⟨.error f, k, []⟩
    | .ok (left, heap) =>
        if left ≠ 0 then ⟨.ok (-EFAULT), { k with heap := heap }, []⟩
        else
          let cp := k.dev.current_pointer
          let ctx : WrCtx := ⟨heap, k.dev.data, count, c.ack⟩
          let (ret, w) := atEnd (eepWriteBody a ctx ⟨cp, cp, 0, 0, k.chip, []⟩)
          ⟨ret, ⟨{ k.dev with current_pointer := w.current_pointer }, heap, w.chip⟩, w.sent⟩

end LinuxDrivers.Eeprom
