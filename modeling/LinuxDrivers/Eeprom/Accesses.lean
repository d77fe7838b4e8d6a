import LinuxDrivers.Eeprom.Cells
import LinuxDrivers.Lib.Serial

set_option autoImplicit false

/-! # The calls, access by access

`eepRead` and `eepWrite` are whole calls. Here they are programs of single accesses to the device,
the memory and the bus, with which the accesses of other calls may be mixed. Alone, the programs do
what the calls do (`eepRead_alone`, `eepWrite_alone`). -/

namespace LinuxDrivers.Eeprom

open Lib

/-! ## The accesses -/

/-- After a fault nothing happens any more. -/
structure Shared where
  kern : Kern
  fault : Option Fault

/-- The accesses. `i2cTransfer` has the messages, the buffer for the bytes that are read and whether
the chip acknowledges them; the copies have what the user's buffer allows. -/
inductive DevOp where
  | loadData
  | loadPointer
  | storePointer (v : Int)
  | memcpy (data : Ptr) (offset len : Nat)
  | i2cTransfer (msg : List I2cMsg) (buf : Ptr) (ack : Bool)
  | copyFromUser (data : Ptr) (buf : List U8) (n : Nat)
  | copyToUser (data : Ptr) (room n : Nat)

structure DevAns where
  num : Int
  data : Ptr
  bytes : List U8

def DevAns.none : DevAns := ⟨0, Option.none, []⟩

def Shared.setPointer (s : Shared) (v : Int) : Shared :=
  { s with kern := { s.kern with dev := { s.kern.dev with current_pointer := v } } }

def Shared.setChip (s : Shared) (chip : Chip) : Shared :=
  { s with kern := { s.kern with chip := chip } }

def Shared.serve (s : Shared) (op : DevOp) : Shared × DevAns :=
  if s.fault.isSome then (s, .none)
  else
    match op with
    | .loadData => (s, ⟨0, s.kern.dev.data, []⟩)
    | .loadPointer => (s, ⟨s.kern.dev.current_pointer, Option.none, []⟩)
    | .storePointer v => (s.setPointer v, .none)
    | .memcpy data offset len =>
        match load s.kern.heap data offset len with
        | .error f => ({ s with fault := some f }, .none)
        | .ok bytes => (s, ⟨0, Option.none, bytes⟩)
    | .i2cTransfer msg buf ack =>
        let (chip, bytes) := if ack then s.kern.chip.transfer msg else (s.kern.chip, [])
        match store s.kern.heap buf 0 bytes with
        | .error f => ({ s with fault := some f }, .none)
        | .ok heap =>
            ({ s with kern := { s.kern with heap := heap, chip := chip } },
              ⟨if ack then msg.length else -1, Option.none, []⟩)
    | .copyFromUser data buf n =>
        match LinuxDrivers.copyFromUser s.kern.heap data buf n with
        | .error f => ({ s with fault := some f }, .none)
        | .ok (left, heap) =>
            ({ s with kern := { s.kern with heap := heap } }, ⟨left, Option.none, []⟩)
    | .copyToUser data room n =>
        match LinuxDrivers.copyToUser s.kern.heap data room n with
        | .error f => ({ s with fault := some f }, .none)
        | .ok (left, user) => (s, ⟨left, Option.none, user⟩)

/-! ## The programs -/

abbrev DevProg := Prog DevOp DevAns

def transacWriteProg (ack : Bool) (reg_addr offset : Int) (len : Nat) : DevProg Int := do
  let data ← Prog.send .loadData
  let bytes ← Prog.send (.memcpy data.data offset.toNat len)
  let tmp := regBytes reg_addr ++ bytes.bytes
  let ret ← Prog.send (.i2cTransfer [.write (tmp.take ((len + 2) % 2 ^ 16))] none ack)
  if ret.num < 0 then return -1 else return toInt len

/-- The local variables of `eep_write`, and the number of messages so far. -/
structure Locals where
  reg_addr : Int
  offset : Int
  retval : Int
  count : Nat

def Locals.next (w : Locals) (len : Nat) : Locals :=
  ⟨w.reg_addr + len, w.offset + len, w.offset + len, w.count + 1⟩

/-- The messages of the given lengths, one after the other. -/
def sendMessages (ack : Nat → Bool) : List Nat → Locals → DevProg Int
  | [], w => return w.retval
  | len :: ls, w => do
      let retval ← transacWriteProg (ack w.count) w.reg_addr w.offset len
      if retval < 0 then return retval
      else
        let current_pointer ← Prog.send .loadPointer
        let _ ← Prog.send (.storePointer (current_pointer.num + len))
        sendMessages ack ls (w.next len)

/-- The clamps of a count; `past` says when it goes past the end. -/
def clampProg (a : Arch) (past : Nat → Bool) (count : Nat) : DevProg Nat := do
  let current_pointer ← Prog.send .loadPointer
  if past (a.sizeT (current_pointer.num + count)) then
    let current_pointer ← Prog.send .loadPointer
    let count := a.sizeT (EEP_SIZE - current_pointer.num)
    return if count > EEP_SIZE then EEP_SIZE else count
  else return if count > EEP_SIZE then EEP_SIZE else count

/-- `eep_write` with the lock. -/
def eepWriteProg (a : Arch) (c : WriteCall) : DevProg Int := do
  let current_pointer ← Prog.send .loadPointer
  if current_pointer.num ≥ EEP_SIZE then return -EINVAL
  else if c.f_pos ≥ EEP_SIZE then return -EINVAL
  else
    let count ← clampProg a (fun n => decide (n ≥ EEP_SIZE)) c.count
    let data ← Prog.send .loadData
    let left ← Prog.send (.copyFromUser data.data c.buf count)
    if left.num ≠ 0 then return -EFAULT
    else
      let reg_addr ← Prog.send .loadPointer
      let current_pointer ← Prog.send .loadPointer
      sendMessages c.ack (plan a current_pointer.num count) ⟨reg_addr.num, 0, 0, 0⟩

/-- `eep_read` with the lock: the value returned, and the bytes for the user. -/
def eepReadProg (a : Arch) (c : ReadCall) : DevProg (Int × List U8) := do
  if c.f_pos ≥ EEP_SIZE then return (0, [])
  else
    let current_pointer ← Prog.send .loadPointer
    if current_pointer.num ≥ EEP_SIZE then return (0, [])
    else
      let count ← clampProg a (fun n => decide (n > EEP_SIZE)) c.count
      let reg_addr ← Prog.send .loadPointer
      let data ← Prog.send .loadData
      let msg := [.write (regBytes reg_addr.num), .read (count % 2 ^ 16)]
      let _ ← Prog.send (.i2cTransfer msg data.data c.ack)
      let data ← Prog.send .loadData
      let copied ← Prog.send (.copyToUser data.data c.room count)
      if copied.num ≠ 0 then return (- EIO, copied.bytes)
      else
        let current_pointer ← Prog.send .loadPointer
        let _ ← Prog.send (.storePointer (toInt (a.sizeT (current_pointer.num + count))))
        return (count, copied.bytes)

/-! ## Alone -/

section

variable {s : Shared} {k : Kern} {ctx : WrCtx} {w w' : Wr} {ret : Int}

/-- The local variables, as `eepWriteBody` has them. -/
def Wr.locals (w : Wr) : Locals := ⟨w.reg_addr, w.offset, w.retval, w.sent.length⟩

/-- The device with the cursor and the chip of `w`. -/
def Kern.withWr (k : Kern) (w : Wr) : Kern :=
  { k with dev := { k.dev with current_pointer := w.current_pointer }, chip := w.chip }

theorem serve_of_fault (hf : s.fault.isSome = true) (op : DevOp) : s.serve op = (s, .none) :=
  if_pos hf

/-- A message of the driver that only writes. -/
theorem serve_write (hf : s.fault = none) (buf : List U8) (ack : Bool) :
    s.serve (.i2cTransfer [.write buf] none ack)
      = (if ack then s.setChip (s.kern.chip.transfer [.write buf]).1 else s,
          ⟨if ack then 1 else -1, none, []⟩) := by
  have hbytes : (s.kern.chip.transfer [.write buf]).2 = [] := by
    rcases buf with _ | ⟨hi, _ | ⟨lo, ds⟩⟩
    · rfl
    · rfl
    · rfl
  rcases s with ⟨⟨dev, heap, chip⟩, fault⟩
  obtain rfl : fault = none := hf
  cases ack with
  | false => simp [Shared.serve, store]
  | true => simp [Shared.serve, store, hbytes, Shared.setChip]

theorem transacWrite_alone {ack : Bool} {reg_addr offset : Int} {len : Nat} {bytes : List U8}
    (hload : load k.heap k.dev.data offset.toNat len = .ok bytes) :
    (transacWriteProg ack reg_addr offset len).Meets Shared.serve Eq
      (fun r s => r = (if ack then toInt len else -1) ∧ s = ⟨{ k with chip :=
        if ack then (k.chip.transfer [.write ((regBytes reg_addr ++ bytes).take
          ((len + 2) % 2 ^ 16))]).1 else k.chip }, none⟩) ⟨k, none⟩ := by
  simp only [transacWriteProg, Prog.send_bind]
  rintro _ rfl _ rfl _ rfl
  have hdata : (⟨k, none⟩ : Shared).serve .loadData = (⟨k, none⟩, ⟨0, k.dev.data, []⟩) := rfl
  have hbytes : (⟨k, none⟩ : Shared).serve (.memcpy k.dev.data offset.toNat len)
      = (⟨k, none⟩, ⟨0, none, bytes⟩) := by
    simp [Shared.serve, hload]
  have hsend : ∀ buf, (⟨k, none⟩ : Shared).serve (.i2cTransfer [.write buf] none ack) = _ :=
    fun buf => serve_write rfl buf ack
  simp only [hdata, hbytes, hsend]
  cases ack with
  | true => simp [Shared.setChip, Prog.Meets]
  | false => simp [Prog.Meets]

/-- One message of `eepWriteBody`, whose bytes are there. -/
theorem writeChunk_of_load {len : Nat} {bytes : List U8}
    (hload : load ctx.heap ctx.data w.offset.toNat len = .ok bytes) :
    ∃ retval chip m, retval = (if ctx.ack w.sent.length then toInt len else -1) ∧
      chip = (if ctx.ack w.sent.length then (w.chip.transfer [.write
        ((regBytes w.reg_addr ++ bytes).take ((len + 2) % 2 ^ 16))]).1 else w.chip) ∧
      writeChunk ctx len w = if retval < 0 then
          .error (.endWrite ⟨w.current_pointer, w.reg_addr, w.offset, retval, chip, w.sent ++ [m]⟩)
        else .ok ⟨w.current_pointer + len, w.reg_addr + len, w.offset + len, w.offset + len, chip,
          w.sent ++ [m]⟩ := by
  refine ⟨_, _, ⟨w.reg_addr, w.current_pointer, w.offset, len, ctx.count,
    (regBytes w.reg_addr ++ bytes).take ((len + 2) % 2 ^ 16), ctx.ack w.sent.length⟩, rfl, rfl, ?_⟩
  simp only [writeChunk, transacWrite, hload]
  cases hack : ctx.ack w.sent.length with
  | true => simp only [if_true]
  | false => simp only [Bool.false_eq_true, if_false]

/-- **Alone, the program does what `eepWriteBody` does.** -/
theorem sendMessages_alone (hheap : ctx.heap = k.heap) (hdata : ctx.data = k.dev.data)
    (ls : List Nat) (w : Wr) (hend : atEnd (sendAll ctx ls w) = (.ok ret, w')) :
    (sendMessages ctx.ack ls w.locals).Meets Shared.serve Eq
      (fun r s => r = ret ∧ s = ⟨k.withWr w', none⟩) ⟨k.withWr w, none⟩ := by
  induction ls generalizing w with
  | nil =>
      rcases Prod.mk.inj hend with ⟨hret, rfl⟩
      exact ⟨Except.ok.inj hret, rfl⟩
  | cons len ls ih =>
      rw [sendAll] at hend
      cases hload : load ctx.heap ctx.data w.offset.toNat len with
      | error f =>
          have hchunk : writeChunk ctx len w = .error (.fault f w) := by
            simp only [writeChunk, transacWrite, hload]
          rw [hchunk] at hend
          cases hend
      | ok bytes =>
          rcases writeChunk_of_load hload with ⟨retval, chip, m, hretval, hchip, hchunk⟩
          rw [hheap, hdata] at hload
          apply Prog.Meets.bind
          refine (transacWrite_alone (k := k.withWr w) hload).mono ?_
          rintro r s ⟨hr, rfl⟩
          obtain rfl : r = retval := hr.trans hretval.symm
          rw [hchunk] at hend
          by_cases hneg : r < 0
          · -- the call ends with the refused message
            rw [if_pos hneg] at hend ⊢
            rcases Prod.mk.inj hend with ⟨hret, rfl⟩
            refine ⟨Except.ok.inj hret, ?_⟩
            rw [hchip]
            rfl
          · rw [if_neg hneg] at hend ⊢
            have hnext := ih _ hend
            have hlocals : Wr.locals ⟨w.current_pointer + len, w.reg_addr + len, w.offset + len,
                w.offset + len, chip, w.sent ++ [m]⟩ = w.locals.next len := by
              simp [Wr.locals, Locals.next]
            rw [hlocals, hchip] at hnext
            rintro _ rfl _ rfl
            exact hnext

/-! ## Whole calls alone -/

theorem serve_loadPointer : (⟨k, none⟩ : Shared).serve .loadPointer
    = (⟨k, none⟩, ⟨k.dev.current_pointer, none, []⟩) := rfl

theorem serve_loadData : (⟨k, none⟩ : Shared).serve .loadData
    = (⟨k, none⟩, ⟨0, k.dev.data, []⟩) := rfl

theorem clamp_alone (a : Arch) (past : Nat → Bool) (count : Nat) :
    (clampProg a past count).alone Shared.serve ⟨k, none⟩
      = ((fun n => if n > EEP_SIZE then EEP_SIZE else n)
          (if past (a.sizeT (k.dev.current_pointer + count)) then
            a.sizeT (EEP_SIZE - k.dev.current_pointer) else count), ⟨k, none⟩) := by
  unfold clampProg
  rw [Prog.alone_send serve_loadPointer]
  by_cases hpast : past (a.sizeT (k.dev.current_pointer + count)) = true
  · rw [if_pos hpast, if_pos hpast, Prog.alone_send serve_loadPointer]
    dsimp only
    split_ifs <;> rfl
  · rw [if_neg hpast, if_neg hpast]
    dsimp only
    split_ifs <;> rfl

/-- **Alone, the program of a write is the whole call.** -/
theorem eepWrite_alone {a : Arch} {c : WriteCall} (hkill : c.killed = false)
    (h : (eepWrite a k c).ret = .ok ret) :
    (eepWriteProg a c).alone Shared.serve ⟨k, none⟩ = (ret, ⟨(eepWrite a k c).kern, none⟩) := by
  unfold eepWriteProg
  rw [Prog.alone_send serve_loadPointer]
  dsimp only
  by_cases heof : k.dev.current_pointer ≥ EEP_SIZE
  · simp only [eepWrite, hkill, Bool.false_eq_true, if_false, if_pos heof] at h ⊢
    rw [← Except.ok.inj h]
    rfl
  by_cases hpos : c.f_pos ≥ EEP_SIZE
  · simp only [eepWrite, hkill, Bool.false_eq_true, if_false, if_neg heof, if_pos hpos] at h ⊢
    rw [← Except.ok.inj h]
    rfl
  rw [if_neg heof, if_neg hpos, Prog.alone_bind, clamp_alone]
  have hclamp : clampWrite a k.dev.current_pointer c.count
      = (fun n => if n > EEP_SIZE then EEP_SIZE else n)
          (if decide (a.sizeT (k.dev.current_pointer + c.count) ≥ EEP_SIZE) then
            a.sizeT (EEP_SIZE - k.dev.current_pointer) else c.count) := by
    simp only [clampWrite, decide_eq_true_eq]
  rw [← hclamp, Prog.alone_send serve_loadData]
  generalize hn : clampWrite a k.dev.current_pointer c.count = n
  simp only [eepWrite, hkill, Bool.false_eq_true, if_false, if_neg heof, if_neg hpos, hn] at h ⊢
  cases hcopy : copyFromUser k.heap k.dev.data c.buf n with
  | error f =>
      rw [hcopy] at h
      cases h
  | ok r =>
      rcases r with ⟨left, heap⟩
      have hserve : (⟨k, none⟩ : Shared).serve (.copyFromUser k.dev.data c.buf n)
          = (⟨{ k with heap := heap }, none⟩, ⟨left, none, []⟩) := by
        simp [Shared.serve, hcopy]
      simp only [hcopy] at h ⊢
      rw [Prog.alone_send hserve]
      dsimp only
      by_cases hleft : left ≠ 0
      · rw [if_pos hleft] at h ⊢
        rw [if_pos (by exact_mod_cast hleft), ← Except.ok.inj h]
        rfl
      · rw [if_neg hleft] at h ⊢
        rw [if_neg (by exact_mod_cast hleft), Prog.alone_send serve_loadPointer,
          Prog.alone_send serve_loadPointer]
        dsimp only at h ⊢
        rw [atEnd_eepWriteBody] at h ⊢
        rcases hend : atEnd (sendAll ⟨heap, k.dev.data, n, c.ack⟩
          (plan a k.dev.current_pointer n)
          ⟨k.dev.current_pointer, k.dev.current_pointer, 0, 0, k.chip, []⟩) with ⟨ret', w⟩
        simp only [hend] at h ⊢
        subst h
        have halone := (sendMessages_alone (k := { k with heap := heap }) rfl rfl _ _ hend).alone_eq
        exact Prod.ext halone.1 halone.2

/-- **Alone, the program of a read is the whole call.** -/
theorem eepRead_alone {a : Arch} {c : ReadCall} {out : ReadOut} (hkill : c.killed = false)
    (h : eepRead a k c = .ok out) :
    (eepReadProg a c).alone Shared.serve ⟨k, none⟩ = ((out.ret, out.user), ⟨out.kern, none⟩) := by
  unfold eepReadProg
  by_cases hpos : c.f_pos ≥ EEP_SIZE
  · simp only [eepRead, hkill, Bool.false_eq_true, if_false, if_pos hpos] at h
    rw [if_pos hpos, ← Except.ok.inj h]
    rfl
  rw [if_neg hpos, Prog.alone_send serve_loadPointer]
  dsimp only
  by_cases heof : k.dev.current_pointer ≥ EEP_SIZE
  · simp only [eepRead, hkill, Bool.false_eq_true, if_false, if_neg hpos, if_pos heof] at h
    rw [if_pos heof, ← Except.ok.inj h]
    rfl
  have hclamp : clampRead a k.dev.current_pointer c.count
      = (fun n => if n > EEP_SIZE then EEP_SIZE else n)
          (if decide (a.sizeT (k.dev.current_pointer + c.count) > EEP_SIZE) then
            a.sizeT (EEP_SIZE - k.dev.current_pointer) else c.count) := by
    simp only [clampRead, decide_eq_true_eq]
  rw [if_neg heof, Prog.alone_bind, clamp_alone, ← hclamp, Prog.alone_send serve_loadPointer,
    Prog.alone_send serve_loadData]
  dsimp only
  generalize hn : clampRead a k.dev.current_pointer c.count = n
  simp only [eepRead, hkill, Bool.false_eq_true, if_false, if_neg heof, if_neg hpos, hn] at h
  generalize hbus : (if c.ack then k.chip.transfer
    [.write (regBytes k.dev.current_pointer), .read (n % 2 ^ 16)] else (k.chip, [])) = bus at h
  rcases bus with ⟨chip, bytes⟩
  dsimp only at h
  cases hstore : store k.heap k.dev.data 0 bytes with
  | error f =>
      rw [hstore] at h
      cases h
  | ok heap =>
      have htransfer : (⟨k, none⟩ : Shared).serve (.i2cTransfer
          [.write (regBytes k.dev.current_pointer), .read (n % 2 ^ 16)] k.dev.data c.ack)
          = (⟨{ k with heap := heap, chip := chip }, none⟩,
            ⟨if c.ack then 2 else -1, none, []⟩) := by
        simp only [Shared.serve, hbus, hstore]
        rfl
      rw [Prog.alone_send htransfer, Prog.alone_send serve_loadData]
      dsimp only
      simp only [hstore] at h
      cases hcopy : copyToUser heap k.dev.data c.room n with
      | error f =>
          rw [hcopy] at h
          cases h
      | ok r =>
          rcases r with ⟨left, user⟩
          have hcopied : (⟨{ k with heap := heap, chip := chip }, none⟩ : Shared).serve
              (.copyToUser k.dev.data c.room n)
              = (⟨{ k with heap := heap, chip := chip }, none⟩, ⟨left, none, user⟩) := by
            simp [Shared.serve, hcopy]
          simp only [hcopy] at h
          rw [Prog.alone_send hcopied]
          dsimp only
          by_cases hleft : left ≠ 0
          · rw [if_pos hleft] at h
            rw [if_pos (by exact_mod_cast hleft), ← Except.ok.inj h]
            rfl
          · rw [if_neg hleft] at h
            rw [if_neg (by exact_mod_cast hleft), Prog.alone_send serve_loadPointer,
              ← Except.ok.inj h]
            rfl

end

end LinuxDrivers.Eeprom
