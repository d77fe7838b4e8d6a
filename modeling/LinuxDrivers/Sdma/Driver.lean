import LinuxDrivers.Kernel.Memory
import LinuxDrivers.Lib.Prog

set_option autoImplicit false

/-! # The two i.MX6 SDMA drivers

`imx-sdma-single.c` and `imx-sdma-scatter-gather.c` do the same with one and with three pairs
of buffers: `sdma_write` fills the source buffers with a pattern and has the DMA engine copy
them to the destination buffers, `sdma_read` compares. What differs is a table (`Driver`).

`sdma_write` is a program whose requests are its accesses to the buffers and its calls of the
DMA engine, so that it can run alone and beside other writers. -/

namespace LinuxDrivers.Sdma

open Lib

/-- The two modules. -/
inductive Driver where
  | single
  | scatterGather
  deriving DecidableEq

/-- A source buffer with its destination buffer: the pattern, how many words are compared, and
the messages of `sdma_read`. -/
structure Pair where
  pattern : U32
  compared : Nat
  passed : String
  failed : String

def Driver.SDMA_BUF_SIZE : Driver → Nat
  | .single => 1024
  | .scatterGather => 1024 * 16

/-- The words of a buffer. -/
def Driver.words (d : Driver) : Nat := d.SDMA_BUF_SIZE / 4

/-- The second pair of the scatter/gather driver is only compared up to
`SDMA_BUF_SIZE / 2 / 4`. The numbers in the first failure message are left out. -/
def Driver.pairs : Driver → List Pair
  | .single =>
      [⟨0x56565656, 1024 / 4, "buffer copy passed!\n", "Single DMA buffer copy falled!"⟩]
  | .scatterGather =>
      [⟨0x12121212, 1024 * 16 / 4, "buffer 1 copy passed!\n", "buffer 1 copy falled!\n"⟩,
        ⟨0x34343434, 1024 * 16 / 2 / 4, "buffer 2 copy passed!\n", "buffer 2 copy falled!\n"⟩,
        ⟨0x56565656, 1024 * 16 / 4, "buffer 3 copy passed!\n", "buffer 3 copy falled!\n"⟩]

theorem Driver.compared_le {d : Driver} {p : Pair} (h : p ∈ d.pairs) : p.compared ≤ d.words := by
  cases d
  · revert p
    decide
  · revert p
    decide

theorem Driver.pairs_pos (d : Driver) : 0 < d.pairs.length := by
  cases d
  · decide
  · decide

/-- `KERNEL_VERSION`. -/
def KERNEL_VERSION (a b c : Nat) : Nat := a * 65536 + b * 256 + c

/-- Whether `sdma_read` compares at all: in the single driver, not in kernels before 3.0.35. -/
def Driver.compares (d : Driver) (LINUX_VERSION_CODE : Nat) : Bool :=
  match d with
  | .single => LINUX_VERSION_CODE ≥ KERNEL_VERSION 3 0 35
  | .scatterGather => true

/-! ## The globals -/

inductive Side where
  | w
  | r
  deriving DecidableEq

/-- A buffer: `wbuf`, `wbuf2`, `wbuf3`, `rbuf`, `rbuf2`, `rbuf3`, counted from 0. -/
abbrev Buf := Side × Nat

structure Globals where
  buf : Buf → Ptr
  dma_m2m_chan : Bool
  heap : Heap (Block U32)

/-- All buffers, in the order of their allocation. -/
def Driver.bufs (d : Driver) : List Buf :=
  (List.range d.pairs.length).map (fun i => (.w, i)) ++
    (List.range d.pairs.length).map (fun i => (.r, i))

/-- The allocations of `sdma_open`, up to the first one that fails. -/
def allocate (size : Nat) (avail : Buf → Bool) : List Buf → Globals → Int × Globals
  | [], s => (0, s)
  | b :: bs, s =>
      let (p, heap) := kzalloc (avail b) size s.heap
      let s := { s with buf := Function.update s.buf b p, heap := heap }
      if p = none then (-1, s) else allocate size avail bs s

/-- `sdma_open`, apart from the completion; `chan` tells whether a channel could be had. -/
def sdmaOpen (d : Driver) (chan : Bool) (avail : Buf → Bool) (s : Globals) : Int × Globals :=
  let s := { s with dma_m2m_chan := chan }
  if chan then allocate d.words avail d.bufs s else (-EINVAL, s)

/-- The pointers are left as they are. -/
def freeAll : List Buf → Globals → Except Fault Globals
  | [], s => .ok s
  | b :: bs, s =>
      match kfree s.heap (s.buf b) with
      | .error f => .error f
      | .ok heap => freeAll bs { s with heap := heap }

def sdmaRelease (d : Driver) (s : Globals) : Except Fault (Int × Globals) :=
  match freeAll d.bufs { s with dma_m2m_chan := false } with
  | .error f => .error f
  | .ok s => .ok (0, s)

/-! ## Write -/

/-- The requests of `sdma_write`. -/
inductive DmaOp where
  | fill (i : Nat) (pattern : U32)
  | slaveConfig
  | map (side : Side)
  | prep
  | setCallback (desc : Bool)
  | submit
  | issuePending
  | waitForCompletion
  | unmap (side : Side)
  deriving DecidableEq

/-- `device_prep_dma_memcpy` and `device_prep_dma_sg` answer whether there is a descriptor; the
answers of the other requests say nothing. -/
abbrev DmaProg := Prog DmaOp Bool

/-- The loops that fill the source buffers. -/
def fillAll : Nat → List Pair → DmaProg Unit
  | _, [] => return ()
  | i, p :: ps => do
      let _ ← Prog.send (.fill i p.pattern)
      fillAll (i + 1) ps

/-- `sdma_write` behind the loops. The descriptor is used before it is checked. -/
def transfer (count : Nat) : DmaProg Nat := do
  let _ ← Prog.send .slaveConfig
  let _ ← Prog.send (.map .w)
  let _ ← Prog.send (.map .r)
  let dma_m2m_desc ← Prog.send .prep
  let _ ← Prog.send (.setCallback dma_m2m_desc)
  let _ ← Prog.send .submit
  let _ ← Prog.send .issuePending
  let _ ← Prog.send .waitForCompletion
  let _ ← Prog.send (.unmap .w)
  let _ ← Prog.send (.unmap .r)
  return count

def sdmaWrite (d : Driver) (count : Nat) : DmaProg Nat := do
  fillAll 0 d.pairs
  transfer count

/-! ## Read -/

/-- A message of `sdma_read`. -/
structure Message where
  buffer : Nat
  ok : Bool
  text : String

/-- The comparison of `n` words from word `i` on, up to the first difference. -/
def sameWords (heap : Heap (Block U32)) (r w : Ptr) : Nat → Nat → Except Fault Bool
  | _, 0 => .ok true
  | i, n + 1 =>
      match load heap r i 1, load heap w i 1 with
      | .error f, _ => .error f
      | _, .error f => .error f
      | .ok x, .ok y => if x ≠ y then .ok false else sameWords heap r w (i + 1) n

/-- The pairs one after the other, up to the first one that differs. -/
def comparePairs (s : Globals) : Nat → List Pair → Except Fault (List Message)
  | _, [] => .ok []
  | i, p :: ps =>
      match sameWords s.heap (s.buf (.r, i)) (s.buf (.w, i)) 0 p.compared with
      | .error f => .error f
      | .ok false => .ok [⟨i, false, p.failed⟩]
      | .ok true =>
          match comparePairs s (i + 1) ps with
          | .error f => .error f
          | .ok ms => .ok (⟨i, true, p.passed⟩ :: ms)

/-- The messages; the returned value is always 0. -/
def sdmaRead (d : Driver) (LINUX_VERSION_CODE : Nat) (s : Globals) : Except Fault (List Message) :=
  if d.compares LINUX_VERSION_CODE then comparePairs s 0 d.pairs else .ok []

end LinuxDrivers.Sdma
