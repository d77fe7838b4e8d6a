import LinuxDrivers.Eeprom.Driver

set_option autoImplicit false

/-! # What `eep_write` sends

`plan` lists the lengths of the messages of one call: the head up to the end of the page, the
whole pages, the tail. The body of `eep_write` sends exactly this list (`atEnd_eepWriteBody`),
so everything about it is an induction over a list of lengths.

* `sendAll_progress`: as long as the list keeps to the pages and to the copied bytes, the
  cursor, the address and the offset move together, every message is in bounds, and the chip
  holds the acknowledged bytes.
* `planned_plan`: the list always keeps to the pages.
* `plan_sum`: it adds up to the request when the request reaches the end of the page it starts
  in. `lt_plan_sum_of_short` is what happens when it does not. -/

namespace LinuxDrivers.Eeprom

open Lib

/-! ## The body as a list of messages -/

/-- The length of the head or the tail, as a list. -/
def part (len : Int) : List Nat := if len > 0 then [len.toNat] else []

/-- The lengths of the messages of one call. -/
def plan (a : Arch) (current_pointer : Int) (count : Nat) : List Nat :=
  let r := remainInPage current_pointer
  part r ++ (List.replicate (nbPage a count r).toNat EEP_PAGE_SIZE ++ part (lastRemain a count r))

/-- Send messages of the given lengths, one after the other. -/
def sendAll (ctx : WrCtx) : List Nat → Wr → Except Stop Wr
  | [], w => .ok w
  | l :: ls, w => writeChunk ctx l w >>= sendAll ctx ls

theorem sendAll_append (ctx : WrCtx) (xs ys : List Nat) (w : Wr) :
    sendAll ctx (xs ++ ys) w = sendAll ctx xs w >>= sendAll ctx ys := by
  induction xs generalizing w with
  | nil => rfl
  | cons x xs ih =>
      show (writeChunk ctx x w >>= sendAll ctx (xs ++ ys)) = _
      rw [show sendAll ctx (xs ++ ys) = fun w => sendAll ctx xs w >>= sendAll ctx ys
        from funext ih]
      exact (bind_assoc _ _ _).symm

theorem sendAll_part (ctx : WrCtx) (len : Int) : sendAll ctx (part len) = writePart ctx len := by
  funext w
  unfold part writePart
  split
  · exact bind_pure _
  · rfl

theorem sendAll_replicate (ctx : WrCtx) (n : Nat) :
    sendAll ctx (List.replicate n EEP_PAGE_SIZE) = writePages ctx n := by
  induction n with
  | zero => rfl
  | succ n ih =>
      funext w
      show (writeChunk ctx EEP_PAGE_SIZE w >>= sendAll ctx (List.replicate n EEP_PAGE_SIZE)) = _
      rw [ih]
      rfl

/-- The early exit is taken only when nothing is left to send. -/
theorem atEnd_writeRest (ctx : WrCtx) (nb last : Int) (w : Wr) :
    atEnd (writeRest ctx nb last w)
      = atEnd (sendAll ctx (List.replicate nb.toNat EEP_PAGE_SIZE ++ part last) w) := by
  unfold writeRest
  rw [sendAll_append, sendAll_replicate, sendAll_part]
  by_cases hend : nb < 1 ∧ last < 1
  · -- no page and no tail: the parts that the exit skips would send nothing
    have hnb : nb.toNat = 0 := by omega
    have hlast : writePart ctx last w = .ok w := if_neg (by omega)
    rw [if_pos hend, hnb]
    show atEnd (.error (.endWrite w)) = atEnd (writePart ctx last w)
    rw [hlast]
    rfl
  · rw [if_neg hend]

/-- The parts of the body, whatever the three lengths are. -/
theorem atEnd_parts (ctx : WrCtx) (r nb last : Int) (w : Wr) :
    atEnd (writePart ctx r w >>= writeRest ctx nb last)
      = atEnd (sendAll ctx (part r ++ (List.replicate nb.toNat EEP_PAGE_SIZE ++ part last)) w) := by
  rw [sendAll_append, sendAll_part]
  cases writePart ctx r w with
  | error e => rfl
  | ok w' => exact atEnd_writeRest ctx nb last w'

/-- **The body sends the planned messages.** -/
theorem atEnd_eepWriteBody (a : Arch) (ctx : WrCtx) (w : Wr) :
    atEnd (eepWriteBody a ctx w)
      = atEnd (sendAll ctx (plan a w.current_pointer ctx.count) w) :=
  atEnd_parts ctx (remainInPage w.current_pointer) _ _ w

/-! ## One message -/

/-- The cursor, the address and the offset after `off` bytes of a call that started at `p`. -/
structure Wr.At (w : Wr) (p off : Nat) : Prop where
  cursor : w.current_pointer = ((p + off : Nat) : Int)
  reg : w.reg_addr = ((p + off : Nat) : Int)
  offset : w.offset = (off : Int)

/-- `len` bytes further. -/
theorem Wr.At.next {w : Wr} {p off : Nat} (hw : w.At p off) (len : Nat) (retval : Int)
    (chip : Chip) (sent : List Sent) :
    Wr.At ⟨w.current_pointer + len, w.reg_addr + len, w.offset + len, retval, chip, sent⟩
      p (off + len) where
  cursor := by
    show w.current_pointer + len = _
    rw [hw.cursor]
    push_cast
    ring
  reg := by
    show w.reg_addr + len = _
    rw [hw.reg]
    push_cast
    ring
  offset := by
    show w.offset + len = _
    rw [hw.offset, Int.natCast_add]

/-- The message addresses the cells it is meant for and no others, none beyond the chip, and
carries only bytes that were copied from the user. -/
def Sent.InBounds (m : Sent) : Prop :=
  (∀ c ∈ m.cells, m.reg_addr ≤ c ∧ (c : Int) < m.reg_addr + m.len) ∧
    m.reg_addr + m.len ≤ EEP_SIZE ∧ m.offset + m.len ≤ m.copied

/-- The record of a message of `len` bytes of the block `b`. -/
def Wr.message (w : Wr) (ctx : WrCtx) (b : Block U8) (len : Nat) : Sent :=
  ⟨w.reg_addr, w.current_pointer, w.offset, len, ctx.count,
    regBytes w.reg_addr ++ slice b.elem w.offset.toNat len, ctx.ack w.sent.length⟩

section

variable {ctx : WrCtx} {b : Block U8} {w : Wr} {p off len : Nat}

/-- The 16 bits of `msg[0].len` are enough for a page. -/
theorem take_wire (reg : Int) {bytes : List U8} (hbytes : bytes.length ≤ len) (hlen : len ≤ 128) :
    (regBytes reg ++ bytes).take ((len + 2) % 2 ^ 16) = regBytes reg ++ bytes := by
  apply List.take_of_length_le
  rw [List.length_append, Nat.mod_eq_of_lt (by omega)]
  show 2 + bytes.length ≤ len + 2
  omega

theorem transacWrite_of_holds (hd : Holds ctx.heap ctx.data b) (hb : off + len ≤ b.size)
    (hlen : len ≤ 128) (chip : Chip) (ack : Bool) (reg : Int) :
    transacWrite ctx chip ack reg off len =
      .ok (if ack then
        (len, (chip.transfer [.write (regBytes reg ++ slice b.elem off len)]).1,
          regBytes reg ++ slice b.elem off len)
        else (-1, chip, regBytes reg ++ slice b.elem off len)) := by
  have hload : load ctx.heap ctx.data off len = .ok (slice b.elem off len) := load_of_holds hd hb
  have hwire := take_wire reg (slice_length b.elem off len).le hlen
  have hret : toInt len = len := toInt_of_lt (by omega) (by omega)
  simp only [transacWrite, Int.toNat_natCast, hload, hwire, hret]
  cases ack <;> rfl

/-- A message the chip takes. -/
theorem writeChunk_acked (hw : w.At p off) (hd : Holds ctx.heap ctx.data b)
    (hb : off + len ≤ b.size) (hlen : len ≤ 128) (hack : ctx.ack w.sent.length = true) :
    writeChunk ctx len w = .ok
      { current_pointer := w.current_pointer + len
        reg_addr := w.reg_addr + len
        offset := w.offset + len
        retval := w.offset + len
        chip := (w.chip.transfer [.write (regBytes w.reg_addr ++ slice b.elem off len)]).1
        sent := w.sent ++ [w.message ctx b len] } := by
  have hsend := transacWrite_of_holds hd hb hlen w.chip true w.reg_addr
  have hnonneg : ¬ ((len : Int) < 0) := by omega
  simp only [writeChunk, hack, hw.offset, hsend, if_true, if_neg hnonneg, Wr.message,
    Int.toNat_natCast]

/-- A message the chip does not take. -/
theorem writeChunk_refused (hw : w.At p off) (hd : Holds ctx.heap ctx.data b)
    (hb : off + len ≤ b.size) (hlen : len ≤ 128) (hack : ctx.ack w.sent.length = false) :
    writeChunk ctx len w = .error (.endWrite
      { w with retval := -1, sent := w.sent ++ [w.message ctx b len] }) := by
  have hsend := transacWrite_of_holds hd hb hlen w.chip false w.reg_addr
  simp [writeChunk, hack, hw.offset, hsend, Wr.message]

/-- A message the chip takes counts its length into the returned value. -/
theorem retval_of_writeChunk {w' : Wr} (hack : ctx.ack w.sent.length = true) (hlen : len < 2 ^ 31)
    (h : writeChunk ctx len w = .ok w' ∨ writeChunk ctx len w = .error (.endWrite w')) :
    writeChunk ctx len w = .ok w' ∧ w'.offset = w.offset + len ∧ w'.retval = w'.offset := by
  have hnonneg : ¬ toInt len < 0 := by
    rw [toInt_of_lt (by omega) (by omega)]
    omega
  cases hload : load ctx.heap ctx.data w.offset.toNat len with
  | error f => simp [writeChunk, transacWrite, hload] at h
  | ok bytes =>
      simp only [writeChunk, transacWrite, hload, hack, if_true, if_neg hnonneg, reduceCtorEq,
        or_false, Except.ok.injEq] at h ⊢
      subst h
      exact ⟨rfl, rfl, rfl⟩

theorem message_inBounds (hw : w.At p off) (hpos : 0 < len) (hpage : (p + off) % 128 + len ≤ 128)
    (hcount : off + len ≤ ctx.count) (hsize : p + ctx.count ≤ EEP_SIZE) :
    (w.message ctx b len).InBounds := by
  have hreg : p + off + len ≤ 65536 := Nat.le_trans (by omega) hsize
  have hcells : (w.message ctx b len).cells = List.range' (p + off) len := by
    have hds : (slice b.elem w.offset.toNat len).length = len := slice_length _ _ _
    show wireCells (regBytes w.reg_addr ++ slice b.elem w.offset.toNat len) = _
    rw [hw.reg, wireCells_regBytes _ (by omega) (by rw [hds]; exact hpage), hds]
  refine ⟨?_, ?_, ?_⟩
  · intro c hc
    rw [hcells, List.mem_range'_1] at hc
    show w.reg_addr ≤ c ∧ (c : Int) < w.reg_addr + len
    rw [hw.reg]
    omega
  · show w.reg_addr + len ≤ EEP_SIZE
    rw [hw.reg]
    omega
  · show w.offset + len ≤ ctx.count
    rw [hw.offset]
    omega

end

/-! ## All messages -/

/-- Lengths that keep to the pages, for a call at `off` bytes after `p`. -/
def Planned (p : Nat) : Nat → List Nat → Prop
  | _, [] => True
  | off, l :: ls => 0 < l ∧ (p + off) % 128 + l ≤ 128 ∧ Planned p (off + l) ls

/-- `w'` is `w` after `n` more acknowledged bytes of the block `b`. -/
structure Progress (b : Block U8) (p off : Nat) (w w' : Wr) (n : Nat) : Prop where
  pos : w'.At p (off + n)
  chip : w'.chip.cell = splice w.chip.cell (p + off) (slice b.elem off n)
  sent : ∀ m ∈ w'.sent, m ∈ w.sent ∨ m.InBounds

theorem Progress.trans {b : Block U8} {p off m n : Nat} {w w' w'' : Wr}
    (h : Progress b p off w w' m) (h' : Progress b p (off + m) w' w'' n) :
    Progress b p off w w'' (m + n) where
  pos := by
    rw [← Nat.add_assoc]
    exact h'.pos
  chip := by
    rw [h'.chip, h.chip, slice_add, splice_append, slice_length, Nat.add_assoc]
  sent x hx := (h'.sent x hx).elim (fun hx' => h.sent x hx') Or.inr

/-- **Sending a planned list.** It ends without a fault after some acknowledged bytes, and
after all of them if every message is acknowledged. -/
theorem sendAll_progress (ctx : WrCtx) {b : Block U8} {p : Nat}
    (hd : Holds ctx.heap ctx.data b) (hb : b.size = EEP_SIZE) (hsize : p + ctx.count ≤ EEP_SIZE) :
    ∀ (ls : List Nat) (off : Nat) (w : Wr), w.At p off → Planned p off ls →
      off + ls.sum ≤ ctx.count →
      ∃ w' n ret, atEnd (sendAll ctx ls w) = (.ok ret, w') ∧ Progress b p off w w' n ∧
        n ≤ ls.sum ∧
        ((∀ i, ctx.ack i = true) → n = ls.sum ∧ (w.retval = w.offset → ret = w.offset + n)) := by
  intro ls
  induction ls with
  | nil =>
      intro off w hw _ _
      refine ⟨w, 0, w.retval, rfl, ⟨hw, by simp, fun m hm => Or.inl hm⟩, by simp, ?_⟩
      intro _
      exact ⟨rfl, fun h => by simpa using h⟩
  | cons l ls ih =>
      intro off w hw hplan hsum
      rcases hplan with ⟨hpos, hpage, hrest⟩
      rw [List.sum_cons] at hsum
      have hlen : l ≤ 128 := by omega
      have hfit : off + l ≤ b.size := by rw [hb]; omega
      have hsent : ∀ m ∈ w.sent ++ [w.message ctx b l], m ∈ w.sent ∨ m.InBounds := by
        intro m hm
        rcases List.mem_append.mp hm with hm | hm
        · exact Or.inl hm
        · rw [List.mem_singleton.mp hm]
          exact Or.inr (message_inBounds hw hpos hpage (by omega) hsize)
      by_cases hack : ctx.ack w.sent.length = true
      · -- the message is taken: the rest is sent from a state that is `l` bytes further
        have hsend := writeChunk_acked hw hd hfit hlen hack
        set w₁ : Wr :=
          { current_pointer := w.current_pointer + l
            reg_addr := w.reg_addr + l
            offset := w.offset + l
            retval := w.offset + l
            chip := (w.chip.transfer [.write (regBytes w.reg_addr ++ slice b.elem off l)]).1
            sent := w.sent ++ [w.message ctx b l] } with hw₁
        have hstep : Progress b p off w w₁ l := by
          refine ⟨hw.next l _ _ _, ?_, hsent⟩
          · show (w.chip.transfer [.write (regBytes w.reg_addr ++ slice b.elem off l)]).1.cell = _
            have hreg : p + off < 65536 := Nat.lt_of_lt_of_le (by omega) hsize
            rw [hw.reg]
            exact transfer_write w.chip _ hreg (by rw [slice_length]; exact hpage)
        rcases ih (off + l) w₁ hstep.pos hrest (by omega) with ⟨w', n, ret, hend, hprog, hn, hall⟩
        refine ⟨w', l + n, ret, ?_, hstep.trans hprog, by rw [List.sum_cons]; omega, ?_⟩
        · rw [sendAll, hsend]
          exact hend
        · intro hacks
          rcases hall hacks with ⟨hnsum, hret⟩
          refine ⟨by rw [List.sum_cons, hnsum], fun _ => ?_⟩
          rw [hret rfl]
          show w.offset + l + n = _
          push_cast
          ring
      · -- the message is refused: the call leaves with -1 and nothing more is sent
        have hsend := writeChunk_refused hw hd hfit hlen (by simpa using hack)
        refine ⟨{ w with retval := -1, sent := w.sent ++ [w.message ctx b l] }, 0, -1, ?_,
          ⟨⟨hw.cursor, hw.reg, hw.offset⟩, by simp, hsent⟩, Nat.zero_le _, ?_⟩
        · rw [sendAll, hsend]
          rfl
        · intro hacks
          exact absurd (hacks _) hack

/-! ## The planned lengths -/

/-- Bytes from `p` to the end of its page; none at the start of a page. -/
def headLen (p : Nat) : Nat := (EEP_PAGE_SIZE - p % EEP_PAGE_SIZE) % EEP_PAGE_SIZE

theorem remainInPage_natCast (p : Nat) : remainInPage p = headLen p := by
  have h128 : p % 128 < 128 := Nat.mod_lt _ (by decide)
  unfold remainInPage headLen EEP_PAGE_SIZE
  rw [← Int.ofNat_tmod, ← Int.ofNat_sub (Nat.le_of_lt h128), ← Int.ofNat_tmod]

/-- The chip ends at the end of a page. -/
theorem headLen_le {p : Nat} (hp : p < EEP_SIZE) : headLen p ≤ EEP_SIZE - p := by
  unfold headLen EEP_PAGE_SIZE
  unfold EEP_SIZE at *
  omega

theorem part_natCast_sum (n : Nat) : (part n).sum = n := by
  unfold part
  split
  · simp
  · simp; omega

theorem mem_part {n l : Nat} (h : l ∈ part n) : l = n := by
  unfold part at h
  split at h
  · simpa using h
  · simp at h

theorem toInt_natCast {n : Nat} (h : n < 2 ^ 31) : toInt (n : Nat) = n :=
  toInt_of_lt (by omega) (by omega)

section

variable (a : Arch) {p n : Nat}

/-- The plan of a request that reaches the end of its page. -/
theorem plan_of_headLen_le (hn : n ≤ EEP_SIZE) (h : headLen p ≤ n) :
    plan a p n = part (headLen p) ++
      (List.replicate ((n - headLen p) / 128) 128 ++ part ((n - headLen p) % 128 : Nat)) := by
  have hn' : n ≤ 65536 := hn
  have hsize : a.sizeT ((n : Int) - headLen p) = n - headLen p := by
    have := a.two_pow_32_le
    rw [← Int.ofNat_sub h]
    exact a.sizeT_of_lt (by omega)
  have hnb : nbPage a n (headLen p) = ((n - headLen p) / 128 : Nat) := by
    unfold nbPage
    rw [hsize]
    exact toInt_natCast (by show (n - headLen p) / 128 < _; omega)
  have hlast : lastRemain a n (headLen p) = ((n - headLen p) % 128 : Nat) := by
    unfold lastRemain
    rw [hsize]
    exact toInt_natCast (by show (n - headLen p) % 128 < _; omega)
  simp only [plan, remainInPage_natCast, hnb, hlast, Int.toNat_natCast]
  rfl

/-- The plan adds up to the request. -/
theorem plan_sum (hn : n ≤ EEP_SIZE) (h : headLen p ≤ n) : (plan a p n).sum = n := by
  rw [plan_of_headLen_le a hn h, List.sum_append, List.sum_append, part_natCast_sum,
    part_natCast_sum, List.sum_replicate, smul_eq_mul]
  omega

theorem planned_append {off : Nat} {xs ys : List Nat} (hx : Planned p off xs)
    (hy : Planned p (off + xs.sum) ys) : Planned p off (xs ++ ys) := by
  induction xs generalizing off with
  | nil => simpa using hy
  | cons x xs ih =>
      rcases hx with ⟨hpos, hpage, hrest⟩
      refine ⟨hpos, hpage, ih hrest ?_⟩
      rw [List.sum_cons, ← Nat.add_assoc] at hy
      exact hy

theorem planned_part {off len : Nat} (h : (p + off) % 128 + len ≤ 128) :
    Planned p off (part len) := by
  unfold part
  split
  · exact ⟨by omega, by simpa using h, trivial⟩
  · trivial

theorem planned_pages {off : Nat} (h : (p + off) % 128 = 0) (k : Nat) :
    Planned p off (List.replicate k 128) := by
  induction k generalizing off with
  | zero => trivial
  | succ k ih => exact ⟨by decide, by omega, ih (by omega)⟩

/-- The tail is shorter than a page, whether or not the difference wraps. -/
theorem lastRemain_natCast (r : Int) :
    lastRemain a n r = ((a.sizeT ((n : Int) - r) % 128 : Nat) : Int) := by
  have htail : a.sizeT ((n : Int) - r) % 128 < 128 := Nat.mod_lt _ (by decide)
  unfold lastRemain EEP_PAGE_SIZE
  exact toInt_natCast (by omega)

/-- The plan keeps to the pages, also when the request does not reach the end of its page. -/
theorem planned_plan : Planned p 0 (plan a p n) := by
  have hhead : (p + headLen p) % 128 = 0 ∧ p % 128 + headLen p ≤ 128 := by
    unfold headLen EEP_PAGE_SIZE
    omega
  have htail : a.sizeT ((n : Int) - headLen p) % 128 < 128 := Nat.mod_lt _ (by decide)
  simp only [plan, remainInPage_natCast, lastRemain_natCast, EEP_PAGE_SIZE]
  generalize (nbPage a n (headLen p)).toNat = k
  generalize a.sizeT ((n : Int) - headLen p) % 128 = t at htail ⊢
  apply planned_append (planned_part hhead.2)
  rw [Nat.zero_add, part_natCast_sum]
  apply planned_append (planned_pages hhead.1 k)
  -- the pages end where a page ends
  apply planned_part
  rw [List.sum_replicate, smul_eq_mul]
  omega

/-- When the request ends before its page does, the unsigned difference
`count - remain_in_page` wraps. -/
theorem sizeT_short (h : n < headLen p) :
    a.sizeT ((n : Int) - headLen p) = 2 ^ a.bits - (headLen p - n) := by
  have hhead : headLen p < 128 := Nat.mod_lt _ (by decide)
  have h32 := a.two_pow_32_le
  rw [show (n : Int) - headLen p = -((headLen p - n : Nat) : Int) by omega]
  exact a.sizeT_neg (by omega) (by omega)

/-- The tail of such a request is what the head lacks of a page: the size of a page divides
the width of `size_t`. -/
theorem lastRemain_short (h : n < headLen p) :
    lastRemain a n (headLen p) = (128 - (headLen p - n) : Nat) := by
  have hhead : headLen p < 128 := Nat.mod_lt _ (by decide)
  have hmod : (2 ^ a.bits - (headLen p - n)) % 128 = 128 - (headLen p - n) := by
    rcases a.two_pow_bits with hb | hb <;> omega
  rw [lastRemain_natCast, sizeT_short a h, hmod]

/-- **A short request.** More than the request is planned. -/
theorem lt_plan_sum_of_short (h : n < headLen p) : n < (plan a p n).sum := by
  have hhead : headLen p < 128 := Nat.mod_lt _ (by decide)
  simp only [plan, remainInPage_natCast, lastRemain_short a h, List.sum_append, part_natCast_sum]
  omega

end

/-- If every message is acknowledged and no access faults, the returned value is the sum of
the lengths, whatever the lengths are. -/
theorem ret_of_sendAll {ctx : WrCtx} (hack : ∀ i, ctx.ack i = true) {ret : Int} {w' : Wr} :
    ∀ (ls : List Nat) (w : Wr), (∀ l ∈ ls, l < 2 ^ 31) → w.retval = w.offset →
      atEnd (sendAll ctx ls w) = (.ok ret, w') → ret = w.offset + ls.sum := by
  intro ls
  induction ls with
  | nil =>
      intro w _ hw hend
      have hret : w.retval = ret := by injection hend with h; injection h
      rw [← hret, hw]
      simp
  | cons l ls ih =>
      intro w hlen hw hend
      have hl : l < 2 ^ 31 := hlen l (List.mem_cons_self ..)
      rw [sendAll] at hend
      cases hc : writeChunk ctx l w with
      | ok w₁ =>
          rcases retval_of_writeChunk (hack _) hl (Or.inl hc) with ⟨-, hoff, hretval⟩
          rw [hc] at hend
          have := ih w₁ (fun x hx => hlen x (List.mem_cons_of_mem _ hx)) hretval hend
          rw [this, hoff, List.sum_cons]
          push_cast
          ring
      | error s =>
          -- an acknowledged message leaves neither by an error nor, here, by a fault
          cases s with
          | endWrite w₁ =>
              have := (retval_of_writeChunk (hack _) hl (Or.inr hc)).1
              rw [hc] at this
              cases this
          | fault f w₁ =>
              rw [hc] at hend
              cases hend

/-- No message of a plan is longer than a page. -/
theorem plan_lengths (a : Arch) (p n : Nat) : ∀ l ∈ plan a p n, l < 2 ^ 31 := by
  have hhead : headLen p < 128 := Nat.mod_lt _ (by decide)
  have htail : ∀ d : Nat, d % 128 < 128 := fun d => Nat.mod_lt _ (by decide)
  intro l hl
  simp only [plan, remainInPage_natCast, lastRemain_natCast, List.mem_append,
    List.mem_replicate] at hl
  rcases hl with hl | ⟨-, rfl⟩ | hl
  · have hle := mem_part hl
    omega
  · decide
  · have hle := mem_part hl
    have := htail (a.sizeT ((n : Int) - headLen p))
    omega

end LinuxDrivers.Eeprom
