import LinuxDrivers.Eeprom.Lockstep
import LinuxDrivers.Lib.Ring

set_option autoImplicit false

/-! # What a write leaves on the chip

The chip after a call of `eep_write` is what the messages that it acknowledged have made of it,
one after the other (`eepWrite_chip`). The two address bytes wrap at the end of the chip, so the
messages of one call overwrite a stretch of a ring (`InStep.ring`). `eepWrite_ring` says what every
cell holds after any call, whichever message is refused and wherever the stretch ends. -/

namespace LinuxDrivers.Eeprom

open Lib

/-! ## One message -/

/-- What the message does to the chip. -/
def Sent.effect (chip : Chip) (m : Sent) : Chip :=
  if m.ack then (chip.transfer [.write m.wire]).1 else chip

/-- A message that stays inside its page, at any address. -/
theorem transfer_write_ring (chip : Chip) (reg : Nat) (ds : List U8)
    (hpage : reg % 128 + ds.length ≤ 128) :
    (chip.transfer [.write (regBytes reg ++ ds)]).1.cell
      = ringSplice EEP_SIZE chip.cell reg ds := by
  have hE : EEP_SIZE = 65536 := rfl
  have hmod : reg % EEP_SIZE % 128 = reg % 128 := Nat.mod_mod_of_dvd reg (by decide)
  have hlt : reg % EEP_SIZE < EEP_SIZE := Nat.mod_lt _ (by decide)
  show pageWrite chip.cell (address _ _) ds = _
  rw [address_regBytes_mod, pageWrite_eq_splice _ _ _ (by omega),
    ringSplice_of_turn _ _ _ (by omega)]
  rfl

/-! ## The messages of one call -/

theorem transacWrite_chip {ctx : WrCtx} {chip chip' : Chip} {ack : Bool} {reg_addr offset retval : Int}
    {len : Nat} {wire : List U8}
    (h : transacWrite ctx chip ack reg_addr offset len = .ok (retval, chip', wire)) :
    chip' = if ack then (chip.transfer [.write wire]).1 else chip := by
  unfold transacWrite at h
  cases hload : load ctx.heap ctx.data offset.toNat len with
  | error f =>
      rw [hload] at h
      cases h
  | ok bytes =>
      rw [hload] at h
      cases ack with
      | false =>
          rcases Prod.mk.inj (Except.ok.inj h) with ⟨-, h'⟩
          exact (Prod.mk.inj h').1.symm
      | true =>
          rcases Prod.mk.inj (Except.ok.inj h) with ⟨-, h'⟩
          rcases Prod.mk.inj h' with ⟨hchip, rfl⟩
          exact hchip.symm

theorem writeChunk_chip (ctx : WrCtx) (len : Nat) (w : Wr) :
    ∃ ms, (atEnd (writeChunk ctx len w)).2.sent = w.sent ++ ms ∧
      (atEnd (writeChunk ctx len w)).2.chip = ms.foldl Sent.effect w.chip := by
  cases htr : transacWrite ctx w.chip (ctx.ack w.sent.length) w.reg_addr w.offset len with
  | error f =>
      simp only [writeChunk, htr]
      exact ⟨[], (List.append_nil _).symm, rfl⟩
  | ok r =>
      rcases r with ⟨retval, chip, wire⟩
      have hchip := transacWrite_chip htr
      refine ⟨[⟨w.reg_addr, w.current_pointer, w.offset, len, ctx.count, wire,
        ctx.ack w.sent.length⟩], ?_⟩
      rw [List.foldl_cons, List.foldl_nil]
      simp only [writeChunk, htr]
      by_cases hneg : retval < 0
      · rw [if_pos hneg]
        exact ⟨rfl, hchip⟩
      · rw [if_neg hneg]
        exact ⟨rfl, hchip⟩

theorem sendAll_chip (ctx : WrCtx) (ls : List Nat) (w : Wr) :
    ∃ ms, (atEnd (sendAll ctx ls w)).2.sent = w.sent ++ ms ∧
      (atEnd (sendAll ctx ls w)).2.chip = ms.foldl Sent.effect w.chip := by
  induction ls generalizing w with
  | nil => exact ⟨[], (List.append_nil _).symm, rfl⟩
  | cons l ls ih =>
      rcases writeChunk_chip ctx l w with ⟨ms, hsent, hchip⟩
      rw [sendAll]
      cases hw : writeChunk ctx l w with
      | error e =>
          rw [hw] at hsent hchip
          exact ⟨ms, hsent, hchip⟩
      | ok w' =>
          rw [hw] at hsent hchip
          rcases ih w' with ⟨ms', hsent', hchip'⟩
          refine ⟨ms ++ ms', ?_, ?_⟩
          · show (atEnd (sendAll ctx ls w')).2.sent = _
            rw [hsent', show w'.sent = w.sent ++ ms from hsent, List.append_assoc]
          · show (atEnd (sendAll ctx ls w')).2.chip = _
            rw [hchip', show w'.chip = ms.foldl Sent.effect w.chip from hchip, List.foldl_append]

/-- **The chip after a write** is what the acknowledged messages made of it. -/
theorem eepWrite_chip (a : Arch) (k : Kern) (c : WriteCall) :
    (eepWrite a k c).kern.chip = (eepWrite a k c).sent.foldl Sent.effect k.chip := by
  unfold eepWrite
  by_cases hkill : c.killed
  · rw [if_pos hkill]
    rfl
  by_cases heof : k.dev.current_pointer ≥ EEP_SIZE
  · rw [if_neg hkill, if_pos heof]
    rfl
  by_cases hpos : c.f_pos ≥ EEP_SIZE
  · rw [if_neg hkill, if_neg heof, if_pos hpos]
    rfl
  rw [if_neg hkill, if_neg heof, if_neg hpos]
  generalize hn : clampWrite a k.dev.current_pointer c.count = n
  cases hcopy : copyFromUser k.heap k.dev.data c.buf n with
  | error f =>
      simp only [hcopy]
      rfl
  | ok r =>
      rcases r with ⟨left, heap⟩
      simp only [hcopy, atEnd_eepWriteBody]
      by_cases hleft : left ≠ 0
      · rw [if_pos hleft]
        rfl
      · rw [if_neg hleft]
        rcases sendAll_chip ⟨heap, k.dev.data, n, c.ack⟩ (plan a k.dev.current_pointer n)
          ⟨k.dev.current_pointer, k.dev.current_pointer, 0, 0, k.chip, []⟩ with ⟨ms, hsent, hchip⟩
        rw [List.nil_append] at hsent
        exact hchip.trans (by rw [hsent])

section

variable {p : Nat} {data : Nat → U8} {ms : List Sent}

/-- The acknowledged messages overwrite the ring from the first address on. -/
theorem InStep.ring (chip : Chip) : ∀ {off g : Nat}, InStep p data off ms →
    OnPages (p + off) g (ms.map Sent.len) →
    (ms.foldl Sent.effect chip).cell
      = ringSplice EEP_SIZE chip.cell (p + off) (slice data off (ackedLen ms)) := by
  induction ms generalizing chip with
  | nil => intro off g _ _; rfl
  | cons m ms ih =>
      intro off g h hpages
      rcases h with ⟨-, hwire, hlast, hrest⟩
      rcases hpages with ⟨hpos, hlo, hhi, hpages'⟩
      rw [List.foldl_cons]
      cases hack : m.ack with
      | false =>
          -- a refused message is the last one
          rw [hlast hack, Sent.effect, hack, ackedLen, List.filter_cons_of_neg (by simp [hack])]
          rfl
      | true =>
          have hlen : (slice data off m.len).length = m.len := slice_length _ _ _
          have hsum : ackedLen (m :: ms) = m.len + ackedLen ms := by
            rw [ackedLen, List.filter_cons_of_pos hack]
            rfl
          rw [Nat.add_assoc] at hpages'
          rw [ih _ hrest hpages', Sent.effect, hack, if_pos rfl, hwire,
            transfer_write_ring _ _ _ (by rw [hlen]; omega), hsum, slice_add, ringSplice_append,
            hlen, Nat.add_assoc]

end

/-! ## Which messages are acknowledged -/

/-- The number of pages that `len` bytes from the address `p` on lie in. -/
def pagesOf (p len : Nat) : Nat :=
  if len = 0 then 0 else (p + len - 1) / EEP_PAGE_SIZE - p / EEP_PAGE_SIZE + 1

/-- The first of `n` messages that the chip refuses. -/
def firstRefused (ack : Nat → Bool) (n : Nat) : Option Nat := (List.range n).find? (fun i => !ack i)

/-- The bytes in front of the page that is the `j`-th one after the page of `p`. -/
def bytesBefore (p j : Nat) : Nat := EEP_PAGE_SIZE * (p / EEP_PAGE_SIZE + j) - p

theorem OnPages.length_eq {ls : List Nat} {q : Nat} (h : OnPages q (q / 128) ls) :
    ls.length = pagesOf q ls.sum := by
  unfold pagesOf EEP_PAGE_SIZE
  by_cases hne : ls = []
  · rw [hne]
    rfl
  have hlen := List.length_pos_of_ne_nil hne
  have hsum := (h.take_sum_eq_zero (Nat.le_refl _)).not.mpr (Nat.ne_of_gt hlen)
  rw [List.take_length] at hsum
  have hend := h.sum_le hne
  have hlast := (h.lt_length_iff hne (i := ls.length - 1)).mp (by omega)
  rw [if_neg hsum]
  omega

theorem OnPages.take_sum {ls : List Nat} {q j : Nat} (h : OnPages q (q / 128) ls)
    (hj : j < ls.length) : (ls.take j).sum = bytesBefore q j := by
  unfold bytesBefore EEP_PAGE_SIZE
  have hstart := (h.bounds j hj).1
  cases j with
  | zero =>
      rw [List.take_zero, List.sum_nil]
      omega
  | succ j =>
      have hend := (h.bounds j (by omega)).2.2
      omega

/-- How the sending part leaves, read off the acknowledgements. -/
theorem Leaves.firstRefused_eq {ctx : WrCtx} {b : Block U8} {ls : List Nat} {ms : List Sent} {j : Nat}
    {r : Int} {p : Nat} (hleaves : Leaves ctx b 0 0 ls ms j (.ok r))
    (hpages : OnPages p (p / 128) ls) (hacks : ∀ i, i < j → ctx.ack i = true) :
    (firstRefused ctx.ack (pagesOf p ls.sum) = none ∧ r = ls.sum ∧ (ls.take j).sum = ls.sum) ∨
      (firstRefused ctx.ack (pagesOf p ls.sum) = some j ∧ r = -1 ∧
        (ls.take j).sum = bytesBefore p j) := by
  unfold firstRefused
  rw [← hpages.length_eq]
  generalize hr : (Except.ok r : Except Fault Int) = ret at hleaves
  cases hleaves with
  | done hj _ =>
      refine Or.inl ⟨?_, ?_, by rw [hj, List.take_length]⟩
      · rw [List.find?_range_eq_none]
        intro i hi
        rw [hacks i (by omega)]
        rfl
      · rw [Except.ok.inj hr]
        push_cast
        ring
  | refused hj _ hack =>
      rw [Nat.zero_add] at hack
      refine Or.inr ⟨?_, Except.ok.inj hr, hpages.take_sum hj⟩
      rw [List.find?_range_eq_some]
      refine ⟨by rw [hack]; rfl, List.mem_range.mpr hj, fun i hi => ?_⟩
      rw [hacks i hi]
      rfl
  | faulted f _ _ _ => cases hr

/-! ## One call -/

section

variable {k : Kern} {c : WriteCall} {p n : Nat} {b : Block U8}

/-- The buffer after `copy_from_user`: the bytes of the user, and zeros for those that cannot be
read. -/
def afterCopy (elem : Nat → U8) (buf : List U8) (n : Nat) : Nat → U8 :=
  splice elem 0 (buf.take n ++ List.replicate (n - buf.length) 0)

/-- A call that gets to its copy, in full. -/
theorem eepWrite_of_copy (a : Arch) (hp : k.dev.current_pointer = p)
    (hb : Holds k.heap k.dev.data b) (hsize : b.size = EEP_SIZE) (hkill : c.killed = false)
    (hlt : p < EEP_SIZE) (hpos : c.f_pos < EEP_SIZE) (hn : clampWrite a p c.count = n) :
    ∃ heap, Holds heap k.dev.data { b with elem := afterCopy b.elem c.buf n } ∧
      (c.buf.length < n → eepWrite a k c = ⟨.ok (-EFAULT), { k with heap := heap }, []⟩) ∧
      (n ≤ c.buf.length → ∀ ret w, atEnd (sendAll ⟨heap, k.dev.data, n, c.ack⟩ (plan a p n)
          ⟨p, p, 0, 0, k.chip, []⟩) = (ret, w) →
        eepWrite a k c
          = ⟨ret, ⟨{ k.dev with current_pointer := w.current_pointer }, heap, w.chip⟩, w.sent⟩) := by
  have hle : n ≤ EEP_SIZE := by
    rw [← hn]
    exact clampWrite_le a _ _
  have heof : ¬ (p : Int) ≥ EEP_SIZE := by omega
  obtain ⟨heap, hcopy, hb', -⟩ := copyFromUser_of_holds hb c.buf (n := n) (by omega)
  refine ⟨heap, hb', fun hshort => ?_, fun hfull ret w hend => ?_⟩
  · have hleft : n - c.buf.length ≠ 0 := by omega
    simp only [eepWrite, hkill, if_neg heof, if_neg (not_le.mpr hpos), ge_iff_le,
      Bool.false_eq_true, if_false, hp, hn, hcopy, if_pos hleft]
  · have hleft : ¬ n - c.buf.length ≠ 0 := by omega
    simp only [eepWrite, hkill, if_neg heof, if_neg (not_le.mpr hpos), ge_iff_le,
      Bool.false_eq_true, if_false, hp, hn, hcopy, if_neg hleft, atEnd_eepWriteBody, hend]

/-- **Every write, cell by cell.** A call that sends overwrites the ring from its cursor on with the
first bytes of its buffer: with the whole plan, or up to the page of the first message that the chip
refuses. -/
theorem eepWrite_ring (hp : k.dev.current_pointer = p) (hb : Holds k.heap k.dev.data b)
    (hsize : b.size = EEP_SIZE) (hkill : c.killed = false) (hlt : p < EEP_SIZE)
    (hpos : c.f_pos < EEP_SIZE) (hn : clampWrite .lp64 p c.count = n) (hfull : n ≤ c.buf.length) :
    ∃ heap chip ret m, Holds heap k.dev.data { b with elem := afterCopy b.elem c.buf n } ∧
      chip.cell = ringSplice EEP_SIZE k.chip.cell p (slice (afterCopy b.elem c.buf n) 0 m) ∧
      (eepWrite .lp64 k c).ret = .ok ret ∧
      (eepWrite .lp64 k c).kern = ⟨{ k.dev with current_pointer := (p + m : Nat) }, heap, chip⟩ ∧
      ackedLen (eepWrite .lp64 k c).sent = m ∧
      ((firstRefused c.ack (pagesOf p (plan .lp64 p n).sum) = none ∧ ret = (plan .lp64 p n).sum ∧
          m = (plan .lp64 p n).sum) ∨
        ∃ j, firstRefused c.ack (pagesOf p (plan .lp64 p n).sum) = some j ∧ ret = -1 ∧
          m = bytesBefore p j) := by
  have hle : n ≤ EEP_SIZE := by
    rw [← hn]
    exact clampWrite_le .lp64 _ _
  have hpages := onPages_plan .lp64 p n
  rcases eepWrite_of_copy .lp64 hp hb hsize hkill hlt hpos hn with ⟨heap, hb', -, hrun⟩
  rcases sendAll_sending ⟨heap, k.dev.data, n, c.ack⟩ hb' (plan .lp64 p n) 0 (p / 128)
    ⟨p, p, 0, 0, k.chip, []⟩ ⟨rfl, rfl, rfl⟩ hpages rfl with ⟨ret, w, ms, j, hend, hsending, hleaves⟩
  have hcall := hrun hfull _ _ hend
  have hsent : (eepWrite .lp64 k c).sent = ms := by rw [hcall]; exact hsending.sent
  rcases hleaves.returns hsize (plan_sum_le hle) with ⟨r, rfl⟩
  have hchip : w.chip = ms.foldl Sent.effect k.chip := by
    have := eepWrite_chip .lp64 k c
    rw [hsent, hcall] at this
    exact this
  have hcells := hsending.inStep.ring k.chip (g := p / 128) (by
    rw [hsending.lens]
    exact hpages.take ms.length)
  refine ⟨heap, w.chip, r, ackedLen ms, hb', by rw [hchip, hcells]; rfl, by rw [hcall], ?_,
    by rw [hsent], ?_⟩
  · rw [hcall, hsending.ackedLen, hsending.pos.cursor, Nat.zero_add]
  · rw [hsending.ackedLen]
    rcases hleaves.firstRefused_eq hpages (hsending.acked rfl) with ⟨hnone, hr, hm⟩ | ⟨hj, hr, hm⟩
    · exact Or.inl ⟨hnone, hr, hm⟩
    · exact Or.inr ⟨j, hj, hr, hm⟩

end

end LinuxDrivers.Eeprom
