import LinuxDrivers.Eeprom.Messages
import LinuxDrivers.Eeprom.Requests

set_option autoImplicit false

/-! # Address, offset and cursor in lockstep

`Lockstep` is what one call of `eep_write` should satisfy whatever is asked for and whichever
message is refused: the three counters move together, the messages cover the cells from the
cursor on without a gap, a refused message is the last one, and the cursor counts the bytes
the chip took.

The counters do move together in every call (`InStep`). The cells do not follow them beyond
the end of the chip: there the two address bytes start again at cell 0. `lockstep_iff` says
which calls send no message there (`StaysOnChip`). -/

namespace LinuxDrivers.Eeprom

open Lib

/-- The address, the offset and the cursor move in lockstep through a call at `p`. -/
structure Lockstep (k : Kern) (p : Nat) (c : WriteCall) : Prop where
  returns : ∃ r, (eepWrite .lp64 k c).ret = .ok r
  counters : ∀ m ∈ (eepWrite .lp64 k c).sent,
    m.reg_addr = m.current_pointer ∧ m.reg_addr = p + m.offset
  cells : ((eepWrite .lp64 k c).sent.map Sent.cells).flatten
    = List.range' p ((eepWrite .lp64 k c).sent.map Sent.len).sum
  carries : ∃ b, Holds (eepWrite .lp64 k c).kern.heap (eepWrite .lp64 k c).kern.dev.data b ∧
    ∀ m ∈ (eepWrite .lp64 k c).sent, m.payload = slice b.elem m.offset.toNat m.len
  stops : ∀ pre m post, (eepWrite .lp64 k c).sent = pre ++ m :: post → m.ack = false → post = []
  cursor : (eepWrite .lp64 k c).kern.dev.current_pointer
    = (p + ackedLen (eepWrite .lp64 k c).sent : Nat)

/-- The call sends nothing beyond the chip: its end does not overflow, and it reaches the end
of its page or that page is not the last one; or else a message to a page of the chip is
refused. -/
def StaysOnChip (k : Kern) (p : Nat) (c : WriteCall) : Prop :=
  c.Sends .lp64 k →
    (p + c.count < 2 ^ 64 ∧
      (remainInPage p ≤ c.count ∨ p + remainInPage p < EEP_SIZE)) ∨
    ∃ i, p / EEP_PAGE_SIZE + i < EEP_SIZE / EEP_PAGE_SIZE ∧ c.ack i = false

/-! ## How much is planned -/

section

variable {p n count : Nat}

/-- With 64 bits the wrapped difference has `2 ^ 57 - 1` pages, which is -1 as an `int`: the
page loop is skipped, and the head and the tail are sent. -/
theorem plan_sum_short (h : n < headLen p) : (plan .lp64 p n).sum = 128 + n := by
  have hhead : headLen p < 128 := Nat.mod_lt _ (by decide)
  have hdiv : (2 ^ 64 - (headLen p - n)) / 128 = 2 ^ 57 - 1 := by omega
  have hnb : nbPage .lp64 n (headLen p) = -1 := by
    unfold nbPage
    rw [sizeT_short .lp64 h]
    show toInt (((2 ^ 64 - (headLen p - n)) / 128 : Nat) : Int) = -1
    rw [hdiv]
    rfl
  simp only [plan, remainInPage_natCast, hnb, lastRemain_short .lp64 h, List.sum_append,
    part_natCast_sum]
  show headLen p + (0 + (128 - (headLen p - n))) = _
  omega

/-- No plan is longer than `dev->data`. -/
theorem plan_sum_le (hn : n ≤ EEP_SIZE) : (plan .lp64 p n).sum ≤ EEP_SIZE := by
  have hhead : headLen p < 128 := Nat.mod_lt _ (by decide)
  have hE : EEP_SIZE = 65536 := rfl
  by_cases hpage : headLen p ≤ n
  · rw [plan_sum .lp64 hn hpage]
    exact hn
  · rw [plan_sum_short (Nat.lt_of_not_le hpage)]
    omega

/-- Which plans end on the chip. -/
theorem plan_onChip_iff (hp : p < EEP_SIZE) (hcount : count < 2 ^ 64) :
    p + (plan .lp64 p (clampWrite .lp64 p count)).sum ≤ EEP_SIZE ↔
      p + count < 2 ^ 64 ∧ (headLen p ≤ count ∨ p + headLen p < EEP_SIZE) := by
  have hhead : headLen p = (128 - p % 128) % 128 := rfl
  have hrest : headLen p ≤ EEP_SIZE - p := headLen_le hp
  have hE : EEP_SIZE = 65536 := rfl
  by_cases hover : 2 ^ 64 ≤ p + count
  · rw [clampWrite_of_overflow .lp64 hp hcount hover,
      plan_sum .lp64 (Nat.le_refl _) (by omega)]
    omega
  rw [clampWrite_eq .lp64 hp (show p + count < 2 ^ 64 by omega)]
  by_cases hpage : headLen p ≤ count
  · rw [plan_sum .lp64 (by omega) (by omega)]
    omega
  · -- a short request sends a page and its own length
    rw [Nat.min_eq_left (by omega), plan_sum_short (by omega)]
    omega

end

/-! ## How much is sent -/

section

variable {ctx : WrCtx} {b : Block U8} {p : Nat} {ls : List Nat} {w w' : Wr} {ms : List Sent}
  {j : Nat}

/-- The messages sent end on the chip if all planned ones do, or if one to a page of the chip
is refused. -/
theorem sent_onChip_iff {r : Int} (hp : p < 65536) (hpages : OnPages p (p / 128) ls)
    (hacks : ∀ i, i < j → ctx.ack i = true) (hleaves : Leaves ctx b 0 0 ls ms j (.ok r)) :
    p + (ls.take ms.length).sum ≤ 65536 ↔
      p + ls.sum ≤ 65536 ∨ ∃ i, p / 128 + i < 512 ∧ ctx.ack i = false := by
  generalize hr : (Except.ok r : Except Fault Int) = ret at hleaves
  cases hleaves with
  | done hj hms =>
      rw [hms, hj, List.take_length]
      constructor
      · exact Or.inl
      · rintro (hfit | ⟨i, hi, hack⟩)
        · exact hfit
        -- a refused message that was never sent: the plan ends before its page
        have hle : ls.length ≤ i := by
          by_contra hlt
          rw [hacks i (by omega)] at hack
          cases hack
        by_cases hne : ls = []
        · subst hne
          exact Nat.le_of_lt hp
        · have := hpages.sum_le hne
          omega
  | refused hj hms hack =>
      have hbounds := hpages.bounds j hj
      rw [hms]
      constructor
      · intro hfit
        refine Or.inr ⟨j, by omega, ?_⟩
        rw [Nat.zero_add] at hack
        exact hack
      · rintro (hfit | ⟨i, hi, hack'⟩)
        · have hsum := take_sum_le ls (j + 1)
          omega
        · have hle : j ≤ i := by
            by_contra hlt
            rw [hacks i (by omega)] at hack'
            cases hack'
          omega
  | faulted f _ _ _ => cases hr

/-- A plan that fits `dev->data` does not fault. -/
theorem Leaves.returns {ret : Except Fault Int} (hleaves : Leaves ctx b 0 0 ls ms j ret)
    (hsize : b.size = EEP_SIZE) (hplan : ls.sum ≤ EEP_SIZE) : ∃ r, ret = .ok r := by
  cases hleaves with
  | done _ _ => exact ⟨_, rfl⟩
  | refused _ _ _ => exact ⟨_, rfl⟩
  | faulted f _ _ hfault =>
      have := take_sum_le ls (j + 1)
      rw [hsize] at hfault
      omega

end

/-! ## The whole call -/

section

variable {k : Kern} {p : Nat} {c : WriteCall}

/-- A call that sends nothing. -/
theorem lockstep_of_not_sends (hp : k.dev.current_pointer = p) (hk : Buffered k)
    (hsends : ¬ c.Sends .lp64 k) : Lockstep k p c := by
  rcases eepWrite_of_not_sends .lp64 hk hsends with ⟨ret, heap, -, hrun, ⟨b, hb, -⟩, -⟩
  have hsent : (eepWrite .lp64 k c).sent = [] := by rw [hrun]
  refine ⟨⟨ret, by rw [hrun]⟩, ?_, ?_, ⟨b, ?_, ?_⟩, ?_, ?_⟩
  · rw [hsent]; intro m hm; cases hm
  · rw [hsent]; rfl
  · rw [hrun]; exact hb
  · rw [hsent]; intro m hm; cases hm
  · rw [hsent]; intro pre m post h _; simp at h
  · rw [hrun]; exact hp

/-- The condition in terms of the plan. -/
theorem staysOnChip_iff (hlt : p < EEP_SIZE) (hcount : c.count < 2 ^ 64) (hsends : c.Sends .lp64 k) :
    StaysOnChip k p c ↔ p + (plan .lp64 p (clampWrite .lp64 p c.count)).sum ≤ 65536 ∨
      ∃ i, p / 128 + i < 512 ∧ c.ack i = false := by
  have hplan := plan_onChip_iff hlt hcount
  change p + _ ≤ 65536 ↔ _ at hplan
  unfold StaysOnChip
  rw [hplan, remainInPage_natCast]
  constructor
  · intro h
    rcases h hsends with ⟨hover, hpage | hpage⟩ | hack
    · exact Or.inl ⟨hover, Or.inl (by omega)⟩
    · exact Or.inl ⟨hover, Or.inr (by omega)⟩
    · exact Or.inr hack
  · intro h _
    rcases h with ⟨hover, hpage | hpage⟩ | hack
    · exact Or.inl ⟨hover, Or.inl (by omega)⟩
    · exact Or.inl ⟨hover, Or.inr (by omega)⟩
    · exact Or.inr hack

/-- In lockstep every message goes to cells of the chip: the last cell of the range is one. -/
theorem Lockstep.fits (h : Lockstep k p c) (hlt : p < EEP_SIZE) :
    p + ((eepWrite .lp64 k c).sent.map Sent.len).sum ≤ EEP_SIZE := by
  by_contra hover
  have hmem : EEP_SIZE ∈ ((eepWrite .lp64 k c).sent.map Sent.cells).flatten := by
    rw [h.cells, List.mem_range'_1]
    omega
  rcases List.mem_flatten.mp hmem with ⟨cells, hcells, hin⟩
  rcases List.mem_map.mp hcells with ⟨m, -, rfl⟩
  have hE : EEP_SIZE = 65536 := rfl
  have := lt_of_mem_wireCells hin
  omega

end

/-- **When the counters and the cells stay in lockstep.** -/
theorem lockstep_iff (k : Kern) (p : Nat) (c : WriteCall) (hp : k.dev.current_pointer = p)
    (hlt : p < EEP_SIZE) (hk : Buffered k) (hcount : c.count < 2 ^ 64) :
    Lockstep k p c ↔ StaysOnChip k p c := by
  by_cases hsends : c.Sends .lp64 k
  swap
  · exact iff_of_true (lockstep_of_not_sends hp hk hsends) fun h => absurd h hsends
  rcases eepWrite_sending .lp64 hp hk hsends with
    ⟨heap, b, w, ms, j, hb, hsize, -, hsending, hleaves, hsent, hkern⟩
  have hpages := onPages_plan .lp64 p (clampWrite .lp64 p c.count)
  have hplan := plan_sum_le (p := p) (clampWrite_le .lp64 p c.count)
  rcases hleaves.returns hsize hplan with ⟨r, hret⟩
  rw [hret] at hleaves
  have hacks : ∀ i, i < j → c.ack i = true := hsending.acked rfl
  have honChip : p + (ms.map Sent.len).sum ≤ 65536 ↔ StaysOnChip k p c := by
    rw [staysOnChip_iff hlt hcount hsends, ← sent_onChip_iff hlt hpages hacks hleaves,
      hsending.lens]
  rw [← honChip]
  constructor
  · intro h
    have hfits := h.fits hlt
    rw [hsent] at hfits
    exact hfits
  · intro hfit
    have hcounters := hsending.inStep.counters
    refine ⟨⟨r, hret⟩, ?_, ?_, ⟨b, ?_, ?_⟩, ?_, ?_⟩
    · rw [hsent]
      intro m hm
      exact ⟨(hcounters m hm).1, (hcounters m hm).2.1⟩
    · rw [hsent]
      refine InStep.cells (g := p / 128) hsending.inStep ?_ hfit
      rw [hsending.lens]
      exact hpages.take ms.length
    · rw [hkern]
      exact hb
    · rw [hsent]
      intro m hm
      exact (hcounters m hm).2.2
    · rw [hsent]
      exact hsending.inStep.stops
    · rw [hsent, hkern, hsending.ackedLen]
      show w.current_pointer = _
      rw [hsending.pos.cursor, Nat.zero_add]

/-- One byte inside a page that is not the last one: the rest of the page and two more bytes
are sent, in step. -/
theorem lockstep_short : Lockstep (openedAt 1) 1 (writeCall [7]) :=
  (lockstep_iff (openedAt 1) 1 (writeCall [7]) rfl (by decide) (openedAt_buffered 1)
    (by decide)).mpr (fun _ => Or.inl ⟨by decide, Or.inr (by decide)⟩)

/-- **One byte before the last cell**: two bytes are sent to the last two cells and 127 more to
the cells from 0 on. -/
theorem not_lockstep_last_page :
    Buffered (openedAt 65534) ∧ ¬ Lockstep (openedAt 65534) 65534 (writeCall [7]) := by
  refine ⟨openedAt_buffered 65534, fun h => ?_⟩
  have hcells : 0 ∈ ((eepWrite .lp64 (openedAt 65534) (writeCall [7])).sent.map
      Sent.cells).flatten := by
    decide +kernel
  rw [h.cells, List.mem_range'_1] at hcells
  omega

end LinuxDrivers.Eeprom
