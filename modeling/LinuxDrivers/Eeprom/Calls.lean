import LinuxDrivers.Eeprom.Write

set_option autoImplicit false

/-! # What each file operation does

One specification for each of `eep_open`, `eep_release`, `eep_read` and `eep_write`, for a
device whose buffer is live (`Buffered`). The later modules use these and never unfold the
operations. -/

namespace LinuxDrivers.Eeprom

open Lib

/-- `dev->data` is a live allocation of `EEP_SIZE` bytes. -/
def Buffered (k : Kern) : Prop := ∃ b, Holds k.heap k.dev.data b ∧ b.size = EEP_SIZE

/-- `k'` has the same buffer pointer, and no other allocation has changed. -/
def SameBuffer (k k' : Kern) : Prop :=
  k'.dev.data = k.dev.data ∧ SameBut k.heap k'.heap k.dev.data

theorem SameBuffer.refl (k : Kern) : SameBuffer k k := ⟨rfl, SameBut.refl _ _⟩

/-! ## Open, release and seek -/

theorem eepOpen_true (k : Kern) :
    (eepOpen true k).1 = 0 ∧ (eepOpen true k).2.dev.current_pointer = 0 ∧
      (eepOpen true k).2.chip = k.chip ∧
      Holds (eepOpen true k).2.heap (eepOpen true k).2.dev.data ⟨EEP_SIZE, fun _ => 0⟩ :=
  ⟨rfl, rfl, rfl, kzalloc_holds EEP_SIZE k.heap⟩

theorem eepOpen_false (k : Kern) :
    eepOpen false k = (-ENOMEM, { k with dev := ⟨none, 0⟩ }) := rfl

theorem eepOpen_cursor (avail : Bool) (k : Kern) :
    (eepOpen avail k).2.dev.current_pointer = 0 := by
  cases avail <;> rfl

/-- Releasing the device frees the buffer. -/
theorem eepRelease_of_buffered {k : Kern} (hk : Buffered k) :
    ∃ h' q, k.dev.data = some q ∧
      eepRelease k = .ok (0, { k with dev := ⟨none, 0⟩, heap := h' }) ∧
      h'.next = k.heap.next ∧ h'.cell = Function.update k.heap.cell q .freed := by
  rcases hk with ⟨b, hb, -⟩
  rcases kfree_of_holds hb with ⟨h', q, hq, hfree, hnext, hcell⟩
  rw [hq] at hfree
  exact ⟨h', q, hq, by simp [eepRelease, hq, hfree], hnext, hcell⟩

/-- **`eep_llseek` fails whatever it is asked for**: the bound test is `EEP_SIZE` itself, which
is not zero. -/
theorem eepLlseek_eq (f_pos : Int) (k : Kern) (off whence : Int) :
    eepLlseek f_pos k off whence = (-EINVAL, f_pos, k) := by
  unfold eepLlseek
  cases seekTarget f_pos off whence with
  | none => rfl
  | some newpos => exact if_pos (Or.inr (by decide))

/-! ## The clamps -/

section

variable (a : Arch) {p count : Nat}

/-- `EEP_SIZE - dev->current_pointer` in `size_t`. -/
theorem sizeT_rest (hp : p < EEP_SIZE) : a.sizeT ((EEP_SIZE : Int) - p) = EEP_SIZE - p := by
  have h32 := a.two_pow_32_le
  have hE : EEP_SIZE = 65536 := rfl
  rw [← Int.ofNat_sub (Nat.le_of_lt hp)]
  exact a.sizeT_of_lt (by omega)

/-- Without overflow the read count is clamped to what is left of the chip. -/
theorem clampRead_eq (hp : p < EEP_SIZE) (hcount : p + count < 2 ^ a.bits) :
    clampRead a p count = min count (EEP_SIZE - p) := by
  unfold clampRead
  rw [← Int.natCast_add, a.sizeT_of_lt hcount, sizeT_rest a hp]
  simp only
  split_ifs <;> omega

/-- With overflow the first clamp does not see that the request leaves the chip. -/
theorem clampRead_of_overflow (hp : p < EEP_SIZE) (hcount : count < 2 ^ a.bits)
    (hover : 2 ^ a.bits ≤ p + count) : clampRead a p count = EEP_SIZE := by
  have h32 := a.two_pow_32_le
  have hE : EEP_SIZE = 65536 := rfl
  have hsum : a.sizeT ((p : Int) + count) = p + count - 2 ^ a.bits := by
    rw [← Int.natCast_add]
    exact a.sizeT_of_overflow hover (by omega)
  have hfirst : ¬ p + count - 2 ^ a.bits > EEP_SIZE := by omega
  have hsecond : count > EEP_SIZE := by omega
  unfold clampRead
  rw [hsum]
  simp only
  rw [if_neg hfirst, if_pos hsecond]

theorem clampRead_le (cp : Int) (count : Nat) : clampRead a cp count ≤ EEP_SIZE := by
  unfold clampRead
  simp only
  split_ifs <;> omega

/-- `dev->current_pointer += count`: the sum passes through `size_t` and fits an `int`. -/
theorem cursor_add {n : Nat} (hp : p < EEP_SIZE) (hn : n ≤ EEP_SIZE) :
    toInt (a.sizeT ((p : Int) + n) : Nat) = (p + n : Nat) := by
  have h32 := a.two_pow_32_le
  have hE : EEP_SIZE = 65536 := rfl
  rw [← Int.natCast_add, a.sizeT_of_lt (by omega)]
  exact toInt_natCast (by omega)

theorem clampWrite_eq (hp : p < EEP_SIZE) (hcount : p + count < 2 ^ a.bits) :
    clampWrite a p count = min count (EEP_SIZE - p) := by
  unfold clampWrite
  rw [← Int.natCast_add, a.sizeT_of_lt hcount, sizeT_rest a hp]
  simp only
  split_ifs <;> omega

/-- A request whose end overflows is cut to `EEP_SIZE` bytes, wherever it starts. -/
theorem clampWrite_of_overflow (hp : p < EEP_SIZE) (hcount : count < 2 ^ a.bits)
    (hover : 2 ^ a.bits ≤ p + count) : clampWrite a p count = EEP_SIZE := by
  have h32 := a.two_pow_32_le
  have hE : EEP_SIZE = 65536 := rfl
  have hsum : a.sizeT ((p : Int) + count) = p + count - 2 ^ a.bits := by
    rw [← Int.natCast_add]
    exact a.sizeT_of_overflow hover (by omega)
  have hfirst : ¬ p + count - 2 ^ a.bits ≥ EEP_SIZE := by omega
  have hsecond : count > EEP_SIZE := by omega
  unfold clampWrite
  rw [hsum]
  simp only
  rw [if_neg hfirst, if_pos hsecond]

theorem clampWrite_le (cp : Int) (count : Nat) : clampWrite a cp count ≤ EEP_SIZE := by
  unfold clampWrite
  simp only
  split_ifs <;> omega

end

/-! ## Read -/

section

variable (a : Arch) {k : Kern} {c : ReadCall}

/-- `eep_read` into a buffer of `count` bytes, the transfer acknowledged. -/
def readCall (count : Nat) : ReadCall := ⟨false, true, count, count, 0⟩

/-- The bytes that the transfer of a read of `n` bytes brings; none if it fails. The length of
the message has 16 bits. -/
def fetched (k : Kern) (ack : Bool) (n : Nat) : List U8 :=
  if ack then (k.chip.transfer [.write (regBytes k.dev.current_pointer), .read (n % 2 ^ 16)]).2
  else []

theorem fetched_true {p n : Nat} (hp : k.dev.current_pointer = p) (hlt : p < EEP_SIZE) :
    fetched k true n = slice (fun i => k.chip.cell (i % 65536)) p (n % 2 ^ 16) := by
  show [] ++ (slice _ (address (BitVec.ofInt 8 (k.dev.current_pointer / 256)) _) _ ++ []) = _
  rw [hp, address_regBytes hlt, List.nil_append, List.append_nil]
  rfl

theorem fetched_length_le (k : Kern) (ack : Bool) (n : Nat) : (fetched k ack n).length ≤ n := by
  cases ack with
  | false => exact Nat.zero_le _
  | true =>
      show ([] ++ (slice _ _ (n % 2 ^ 16) ++ [])).length ≤ n
      rw [List.nil_append, List.append_nil, slice_length]
      exact Nat.mod_le _ _

/-- **A read that gets to its transfer**, whatever the transfer brings. The user gets what is
then in `dev->data`; the value returned and the cursor depend on the copy alone. -/
theorem eepRead_of_reads {b : Block U8} {n : Nat} (hb : Holds k.heap k.dev.data b)
    (hsize : b.size = EEP_SIZE) (hkill : c.killed = false) (hpos : c.f_pos < EEP_SIZE)
    (hlt : k.dev.current_pointer < EEP_SIZE) (hn : clampRead a k.dev.current_pointer c.count = n) :
    ∃ heap chip, Holds heap k.dev.data { b with elem := splice b.elem 0 (fetched k c.ack n) } ∧
      SameBut k.heap heap k.dev.data ∧ chip.cell = k.chip.cell ∧
      eepRead a k c = .ok
        ⟨if n ≤ c.room then n else - EIO,
          (slice (splice b.elem 0 (fetched k c.ack n)) 0 n).take c.room,
          ⟨{ k.dev with current_pointer :=
              if n ≤ c.room then toInt (a.sizeT (k.dev.current_pointer + n) : Nat)
              else k.dev.current_pointer }, heap, chip⟩⟩ := by
  have hle : n ≤ EEP_SIZE := by
    rw [← hn]
    exact clampRead_le a _ _
  have hbytes := fetched_length_le k c.ack n
  obtain ⟨chip, htr, hcell⟩ : ∃ chip,
      (if c.ack then k.chip.transfer [.write (regBytes k.dev.current_pointer), .read (n % 2 ^ 16)]
        else (k.chip, [])) = (chip, fetched k c.ack n) ∧ chip.cell = k.chip.cell := by
    cases c.ack with
    | false => exact ⟨k.chip, rfl, rfl⟩
    | true => exact ⟨_, rfl, rfl⟩
  rcases store_of_holds hb 0 (fetched k c.ack n) (by omega) with ⟨heap, hs, hb', hsame⟩
  have hcopy := copyToUser_of_holds hb' c.room (n := n) (by simpa [hsize] using hle)
  -- the new cursor as a variable, so that no later step computes with it
  obtain ⟨cur, hcur⟩ : ∃ cur, cur = toInt (a.sizeT (k.dev.current_pointer + n) : Nat) := ⟨_, rfl⟩
  refine ⟨heap, chip, hb', hsame, hcell, ?_⟩
  rw [← hcur]
  simp only [eepRead, hkill, if_neg (not_le.mpr hpos), if_neg (not_le.mpr hlt), hn, htr, hs,
    hcopy, ge_iff_le, Bool.false_eq_true, if_false, ← hcur]
  by_cases hroom : n ≤ c.room
  · have hleft : ¬ (n - c.room ≠ 0) := by omega
    simp only [if_neg hleft, if_pos hroom]
  · have hleft : n - c.room ≠ 0 := by omega
    simp only [if_pos hleft, if_neg hroom]

/-- The exits before the transfer change nothing. -/
theorem eepRead_of_not_reads
    (h : ¬ (c.killed = false ∧ c.f_pos < EEP_SIZE ∧ k.dev.current_pointer < EEP_SIZE)) :
    eepRead a k c = .ok ⟨if c.killed then -EINTR else 0, [], k⟩ := by
  unfold eepRead
  by_cases hkill : c.killed
  · rw [if_pos hkill, if_pos hkill]
  by_cases hpos : c.f_pos ≥ EEP_SIZE
  · rw [if_neg hkill, if_pos hpos, if_neg hkill]
  by_cases heof : k.dev.current_pointer ≥ EEP_SIZE
  · rw [if_neg hkill, if_neg hpos, if_pos heof, if_neg hkill]
  exact absurd ⟨by simpa using hkill, lt_of_not_ge hpos, lt_of_not_ge heof⟩ h

/-- What a read leaves alone, whatever it is asked for and whether or not the transfer
succeeds: it never faults, the chip and the buffer pointer stay, and the cursor stays or moves
by the clamped count. -/
theorem eepRead_frame (hk : Buffered k) :
    ∃ out, eepRead a k c = .ok out ∧ Buffered out.kern ∧ SameBuffer k out.kern ∧
      out.kern.chip.cell = k.chip.cell ∧
      (out.kern.dev.current_pointer = k.dev.current_pointer ∨
        k.dev.current_pointer < EEP_SIZE ∧
          out.kern.dev.current_pointer = toInt (a.sizeT (k.dev.current_pointer +
            clampRead a k.dev.current_pointer c.count) : Nat)) := by
  by_cases hreads : c.killed = false ∧ c.f_pos < EEP_SIZE ∧ k.dev.current_pointer < EEP_SIZE
  · rcases hreads with ⟨hkill, hpos, hlt⟩
    rcases hk with ⟨b, hb, hsize⟩
    rcases eepRead_of_reads a hb hsize hkill hpos hlt rfl with ⟨heap, chip, hb', hsame, hcell, hrun⟩
    refine ⟨_, hrun, ⟨_, hb', hsize⟩, ⟨rfl, hsame⟩, hcell, ?_⟩
    by_cases hroom : clampRead a k.dev.current_pointer c.count ≤ c.room
    · exact Or.inr ⟨hlt, if_pos hroom⟩
    · exact Or.inl (if_neg hroom)
  · exact ⟨_, eepRead_of_not_reads a hreads, hk, SameBuffer.refl k, rfl, Or.inl rfl⟩

/-- A read that is not interrupted, with a transfer that succeeds and room for the bytes. -/
theorem eepRead_of_ack {p : Nat} {b : Block U8} (hp : k.dev.current_pointer = p)
    (hlt : p < EEP_SIZE) (hb : Holds k.heap k.dev.data b) (hsize : b.size = EEP_SIZE)
    (hkill : c.killed = false) (hack : c.ack = true) (hpos : c.f_pos < EEP_SIZE)
    (hroom : clampRead a p c.count ≤ c.room) (hfit : p + clampRead a p c.count % 2 ^ 16 ≤ EEP_SIZE) :
    ∃ out, eepRead a k c = .ok out ∧ out.ret = clampRead a p c.count ∧
      out.kern.dev.current_pointer = (p + clampRead a p c.count : Nat) ∧
      out.user = slice (splice b.elem 0 (slice k.chip.cell p (clampRead a p c.count % 2 ^ 16))) 0
        (clampRead a p c.count) ∧
      Holds out.kern.heap out.kern.dev.data { b with
        elem := splice b.elem 0 (slice k.chip.cell p (clampRead a p c.count % 2 ^ 16)) } ∧
      out.kern.chip.cell = k.chip.cell := by
  rcases eepRead_of_reads a hb hsize hkill hpos (by rw [hp]; exact Int.ofNat_lt.mpr hlt)
    (by rw [hp]) with ⟨heap, chip, hb', -, hcell, hrun⟩
  -- the read does not run past the end of the chip
  have hbytes : fetched k c.ack (clampRead a p c.count)
      = slice k.chip.cell p (clampRead a p c.count % 2 ^ 16) := by
    rw [hack, fetched_true hp hlt]
    refine slice_congr fun i _ hi => ?_
    have hi' : i < 65536 := Nat.lt_of_lt_of_le hi hfit
    rw [Nat.mod_eq_of_lt hi']
  rw [hbytes] at hb' hrun
  rw [hp, cursor_add a hlt (clampRead_le a p c.count)] at hrun
  refine ⟨_, hrun, if_pos hroom, if_pos hroom, ?_, hb', hcell⟩
  exact List.take_of_length_le (by rw [slice_length]; exact hroom)

end

/-! ## Write -/

section

variable (a : Arch) {k : Kern} {c : WriteCall}

/-- `eep_write` of a whole buffer, every message acknowledged. -/
def writeCall (buf : List U8) : WriteCall := ⟨false, fun _ => true, buf, buf.length, 0⟩

/-- The call gets past its checks and its copy, to the sending part. -/
def WriteCall.Sends (a : Arch) (k : Kern) (c : WriteCall) : Prop :=
  c.killed = false ∧ k.dev.current_pointer < EEP_SIZE ∧ c.f_pos < EEP_SIZE ∧
    clampWrite a k.dev.current_pointer c.count ≤ c.buf.length

/-- The request reaches the end of the page it starts in, and its end does not overflow. -/
def WriteCall.Fits (a : Arch) (k : Kern) (c : WriteCall) : Prop :=
  remainInPage k.dev.current_pointer ≤ c.count ∧
    k.dev.current_pointer + c.count < (2 ^ a.bits : Nat)

/-- The exits before the sending part return an error and change nothing but the contents of
the buffer. -/
theorem eepWrite_of_not_sends (hk : Buffered k) (hsends : ¬ c.Sends a k) :
    ∃ ret heap, ret < 0 ∧ eepWrite a k c = ⟨.ok ret, { k with heap := heap }, []⟩ ∧
      Buffered { k with heap := heap } ∧ SameBuffer k { k with heap := heap } := by
  have hstay : ∀ ret : Int, ret < 0 → ∃ r heap, r < 0 ∧
      (⟨.ok ret, k, []⟩ : WriteOut) = ⟨.ok r, { k with heap := heap }, []⟩ ∧
      Buffered { k with heap := heap } ∧ SameBuffer k { k with heap := heap } :=
    fun ret hret => ⟨ret, k.heap, hret, rfl, hk, SameBuffer.refl k⟩
  unfold eepWrite
  by_cases hkill : c.killed
  · rw [if_pos hkill]
    exact hstay _ (by decide)
  by_cases heof : k.dev.current_pointer ≥ EEP_SIZE
  · rw [if_neg hkill, if_pos heof]
    exact hstay _ (by decide)
  by_cases hpos : c.f_pos ≥ EEP_SIZE
  · rw [if_neg hkill, if_neg heof, if_pos hpos]
    exact hstay _ (by decide)
  rw [if_neg hkill, if_neg heof, if_neg hpos]
  rcases hk with ⟨b, hb, hsize⟩
  obtain ⟨h', hcopy, hb', hsame⟩ := copyFromUser_of_holds hb c.buf
    (n := clampWrite a k.dev.current_pointer c.count) (by rw [hsize]; exact clampWrite_le a _ _)
  -- all checks are passed, so it is the copy that is not complete
  have hleft : clampWrite a k.dev.current_pointer c.count - c.buf.length ≠ 0 := by
    intro hzero
    exact hsends ⟨by simpa using hkill, lt_of_not_ge heof, lt_of_not_ge hpos, by omega⟩
  simp only [hcopy, if_pos hleft]
  exact ⟨_, h', by decide, rfl, ⟨_, hb', hsize⟩, rfl, hsame⟩

/-- A call that sends, in full: what `sendAll` makes of the planned list. -/
theorem eepWrite_of_sends (hk : Buffered k) (hsends : c.Sends a k) :
    ∃ heap b, Holds heap k.dev.data b ∧ b.size = EEP_SIZE ∧ SameBut k.heap heap k.dev.data ∧
      (∀ n, n ≤ clampWrite a k.dev.current_pointer c.count →
        slice b.elem 0 n = c.buf.take n) ∧
      ∀ ret w, atEnd (sendAll ⟨heap, k.dev.data, clampWrite a k.dev.current_pointer c.count, c.ack⟩
          (plan a k.dev.current_pointer (clampWrite a k.dev.current_pointer c.count))
          ⟨k.dev.current_pointer, k.dev.current_pointer, 0, 0, k.chip, []⟩) = (ret, w) →
        eepWrite a k c
          = ⟨ret, ⟨{ k.dev with current_pointer := w.current_pointer }, heap, w.chip⟩, w.sent⟩ := by
  rcases hsends with ⟨hkill, hlt, hpos, hbuf⟩
  rcases hk with ⟨b, hb, hsize⟩
  set n := clampWrite a k.dev.current_pointer c.count with hn
  obtain ⟨h', hcopy, hb', hsame⟩ := copyFromUser_of_holds hb c.buf (n := n)
    (by rw [hsize]; exact clampWrite_le a _ _)
  have hpad : n - c.buf.length = 0 := by omega
  rw [hpad] at hcopy
  rw [hpad, List.replicate_zero, List.append_nil] at hb'
  refine ⟨h', _, hb', hsize, hsame, ?_, ?_⟩
  · intro m hm
    have hlen : (c.buf.take n).length = n := by rw [List.length_take]; omega
    have hall := slice_splice_self b.elem 0 (c.buf.take n)
    rw [hlen] at hall
    show slice (splice b.elem 0 (c.buf.take n)) 0 m = _
    rw [← take_slice _ 0 hm, hall, List.take_take, Nat.min_eq_left hm]
  · intro ret w hend
    simp only [eepWrite, hkill, if_neg (not_le.mpr hlt), if_neg (not_le.mpr hpos), ge_iff_le,
      Bool.false_eq_true, if_false, ← hn, hcopy, ne_eq, not_true_eq_false, atEnd_eepWriteBody, hend]

/-- A write never moves the buffer. -/
theorem eepWrite_frame (hk : Buffered k) :
    Buffered (eepWrite a k c).kern ∧ SameBuffer k (eepWrite a k c).kern := by
  by_cases hsends : c.Sends a k
  · rcases eepWrite_of_sends a hk hsends with ⟨heap, b, hb, hsize, hsame, -, hrun⟩
    rw [hrun _ _ rfl]
    exact ⟨⟨b, hb, hsize⟩, rfl, hsame⟩
  · rcases eepWrite_of_not_sends a hk hsends with ⟨ret, heap, -, hrun, hbuf, hsame⟩
    rw [hrun]
    exact ⟨hbuf, hsame⟩

/-- **A write that fits.** It commits some first bytes of the request to the cells from the
cursor on and moves the cursor past them; it commits all of them if every message is
acknowledged. Every message it sends is in bounds. -/
theorem eepWrite_of_fits {p : Nat} (hp : k.dev.current_pointer = p) (hk : Buffered k)
    (hfits : c.Sends a k → c.Fits a k) :
    ∃ ret n, (eepWrite a k c).ret = .ok ret ∧
      (eepWrite a k c).kern.dev.current_pointer = (p + n : Nat) ∧
      n ≤ min c.count (EEP_SIZE - p) ∧
      (eepWrite a k c).kern.chip.cell = splice k.chip.cell p (c.buf.take n) ∧
      (∀ m ∈ (eepWrite a k c).sent, m.InBounds) ∧
      (c.Sends a k → (∀ i, c.ack i = true) → n = min c.count (EEP_SIZE - p) ∧ ret = n) := by
  by_cases hsends : c.Sends a k
  · have hfit := hfits hsends
    rcases eepWrite_of_sends a hk hsends with ⟨heap, b, hb, hsize, -, hslice, hrun⟩
    have hlt : p < EEP_SIZE := by
      have := hsends.2.1
      omega
    unfold WriteCall.Fits at hfit
    rw [hp, remainInPage_natCast] at hfit
    have hclamp : clampWrite a k.dev.current_pointer c.count = min c.count (EEP_SIZE - p) := by
      rw [hp]
      exact clampWrite_eq a hlt (by omega)
    rw [hclamp] at hslice hrun
    set n := min c.count (EEP_SIZE - p) with hn
    rw [hp] at hrun
    -- the clamp does not cut into the head, because the chip ends at the end of a page
    have hpage : headLen p ≤ EEP_SIZE - p := headLen_le hlt
    have hhead : headLen p ≤ n := by omega
    have hstart : (⟨p, p, 0, 0, k.chip, []⟩ : Wr).At p 0 := ⟨rfl, rfl, rfl⟩
    obtain ⟨w, m, ret, hend, hprog, hm, hall⟩ := sendAll_progress
      ⟨heap, k.dev.data, n, c.ack⟩ hb hsize (by show p + n ≤ _; omega)
      (plan a p n) 0 _ hstart (planned_plan a)
      (by rw [plan_sum a (by omega) hhead]; show 0 + n ≤ n; omega)
    rw [plan_sum a (by omega) hhead] at hm hall
    rw [hrun _ _ hend]
    refine ⟨ret, m, rfl, ?_, hm, ?_, ?_, ?_⟩
    · show w.current_pointer = _
      rw [hprog.pos.cursor, Nat.zero_add]
    · show w.chip.cell = _
      rw [hprog.chip, hslice m hm, Nat.add_zero]
    · intro x hx
      exact (hprog.sent x hx).resolve_left (by simp)
    · intro _ hacks
      rcases hall hacks with ⟨hmn, hret⟩
      exact ⟨hmn, by rw [hret rfl, hmn]; simp⟩
  · rcases eepWrite_of_not_sends a hk hsends with ⟨ret, heap, -, hrun, -, -⟩
    rw [hrun]
    exact ⟨ret, 0, rfl, by simpa using hp, Nat.zero_le _, by simp, by simp,
      fun h => absurd h hsends⟩

/-- **A write that ends inside its page.** It sends more than the request, so it does not
return the length of the request, if it returns at all. -/
theorem eepWrite_of_short {p n : Nat} (hp : k.dev.current_pointer = p) (hk : Buffered k)
    (hsends : c.Sends a k) (hack : ∀ i, c.ack i = true) (hclamp : clampWrite a p c.count = n)
    (hshort : n < headLen p) : (eepWrite a k c).ret ≠ .ok n := by
  rcases eepWrite_of_sends a hk hsends with ⟨heap, b, -, -, -, -, hrun⟩
  rw [hrun _ _ rfl]
  intro hret
  rw [hp, hclamp] at hret
  have heq := ret_of_sendAll hack (plan a p n) _ (plan_lengths a p n) rfl (Prod.ext hret rfl)
  have hsum := lt_plan_sum_of_short a hshort
  change ((n : Nat) : Int) = 0 + ((plan a p n).sum : Nat) at heq
  omega

end

end LinuxDrivers.Eeprom
