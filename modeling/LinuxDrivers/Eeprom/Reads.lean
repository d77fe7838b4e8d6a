import LinuxDrivers.Eeprom.Requests

set_option autoImplicit false

/-! # One call of `eep_read`

`ReadsOrFails` is what a call at the cursor `p` should do: bring what is left of the chip, as
much of it as asked for, or fail and stay where it is. The code only logs a transfer that
fails and hands out what was in `dev->data` before. `readsOrFails_iff` gives the exact
condition (`ReadsClean`), which also excludes the request for the whole chip, whose length does
not fit the 16 bits of the message, and requests whose end overflows. -/

namespace LinuxDrivers.Eeprom

open Lib

/-- The bytes of a read that are left of the chip. -/
def readLen (p count : Nat) : Nat := min count (EEP_SIZE - p)

/-- The call at `p` brings the cells from `p` on and moves the cursor past them, or it returns
an error and leaves the cursor. -/
structure ReadsOrFails (a : Arch) (k : Kern) (p : Nat) (c : ReadCall) : Prop where
  served : c.killed = false → c.ack = true → readLen p c.count ≤ c.room →
    ∃ out, eepRead a k c = .ok out ∧ out.user = slice k.chip.cell p (readLen p c.count) ∧
      out.ret = readLen p c.count ∧
      out.kern.dev.current_pointer = (p + readLen p c.count : Nat)
  failed : ¬ (c.killed = false ∧ c.ack = true ∧ readLen p c.count ≤ c.room) →
    ∃ out, eepRead a k c = .ok out ∧ out.ret < 0 ∧ out.kern.dev.current_pointer = p

/-- The lock is interrupted or the copy to the user fails; or else the transfer succeeds, the
end of the request does not overflow, and a request for the whole chip finds its bytes in
`dev->data`. In the last case the transfer fails and an overflowing request asks the user for
more room than there is. -/
def ReadsClean (a : Arch) (k : Kern) (data : Nat → U8) (p : Nat) (c : ReadCall) : Prop :=
  c.killed = true ∨ c.room < readLen p c.count ∨
    (c.ack = true ∧ p + c.count < 2 ^ a.bits ∧
      (p = 0 → EEP_SIZE ≤ c.count → slice data 0 EEP_SIZE = slice k.chip.cell 0 EEP_SIZE)) ∨
    (c.ack = false ∧ 2 ^ a.bits ≤ p + c.count ∧ c.room < EEP_SIZE)

section

variable {a : Arch} {k : Kern} {c : ReadCall} {p : Nat}

/-- The law in terms of what the call has done. -/
theorem readsOrFails_of_ok {ret cur : Int} {user : List U8} {kern : Kern}
    (hrun : eepRead a k c = .ok ⟨ret, user, kern⟩) (hcur : kern.dev.current_pointer = cur)
    (hkill : c.killed = false) :
    ReadsOrFails a k p c ↔
      (c.ack = true ∧ readLen p c.count ≤ c.room →
        user = slice k.chip.cell p (readLen p c.count) ∧ ret = readLen p c.count ∧
          cur = (p + readLen p c.count : Nat)) ∧
      (¬ (c.ack = true ∧ readLen p c.count ≤ c.room) → ret < 0 ∧ cur = p) := by
  subst hcur
  constructor
  · rintro ⟨hserved, hfailed⟩
    constructor
    · rintro ⟨hack, hroom⟩
      rcases hserved hkill hack hroom with ⟨out, hrun', h⟩
      cases hrun.symm.trans hrun'
      exact h
    · intro hnot
      rcases hfailed fun h => hnot h.2 with ⟨out, hrun', h⟩
      cases hrun.symm.trans hrun'
      exact h
  · rintro ⟨hserved, hfailed⟩
    exact ⟨fun _ hack hroom => ⟨_, hrun, hserved ⟨hack, hroom⟩⟩,
      fun hnot => ⟨_, hrun, hfailed fun h => hnot ⟨hkill, h⟩⟩⟩

/-- What `dev->data` holds after a transfer whose length fits its 16 bits. -/
theorem slice_fetched {data : Nat → U8} {n : Nat} (hp : k.dev.current_pointer = p)
    (hlt : p < EEP_SIZE) (hfit : p + n ≤ EEP_SIZE) (hn : n < 2 ^ 16) :
    slice (splice data 0 (fetched k true n)) 0 n = slice k.chip.cell p n := by
  have hbytes : fetched k true n = slice k.chip.cell p n := by
    rw [fetched_true hp hlt, Nat.mod_eq_of_lt hn]
    refine slice_congr fun i _ hi => ?_
    have hi' : i < 65536 := Nat.lt_of_lt_of_le hi hfit
    rw [Nat.mod_eq_of_lt hi']
  have hself := slice_splice_self data 0 (slice k.chip.cell p n)
  rw [slice_length] at hself
  rw [hbytes, hself]

/-- The message of a request for the whole chip has length zero. -/
theorem fetched_whole (ack : Bool) : fetched k ack EEP_SIZE = [] := by
  cases ack with
  | false => rfl
  | true => rfl

/-- The bytes that are handed out after a transfer that succeeds. -/
theorem slice_fetched_iff {data : Nat → U8} (hp : k.dev.current_pointer = p) (hlt : p < EEP_SIZE) :
    slice (splice data 0 (fetched k true (readLen p c.count))) 0 (readLen p c.count)
        = slice k.chip.cell p (readLen p c.count) ↔
      (p = 0 → EEP_SIZE ≤ c.count → slice data 0 EEP_SIZE = slice k.chip.cell 0 EEP_SIZE) := by
  have hE : EEP_SIZE = 65536 := rfl
  have hm : readLen p c.count = min c.count (EEP_SIZE - p) := rfl
  by_cases hwhole : p = 0 ∧ EEP_SIZE ≤ c.count
  · rcases hwhole with ⟨rfl, hge⟩
    have hlen : readLen 0 c.count = EEP_SIZE := by omega
    rw [hlen, fetched_whole, splice_nil]
    exact ⟨fun h _ _ => h, fun h => h rfl hge⟩
  · exact iff_of_true (slice_fetched hp hlt (by omega) (by omega))
      fun h0 hge => absurd ⟨h0, hge⟩ hwhole

end

/-! ## The calls that reach the transfer -/

section

variable {a : Arch} {k : Kern} {c : ReadCall} {p : Nat} {b : Block U8}

/-- A call that reaches the transfer, with the length it asks for. -/
theorem readsOrFails_of_reads (hp : k.dev.current_pointer = p) (hlt : p < EEP_SIZE)
    (hb : Holds k.heap k.dev.data b) (hsize : b.size = EEP_SIZE) (hpos : c.f_pos < EEP_SIZE)
    (hkill : c.killed = false) {n : Nat} (hn : clampRead a p c.count = n) :
    ReadsOrFails a k p c ↔
      (c.ack = true ∧ readLen p c.count ≤ c.room →
        (slice (splice b.elem 0 (fetched k c.ack n)) 0 n).take c.room
            = slice k.chip.cell p (readLen p c.count) ∧
          (if n ≤ c.room then (n : Int) else - EIO) = readLen p c.count ∧
          (if n ≤ c.room then (p + n : Nat) else p : Int) = (p + readLen p c.count : Nat)) ∧
      (¬ (c.ack = true ∧ readLen p c.count ≤ c.room) →
        (if n ≤ c.room then (n : Int) else - EIO) < 0 ∧
          (if n ≤ c.room then (p + n : Nat) else p : Int) = p) := by
  rcases eepRead_of_reads a hb hsize hkill hpos (by rw [hp]; exact Int.ofNat_lt.mpr hlt)
    (by rw [hp]) with ⟨heap, chip, -, -, -, hrun⟩
  rw [hp, cursor_add a hlt (clampRead_le a p c.count), hn] at hrun
  exact readsOrFails_of_ok hrun rfl hkill

variable (hp : k.dev.current_pointer = p) (hlt : p < EEP_SIZE)
  (hb : Holds k.heap k.dev.data b) (hsize : b.size = EEP_SIZE) (hpos : c.f_pos < EEP_SIZE)
  (hkill : c.killed = false)

include hp hlt hb hsize hpos hkill

/-- The copy to the user fails. -/
theorem readsOrFails_of_room (hcount : c.count < 2 ^ a.bits)
    (hroom : c.room < readLen p c.count) : ReadsOrFails a k p c := by
  have hm : readLen p c.count = min c.count (EEP_SIZE - p) := rfl
  have hn : ¬ clampRead a p c.count ≤ c.room := by
    by_cases hover : p + c.count < 2 ^ a.bits
    · rw [clampRead_eq a hlt hover]
      omega
    · rw [clampRead_of_overflow a hlt hcount (by omega)]
      omega
  rw [readsOrFails_of_reads hp hlt hb hsize hpos hkill rfl, if_neg hn, if_neg hn]
  exact ⟨fun h => absurd h.2 (by omega), fun _ => ⟨by decide, rfl⟩⟩

/-- The request is clamped as it should be, so everything depends on the transfer. -/
theorem readsOrFails_of_fits (hover : p + c.count < 2 ^ a.bits)
    (hroom : readLen p c.count ≤ c.room) :
    ReadsOrFails a k p c ↔ c.ack = true ∧
      (p = 0 → EEP_SIZE ≤ c.count → slice b.elem 0 EEP_SIZE = slice k.chip.cell 0 EEP_SIZE) := by
  have hn : clampRead a p c.count = readLen p c.count := clampRead_eq a hlt hover
  have htake : ∀ f : Nat → U8,
      (slice f 0 (readLen p c.count)).take c.room = slice f 0 (readLen p c.count) :=
    fun f => List.take_of_length_le (by rw [slice_length]; exact hroom)
  rw [readsOrFails_of_reads hp hlt hb hsize hpos hkill hn, if_pos hroom, if_pos hroom, htake]
  cases hack : c.ack with
  | false =>
      refine iff_of_false (fun h => ?_) fun h => Bool.false_ne_true h.1
      have := (h.2 fun h' => Bool.false_ne_true h'.1).1
      omega
  | true =>
      rw [slice_fetched_iff hp hlt]
      constructor
      · exact fun h => ⟨rfl, (h.1 ⟨rfl, hroom⟩).1⟩
      · exact fun h => ⟨fun _ => ⟨h.2, rfl, rfl⟩, fun h' => absurd ⟨rfl, hroom⟩ h'⟩

/-- The request overflows and asks for `EEP_SIZE` bytes, more than are left. -/
theorem readsOrFails_of_overflow (hcount : c.count < 2 ^ a.bits) (hover : 2 ^ a.bits ≤ p + c.count)
    (hroom : readLen p c.count ≤ c.room) :
    ReadsOrFails a k p c ↔ c.ack = false ∧ c.room < EEP_SIZE := by
  have hm : readLen p c.count = min c.count (EEP_SIZE - p) := rfl
  rw [readsOrFails_of_reads hp hlt hb hsize hpos hkill (clampRead_of_overflow a hlt hcount hover)]
  cases hack : c.ack with
  | true =>
      refine iff_of_false (fun h => ?_) fun h => Bool.false_ne_true h.1.symm
      have hret := (h.1 ⟨rfl, hroom⟩).2.1
      have herr : - EIO < 0 := by decide
      split_ifs at hret with hfull
      · omega
      · omega
  | false =>
      by_cases hfull : EEP_SIZE ≤ c.room
      · rw [if_pos hfull]
        refine iff_of_false (fun h => ?_) fun h => absurd h.2 (by omega)
        have := (h.2 fun h' => Bool.false_ne_true h'.1).1
        omega
      · rw [if_neg hfull, if_neg hfull]
        exact iff_of_true ⟨fun h => absurd h.1 Bool.false_ne_true, fun _ => ⟨by decide, rfl⟩⟩
          ⟨rfl, by omega⟩

end

/-- **When a read brings what the chip holds or fails cleanly.** -/
theorem readsOrFails_iff (a : Arch) (k : Kern) (p : Nat) (c : ReadCall) (b : Block U8)
    (hp : k.dev.current_pointer = p) (hlt : p < EEP_SIZE) (hb : Holds k.heap k.dev.data b)
    (hsize : b.size = EEP_SIZE) (hpos : c.f_pos < EEP_SIZE) (hcount : c.count < 2 ^ a.bits) :
    ReadsOrFails a k p c ↔ ReadsClean a k b.elem p c := by
  unfold ReadsClean
  by_cases hkill : c.killed = true
  · -- no transfer takes place
    refine iff_of_true ⟨fun h => ?_, fun _ => ?_⟩ (Or.inl hkill)
    · rw [hkill] at h
      cases h
    · exact ⟨⟨- EINTR, [], k⟩, by rw [eepRead, if_pos hkill], by show -EINTR < 0; decide, hp⟩
  have hkill' : c.killed = false := by simpa using hkill
  rw [or_iff_right hkill]
  by_cases hroom : c.room < readLen p c.count
  · exact iff_of_true (readsOrFails_of_room hp hlt hb hsize hpos hkill' hcount hroom) (Or.inl hroom)
  rw [or_iff_right hroom]
  by_cases hover : p + c.count < 2 ^ a.bits
  · have hnot : ¬ 2 ^ a.bits ≤ p + c.count := by omega
    rw [readsOrFails_of_fits hp hlt hb hsize hpos hkill' hover (by omega)]
    constructor
    · exact fun h => Or.inl ⟨h.1, hover, h.2⟩
    · rintro (⟨hack, -, hdata⟩ | ⟨-, h, -⟩)
      · exact ⟨hack, hdata⟩
      · exact absurd h hnot
  · rw [readsOrFails_of_overflow hp hlt hb hsize hpos hkill' hcount (by omega) (by omega)]
    constructor
    · exact fun h => Or.inr ⟨h.1, by omega, h.2⟩
    · rintro (⟨-, h, -⟩ | ⟨hack, -, hfull⟩)
      · exact absurd h hover
      · exact ⟨hack, hfull⟩

/-- A read of five bytes in the middle of the chip. -/
theorem readsOrFails_five : ReadsOrFails .lp64 (openedAt 7) 7 (readCall 5) :=
  (readsOrFails_iff .lp64 (openedAt 7) 7 (readCall 5) ⟨EEP_SIZE, fun _ => 0⟩ rfl (by decide)
    (eepOpen_true ⟨⟨none, 0⟩, Heap.empty, blankChip⟩).2.2.2 rfl (by decide) (by decide)).mpr
    (Or.inr (Or.inr (Or.inl ⟨rfl, by decide, fun h => absurd h (by decide)⟩)))

/-- **A transfer that fails**: the read returns 1 and moves the cursor. -/
theorem not_readsOrFails_nack :
    Buffered (openedAt 0) ∧ ¬ ReadsOrFails .lp64 (openedAt 0) 0 { readCall 1 with ack := false } := by
  refine ⟨openedAt_buffered 0, fun h => ?_⟩
  rcases h.failed (by decide) with ⟨out, hout, hret, -⟩
  have hone : (eepRead .lp64 (openedAt 0) { readCall 1 with ack := false }).toOption.map
      ReadOut.ret = some 1 := by
    decide +kernel
  rw [hout] at hone
  have : out.ret = 1 := Option.some.inj hone
  omega

end LinuxDrivers.Eeprom
