import LinuxDrivers.Eeprom.Cells
import LinuxDrivers.Eeprom.Disclosure
import LinuxDrivers.Eeprom.Returned
import LinuxDrivers.Eeprom.Sessions
import LinuxDrivers.Lib.Simulation

set_option autoImplicit false

/-! # The device as a tape

`Tape` is what the driver makes of the chip, without a heap, an `int`, a bus message or an address
byte: the cells, the address of the next call, and the bytes that earlier calls have left in the
buffer, as long as there is one.

Any number of files open, read, write and release the device, one whole call after the other.
`filesMachine` is the driver with its answers, `tapeMachine` the tape with the same calls, and
`driver_answers_eq` says that no sequence of calls can tell them apart: not by a value returned, not
by a byte, and not by a fault. -/

namespace LinuxDrivers.Eeprom

open Lib

/-- What a call answers: the value returned and the bytes for the user. -/
abbrev Answer := Except Fault (Int × List U8)

/-! ## The driver with its answers -/

def filesAnswer (a : Arch) (s : Files) : FilesEvent → Answer
  | .opening _ avail => .ok ((eepOpen avail s.kern).1, [])
  | .read _ c => (eepRead a s.kern c).map ReadOut.answer
  | .write _ c => (eepWrite a s.kern c).ret.map (fun ret => (ret, []))
  | .release _ => (eepRelease s.kern).map (fun r => (r.1, []))

/-- Several open files on a machine with 64 bits. -/
def filesMachine : Machine Files FilesEvent Answer := ⟨filesStep .lp64, filesAnswer .lp64⟩

/-! ## The tape -/

structure Tape where
  cell : Nat → U8
  buf : Option (Nat → U8)
  pos : Nat
  opened : Finset Nat
  stopped : Bool

def Tape.start (cell : Nat → U8) : Tape := ⟨cell, none, 0, ∅, false⟩

/-- The answer of a call that stops the kernel: there is no buffer. -/
def Tape.halt (t : Tape) : Tape × Answer := ({ t with stopped := true }, .error .nullDeref)

def Tape.opening (t : Tape) (f : Nat) (avail : Bool) : Tape × Answer :=
  if avail then
    ({ t with buf := some fun _ => 0, pos := 0, opened := insert f t.opened }, .ok (0, []))
  else ({ t with buf := none, pos := 0 }, .ok (-ENOMEM, []))

/-- The bytes that a read of `n` bytes brings from the chip. -/
def Tape.fetched (t : Tape) (ack : Bool) (n : Nat) : List U8 :=
  if ack then slice (fun i => t.cell (i % EEP_SIZE)) t.pos (n % 2 ^ 16) else []

def Tape.read (t : Tape) (c : ReadCall) : Tape × Answer :=
  if c.killed then (t, .ok (-EINTR, []))
  else if EEP_SIZE ≤ c.f_pos ∨ EEP_SIZE ≤ t.pos then (t, .ok (0, []))
  else
    let n := writeLen .lp64 t.pos c.count
    match t.buf with
    | none => if n = 0 then (t, .ok (0, [])) else t.halt
    | some buf =>
        let buf := splice buf 0 (t.fetched c.ack n)
        if n ≤ c.room then ({ t with buf := some buf, pos := t.pos + n }, .ok (n, slice buf 0 n))
        else ({ t with buf := some buf }, .ok (- EIO, (slice buf 0 n).take c.room))

/-- The first `m` bytes of the buffer are on the tape. -/
def Tape.put (t : Tape) (buf : Nat → U8) (m : Nat) : Tape :=
  { t with
    buf := some buf
    cell := ringSplice EEP_SIZE t.cell t.pos (slice buf 0 m)
    pos := t.pos + m }

/-- What a request of `n` bytes sends: a request that does not reach the end of the page it
starts in sends a page more. -/
def sentLen (p n : Nat) : Nat := if headLen p ≤ n then n else n + EEP_PAGE_SIZE

def Tape.send (t : Tape) (buf : Nat → U8) (len : Nat) (ack : Nat → Bool) : Tape × Answer :=
  match firstRefused ack (pagesOf t.pos len) with
  | none => (t.put buf len, .ok (len, []))
  | some j => (t.put buf (bytesBefore t.pos j), .ok (-1, []))

def Tape.write (t : Tape) (c : WriteCall) : Tape × Answer :=
  if c.killed then (t, .ok (-EINTR, []))
  else if EEP_SIZE ≤ t.pos ∨ EEP_SIZE ≤ c.f_pos then (t, .ok (-EINVAL, []))
  else
    let n := writeLen .lp64 t.pos c.count
    match t.buf with
    | none => if n = 0 then (t, .ok (0, [])) else t.halt
    | some buf =>
        let buf := afterCopy buf c.buf n
        if c.buf.length < n then ({ t with buf := some buf }, .ok (-EFAULT, []))
        else t.send buf (sentLen t.pos n) c.ack

def Tape.release (t : Tape) (f : Nat) : Tape × Answer :=
  ({ t with buf := none, pos := 0, opened := t.opened.erase f }, .ok (0, []))

/-- A file is opened while it is not open, and everything else is done through an open file. -/
def Tape.Takes (t : Tape) : FilesEvent → Prop
  | .opening f _ => t.stopped = false ∧ f ∉ t.opened
  | .read f _ | .write f _ | .release f => t.stopped = false ∧ f ∈ t.opened

instance (t : Tape) : ∀ e, Decidable (t.Takes e)
  | .opening f _ => inferInstanceAs (Decidable (t.stopped = false ∧ f ∉ t.opened))
  | .read f _ | .write f _ | .release f =>
      inferInstanceAs (Decidable (t.stopped = false ∧ f ∈ t.opened))

def Tape.call (t : Tape) : FilesEvent → Tape × Answer
  | .opening f avail => t.opening f avail
  | .read _ c => t.read c
  | .write _ c => t.write c
  | .release f => t.release f

def tapeMachine : Machine Tape FilesEvent Answer where
  step t e := if t.Takes e then some (t.call e).1 else none
  answer t e := (t.call e).2

/-- The counts are values of `size_t`. -/
def FilesEvent.InRange : FilesEvent → Prop
  | .read _ c => c.count < 2 ^ 64
  | .write _ c => c.count < 2 ^ 64
  | _ => True

/-! ## What the tape stands for -/

structure Represents (s : Files) (t : Tape) : Prop where
  opened : s.opened = t.opened
  stopped : s.stopped = t.stopped
  cell : s.kern.chip.cell = t.cell
  pos : s.kern.dev.current_pointer = t.pos
  buffer : ∀ f, t.buf = some f → Holds s.kern.heap s.kern.dev.data ⟨EEP_SIZE, f⟩
  noBuffer : t.buf = none → s.kern.dev.data = none ∧ t.pos = 0

theorem represents_start (chip : Chip) : Represents (Files.start chip) (Tape.start chip.cell) where
  opened := rfl
  stopped := rfl
  cell := rfl
  pos := rfl
  buffer f hf := by cases hf
  noBuffer _ := ⟨rfl, rfl⟩

/-! ## The lengths -/

section

variable {p n count : Nat}

theorem clampRead_eq_writeLen (hp : p < EEP_SIZE) (hcount : count < 2 ^ 64) :
    clampRead .lp64 p count = writeLen .lp64 p count := by
  unfold writeLen
  split_ifs with hover
  · exact clampRead_eq .lp64 hp hover
  · exact clampRead_of_overflow .lp64 hp hcount (Nat.le_of_not_lt hover)

theorem plan_sum_eq_sentLen (hn : n ≤ EEP_SIZE) : (plan .lp64 p n).sum = sentLen p n := by
  unfold sentLen EEP_PAGE_SIZE
  split_ifs with hpage
  · exact plan_sum .lp64 hn hpage
  · rw [plan_sum_short (Nat.lt_of_not_le hpage), Nat.add_comm]

theorem writeLen_le (hp : p < EEP_SIZE) : writeLen .lp64 p count ≤ EEP_SIZE := by
  unfold writeLen
  split_ifs <;> omega

end

/-! ## The calls without a buffer -/

section

variable {k : Kern}

/-- Reading through a NULL buffer stops the kernel unless there is nothing to read. -/
theorem eepRead_of_null {c : ReadCall} {n : Nat} (hdata : k.dev.data = none)
    (hp : k.dev.current_pointer = (0 : Nat)) (hkill : c.killed = false) (hpos : c.f_pos < EEP_SIZE)
    (hn : clampRead .lp64 (0 : Nat) c.count = n) :
    (n = 0 → ∃ chip, chip.cell = k.chip.cell ∧
        eepRead .lp64 k c = .ok ⟨0, [], { k with chip := chip }⟩) ∧
      (n ≠ 0 → eepRead .lp64 k c = .error .nullDeref) := by
  have heof : ¬ ((0 : Nat) : Int) ≥ EEP_SIZE := by decide
  have hbytes := fetched_length_le k c.ack n
  obtain ⟨chip, htr, hcell⟩ : ∃ chip,
      (if c.ack then k.chip.transfer [.write (regBytes (0 : Nat)), .read (n % 2 ^ 16)]
        else (k.chip, [])) = (chip, fetched k c.ack n) ∧ chip.cell = k.chip.cell := by
    rw [← hp]
    cases c.ack with
    | false => exact ⟨k.chip, rfl, rfl⟩
    | true => exact ⟨_, rfl, rfl⟩
  constructor
  · intro hzero
    have hnil : fetched k c.ack n = [] := List.length_eq_zero_iff.mp (by omega)
    refine ⟨chip, hcell, ?_⟩
    rw [hnil] at htr
    subst hzero
    simp only [eepRead, hkill, if_neg (not_le.mpr hpos), if_neg heof, hp, hn, htr, hdata, store,
      copyToUser, load, ge_iff_le, Bool.false_eq_true, if_false, if_true]
    have hcur : toInt (Arch.lp64.sizeT (((0 : Nat) : Int) + (0 : Nat)) : Nat) = (0 : Nat) :=
      cursor_add .lp64 (by decide) (Nat.zero_le _)
    have hdev : (⟨none, (0 : Nat)⟩ : EepDev) = k.dev := by
      rw [← hdata, ← hp]
    rw [if_neg (by omega), List.take_nil, hcur, hdev]
    rfl
  · intro hpos'
    simp only [eepRead, hkill, if_neg (not_le.mpr hpos), if_neg heof, hp, hn, htr, hdata, store,
      copyToUser, load, deref, ge_iff_le, Bool.false_eq_true, if_false, if_neg hpos']
    split_ifs <;> rfl

/-- So does writing. -/
theorem eepWrite_of_null {c : WriteCall} {n : Nat} (hdata : k.dev.data = none)
    (hp : k.dev.current_pointer = (0 : Nat)) (hkill : c.killed = false) (hpos : c.f_pos < EEP_SIZE)
    (hn : clampWrite .lp64 (0 : Nat) c.count = n) :
    (n = 0 → eepWrite .lp64 k c = ⟨.ok 0, k, []⟩) ∧
      (n ≠ 0 → eepWrite .lp64 k c = ⟨.error .nullDeref, k, []⟩) := by
  have heof : ¬ ((0 : Nat) : Int) ≥ EEP_SIZE := by decide
  constructor
  · intro hzero
    subst hzero
    have hplan : plan .lp64 (0 : Nat) 0 = [] := by decide
    have hend : atEnd (eepWriteBody .lp64 ⟨k.heap, none, 0, c.ack⟩
        ⟨(0 : Nat), (0 : Nat), 0, 0, k.chip, []⟩)
          = (.ok 0, ⟨(0 : Nat), (0 : Nat), 0, 0, k.chip, []⟩) := by
      rw [atEnd_eepWriteBody, hplan]
      rfl
    have hdev : (⟨none, (0 : Nat)⟩ : EepDev) = k.dev := by
      rw [← hdata, ← hp]
    simp only [eepWrite, hkill, if_neg (not_le.mpr hpos), if_neg heof, hp, hn, hdata, copyFromUser,
      store, ge_iff_le, Bool.false_eq_true, if_false, List.take_zero, Nat.zero_sub,
      List.replicate_zero, List.append_nil, if_true, ne_eq, not_true_eq_false, hend, hdev]
  · intro hpos'
    have hbytes : ¬ c.buf.take n ++ List.replicate (n - c.buf.length) 0 = [] := by
      rw [← List.length_eq_zero_iff, List.length_append, List.length_take, List.length_replicate]
      omega
    simp only [eepWrite, hkill, if_neg (not_le.mpr hpos), if_neg heof, hp, hn, hdata, copyFromUser,
      store, deref, ge_iff_le, Bool.false_eq_true, if_false, if_neg hbytes]

end

/-! ## The driver follows the tape -/

section

variable {s : Files} {t : Tape} {f : Nat}

/-- The driver's answer to a call that the tape takes, and the state it leads to. -/
def Follows (s : Files) (e : FilesEvent) (r : Tape × Answer) : Prop :=
  ∃ s', filesStep .lp64 s e = some s' ∧ filesAnswer .lp64 s e = r.2 ∧ Represents s' r.1

theorem Represents.ready (h : Represents s t) (htakes : t.stopped = false ∧ f ∈ t.opened) :
    ¬ (s.stopped = true ∨ f ∉ s.opened) := by
  rw [h.stopped, h.opened, htakes.1]
  simpa using htakes.2

theorem Represents.halt (h : Represents s t) : Represents { s with stopped := true } t.halt.1 :=
  ⟨h.opened, rfl, h.cell, h.pos, h.buffer, h.noBuffer⟩

theorem follows_opening {avail : Bool} (h : Represents s t) (htakes : t.Takes (.opening f avail)) :
    Follows s (.opening f avail) (t.opening f avail) := by
  rcases htakes with ⟨hrun, hf⟩
  have hready : ¬ (s.stopped = true ∨ f ∈ s.opened) := by
    rw [h.stopped, h.opened, hrun]
    simpa using hf
  cases avail with
  | true =>
      rcases eepOpen_true s.kern with ⟨hret, hcur, hchip, hbuf⟩
      refine ⟨{ s with kern := (eepOpen true s.kern).2, opened := insert f s.opened }, ?_, ?_, ?_⟩
      · simp only [filesStep, if_neg hready, hret, if_true]
      · show Except.ok ((eepOpen true s.kern).1, []) = Except.ok (0, [])
        rw [hret]
      · refine ⟨congrArg (insert f) h.opened, h.stopped, ?_, hcur, ?_, ?_⟩
        · exact (congrArg Chip.cell hchip).trans h.cell
        · intro g hg
          obtain rfl := Option.some.inj hg
          exact hbuf
        · intro hnone
          cases hnone
  | false =>
      refine ⟨{ s with kern := { s.kern with dev := ⟨none, 0⟩ } }, ?_, ?_, ?_⟩
      · simp only [filesStep, if_neg hready, eepOpen_false]
        rfl
      · show Except.ok ((eepOpen false s.kern).1, []) = Except.ok (-ENOMEM, [])
        rw [eepOpen_false]
      · refine ⟨h.opened, h.stopped, h.cell, rfl, ?_, fun _ => ⟨rfl, rfl⟩⟩
        intro g hg
        cases hg

theorem follows_release (h : Represents s t) (htakes : t.Takes (.release f)) :
    Follows s (.release f) (t.release f) := by
  have hready := h.ready htakes
  obtain ⟨kern, hrel, hchip, hdev⟩ : ∃ kern, eepRelease s.kern = .ok (0, kern) ∧
      kern.chip = s.kern.chip ∧ kern.dev = ⟨none, 0⟩ := by
    cases hbuf : t.buf with
    | none =>
        rcases h.noBuffer hbuf with ⟨hdata, -⟩
        exact ⟨{ s.kern with dev := ⟨none, 0⟩ }, by simp only [eepRelease, hdata, if_true], rfl, rfl⟩
    | some g =>
        rcases eepRelease_of_buffered ⟨_, h.buffer g hbuf, rfl⟩ with ⟨heap, q, -, hrel, -, -⟩
        exact ⟨_, hrel, rfl, rfl⟩
  refine ⟨{ s with kern := kern, opened := s.opened.erase f }, ?_, ?_, ?_⟩
  · simp only [filesStep, if_neg hready, hrel]
  · simp only [filesAnswer, hrel, Except.map, Tape.release]
  · refine ⟨congrArg (fun o => o.erase f) h.opened, h.stopped, ?_, ?_, ?_, ?_⟩
    · exact (congrArg Chip.cell hchip).trans h.cell
    · show kern.dev.current_pointer = _
      rw [hdev]
      rfl
    · intro g hg
      cases hg
    · exact fun _ => ⟨congrArg EepDev.data hdev, rfl⟩

/-- A read, by what `eep_read` does. -/
theorem follows_of_read {c : ReadCall} {out : ReadOut} {t' : Tape} (h : Represents s t)
    (htakes : t.Takes (.read f c)) (hread : eepRead .lp64 s.kern c = .ok out)
    (ht' : Represents { s with kern := out.kern } t') :
    Follows s (.read f c) (t', .ok out.answer) := by
  have hready := h.ready htakes
  refine ⟨{ s with kern := out.kern }, ?_, ?_, ht'⟩
  · simp only [filesStep, if_neg hready, hread]
  · simp only [filesAnswer, hread, Except.map]

theorem Represents.of_chip (h : Represents s t) {chip : Chip} (hcell : chip.cell = s.kern.chip.cell) :
    Represents { s with kern := { s.kern with chip := chip } } t where
  opened := h.opened
  stopped := h.stopped
  cell := hcell.trans h.cell
  pos := h.pos
  buffer := h.buffer
  noBuffer := h.noBuffer

theorem follows_read {c : ReadCall} (h : Represents s t) (htakes : t.Takes (.read f c))
    (hcount : c.count < 2 ^ 64) : Follows s (.read f c) (t.read c) := by
  have hstay : ¬ (c.killed = false ∧ c.f_pos < EEP_SIZE ∧ s.kern.dev.current_pointer < EEP_SIZE) →
      Follows s (.read f c) (t, .ok (if c.killed then -EINTR else 0, [])) := fun hnot =>
    follows_of_read h htakes (eepRead_of_not_reads .lp64 hnot) h
  unfold Tape.read
  by_cases hkill : c.killed = true
  · have := hstay (fun hread => by rw [hkill] at hread; cases hread.1)
    rw [if_pos hkill] at this
    rw [if_pos hkill]
    exact this
  rw [if_neg hkill]
  by_cases hend : (EEP_SIZE : Int) ≤ c.f_pos ∨ EEP_SIZE ≤ t.pos
  · have := hstay (fun hread => by
      rcases hread with ⟨-, hpos, hlt⟩
      rw [h.pos] at hlt
      omega)
    rw [if_neg hkill] at this
    rw [if_pos hend]
    exact this
  rw [if_neg hend]
  rw [not_or, not_le, not_le] at hend
  rcases hend with ⟨hpos, hlt⟩
  have hkill' : c.killed = false := by simpa using hkill
  have hn := clampRead_eq_writeLen hlt hcount
  have hle : writeLen .lp64 t.pos c.count ≤ EEP_SIZE := writeLen_le hlt
  generalize writeLen .lp64 t.pos c.count = n at hn hle ⊢
  cases hbuf : t.buf with
  | none =>
      rcases h.noBuffer hbuf with ⟨hdata, hzero⟩
      have hp := h.pos
      rw [hzero] at hp hn
      rcases eepRead_of_null hdata hp hkill' hpos hn with ⟨hread, hfault⟩
      simp only
      by_cases hn0 : n = 0
      · rcases hread hn0 with ⟨chip, hcell, hread⟩
        rw [if_pos hn0]
        exact follows_of_read h htakes hread (h.of_chip hcell)
      · rw [if_neg hn0]
        refine ⟨{ s with stopped := true }, ?_, ?_, h.halt⟩
        · simp only [filesStep, if_neg (h.ready htakes), hfault hn0]
        · simp only [filesAnswer, hfault hn0, Except.map, Tape.halt]
  | some g =>
      simp only
      have hbytes : fetched s.kern c.ack n = t.fetched c.ack n := by
        unfold Tape.fetched
        cases c.ack with
        | false => rfl
        | true =>
            rw [fetched_true h.pos hlt, h.cell]
            rfl
      rcases eepRead_of_reads .lp64 (n := n) (h.buffer g hbuf) rfl hkill' hpos
        (by rw [h.pos]; exact Int.ofNat_lt.mpr hlt) (by rw [h.pos]; exact hn) with
        ⟨heap, chip, hb', -, hcell, hread⟩
      rw [hbytes] at hb' hread
      rw [h.pos, cursor_add .lp64 hlt hle] at hread
      by_cases hroom : n ≤ c.room
      · rw [if_pos hroom, if_pos hroom, List.take_of_length_le (by rw [slice_length]; exact hroom)]
          at hread
        rw [if_pos hroom]
        refine follows_of_read h htakes hread ⟨h.opened, h.stopped, hcell.trans h.cell, rfl, ?_, ?_⟩
        · intro g' hg'
          obtain rfl := Option.some.inj hg'
          exact hb'
        · intro hnone
          cases hnone
      · rw [if_neg hroom, if_neg hroom] at hread
        rw [if_neg hroom]
        refine follows_of_read h htakes hread ⟨h.opened, h.stopped, hcell.trans h.cell, rfl, ?_, ?_⟩
        · intro g' hg'
          obtain rfl := Option.some.inj hg'
          exact hb'
        · intro hnone
          cases hnone

/-- A write, by what `eep_write` does. -/
theorem follows_of_write {c : WriteCall} {out : WriteOut} {ret : Int} {t' : Tape} (h : Represents s t)
    (htakes : t.Takes (.write f c)) (hwrite : eepWrite .lp64 s.kern c = out) (hret : out.ret = .ok ret)
    (ht' : Represents { s with kern := out.kern } t') :
    Follows s (.write f c) (t', .ok (ret, [])) := by
  have hs : s.stopped = false := h.stopped.trans htakes.1
  refine ⟨{ s with kern := out.kern, stopped := !out.ret.isOk }, ?_, ?_, ht'.opened, ?_, ht'.cell,
    ht'.pos, ht'.buffer, ht'.noBuffer⟩
  · simp only [filesStep, if_neg (h.ready htakes), hwrite]
  · simp only [filesAnswer, hwrite, hret, Except.map]
  · rw [hret, ← ht'.stopped]
    exact hs.symm

/-- The first `m` bytes of the buffer have been sent. -/
theorem Represents.put (h : Represents s t) {g : Nat → U8} {heap : Heap (Block U8)} {chip : Chip}
    {m : Nat} (hb : Holds heap s.kern.dev.data ⟨EEP_SIZE, g⟩)
    (hcell : chip.cell = ringSplice EEP_SIZE s.kern.chip.cell t.pos (slice g 0 m)) :
    Represents { s with
      kern := ⟨{ s.kern.dev with current_pointer := (t.pos + m : Nat) }, heap, chip⟩ } (t.put g m) where
  opened := h.opened
  stopped := h.stopped
  cell := by
    rw [h.cell] at hcell
    exact hcell
  pos := rfl
  buffer g' hg' := by
    obtain rfl := Option.some.inj hg'
    exact hb
  noBuffer hnone := by cases hnone

theorem follows_write {c : WriteCall} (h : Represents s t) (htakes : t.Takes (.write f c))
    (hcount : c.count < 2 ^ 64) : Follows s (.write f c) (t.write c) := by
  unfold Tape.write
  by_cases hkill : c.killed = true
  · rw [if_pos hkill]
    exact follows_of_write h htakes (by rw [eepWrite, if_pos hkill]) rfl h
  rw [if_neg hkill]
  by_cases heof : EEP_SIZE ≤ t.pos
  · have hge : s.kern.dev.current_pointer ≥ EEP_SIZE := by
      rw [h.pos]
      exact Int.ofNat_le.mpr heof
    rw [if_pos (Or.inl heof)]
    exact follows_of_write h htakes (by rw [eepWrite, if_neg hkill, if_pos hge]) rfl h
  have hlt : ¬ s.kern.dev.current_pointer ≥ EEP_SIZE := by
    rw [h.pos]
    omega
  by_cases hend : (EEP_SIZE : Int) ≤ c.f_pos
  · rw [if_pos (Or.inr hend)]
    exact follows_of_write h htakes (by rw [eepWrite, if_neg hkill, if_neg hlt, if_pos hend]) rfl h
  rw [if_neg (not_or.mpr ⟨heof, hend⟩)]
  rw [not_le] at heof hend
  have hkill' : c.killed = false := by simpa using hkill
  have hn := clampWrite_eq_writeLen .lp64 heof hcount
  have hle : writeLen .lp64 t.pos c.count ≤ EEP_SIZE := writeLen_le heof
  generalize writeLen .lp64 t.pos c.count = n at hn hle ⊢
  cases hbuf : t.buf with
  | none =>
      rcases h.noBuffer hbuf with ⟨hdata, hzero⟩
      have hp := h.pos
      rw [hzero] at hp hn
      rcases eepWrite_of_null hdata hp hkill' hend hn with ⟨hwrite, hfault⟩
      simp only
      by_cases hn0 : n = 0
      · rw [if_pos hn0]
        exact follows_of_write h htakes (hwrite hn0) rfl h
      · rw [if_neg hn0]
        refine ⟨{ s with stopped := true }, ?_, ?_, h.halt⟩
        · simp only [filesStep, if_neg (h.ready htakes), hfault hn0]
          rfl
        · simp only [filesAnswer, hfault hn0, Except.map, Tape.halt]
  | some g =>
      simp only
      have hb := h.buffer g hbuf
      by_cases hshort : c.buf.length < n
      · rcases eepWrite_of_copy .lp64 h.pos hb rfl hkill' heof hend hn with ⟨heap, hb', hwrite, -⟩
        rw [if_pos hshort]
        refine follows_of_write h htakes (hwrite hshort) rfl
          ⟨h.opened, h.stopped, h.cell, h.pos, ?_, ?_⟩
        · intro g' hg'
          obtain rfl := Option.some.inj hg'
          exact hb'
        · intro hnone
          cases hnone
      · rcases eepWrite_ring h.pos hb rfl hkill' heof hend hn (Nat.le_of_not_lt hshort) with
          ⟨heap, chip, ret, m, hb', hcell, hret, hkern, -, hsent⟩
        rw [plan_sum_eq_sentLen hle] at hsent
        have hput : Represents { s with kern := (eepWrite .lp64 s.kern c).kern }
            (t.put (afterCopy g c.buf n) m) := by
          rw [hkern]
          exact h.put hb' hcell
        rw [if_neg hshort]
        unfold Tape.send
        rcases hsent with ⟨hnone, hr, hm⟩ | ⟨j, hj, hr, hm⟩
        · rw [hnone]
          rw [hm] at hput
          rw [hr] at hret
          exact follows_of_write h htakes rfl hret hput
        · rw [hj]
          rw [hm] at hput
          rw [hr] at hret
          exact follows_of_write h htakes rfl hret hput

/-- A call that the tape does not take cannot be made. -/
theorem not_takes {e : FilesEvent} (h : Represents s t) (htakes : ¬ t.Takes e) :
    filesStep .lp64 s e = none := by
  cases e with
  | opening f avail =>
      have hclosed : s.stopped = true ∨ f ∈ s.opened := by
        rw [h.stopped, h.opened]
        by_contra hnot
        rw [not_or, Bool.not_eq_true] at hnot
        exact htakes hnot
      exact if_pos hclosed
  | read f c | write f c | release f =>
      have hclosed : s.stopped = true ∨ f ∉ s.opened := by
        rw [h.stopped, h.opened]
        by_contra hnot
        rw [not_or, Bool.not_eq_true, not_not] at hnot
        exact htakes hnot
      exact if_pos hclosed

theorem follows_call {e : FilesEvent} (h : Represents s t) (htakes : t.Takes e)
    (hrange : e.InRange) : Follows s e (t.call e) := by
  cases e with
  | opening f avail => exact follows_opening h htakes
  | read f c => exact follows_read h htakes hrange
  | write f c => exact follows_write h htakes hrange
  | release f => exact follows_release h htakes

theorem filesMachine_refines :
    filesMachine.Refines tapeMachine (fun _ e => e.InRange) Represents where
  stuck := by
    intro s t e h hrange hstep
    refine if_neg fun htakes => ?_
    rcases follows_call h htakes hrange with ⟨s', hs', -⟩
    rw [show filesStep .lp64 s e = none from hstep] at hs'
    cases hs'
  moves := by
    intro s t e s' h hrange hstep
    have htakes : t.Takes e := by
      by_contra hnot
      rw [show filesMachine.step s e = none from not_takes h hnot] at hstep
      cases hstep
    rcases follows_call h htakes hrange with ⟨u, hu, hans, hrep⟩
    obtain rfl : s' = u := Option.some.inj (hstep.symm.trans hu)
    exact ⟨(t.call e).1, if_pos htakes, hans, hrep⟩

end

/-- A condition on the events alone, met along every run of them. -/
theorem along_inRange {es : List FilesEvent} (hrange : ∀ e ∈ es, e.InRange) (s : Files) :
    Along filesMachine.step (fun _ _ e => e.InRange) s es := by
  intro pre e post _ hes _
  apply hrange
  rw [hes]
  exact List.mem_append_right _ (List.mem_cons_self ..)

/-- **The driver refines the tape.** Whatever is called through whichever file, with any pattern of
acknowledgements, signals and memory, the driver answers as the tape does. -/
theorem driver_answers_eq (chip : Chip) (es : List FilesEvent) (hrange : ∀ e ∈ es, e.InRange) :
    filesMachine.answers (Files.start chip) es = tapeMachine.answers (Tape.start chip.cell) es :=
  filesMachine_refines.answers_eq (represents_start chip) (along_inRange hrange _)

/-- Two files, of which the first one's release takes the buffer away from the second. -/
theorem driver_answers_eq_two :
    filesMachine.answers (Files.start blankChip) [.opening 0 true, .write 0 (writeCall [1, 2, 3]),
        .opening 1 true, .read 1 (readCall 2), .release 0, .read 1 (readCall 1)]
      = tapeMachine.answers (Tape.start blankChip.cell) [.opening 0 true,
        .write 0 (writeCall [1, 2, 3]), .opening 1 true, .read 1 (readCall 2), .release 0,
        .read 1 (readCall 1)] :=
  driver_answers_eq blankChip _ (by simp [FilesEvent.InRange, readCall, writeCall])

end LinuxDrivers.Eeprom
