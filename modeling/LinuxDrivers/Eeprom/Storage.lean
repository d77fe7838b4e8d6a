import LinuxDrivers.Eeprom.Tape

set_option autoImplicit false

/-! # The device as a file of 64 KiB

`Storage` is what a user takes the device for: cells, a position that all open files share, and
reads and writes that move it. A run of the tape behaves like that as long as its calls are clear
(`Clear`): they find a buffer, are not interrupted, have all their messages acknowledged, do not
overflow, and a write reaches the end of the page it starts in. Together with the refinement of
`Tape` this is a statement about the driver (`driver_storage`).

The files share one position, so what several readers get is one copy of the chip, cut into pieces in
the order of the calls (`readers_share`). -/

namespace LinuxDrivers.Eeprom

open Lib

structure Storage where
  cell : Nat → U8
  pos : Nat
  opened : Finset Nat

/-- How much of a request is left of the chip. -/
def Storage.room (u : Storage) (count : Nat) : Nat := min count (EEP_SIZE - u.pos)

def Storage.read (u : Storage) (count : Nat) : Storage × Answer :=
  ({ u with pos := u.pos + u.room count }, .ok (u.room count, slice u.cell u.pos (u.room count)))

def Storage.write (u : Storage) (buf : List U8) (count : Nat) : Storage × Answer :=
  if EEP_SIZE ≤ u.pos then (u, .ok (-EINVAL, []))
  else
    ({ u with cell := splice u.cell u.pos (buf.take (u.room count)), pos := u.pos + u.room count },
      .ok (u.room count, []))

def Storage.call (u : Storage) : FilesEvent → Storage × Answer
  | .opening f true => ({ u with pos := 0, opened := insert f u.opened }, .ok (0, []))
  | .opening _ false => ({ u with pos := 0 }, .ok (-ENOMEM, []))
  | .read _ c => u.read c.count
  | .write _ c => u.write c.buf c.count
  | .release f => ({ u with pos := 0, opened := u.opened.erase f }, .ok (0, []))

def Storage.Takes (u : Storage) : FilesEvent → Prop
  | .opening f _ => f ∉ u.opened
  | .read f _ | .write f _ | .release f => f ∈ u.opened

instance (u : Storage) : ∀ e, Decidable (u.Takes e)
  | .opening f _ => inferInstanceAs (Decidable (f ∉ u.opened))
  | .read f _ | .write f _ | .release f => inferInstanceAs (Decidable (f ∈ u.opened))

def storageMachine : Machine Storage FilesEvent Answer where
  step u e := if u.Takes e then some (u.call e).1 else none
  answer u e := (u.call e).2

/-- The call finds a buffer and nothing gets in its way. -/
def Unhindered (t : Tape) (killed : Bool) (f_pos : Int) (count : Nat) : Prop :=
  killed = false ∧ f_pos < EEP_SIZE ∧
    (t.pos < EEP_SIZE → t.buf.isSome = true ∧ t.pos + count < 2 ^ 64)

instance (t : Tape) (killed : Bool) (f_pos : Int) (count : Nat) :
    Decidable (Unhindered t killed f_pos count) :=
  inferInstanceAs (Decidable (killed = false ∧ f_pos < EEP_SIZE ∧
    (t.pos < EEP_SIZE → t.buf.isSome = true ∧ t.pos + count < 2 ^ 64)))

/-- The transfer succeeds, and it is not one of the whole chip, whose length is zero in the 16 bits
of the message. -/
def ReadDelivers (t : Tape) (c : ReadCall) : Prop :=
  t.pos < EEP_SIZE →
    c.ack = true ∧ min c.count (EEP_SIZE - t.pos) ≤ c.room ∧ (t.pos = 0 → c.count < EEP_SIZE)

instance (t : Tape) (c : ReadCall) : Decidable (ReadDelivers t c) :=
  inferInstanceAs (Decidable (t.pos < EEP_SIZE →
    c.ack = true ∧ min c.count (EEP_SIZE - t.pos) ≤ c.room ∧ (t.pos = 0 → c.count < EEP_SIZE)))

/-- The user's bytes can be read, they reach the end of the page, and no message is refused. -/
def WriteArrives (t : Tape) (c : WriteCall) : Prop :=
  t.pos < EEP_SIZE →
    min c.count (EEP_SIZE - t.pos) ≤ c.buf.length ∧ headLen t.pos ≤ c.count ∧
      firstRefused c.ack (pagesOf t.pos (min c.count (EEP_SIZE - t.pos))) = none

instance (t : Tape) (c : WriteCall) : Decidable (WriteArrives t c) :=
  inferInstanceAs (Decidable (t.pos < EEP_SIZE →
    min c.count (EEP_SIZE - t.pos) ≤ c.buf.length ∧ headLen t.pos ≤ c.count ∧
      firstRefused c.ack (pagesOf t.pos (min c.count (EEP_SIZE - t.pos))) = none))

/-- What a call has to respect, and the chip with it. -/
def ClearCall (t : Tape) : FilesEvent → Prop
  | .read _ c => Unhindered t c.killed c.f_pos c.count ∧ ReadDelivers t c
  | .write _ c => Unhindered t c.killed c.f_pos c.count ∧ WriteArrives t c
  | _ => True

instance (t : Tape) : ∀ e, Decidable (ClearCall t e)
  | .read _ c => inferInstanceAs (Decidable (Unhindered t c.killed c.f_pos c.count ∧ ReadDelivers t c))
  | .write _ c =>
      inferInstanceAs (Decidable (Unhindered t c.killed c.f_pos c.count ∧ WriteArrives t c))
  | .opening _ _ | .release _ => inferInstanceAs (Decidable True)

/-- The tape as a file. -/
structure Stores (t : Tape) (u : Storage) : Prop where
  cell : t.cell = u.cell
  pos : t.pos = u.pos
  le : u.pos ≤ EEP_SIZE
  opened : t.opened = u.opened
  running : t.stopped = false

theorem stores_start (cell : Nat → U8) : Stores (Tape.start cell) ⟨cell, 0, ∅⟩ :=
  ⟨rfl, rfl, Nat.zero_le _, rfl, rfl⟩

section

variable {t : Tape} {u : Storage} {f : Nat}

theorem stores_read {c : ReadCall} (h : Stores t u) (hclear : ClearCall t (.read f c)) :
    (t.read c).2 = (u.read c.count).2 ∧ Stores (t.read c).1 (u.read c.count).1 := by
  rcases hclear with ⟨⟨hkill, hpos, hlive⟩, hclear⟩
  have hle := h.le
  have hp := h.pos
  unfold Tape.read Storage.read Storage.room
  rw [if_neg (by simp [hkill])]
  by_cases hend : EEP_SIZE ≤ t.pos
  · have hzero : min c.count (EEP_SIZE - u.pos) = 0 := by omega
    rw [if_pos (Or.inr hend), hzero]
    exact ⟨rfl, h⟩
  rw [if_neg (by omega)]
  rcases hlive (by omega) with ⟨hbuf, hover⟩
  rcases hclear (by omega) with ⟨hack, hroom, hwhole⟩
  rcases Option.isSome_iff_exists.mp hbuf with ⟨g, hg⟩
  have hlen : writeLen .lp64 t.pos c.count = min c.count (EEP_SIZE - t.pos) := if_pos hover
  have hE : EEP_SIZE = 65536 := rfl
  have hbytes : t.fetched c.ack (min c.count (EEP_SIZE - t.pos))
      = slice t.cell t.pos (min c.count (EEP_SIZE - t.pos)) := by
    rw [Tape.fetched, hack, if_pos rfl, Nat.mod_eq_of_lt (by omega)]
    refine slice_congr fun i _ hi => ?_
    rw [Nat.mod_eq_of_lt (by omega)]
  have huser := slice_splice_self g 0 (slice t.cell t.pos (min c.count (EEP_SIZE - t.pos)))
  rw [slice_length] at huser
  simp only [hlen, hg, hbytes, if_pos hroom, huser]
  rw [hp, h.cell]
  exact ⟨rfl, rfl, rfl, by show u.pos + _ ≤ EEP_SIZE; omega, h.opened, h.running⟩

theorem stores_write {c : WriteCall} (h : Stores t u) (hclear : ClearCall t (.write f c)) :
    (t.write c).2 = (u.write c.buf c.count).2 ∧ Stores (t.write c).1 (u.write c.buf c.count).1 := by
  rcases hclear with ⟨⟨hkill, hpos, hlive⟩, hclear⟩
  have hle := h.le
  have hp := h.pos
  unfold Tape.write Storage.write Storage.room
  rw [if_neg (by simp [hkill])]
  by_cases hend : EEP_SIZE ≤ t.pos
  · rw [if_pos (Or.inl hend), if_pos (by omega)]
    exact ⟨rfl, h⟩
  rw [if_neg (by omega), if_neg (by omega)]
  rcases hlive (by omega) with ⟨hbuf, hover⟩
  rcases hclear (by omega) with ⟨hfull, hpage, hacks⟩
  rcases Option.isSome_iff_exists.mp hbuf with ⟨g, hg⟩
  have hlen : writeLen .lp64 t.pos c.count = min c.count (EEP_SIZE - t.pos) := if_pos hover
  have hE : EEP_SIZE = 65536 := rfl
  have hhead : headLen t.pos ≤ EEP_SIZE - t.pos := headLen_le (by omega)
  have hsent : sentLen t.pos (min c.count (EEP_SIZE - t.pos)) = min c.count (EEP_SIZE - t.pos) :=
    if_pos (by omega)
  have htake : (c.buf.take (min c.count (EEP_SIZE - t.pos))).length
      = min c.count (EEP_SIZE - t.pos) := by
    rw [List.length_take]
    omega
  -- nothing is padded, so the buffer starts with the bytes of the user
  have huser : slice (afterCopy g c.buf (min c.count (EEP_SIZE - t.pos))) 0
      (min c.count (EEP_SIZE - t.pos)) = c.buf.take (min c.count (EEP_SIZE - t.pos)) := by
    have := slice_splice_self g 0 (c.buf.take (min c.count (EEP_SIZE - t.pos)))
    rw [htake] at this
    rw [afterCopy, Nat.sub_eq_zero_of_le hfull, List.replicate_zero, List.append_nil, this]
  have hmod : t.pos % EEP_SIZE = t.pos := Nat.mod_eq_of_lt (by omega)
  have hring := ringSplice_of_turn (n := EEP_SIZE) t.cell t.pos
    (c.buf.take (min c.count (EEP_SIZE - t.pos))) (by rw [htake, hmod]; omega)
  rw [hmod] at hring
  simp only [hlen, hg, if_neg (not_lt.mpr hfull), Tape.send, hsent, hacks, Tape.put, huser, hring]
  rw [hp]
  exact ⟨rfl, by rw [h.cell], rfl, by show u.pos + _ ≤ EEP_SIZE; omega, h.opened, h.running⟩

theorem stores_call {e : FilesEvent} (h : Stores t u) (hclear : ClearCall t e) :
    (t.call e).2 = (u.call e).2 ∧ Stores (t.call e).1 (u.call e).1 := by
  cases e with
  | opening f avail =>
      cases avail with
      | true =>
          exact ⟨rfl, h.cell, rfl, Nat.zero_le _, congrArg (insert f) h.opened, h.running⟩
      | false => exact ⟨rfl, h.cell, rfl, Nat.zero_le _, h.opened, h.running⟩
  | read f c => exact stores_read h hclear
  | write f c => exact stores_write h hclear
  | release f =>
      exact ⟨rfl, h.cell, rfl, Nat.zero_le _, congrArg (fun o => o.erase f) h.opened, h.running⟩

theorem Stores.takes_iff (h : Stores t u) (e : FilesEvent) : t.Takes e ↔ u.Takes e := by
  cases e with
  | opening f avail =>
      show t.stopped = false ∧ f ∉ t.opened ↔ f ∉ u.opened
      rw [h.opened]
      exact and_iff_right h.running
  | read f c | write f c | release f =>
      show t.stopped = false ∧ f ∈ t.opened ↔ f ∈ u.opened
      rw [h.opened]
      exact and_iff_right h.running

theorem tapeMachine_refines : tapeMachine.Refines storageMachine ClearCall Stores where
  stuck := by
    intro t u e h _ hstep
    refine if_neg fun htakes => ?_
    have hnone : (if t.Takes e then some (t.call e).1 else none) = none := hstep
    rw [if_pos ((h.takes_iff e).mpr htakes)] at hnone
    cases hnone
  moves := by
    intro t u e t' h hclear hstep
    by_cases htakes : t.Takes e
    · rcases stores_call h hclear with ⟨hans, hstores⟩
      have hsome : (if t.Takes e then some (t.call e).1 else none) = some t' := hstep
      rw [if_pos htakes] at hsome
      obtain rfl := Option.some.inj hsome
      exact ⟨(u.call e).1, if_pos ((h.takes_iff e).mp htakes), hans, hstores⟩
    · have hnone : (if t.Takes e then some (t.call e).1 else none) = some t' := hstep
      rw [if_neg htakes] at hnone
      cases hnone

end

/-- The calls `es` on a fresh device over `chip` are clear. -/
def ClearRun (chip : Chip) (es : List FilesEvent) : Prop :=
  (∀ e ∈ es, e.InRange) ∧
    Along tapeMachine.step (fun _ => ClearCall) (Tape.start chip.cell) es

/-- **The driver is a file of 64 KiB**, for every sequence of clear calls through any number of
files: it gives the answers of the file, and the chip ends up with its contents. -/
theorem driver_storage (chip : Chip) (es : List FilesEvent) (hclear : ClearRun chip es) :
    filesMachine.answers (Files.start chip) es = storageMachine.answers ⟨chip.cell, 0, ∅⟩ es ∧
      ∀ s, run filesMachine.step (Files.start chip) es = some s →
        ∃ u, run storageMachine.step ⟨chip.cell, 0, ∅⟩ es = some u ∧
          s.kern.chip.cell = u.cell ∧ s.kern.dev.current_pointer = u.pos := by
  have hrange := along_inRange hclear.1 (Files.start chip)
  constructor
  · rw [filesMachine_refines.answers_eq (represents_start chip) hrange]
    exact tapeMachine_refines.answers_eq (stores_start chip.cell) hclear.2
  · intro s hrun
    rcases filesMachine_refines.run_rel (represents_start chip) hrange hrun with ⟨t, ht, hrep⟩
    rcases tapeMachine_refines.run_rel (stores_start chip.cell) hclear.2 ht with ⟨u, hu, hstores⟩
    exact ⟨u, hu, hrep.cell.trans hstores.cell, by rw [hrep.pos, hstores.pos]⟩

/-- A file writes and rewinds by opening the device once more; another one reads. -/
theorem driver_storage_two :
    filesMachine.answers (Files.start blankChip) [.opening 0 true, .write 0 (writeCall [1, 2, 3]),
        .opening 1 true, .read 1 (readCall 2), .read 0 (readCall 1), .release 1]
      = storageMachine.answers ⟨blankChip.cell, 0, ∅⟩ [.opening 0 true,
        .write 0 (writeCall [1, 2, 3]), .opening 1 true, .read 1 (readCall 2), .read 0 (readCall 1),
        .release 1] :=
  (driver_storage blankChip _ ⟨by simp [FilesEvent.InRange, readCall, writeCall],
    along_of_checkAlong _ _ (by decide +kernel)⟩).1

/-! ## Readers share one copy -/

def answerBytes : Answer → List U8
  | .ok r => r.2
  | .error _ => []

/-- Reads through the given files. -/
def readEvents (reads : List (Nat × ReadCall)) : List FilesEvent :=
  reads.map (fun r => .read r.1 r.2)

/-- The answers tell how much they bring, and together they bring what is left, as much as was asked
for. -/
theorem storage_reads (reads : List (Nat × ReadCall)) (u : Storage) (hle : u.pos ≤ EEP_SIZE)
    {outs : List Answer} (houts : storageMachine.answers u (readEvents reads) = some outs) :
    (outs.map answerBytes).flatten
        = slice u.cell u.pos (min (reads.map (fun r => r.2.count)).sum (EEP_SIZE - u.pos)) ∧
      ∀ out ∈ outs, out = .ok ((answerBytes out).length, answerBytes out) := by
  induction reads generalizing u outs with
  | nil =>
      obtain rfl := Option.some.inj houts
      exact ⟨by simp, by simp⟩
  | cons r reads ih =>
      have hopen : u.Takes (.read r.1 r.2) := by
        by_contra hnot
        have hnone : storageMachine.step u (.read r.1 r.2) = none := if_neg hnot
        rw [readEvents, List.map_cons, Machine.answers, hnone] at houts
        cases houts
      have hstep : storageMachine.step u (.read r.1 r.2) = some (u.read r.2.count).1 := if_pos hopen
      rw [readEvents, List.map_cons, Machine.answers_cons hstep, Option.map_eq_some_iff] at houts
      rcases houts with ⟨rest, hrest, rfl⟩
      have hnext : u.pos + u.room r.2.count ≤ EEP_SIZE := by
        unfold Storage.room
        omega
      rcases ih (u.read r.2.count).1 hnext hrest with ⟨hbytes, hlens⟩
      constructor
      · -- the first piece, and the others behind it
        rw [List.map_cons, List.flatten_cons, hbytes, List.map_cons, List.sum_cons]
        show slice u.cell u.pos (u.room r.2.count) ++ slice u.cell (u.pos + u.room r.2.count) _ = _
        rw [← slice_add]
        congr 1
        show _ + min _ (EEP_SIZE - (u.pos + u.room r.2.count)) = _
        unfold Storage.room
        omega
      · intro out hout
        rcases List.mem_cons.mp hout with rfl | hout
        · show Except.ok _ = Except.ok (((slice u.cell u.pos (u.room r.2.count)).length : Int), _)
          rw [slice_length]
          rfl
        · exact hlens out hout

/-- **Readers share one copy of the chip.** After any clear calls, clear reads through any files in
any order are together given the cells from the cursor on, each cell once and in order, until the
end of the chip; after that they are given nothing. -/
theorem readers_share (chip : Chip) (es : List FilesEvent) (reads : List (Nat × ReadCall))
    (s : Files) (outs : List Answer) (hclear : ClearRun chip (es ++ readEvents reads))
    (hrun : run filesMachine.step (Files.start chip) es = some s)
    (houts : filesMachine.answers s (readEvents reads) = some outs) :
    ∃ p : Nat, s.kern.dev.current_pointer = p ∧ p ≤ EEP_SIZE ∧
      (outs.map answerBytes).flatten
        = slice s.kern.chip.cell p (min (reads.map (fun r => r.2.count)).sum (EEP_SIZE - p)) ∧
      ∀ out ∈ outs, out = .ok ((answerBytes out).length, answerBytes out) := by
  rcases hclear with ⟨hrange, hclear⟩
  have hrange₁ : ∀ e ∈ es, e.InRange := fun e he => hrange e (List.mem_append_left _ he)
  have hrange₂ : ∀ e ∈ readEvents reads, e.InRange := fun e he =>
    hrange e (List.mem_append_right _ he)
  rcases filesMachine_refines.run_rel (represents_start chip) (along_inRange hrange₁ _) hrun with
    ⟨t, ht, hrep⟩
  rcases tapeMachine_refines.run_rel (stores_start chip.cell) hclear.left ht with ⟨u, -, hstores⟩
  rw [filesMachine_refines.answers_eq hrep (along_inRange hrange₂ _),
    tapeMachine_refines.answers_eq hstores (hclear.right ht)] at houts
  refine ⟨u.pos, by rw [hrep.pos, hstores.pos], hstores.le, ?_⟩
  rw [hrep.cell, hstores.cell]
  exact storage_reads reads u hstores.le houts

/-- Two files that read in turn. -/
theorem readers_share_two :
    ∃ s outs, run filesMachine.step (Files.start blankChip) [.opening 0 true, .opening 1 true] = some s ∧
      filesMachine.answers s (readEvents [(0, readCall 3), (1, readCall 2), (0, readCall 1)]) = some outs ∧
      (outs.map answerBytes).flatten = slice s.kern.chip.cell 0 6 := by
  have hsome : (run filesMachine.step (Files.start blankChip)
      [.opening 0 true, .opening 1 true]).any (fun s =>
        decide (s.kern.dev.current_pointer = 0) && (filesMachine.answers s (readEvents
          [(0, readCall 3), (1, readCall 2), (0, readCall 1)])).isSome) = true := by
    decide +kernel
  rcases (Option.any_eq_true _ _).mp hsome with ⟨s, hs, hany⟩
  rw [Bool.and_eq_true, decide_eq_true_eq] at hany
  rcases Option.isSome_iff_exists.mp hany.2 with ⟨outs, houts⟩
  rcases readers_share blankChip [.opening 0 true, .opening 1 true]
    [(0, readCall 3), (1, readCall 2), (0, readCall 1)] s outs
    ⟨by simp [FilesEvent.InRange, readEvents, readCall], along_of_checkAlong _ _ (by decide +kernel)⟩
    hs houts with ⟨p, hp, -, hbytes, -⟩
  have hzero : p = 0 := by omega
  rw [hzero] at hbytes
  exact ⟨s, outs, hs, houts, hbytes⟩

end LinuxDrivers.Eeprom
