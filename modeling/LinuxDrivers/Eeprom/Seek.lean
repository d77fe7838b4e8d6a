import LinuxDrivers.Eeprom.Bounds
import LinuxDrivers.Eeprom.Disclosure

set_option autoImplicit false

/-! # Seeking

An open file has two positions: `filp->f_pos`, which the VFS passes to `eep_read` and
`eep_write`, and `dev->current_pointer`, the address these two use. `startsAt` is where the
next of them starts; `read_startsAt` and `write_startsAt` say so of the calls themselves.

`SeekMoves` is what a seek should do. The bound test of `eep_llseek` is `EEP_SIZE` itself, so
the code refuses every seek, and the law holds exactly of those that ask for no address on the
chip (`seekMoves_iff`). `seeks_iff` is the same over whole runs, in which no call ever moves
`f_pos` (`fileReady_of_run`). -/

namespace LinuxDrivers.Eeprom

open Lib

/-! ## Calls that the VFS makes -/

/-- The VFS passes `&filp->f_pos` to read and write. -/
def vfsCall (s : OneFile) : FileEvent → FileEvent
  | .read c => .read { c with f_pos := s.f_pos }
  | .write c => .write { c with f_pos := s.f_pos }
  | e => e

def vfsStep (a : Arch) (s : OneFile) (e : FileEvent) : Option OneFile := fileStep a s (vfsCall s e)

/-- The address at which the next read or write starts; `none` at the end of the chip. -/
def startsAt (f_pos : Int) (k : Kern) : Option Int :=
  if f_pos ≥ EEP_SIZE then none
  else if k.dev.current_pointer ≥ EEP_SIZE then none
  else some k.dev.current_pointer

/-- The address that a seek asks for: `off` itself, or `off` from the address at which the next
read would start. -/
def seekGoal (s : OneFile) (off whence : Int) : Option Int :=
  if whence = 0 then some off
  else if whence = 1 then some (s.kern.dev.current_pointer + off)
  else none

/-- The seek asks for no address on the chip. -/
def OffChip (s : OneFile) (off whence : Int) : Prop :=
  ∀ q ∈ seekGoal s off whence, ¬ (0 ≤ q ∧ q < EEP_SIZE)

instance (s : OneFile) (off whence : Int) : Decidable (OffChip s off whence) :=
  inferInstanceAs (Decidable (∀ q ∈ seekGoal s off whence, ¬ (0 ≤ q ∧ q < EEP_SIZE)))

/-- A seek to an address on the chip returns it, and the next read or write starts there; any
other seek returns `-EINVAL` and changes nothing about that. -/
structure SeekMoves (s : OneFile) (off whence : Int) : Prop where
  moved : ∀ q, seekGoal s off whence = some q → 0 ≤ q → q < EEP_SIZE →
    (eepLlseek s.f_pos s.kern off whence).1 = q ∧
      startsAt (eepLlseek s.f_pos s.kern off whence).2.1
        (eepLlseek s.f_pos s.kern off whence).2.2 = some q
  refused : OffChip s off whence →
    (eepLlseek s.f_pos s.kern off whence).1 = -EINVAL ∧
      startsAt (eepLlseek s.f_pos s.kern off whence).2.1
        (eepLlseek s.f_pos s.kern off whence).2.2 = startsAt s.f_pos s.kern

/-! ## Where a call starts -/

section

variable {a : Arch} {f_pos : Int} {k : Kern} {p : Nat}

theorem startsAt_eq_some {q : Int} :
    startsAt f_pos k = some q ↔
      f_pos < EEP_SIZE ∧ k.dev.current_pointer < EEP_SIZE ∧ k.dev.current_pointer = q := by
  unfold startsAt
  split_ifs with hpos hend
  · exact iff_of_false (by simp) (fun h => absurd h.1 (not_lt.mpr hpos))
  · exact iff_of_false (by simp) (fun h => absurd h.2.1 (not_lt.mpr hend))
  · rw [Option.some.injEq]
    exact ⟨fun h => ⟨lt_of_not_ge hpos, lt_of_not_ge hend, h⟩, fun h => h.2.2⟩

/-- A read whose transfer succeeds brings the cells from `startsAt` on. -/
theorem read_startsAt {n : Nat} (hk : Ready k) (hstart : startsAt f_pos k = some (p : Int))
    (hfit : p + n ≤ EEP_SIZE) (hn : n < 2 ^ 16) :
    ∃ out, eepRead a k { readCall n with f_pos := f_pos } = .ok out ∧
      out.user = slice k.chip.cell p n := by
  rcases startsAt_eq_some.mp hstart with ⟨hpos, hlt, hp⟩
  have hlt' : p < EEP_SIZE := by omega
  have hclamp : clampRead a k.dev.current_pointer n = n := by
    have h32 := a.two_pow_32_le
    have hE : EEP_SIZE = 65536 := rfl
    rw [hp, clampRead_eq a hlt' (by omega)]
    omega
  rcases hk.buffer with ⟨b, hb, hsize⟩
  rcases eepRead_of_reads a (c := { readCall n with f_pos := f_pos }) hb hsize rfl hpos hlt hclamp
    with ⟨heap, chip, -, -, -, hrun⟩
  refine ⟨_, hrun, ?_⟩
  show (slice (splice b.elem 0 (fetched k true n)) 0 n).take n = _
  rw [slice_fetched hp hlt' hfit hn]
  exact List.take_of_length_le (Nat.le_of_eq (slice_length _ _ _))

/-- The messages of a write go to the addresses from `startsAt` on. -/
theorem write_startsAt {c : WriteCall} (hk : Ready k) (hstart : startsAt f_pos k = some (p : Int)) :
    ∀ m ∈ (eepWrite a k c).sent, m.reg_addr = p + m.offset := by
  rcases startsAt_eq_some.mp hstart with ⟨-, -, hp⟩
  by_cases hsends : c.Sends a k
  · rcases eepWrite_sending a hp hk.buffer hsends with
      ⟨heap, b, w, ms, j, -, -, -, hsending, -, hsent, -⟩
    rw [hsent]
    exact fun m hm => (hsending.inStep.counters m hm).2.1
  · rcases eepWrite_of_not_sends a hk.buffer hsends with ⟨ret, heap, -, hrun, -, -⟩
    rw [hrun]
    intro m hm
    cases hm

end

/-! ## Runs -/

/-- The file position is still 0, and an open file can be read and written. -/
structure FileReady (s : OneFile) : Prop where
  f_pos : s.f_pos = 0
  ready : s.opened = true → Ready s.kern

theorem fileReady_step {a : Arch} {s t : OneFile} {e : FileEvent} (h : FileReady s)
    (hstep : vfsStep a s e = some t) : FileReady t := by
  unfold vfsStep at hstep
  cases e with
  | opening avail =>
      obtain rfl := fileStep_opening hstep
      refine ⟨rfl, fun hopened => ?_⟩
      cases avail with
      | true => exact ready_open s.kern
      | false =>
          rw [eepOpen_false] at hopened
          simp [ENOMEM] at hopened
  | read c =>
      have hready := h.ready (opened_of_fileStep hstep (by simp [vfsCall]))
      rcases eepRead_frame a (c := { c with f_pos := s.f_pos }) hready.buffer with ⟨out, hrun, -⟩
      obtain rfl := fileStep_read hstep hrun
      exact ⟨h.f_pos, fun _ => hready.read hrun⟩
  | write c =>
      have hready := h.ready (opened_of_fileStep hstep (by simp [vfsCall]))
      obtain rfl := fileStep_write hstep
      exact ⟨h.f_pos, fun _ => hready.write⟩
  | llseek off whence =>
      obtain rfl := fileStep_llseek hstep
      exact h
  | release =>
      have hready := h.ready (opened_of_fileStep hstep (by simp [vfsCall]))
      rcases eepRelease_of_buffered hready.buffer with ⟨h', q, -, hrel, -, -⟩
      obtain rfl := fileStep_release hstep hrel
      exact ⟨h.f_pos, fun hf => absurd hf Bool.false_ne_true⟩

/-- **The two positions over a run.** No call moves `f_pos`, so it never keeps a read or a write
from starting at the cursor. -/
theorem fileReady_of_run {a : Arch} {heap : Heap (Block U8)} {chip : Chip} {es : List FileEvent}
    {s : OneFile} (hrun : run (vfsStep a) (OneFile.start heap chip) es = some s) : FileReady s :=
  run_induct_all (I := fun _ s => FileReady s) ⟨rfl, fun h => absurd h Bool.false_ne_true⟩
    (fun _ _ _ _ _ h hstep => fileReady_step h hstep) es s hrun

/-! ## The law -/

/-- **One seek**: the law holds of the seeks that ask for no address on the chip. -/
theorem seekMoves_iff {s : OneFile} {off whence : Int} :
    SeekMoves s off whence ↔ OffChip s off whence := by
  constructor
  · intro h q hq hon
    -- a refused seek does not return the address
    have hret := (h.moved q hq hon.1 hon.2).1
    rw [eepLlseek_eq] at hret
    have hneg : (-EINVAL : Int) < 0 := by decide
    change -EINVAL = q at hret
    omega
  · intro hoff
    refine ⟨fun q hq h0 hlt => absurd ⟨h0, hlt⟩ (hoff q hq), fun _ => ?_⟩
    rw [eepLlseek_eq]
    exact ⟨rfl, rfl⟩

/-- The law at an event of a run. -/
def SeekLaw (s : OneFile) : FileEvent → Prop
  | .llseek off whence => SeekMoves s off whence
  | _ => True

/-- The event is no seek to an address on the chip. -/
def NoSeekOnChip (s : OneFile) : FileEvent → Prop
  | .llseek off whence => OffChip s off whence
  | _ => True

instance (s : OneFile) : ∀ e, Decidable (NoSeekOnChip s e)
  | .llseek off whence => inferInstanceAs (Decidable (OffChip s off whence))
  | .opening _ | .read _ | .write _ | .release => inferInstanceAs (Decidable True)

/-- **Seeks over whole runs.** In a run of opens, reads, writes, seeks and releases the law holds
at every seek if and only if no seek asks for an address on the chip. -/
theorem seeks_iff (a : Arch) (heap : Heap (Block U8)) (chip : Chip) (es : List FileEvent)
    (s : OneFile) (hrun : run (vfsStep a) (OneFile.start heap chip) es = some s) :
    Along (vfsStep a) (fun _ => SeekLaw) (OneFile.start heap chip) es ↔
      Along (vfsStep a) (fun _ => NoSeekOnChip) (OneFile.start heap chip) es := by
  refine along_congr hrun fun pre e u t hu ht => ?_
  cases e with
  | llseek off whence => exact seekMoves_iff
  | opening avail => exact Iff.rfl
  | read c => exact Iff.rfl
  | write c => exact Iff.rfl
  | release => exact Iff.rfl

/-- Two reads, with seeks between them that ask for the end of the file, for an address before
the chip and for one behind it. -/
theorem seeks_off_chip :
    Along (vfsStep .lp64) (fun _ => SeekLaw) (OneFile.start Heap.empty blankChip)
      [.opening true, .read (readCall 3), .llseek 0 2, .llseek (-4) 1, .llseek 65536 0,
        .read (readCall 2), .release] := by
  have hrun : (run (vfsStep .lp64) (OneFile.start Heap.empty blankChip)
      [.opening true, .read (readCall 3), .llseek 0 2, .llseek (-4) 1, .llseek 65536 0,
        .read (readCall 2), .release]).isSome = true := by
    decide +kernel
  have hcheck : checkAlong (vfsStep .lp64) NoSeekOnChip (OneFile.start Heap.empty blankChip)
      [.opening true, .read (readCall 3), .llseek 0 2, .llseek (-4) 1, .llseek 65536 0,
        .read (readCall 2), .release] = true := by
    decide +kernel
  rcases Option.isSome_iff_exists.mp hrun with ⟨s, hs⟩
  exact (seeks_iff .lp64 Heap.empty blankChip _ s hs).mpr (along_of_checkAlong _ _ hcheck)

/-- **A seek back to the start after a read of three bytes** is refused. -/
theorem not_seeks_start :
    (run (vfsStep .lp64) (OneFile.start Heap.empty blankChip)
      [.opening true, .read (readCall 3), .llseek 0 0]).isSome = true ∧
    ¬ Along (vfsStep .lp64) (fun _ => SeekLaw) (OneFile.start Heap.empty blankChip)
      [.opening true, .read (readCall 3), .llseek 0 0] := by
  have hpre : (run (vfsStep .lp64) (OneFile.start Heap.empty blankChip)
      [.opening true, .read (readCall 3)]).isSome = true := by
    decide +kernel
  refine ⟨by decide +kernel, fun h => ?_⟩
  rcases Option.isSome_iff_exists.mp hpre with ⟨s, hs⟩
  have hlaw : SeekMoves s 0 0 := h [.opening true, .read (readCall 3)] (.llseek 0 0) [] s rfl hs
  have hret := (hlaw.moved 0 rfl (by decide) (by decide)).1
  rw [eepLlseek_eq] at hret
  change (-EINVAL : Int) = 0 at hret
  exact absurd hret (by decide)

end LinuxDrivers.Eeprom
