import LinuxDrivers.Eeprom.Calls
import LinuxDrivers.Lib.Run
import Mathlib.Data.Finset.Erase
import Mathlib.Data.Finset.Insert

set_option autoImplicit false

/-! # Several open files

Any number of files open the device, read, write and release it, one whole call after the
other. The buffer and the cursor belong to the device, so the files share them, and every
`eep_open` puts a new buffer in place of the one that is there.

`FilesHold` asks that an open file finds a live buffer and that nothing stays allocated once
all files are released. `PositionKept` asks that no open or release moves the cursor of another
open file. Both hold in every run in which a file is opened only while none is open
(`SoleOpen`), and two opens in a row are enough to break them. -/

namespace LinuxDrivers.Eeprom

open Lib

/-- A call made through the file `f`. -/
inductive FilesEvent where
  | opening (f : Nat) (avail : Bool)
  | read (f : Nat) (c : ReadCall)
  | write (f : Nat) (c : WriteCall)
  | release (f : Nat)

/-- The device and the files that have it open. `stopped` is set when a call stops the kernel,
`badFree` when that call was a release that freed what was not allocated. -/
structure Files where
  kern : Kern
  opened : Finset Nat
  stopped : Bool
  badFree : Bool

/-- The device as `ee24lc512_probe` leaves it. The heap is that of the buffers. -/
def Files.start (chip : Chip) : Files := ⟨⟨⟨none, 0⟩, Heap.empty, chip⟩, ∅, false, false⟩

def filesStep (a : Arch) (s : Files) : FilesEvent → Option Files
  | .opening f avail =>
      if s.stopped ∨ f ∈ s.opened then none
      else
        let (ret, kern) := eepOpen avail s.kern
        some { s with kern := kern, opened := if ret = 0 then insert f s.opened else s.opened }
  | .read f c =>
      if s.stopped ∨ f ∉ s.opened then none
      else
        match eepRead a s.kern c with
        | .ok out => some { s with kern := out.kern }
        | .error _ => some { s with stopped := true }
  | .write f c =>
      if s.stopped ∨ f ∉ s.opened then none
      else
        let out := eepWrite a s.kern c
        some { s with kern := out.kern, stopped := !out.ret.isOk }
  | .release f =>
      if s.stopped ∨ f ∉ s.opened then none
      else
        match eepRelease s.kern with
        | .ok (_, kern) => some { s with kern := kern, opened := s.opened.erase f }
        | .error _ => some { s with stopped := true, badFree := true }

/-- An open file finds a live buffer of `EEP_SIZE` bytes. Once no file is open, every buffer
has been freed; no buffer is freed twice. -/
structure FilesHold (s : Files) : Prop where
  buffer : ∀ f ∈ s.opened, Buffered s.kern
  freed : s.opened = ∅ → s.kern.heap.AllFreed
  once : s.badFree = false

/-- The event is an open or a release of a file other than `f`. -/
def FilesEvent.OfOther (f : Nat) : FilesEvent → Prop
  | .opening g _ => g ≠ f
  | .release g => g ≠ f
  | _ => False

/-- The next read or write of an open file starts where it would have started before the open
or the release of another one. -/
def PositionKept (a : Arch) (s : Files) (e : FilesEvent) : Prop :=
  ∀ f ∈ s.opened, e.OfOther f → ∀ t, filesStep a s e = some t →
    t.kern.dev.current_pointer = s.kern.dev.current_pointer

/-- A file is opened only while none is open. -/
def SoleOpen (s : Files) : FilesEvent → Prop
  | .opening _ _ => s.opened = ∅
  | _ => True

instance (s : Files) : ∀ e, Decidable (SoleOpen s e)
  | .opening _ _ => inferInstanceAs (Decidable (s.opened = ∅))
  | .read _ _ | .write _ _ | .release _ => inferInstanceAs (Decidable True)

/-! ## The invariant -/

/-- At most one file is open; it has the buffer, and all other buffers have been freed. -/
structure FilesInv (s : Files) : Prop where
  sole : ∀ f ∈ s.opened, ∀ g ∈ s.opened, f = g
  buffer : ∀ f ∈ s.opened, Buffered s.kern
  idle : s.opened = ∅ → s.kern.dev.data = none
  others : ∀ q, q < s.kern.heap.next → s.kern.dev.data ≠ some q → s.kern.heap.cell q = .freed
  once : s.badFree = false

theorem FilesInv.filesHold {s : Files} (h : FilesInv s) : FilesHold s := by
  refine ⟨h.buffer, ?_, h.once⟩
  intro hempty q hq
  exact h.others q hq (by rw [h.idle hempty]; simp)

theorem filesInv_start (chip : Chip) : FilesInv (Files.start chip) where
  sole f hf := absurd hf (Finset.notMem_empty f)
  buffer f hf := absurd hf (Finset.notMem_empty f)
  idle _ := rfl
  others q hq := absurd hq (Nat.not_lt_zero q)
  once := rfl

section

variable {a : Arch} {s t : Files} {f : Nat}

theorem filesInv_opening {avail : Bool} (h : FilesInv s) (hnone : s.opened = ∅)
    (hstep : filesStep a s (.opening f avail) = some t) : FilesInv t := by
  have hfree := h.filesHold.freed hnone
  simp only [filesStep, hnone] at hstep
  split_ifs at hstep with _ hret
  · obtain rfl : avail = true := by
      cases avail with
      | true => rfl
      | false => exact absurd hret (by show ¬ (-ENOMEM : Int) = 0; decide)
    obtain rfl := Option.some.inj hstep
    refine ⟨?_, fun _ _ => ⟨_, (eepOpen_true s.kern).2.2.2, rfl⟩, ?_, ?_, h.once⟩
    · intro g hg g' hg'
      change g ∈ insert f ∅ at hg
      change g' ∈ insert f ∅ at hg'
      rw [Finset.mem_insert, or_iff_left (Finset.notMem_empty _)] at hg hg'
      rw [hg, hg']
    · intro hempty
      exact absurd hempty (Finset.insert_ne_empty f ∅)
    · -- the new buffer is at the address handed out, all others were freed before
      intro q hq hne
      have hq' : q < s.kern.heap.next + 1 := hq
      have hne' : q ≠ s.kern.heap.next := fun heq => hne (by rw [heq]; rfl)
      show (s.kern.heap.alloc _).cell q = _
      rw [Heap.alloc_cell_ne _ _ hne']
      exact hfree q (by omega)
  · obtain rfl : avail = false := by
      cases avail with
      | true => exact absurd (eepOpen_true s.kern).1 hret
      | false => rfl
    obtain rfl := Option.some.inj hstep
    refine ⟨?_, ?_, fun _ => rfl, fun q hq _ => hfree q hq, h.once⟩
    · intro g hg
      exact absurd hg (Finset.notMem_empty g)
    · intro g hg
      exact absurd hg (Finset.notMem_empty g)

/-- A call that keeps the buffer keeps the invariant. -/
theorem FilesInv.of_sameBuffer {kern : Kern} {stopped : Bool} (h : FilesInv s) (hf : f ∈ s.opened)
    (hbuf : Buffered kern) (hsame : SameBuffer s.kern kern) :
    FilesInv { s with kern := kern, stopped := stopped } := by
  rcases hsame with ⟨hdata, hnext, hcell⟩
  refine ⟨h.sole, fun _ _ => hbuf, ?_, ?_, h.once⟩
  · intro hempty
    exact absurd hf (by rw [hempty]; exact Finset.notMem_empty f)
  · intro q hq hne
    change q < kern.heap.next at hq
    change kern.dev.data ≠ some q at hne
    rw [hdata] at hne
    show kern.heap.cell q = _
    rw [hcell q hne]
    exact h.others q (by rw [← hnext]; exact hq) hne

theorem filesInv_read {c : ReadCall} (h : FilesInv s)
    (hstep : filesStep a s (.read f c) = some t) : FilesInv t := by
  simp only [filesStep] at hstep
  split_ifs at hstep with hopen
  rw [not_or, not_not] at hopen
  rcases eepRead_frame a (c := c) (h.buffer f hopen.2) with ⟨out, hout, hbuf, hsame, -⟩
  rw [hout] at hstep
  obtain rfl := Option.some.inj hstep
  exact h.of_sameBuffer hopen.2 hbuf hsame

theorem filesInv_write {c : WriteCall} (h : FilesInv s)
    (hstep : filesStep a s (.write f c) = some t) : FilesInv t := by
  simp only [filesStep] at hstep
  split_ifs at hstep with hopen
  rw [not_or, not_not] at hopen
  rcases eepWrite_frame a (c := c) (h.buffer f hopen.2) with ⟨hbuf, hsame⟩
  obtain rfl := Option.some.inj hstep
  exact h.of_sameBuffer hopen.2 hbuf hsame

theorem filesInv_release (h : FilesInv s) (hstep : filesStep a s (.release f) = some t) :
    FilesInv t := by
  simp only [filesStep] at hstep
  split_ifs at hstep with hopen
  rw [not_or, not_not] at hopen
  rcases eepRelease_of_buffered (h.buffer f hopen.2) with ⟨h', q, hq, hrel, hnext, hcell⟩
  rw [hrel] at hstep
  obtain rfl := Option.some.inj hstep
  -- the file was the only one
  have hnone : s.opened.erase f = ∅ := by
    apply Finset.eq_empty_of_forall_notMem
    intro g hg
    rw [Finset.mem_erase] at hg
    exact hg.1 (h.sole g hg.2 f hopen.2)
  refine ⟨?_, ?_, fun _ => rfl, ?_, h.once⟩
  · intro g hg
    exact absurd hg (by show g ∉ s.opened.erase f; rw [hnone]; exact Finset.notMem_empty g)
  · intro g hg
    exact absurd hg (by show g ∉ s.opened.erase f; rw [hnone]; exact Finset.notMem_empty g)
  · intro p hp _
    show h'.cell p = _
    rw [hcell]
    by_cases hpq : p = q
    · rw [hpq, Function.update_self]
    · rw [Function.update_of_ne hpq]
      apply h.others p (by rw [← hnext]; exact hp)
      rw [hq]
      exact fun heq => hpq (Option.some.inj heq).symm

theorem filesInv_step {e : FilesEvent} (h : FilesInv s) (hsole : SoleOpen s e)
    (hstep : filesStep a s e = some t) : FilesInv t := by
  cases e with
  | opening f avail => exact filesInv_opening h hsole hstep
  | read f c => exact filesInv_read h hstep
  | write f c => exact filesInv_write h hstep
  | release f => exact filesInv_release h hstep

/-- Where at most one file is open, no other file can lose its position. -/
theorem FilesInv.positionKept {e : FilesEvent} (h : FilesInv s) (hsole : SoleOpen s e) :
    PositionKept a s e := by
  intro f hf hother t hstep
  cases e with
  | opening g avail =>
      change s.opened = ∅ at hsole
      rw [hsole] at hf
      exact absurd hf (Finset.notMem_empty f)
  | release g =>
      simp only [filesStep] at hstep
      split_ifs at hstep with hopen
      rw [not_or, not_not] at hopen
      exact absurd (h.sole g hopen.2 f hf) hother
  | read g c => exact hother.elim
  | write g c => exact hother.elim

end

/-- **Buffer and cursor of the open files.** In every run in which a file is opened only while
none is open, every state reached satisfies `FilesHold`, and no open or release on the way moves
the cursor of another open file. -/
theorem filesHold_of_soleOpen (a : Arch) (chip : Chip) (es : List FilesEvent) (s : Files)
    (hsole : Along (filesStep a) (fun _ => SoleOpen) (Files.start chip) es)
    (hrun : run (filesStep a) (Files.start chip) es = some s) :
    FilesHold s ∧ Along (filesStep a) (fun _ => PositionKept a) (Files.start chip) es := by
  have hinv : ∀ es s, Along (filesStep a) (fun _ => SoleOpen) (Files.start chip) es →
      run (filesStep a) (Files.start chip) es = some s → FilesInv s := by
    refine run_induct (I := fun _ s => FilesInv s) (filesInv_start chip) ?_
    intro _ s e t _ h hsole hst
    exact filesInv_step h hsole hst
  refine ⟨(hinv es s hsole hrun).filesHold, ?_⟩
  -- the part of the run before an event is a run that meets the condition as well
  intro pre e post u hes hu
  have hpre : Along (filesStep a) (fun _ => SoleOpen) (Files.start chip) pre := by
    intro pre' d post' v hpre' hv
    exact hsole pre' d (post' ++ e :: post) v (by rw [hes, hpre']; simp) hv
  exact (hinv pre u hpre hu).positionKept (hsole pre e post u hes hu)

/-- Two sessions one after the other; the second open fails at first. -/
theorem filesHold_of_soleOpen_run :
    ∃ s, run (filesStep .lp64) (Files.start blankChip)
        [.opening 0 true, .write 0 (writeCall [1, 2]), .release 0, .opening 1 false,
          .opening 1 true, .release 1] = some s ∧
      FilesHold s ∧ Along (filesStep .lp64) (fun _ => PositionKept .lp64) (Files.start blankChip)
        [.opening 0 true, .write 0 (writeCall [1, 2]), .release 0, .opening 1 false,
          .opening 1 true, .release 1] := by
  have hrun : (run (filesStep .lp64) (Files.start blankChip)
      [.opening 0 true, .write 0 (writeCall [1, 2]), .release 0, .opening 1 false,
        .opening 1 true, .release 1]).isSome = true := by
    decide +kernel
  rcases Option.isSome_iff_exists.mp hrun with ⟨s, hs⟩
  have hcheck : checkAlong (filesStep .lp64) SoleOpen (Files.start blankChip)
      [.opening 0 true, .write 0 (writeCall [1, 2]), .release 0, .opening 1 false,
        .opening 1 true, .release 1] = true := by
    decide +kernel
  exact ⟨s, hs, filesHold_of_soleOpen .lp64 blankChip _ s (along_of_checkAlong _ _ hcheck) hs⟩

/-- **A second open takes the buffer away from the first file**, and the release of either one
leaves the other without a buffer. -/
theorem filesHold_violated :
    ∃ s, run (filesStep .lp64) (Files.start blankChip)
        [.opening 0 true, .opening 1 true, .release 0] = some s ∧ ¬ FilesHold s := by
  have hrun : (run (filesStep .lp64) (Files.start blankChip)
      [.opening 0 true, .opening 1 true, .release 0]).any
        (fun s => decide (1 ∈ s.opened ∧ s.kern.dev.data = none)) = true := by
    decide +kernel
  rcases (Option.any_eq_true _ _).mp hrun with ⟨s, hs, hany⟩
  rw [decide_eq_true_eq] at hany
  refine ⟨s, hs, fun hholds => ?_⟩
  rcases hholds.buffer 1 hany.1 with ⟨b, ⟨q, hq, -⟩, -⟩
  exact absurd (hany.2.symm.trans hq) (by simp)

end LinuxDrivers.Eeprom
