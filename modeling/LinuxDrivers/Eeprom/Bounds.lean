import LinuxDrivers.Eeprom.Calls
import LinuxDrivers.Lib.Run

set_option autoImplicit false

/-! # Bounds over the runs of one open file

A run opens the device, reads, writes and seeks in any order and releases it, any number of
times. `BoundsHold` is what every reached state should satisfy: the cursor is on the chip or at
its end, and every data message sent so far was in bounds (`Sent.InBounds`).

A run keeps it as long as no write ends inside the page it starts in and no request is so long
that its end overflows `size_t` (`Clear`). Two one-byte writes are enough to break it. -/

namespace LinuxDrivers.Eeprom

open Lib

/-- A call on the open file. -/
inductive FileEvent where
  | opening (avail : Bool)
  | read (c : ReadCall)
  | write (c : WriteCall)
  | llseek (off whence : Int)
  | release

/-- The device with at most one open file, and all data messages sent. A run ends where the
kernel stops. -/
structure OneFile where
  kern : Kern
  f_pos : Int
  opened : Bool
  stopped : Bool
  sent : List Sent

/-- The device as `ee24lc512_probe` leaves it. -/
def OneFile.start (heap : Heap (Block U8)) (chip : Chip) : OneFile :=
  ⟨⟨⟨none, 0⟩, heap, chip⟩, 0, false, false, []⟩

/-- A call that stops the kernel leaves no further steps. -/
def OneFile.after (s : OneFile) (kern : Kern) (sent : List Sent) (ret : Except Fault Int) :
    OneFile :=
  { s with kern := kern, sent := s.sent ++ sent, stopped := !ret.isOk }

def fileStep (a : Arch) (s : OneFile) : FileEvent → Option OneFile
  | .opening avail =>
      if s.stopped ∨ s.opened then none
      else
        let (ret, kern) := eepOpen avail s.kern
        some { s with kern := kern, f_pos := 0, opened := ret = 0 }
  | .read c =>
      if s.stopped ∨ ¬ s.opened then none
      else
        match eepRead a s.kern c with
        | .ok out => some (s.after out.kern [] (.ok out.ret))
        | .error f => some (s.after s.kern [] (.error f))
  | .write c =>
      if s.stopped ∨ ¬ s.opened then none
      else
        let out := eepWrite a s.kern c
        some (s.after out.kern out.sent out.ret)
  | .llseek off whence =>
      if s.stopped ∨ ¬ s.opened then none
      else
        let (_, f_pos, kern) := eepLlseek s.f_pos s.kern off whence
        some { s with kern := kern, f_pos := f_pos }
  | .release =>
      if s.stopped ∨ ¬ s.opened then none
      else
        match eepRelease s.kern with
        | .ok (_, kern) => some { s with kern := kern, opened := false }
        | .error f => some (s.after s.kern [] (.error f))

section

variable {a : Arch} {s t : OneFile}

/-- All calls but the open are made on an open file. -/
theorem opened_of_fileStep {e : FileEvent} (hstep : fileStep a s e = some t)
    (he : ∀ avail, e ≠ .opening avail) : s.opened = true := by
  by_contra hnot
  have hclosed : s.stopped = true ∨ ¬ s.opened = true := Or.inr hnot
  have hnone : fileStep a s e = none := by
    cases e with
    | opening avail => exact absurd rfl (he avail)
    | read c => exact if_pos hclosed
    | write c => exact if_pos hclosed
    | llseek off whence => exact if_pos hclosed
    | release => exact if_pos hclosed
  rw [hnone] at hstep
  cases hstep

theorem fileStep_opening {avail : Bool} (hstep : fileStep a s (.opening avail) = some t) :
    t = { s with
      kern := (eepOpen avail s.kern).2, f_pos := 0, opened := (eepOpen avail s.kern).1 = 0 } := by
  simp only [fileStep] at hstep
  split_ifs at hstep
  exact (Option.some.inj hstep).symm

theorem fileStep_read {c : ReadCall} {out : ReadOut} (hstep : fileStep a s (.read c) = some t)
    (hrun : eepRead a s.kern c = .ok out) : t = s.after out.kern [] (.ok out.ret) := by
  simp only [fileStep, hrun] at hstep
  split_ifs at hstep
  exact (Option.some.inj hstep).symm

theorem fileStep_write {c : WriteCall} (hstep : fileStep a s (.write c) = some t) :
    t = s.after (eepWrite a s.kern c).kern (eepWrite a s.kern c).sent (eepWrite a s.kern c).ret := by
  simp only [fileStep] at hstep
  split_ifs at hstep
  exact (Option.some.inj hstep).symm

/-- A seek moves nothing. -/
theorem fileStep_llseek {off whence : Int} (hstep : fileStep a s (.llseek off whence) = some t) :
    t = s := by
  simp only [fileStep, eepLlseek_eq] at hstep
  split_ifs at hstep
  exact (Option.some.inj hstep).symm

theorem fileStep_release {ret : Int} {kern : Kern} (hstep : fileStep a s .release = some t)
    (hrel : eepRelease s.kern = .ok (ret, kern)) : t = { s with kern := kern, opened := false } := by
  simp only [fileStep, hrel] at hstep
  split_ifs at hstep
  exact (Option.some.inj hstep).symm

end

/-- The cursor stays on the chip and the messages stay in bounds. -/
def BoundsHold (s : OneFile) : Prop :=
  0 ≤ s.kern.dev.current_pointer ∧ s.kern.dev.current_pointer ≤ EEP_SIZE ∧
    ∀ m ∈ s.sent, m.InBounds

/-- What a step has to respect: a write that sends fits, and a read that gets to its transfer
does not overflow. -/
def Clear (a : Arch) (s : OneFile) : FileEvent → Prop
  | .write c => c.Sends a s.kern → c.Fits a s.kern
  | .read c =>
      c.killed = false → c.f_pos < EEP_SIZE → s.kern.dev.current_pointer < EEP_SIZE →
        s.kern.dev.current_pointer + c.count < (2 ^ a.bits : Nat)
  | _ => True

/-- The invariant: the cursor is a position on the chip or its end, and an open file has a
live buffer. -/
structure FileInv (s : OneFile) : Prop where
  running : s.stopped = false
  cursor : ∃ p : Nat, s.kern.dev.current_pointer = p ∧ p ≤ EEP_SIZE
  buffer : s.opened = true → Buffered s.kern
  sent : ∀ m ∈ s.sent, m.InBounds

theorem FileInv.boundsHold {s : OneFile} (h : FileInv s) : BoundsHold s := by
  rcases h.cursor with ⟨p, hp, hle⟩
  refine ⟨?_, ?_, h.sent⟩
  · rw [hp]
    exact Int.natCast_nonneg p
  · rw [hp]
    exact Int.ofNat_le.mpr hle

theorem fileInv_start (heap : Heap (Block U8)) (chip : Chip) :
    FileInv (OneFile.start heap chip) where
  running := rfl
  cursor := ⟨0, rfl, Nat.zero_le _⟩
  buffer h := absurd h (by simp [OneFile.start])
  sent m hm := absurd hm (by simp [OneFile.start])

section

variable {a : Arch} {s t : OneFile}

theorem fileInv_opening {avail : Bool} (h : FileInv s)
    (hstep : fileStep a s (.opening avail) = some t) : FileInv t := by
  obtain rfl := fileStep_opening hstep
  refine ⟨h.running, ⟨0, eepOpen_cursor avail s.kern, Nat.zero_le _⟩, ?_, h.sent⟩
  intro hopened
  cases avail with
  | true => exact ⟨_, (eepOpen_true s.kern).2.2.2, rfl⟩
  | false =>
      rw [eepOpen_false] at hopened
      simp [ENOMEM] at hopened

theorem fileInv_read {c : ReadCall} (h : FileInv s) (hclear : Clear a s (.read c))
    (hstep : fileStep a s (.read c) = some t) : FileInv t := by
  have hbuf := h.buffer (opened_of_fileStep hstep (by simp))
  rcases h.cursor with ⟨p, hp, hle⟩
  by_cases hreads : c.killed = false ∧ c.f_pos < EEP_SIZE ∧ p < EEP_SIZE
  · rcases hreads with ⟨hkill, hpos, hlt⟩
    have hfit := hclear hkill hpos (by rw [hp]; exact Int.ofNat_lt.mpr hlt)
    rw [hp] at hfit
    rcases eepRead_frame a (c := c) hbuf with ⟨out, hout, hbuf', -, -, hcur⟩
    rw [hp, cursor_add a hlt (clampRead_le a p c.count), clampRead_eq a hlt (by omega)] at hcur
    obtain rfl := fileStep_read hstep hout
    refine ⟨rfl, ?_, fun _ => hbuf', by simpa [OneFile.after] using h.sent⟩
    rcases hcur with hcur | ⟨-, hcur⟩
    · exact ⟨p, hcur, hle⟩
    · exact ⟨_, hcur, by omega⟩
  · -- the call leaves before its transfer
    have hnot : ¬ (c.killed = false ∧ c.f_pos < EEP_SIZE ∧
        s.kern.dev.current_pointer < EEP_SIZE) := by
      rintro ⟨hkill, hpos, hlt⟩
      exact hreads ⟨hkill, hpos, by omega⟩
    obtain rfl := fileStep_read hstep (eepRead_of_not_reads a hnot)
    exact ⟨rfl, ⟨p, hp, hle⟩, fun _ => hbuf, by simpa [OneFile.after] using h.sent⟩

theorem fileInv_write {c : WriteCall} (h : FileInv s) (hclear : Clear a s (.write c))
    (hstep : fileStep a s (.write c) = some t) : FileInv t := by
  have hbuf := h.buffer (opened_of_fileStep hstep (by simp))
  rcases h.cursor with ⟨p, hp, hle⟩
  rcases eepWrite_of_fits a hp hbuf hclear with ⟨ret, n, hret, hcur, hn, -, hsent, -⟩
  obtain rfl := fileStep_write hstep
  refine ⟨?_, ⟨p + n, hcur, by omega⟩, fun _ => (eepWrite_frame a hbuf).1, ?_⟩
  · show (!(eepWrite a s.kern c).ret.isOk) = false
    rw [hret]
    rfl
  · intro m hm
    exact (List.mem_append.mp hm).elim (h.sent m) (hsent m)

theorem fileInv_release (h : FileInv s) (hstep : fileStep a s .release = some t) :
    FileInv t := by
  have hbuf := h.buffer (opened_of_fileStep hstep (by simp))
  rcases eepRelease_of_buffered hbuf with ⟨h', q, -, hrel, -, -⟩
  obtain rfl := fileStep_release hstep hrel
  exact ⟨h.running, ⟨0, rfl, Nat.zero_le _⟩, fun hf => absurd hf (by simp), h.sent⟩

theorem fileInv_step {e : FileEvent} (h : FileInv s) (hclear : Clear a s e)
    (hstep : fileStep a s e = some t) : FileInv t := by
  cases e with
  | opening avail => exact fileInv_opening h hstep
  | read c => exact fileInv_read h hclear hstep
  | write c => exact fileInv_write h hclear hstep
  | llseek off whence =>
      obtain rfl := fileStep_llseek hstep
      exact h
  | release => exact fileInv_release h hstep

end

/-- **Bounds over whole runs.** In every run whose steps are all clear, every state reached has
its cursor on the chip, has sent only messages in bounds, and has not faulted. -/
theorem boundsHold_of_clear (a : Arch) (heap : Heap (Block U8)) (chip : Chip)
    (es : List FileEvent) (s : OneFile)
    (hclear : Along (fileStep a) (fun _ => Clear a) (OneFile.start heap chip) es)
    (hrun : run (fileStep a) (OneFile.start heap chip) es = some s) :
    BoundsHold s ∧ s.stopped = false := by
  have hinv : FileInv s := by
    refine run_induct (I := fun _ s => FileInv s) (fileInv_start heap chip) ?_ es s hclear hrun
    intro _ s e t _ h hc hst
    exact fileInv_step h hc hst
  exact ⟨hinv.boundsHold, hinv.running⟩

theorem boundsHold_of_clear_run :
    ∃ s, run (fileStep .lp64) (OneFile.start Heap.empty blankChip)
        [.opening true, .write (writeCall [1, 2, 3]), .release] = some s ∧
      BoundsHold s ∧ s.stopped = false := by
  have hrun : (run (fileStep .lp64) (OneFile.start Heap.empty blankChip)
      [.opening true, .write (writeCall [1, 2, 3]), .release]).isSome = true := by
    decide +kernel
  rcases Option.isSome_iff_exists.mp hrun with ⟨s, hs⟩
  refine ⟨s, hs, boundsHold_of_clear .lp64 Heap.empty blankChip _ s ?_ hs⟩
  refine along_cons.mpr ⟨trivial, fun t ht => along_cons.mpr ⟨?_, fun u _ => ?_⟩⟩
  · obtain rfl := Option.some.inj ht
    intro _
    exact ⟨by decide +kernel, by decide +kernel⟩
  · exact along_cons.mpr ⟨trivial, fun _ _ => along_nil⟩

/-- **Two one-byte writes break the bounds**: the second one starts inside a page, does not
reach its end, and sends bytes that were never copied from the user. -/
theorem boundsHold_violated :
    ∃ s, run (fileStep .lp64) (OneFile.start Heap.empty blankChip)
        [.opening true, .write (writeCall [1]), .write (writeCall [2])] = some s ∧
      ¬ BoundsHold s := by
  have hrun : (run (fileStep .lp64) (OneFile.start Heap.empty blankChip)
      [.opening true, .write (writeCall [1]), .write (writeCall [2])]).any
        (fun s => s.sent.any (fun m => decide (m.copied < m.offset + m.len))) = true := by
    decide +kernel
  rcases (Option.any_eq_true _ _).mp hrun with ⟨s, hs, hany⟩
  refine ⟨s, hs, fun hbounds => ?_⟩
  rcases List.any_eq_true.mp hany with ⟨m, hm, hlt⟩
  have hle := (hbounds.2.2 m hm).2.2
  simp only [decide_eq_true_eq] at hlt
  omega

end LinuxDrivers.Eeprom
