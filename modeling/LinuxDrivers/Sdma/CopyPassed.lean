import LinuxDrivers.Lib.Run
import LinuxDrivers.Sdma.Buffers

set_option autoImplicit false

/-! # What a passed copy says

One user at a time opens, writes, reads and releases the device. The engine may copy faithfully,
copy something else or nothing at all: each transfer leaves some words in the destination
buffers, and the transfers since the last allocation are recorded.

`passedIsCopied_iff_tested`: the reports of passed copies are right if and only if each
`sdma_read` comes after a write to the buffers of its own session and the engine does not go wrong
in the part of a buffer that is never compared (`Tested`). `passed_without_copy` is the README's
recipe, with the write in one session and the read in the next one, on an engine that copies
nothing. -/

namespace LinuxDrivers.Sdma

open Lib

/-- The device and its user. `transfers` is what each transfer since the last allocation left in
the destination buffers, oldest first. -/
structure Test where
  globals : Globals
  opened : Bool
  stopped : Bool
  transfers : List (Nat → Nat → U32)

/-- The module has just been loaded. -/
def Test.start : Test := ⟨⟨fun _ => none, false, Heap.empty⟩, false, false, []⟩

inductive TestEvent where
  | opening (chan : Bool) (avail : Buf → Bool)
  | write (count : Nat) (outcome : Outcome)
  | read
  | release

/-- Nothing happens any more once the kernel has stopped. -/
def testStep (d : Driver) (LINUX_VERSION_CODE : Nat) (s : Test) : TestEvent → Option Test
  | .opening chan avail =>
      if s.stopped = true ∨ s.opened = true then none
      else
        some { s with
          globals := (sdmaOpen d chan avail s.globals).2
          opened := (sdmaOpen d chan avail s.globals).1 = 0
          transfers := if chan then [] else s.transfers }
  | .write count outcome =>
      if s.stopped = true ∨ s.opened = false then none
      else
        match (sdmaWrite d count).exec (serveAlone d outcome) s.globals with
        | .error _ => some { s with stopped := true }
        | .ok (_, globals) =>
            some { s with globals := globals, transfers := s.transfers ++ [outcome.result] }
  | .read =>
      if s.stopped = true ∨ s.opened = false then none
      else
        match sdmaRead d LINUX_VERSION_CODE s.globals with
        | .error _ => some { s with stopped := true }
        | .ok _ => some s
  | .release =>
      if s.stopped = true ∨ s.opened = false then none
      else
        match sdmaRelease d s.globals with
        | .error _ => some { s with stopped := true }
        | .ok (_, globals) => some { s with globals := globals, opened := false }

/-- The transfer `x` has left the pattern in the `i`-th destination buffer. -/
def Copied (d : Driver) (x : Nat → Nat → U32) (i : Nat) : Prop :=
  ∃ p ∈ d.pairs[i]?, ∀ j < d.words, x i j = p.pattern

/-- The same for the words that are compared. -/
def Compared (d : Driver) (x : Nat → Nat → U32) (i : Nat) : Prop :=
  ∀ p ∈ d.pairs[i]?, ∀ j < p.compared, x i j = p.pattern

/-- If a read reports a passed copy, then some transfer since the last allocation has left the
pattern in that buffer. -/
def PassedIsCopied (d : Driver) (LINUX_VERSION_CODE : Nat) (s : Test) : TestEvent → Prop
  | .read => ∀ ms, sdmaRead d LINUX_VERSION_CODE s.globals = .ok ms →
      ∀ m ∈ ms, m.ok = true → ∃ x ∈ s.transfers, Copied d x m.buffer
  | _ => True

/-- A read that compares comes after a transfer to its buffers, and a buffer that is compared in
part is not wrong in the rest, where the last transfer has left everything compared up to there
right, unless an earlier transfer has left it right. -/
def Tested (d : Driver) (LINUX_VERSION_CODE : Nat) (s : Test) : TestEvent → Prop
  | .read => d.compares LINUX_VERSION_CODE = true → ∃ x ∈ s.transfers.getLast?,
      ∀ i < d.pairs.length, ∀ p ∈ d.pairs[i]?, p.compared < d.words →
        (∀ k ≤ i, Compared d x k) → ∃ y ∈ s.transfers, Copied d y i
  | _ => True

instance (d : Driver) (x : Nat → Nat → U32) (i : Nat) : Decidable (Copied d x i) :=
  inferInstanceAs (Decidable (∃ p ∈ d.pairs[i]?, ∀ j < d.words, x i j = p.pattern))

instance (d : Driver) (x : Nat → Nat → U32) (i : Nat) : Decidable (Compared d x i) :=
  inferInstanceAs (Decidable (∀ p ∈ d.pairs[i]?, ∀ j < p.compared, x i j = p.pattern))

instance (d : Driver) (LINUX_VERSION_CODE : Nat) (s : Test) :
    ∀ e, Decidable (Tested d LINUX_VERSION_CODE s e)
  | .read => inferInstanceAs (Decidable (d.compares LINUX_VERSION_CODE = true →
      ∃ x ∈ s.transfers.getLast?, ∀ i < d.pairs.length, ∀ p ∈ d.pairs[i]?, p.compared < d.words →
        (∀ k ≤ i, Compared d x k) → ∃ y ∈ s.transfers, Copied d y i))
  | .opening _ _ => inferInstanceAs (Decidable True)
  | .write _ _ => inferInstanceAs (Decidable True)
  | .release => inferInstanceAs (Decidable True)

/-! ## What the buffers hold -/

/-- The words of the buffers after these transfers. -/
def expected (d : Driver) (transfers : List (Nat → Nat → U32)) : Buf → Nat → U32 :=
  transfers.getLast?.elim (fun _ _ => 0) (afterTransfer d)

def TestInv (d : Driver) (s : Test) : Prop :=
  s.stopped = false → s.opened = true → BuffersHold d (expected d s.transfers) s.globals

section

variable {d : Driver} {LINUX_VERSION_CODE : Nat} {s t : Test}

theorem testInv_step {e : TestEvent} (h : TestInv d s)
    (hstep : testStep d LINUX_VERSION_CODE s e = some t) : TestInv d t := by
  cases e with
  | opening chan avail =>
      rw [testStep] at hstep
      by_cases hbusy : s.stopped = true ∨ s.opened = true
      · rw [if_pos hbusy] at hstep
        cases hstep
      rw [if_neg hbusy] at hstep
      obtain rfl := Option.some.inj hstep
      intro _ hopened
      have hret : sdmaOpen d chan avail s.globals = (0, (sdmaOpen d chan avail s.globals).2) :=
        Prod.ext (of_decide_eq_true hopened) rfl
      cases chan with
      | false => exact absurd (Prod.mk.inj hret).1 (by decide)
      | true => exact buffersHold_open hret
  | write count outcome =>
      simp only [testStep] at hstep
      split_ifs at hstep with hclosed
      rw [not_or, Bool.not_eq_true, Bool.not_eq_false] at hclosed
      have hold := h hclosed.1 hclosed.2
      cases ho : outcome.hasDescriptor with
      | false =>
          rw [exec_sdmaWrite_noDescriptor count hold ho] at hstep
          obtain rfl := Option.some.inj hstep
          exact fun hstopped => Bool.noConfusion hstopped
      | true =>
          rcases exec_sdmaWrite count hold ho with ⟨globals, hexec, hafter⟩
          rw [hexec] at hstep
          obtain rfl := Option.some.inj hstep
          intro _ _
          show BuffersHold d (expected d (s.transfers ++ [outcome.result])) globals
          rw [expected, List.getLast?_concat]
          exact hafter
  | read =>
      simp only [testStep] at hstep
      split_ifs at hstep
      cases hread : sdmaRead d LINUX_VERSION_CODE s.globals with
      | error f =>
          rw [hread] at hstep
          obtain rfl := Option.some.inj hstep
          exact fun hstopped => Bool.noConfusion hstopped
      | ok ms =>
          rw [hread] at hstep
          obtain rfl := Option.some.inj hstep
          exact h
  | release =>
      simp only [testStep] at hstep
      split_ifs at hstep
      cases hrelease : sdmaRelease d s.globals with
      | error f =>
          rw [hrelease] at hstep
          obtain rfl := Option.some.inj hstep
          exact fun hstopped => Bool.noConfusion hstopped
      | ok r =>
          rw [hrelease] at hstep
          obtain rfl := Option.some.inj hstep
          exact fun _ hopened => Bool.noConfusion hopened

theorem testInv_run (es : List TestEvent)
    (hrun : run (testStep d LINUX_VERSION_CODE) Test.start es = some s) : TestInv d s := by
  have hstart : TestInv d Test.start := fun _ hopened => Bool.noConfusion hopened
  refine run_induct_all (I := fun _ s => TestInv d s) hstart ?_ es s hrun
  intro _ s e t _ h hstep
  exact testInv_step h hstep

/-! ## What a read reports -/

/-- The buffers of both sides agree as far as the engine has copied the pattern. -/
theorem agree_afterTransfer {x : Nat → Nat → U32} {i n : Nat} {p : Pair}
    (hp : d.pairs[i]? = some p) :
    Agree (afterTransfer d x) i n ↔ ∀ j < n, x i j = p.pattern := by
  simp [Agree, afterTransfer, hp]

/-- The buffers whose copy is reported as passed, in terms of the last transfer. -/
theorem passed_iff {ms : List Message}
    (h : BuffersHold d (expected d s.transfers) s.globals)
    (hcompares : d.compares LINUX_VERSION_CODE = true)
    (hread : sdmaRead d LINUX_VERSION_CODE s.globals = .ok ms) (i : Nat) :
    (∃ m ∈ ms, m.ok = true ∧ m.buffer = i) ↔
      i < d.pairs.length ∧ ∀ x ∈ s.transfers.getLast?, ∀ k ≤ i, Compared d x k := by
  rcases sdmaRead_spec h hcompares with ⟨ms', hms', hiff⟩
  obtain rfl := Except.ok.inj (hms'.symm.trans hread)
  rw [hiff i]
  apply and_congr_right
  intro _
  cases hlast : s.transfers.getLast? with
  | none =>
      -- both sides hold the zeros of their allocation
      refine iff_of_true (fun k _ p _ => ?_) (by simp)
      rw [expected, hlast]
      exact fun _ _ => rfl
  | some x =>
      constructor
      · intro hall y hy k hk p hp
        obtain rfl := Option.some.inj hy
        have hagree := hall k hk p hp
        rw [expected, hlast] at hagree
        exact (agree_afterTransfer hp).mp hagree
      · intro hall k hk p hp
        rw [expected, hlast]
        exact (agree_afterTransfer hp).mpr (hall x rfl k hk p hp)

/-- One read. -/
theorem passedIsCopied_read_iff (h : BuffersHold d (expected d s.transfers) s.globals) :
    PassedIsCopied d LINUX_VERSION_CODE s .read ↔ Tested d LINUX_VERSION_CODE s .read := by
  by_cases hcompares : d.compares LINUX_VERSION_CODE = true
  · rcases sdmaRead_spec h hcompares with ⟨ms, hread, -⟩
    have hpassed := passed_iff h hcompares hread
    constructor
    · intro hcopied _
      have hevidence : ∀ i < d.pairs.length,
          (∀ x ∈ s.transfers.getLast?, ∀ k ≤ i, Compared d x k) →
            ∃ y ∈ s.transfers, Copied d y i := by
        intro i hi hcompared
        rcases (hpassed i).mpr ⟨hi, hcompared⟩ with ⟨m, hm, hok, rfl⟩
        exact hcopied ms hread m hm hok
      cases hlast : s.transfers.getLast? with
      | none =>
          rcases hevidence 0 d.pairs_pos (by simp [hlast]) with ⟨y, hy, -⟩
          rw [List.getLast?_eq_none_iff.mp hlast] at hy
          exact absurd hy List.not_mem_nil
      | some x =>
          refine ⟨x, rfl, fun i hi p _ _ hcompared => hevidence i hi ?_⟩
          intro y hy
          obtain rfl := Option.some.inj (hlast.symm.trans hy)
          exact hcompared
    · intro htested ms' hread' m hm hok
      obtain rfl := Except.ok.inj (hread.symm.trans hread')
      rcases htested hcompares with ⟨x, hx, hpart⟩
      rcases (hpassed m.buffer).mp ⟨m, hm, hok, rfl⟩ with ⟨hi, hall⟩
      have hcompared := hall x hx
      have hp : d.pairs[m.buffer]? = some d.pairs[m.buffer] := List.getElem?_eq_getElem hi
      -- a buffer is compared in part or as a whole
      rcases Nat.lt_or_eq_of_le (Driver.compared_le (List.getElem_mem hi)) with hlt | heq
      · exact hpart m.buffer hi _ hp hlt hcompared
      · refine ⟨x, List.mem_of_getLast? hx, _, hp, fun j hj => ?_⟩
        exact hcompared m.buffer (Nat.le_refl _) _ hp j (heq ▸ hj)
  · refine iff_of_true (fun ms hread m hm => ?_) (fun h => absurd h hcompares)
    rw [sdmaRead, if_neg hcompares] at hread
    obtain rfl := Except.ok.inj hread
    exact absurd hm List.not_mem_nil

end

/-- **Reports of passed copies.** In every run the reports are right if and only if every read
tests what it reports. -/
theorem passedIsCopied_iff_tested (d : Driver) (LINUX_VERSION_CODE : Nat) (es : List TestEvent)
    (s : Test) (hrun : run (testStep d LINUX_VERSION_CODE) Test.start es = some s) :
    Along (testStep d LINUX_VERSION_CODE) (fun _ => PassedIsCopied d LINUX_VERSION_CODE)
        Test.start es ↔
      Along (testStep d LINUX_VERSION_CODE) (fun _ => Tested d LINUX_VERSION_CODE)
        Test.start es := by
  apply along_congr hrun
  intro pre e s t hpre hstep
  cases e with
  | opening chan avail => exact Iff.rfl
  | write count outcome => exact Iff.rfl
  | release => exact Iff.rfl
  | read =>
      simp only [testStep] at hstep
      split_ifs at hstep with hclosed
      rw [not_or, Bool.not_eq_true, Bool.not_eq_false] at hclosed
      exact passedIsCopied_read_iff (testInv_run pre hpre hclosed.1 hclosed.2)

/-- An engine that copies, from the single driver's source buffer. -/
def faithful : Outcome := ⟨true, fun _ _ => 0x56565656⟩

/-- An engine that leaves a fresh destination buffer as it is. -/
def idle : Outcome := ⟨true, fun _ _ => 0⟩

/-- A write and a read in one session, after a transfer that has failed. -/
theorem passedIsCopied_iff_tested_run :
    ∃ s, run (testStep .single (KERNEL_VERSION 3 0 35)) Test.start
        [.opening true (fun _ => true), .write 1 idle, .read, .write 1 faithful, .read, .release]
          = some s ∧
      Along (testStep .single (KERNEL_VERSION 3 0 35))
        (fun _ => PassedIsCopied .single (KERNEL_VERSION 3 0 35)) Test.start
        [.opening true (fun _ => true), .write 1 idle, .read, .write 1 faithful, .read,
          .release] := by
  have hrun : (run (testStep .single (KERNEL_VERSION 3 0 35)) Test.start
      [.opening true (fun _ => true), .write 1 idle, .read, .write 1 faithful, .read,
        .release]).isSome = true := by
    decide +kernel
  have hcheck : checkAlong (testStep .single (KERNEL_VERSION 3 0 35))
      (Tested .single (KERNEL_VERSION 3 0 35)) Test.start
      [.opening true (fun _ => true), .write 1 idle, .read, .write 1 faithful, .read,
        .release] = true := by
    decide +kernel
  rcases Option.isSome_iff_exists.mp hrun with ⟨s, hs⟩
  exact ⟨s, hs, (passedIsCopied_iff_tested .single _ _ s hs).mpr (along_of_checkAlong _ _ hcheck)⟩

/-- Some copy is reported as passed. -/
def reportsPassed : Except Fault (List Message) → Bool
  | .error _ => false
  | .ok ms => ms.any (fun m => m.ok)

/-- **A copy that passes without one.** One session writes, on an engine that copies nothing,
and the next one reads: its buffers are both fresh, hence equal. -/
theorem passed_without_copy :
    ∃ s, run (testStep .single (KERNEL_VERSION 3 0 35)) Test.start
        [.opening true (fun _ => true), .write 1 idle, .release, .opening true (fun _ => true)]
          = some s ∧
      ¬ PassedIsCopied .single (KERNEL_VERSION 3 0 35) s .read := by
  have hrun : (run (testStep .single (KERNEL_VERSION 3 0 35)) Test.start
      [.opening true (fun _ => true), .write 1 idle, .release, .opening true (fun _ => true)]).any
        (fun s => s.transfers.isEmpty &&
          reportsPassed (sdmaRead .single (KERNEL_VERSION 3 0 35) s.globals)) = true := by
    decide +kernel
  rcases (Option.any_eq_true _ _).mp hrun with ⟨s, hs, hany⟩
  rw [Bool.and_eq_true, List.isEmpty_iff] at hany
  refine ⟨s, hs, fun hpassed => ?_⟩
  cases hread : sdmaRead .single (KERNEL_VERSION 3 0 35) s.globals with
  | error f =>
      rw [hread] at hany
      exact Bool.noConfusion hany.2
  | ok ms =>
      rw [hread] at hany
      rcases List.any_eq_true.mp hany.2 with ⟨m, hm, hok⟩
      rcases hpassed ms hread m hm hok with ⟨x, hx, -⟩
      rw [hany.1] at hx
      exact absurd hx List.not_mem_nil

end LinuxDrivers.Sdma
