import LinuxDrivers.Kernel.Platform
import LinuxDrivers.Lib.Run

set_option autoImplicit false

/-! # The drivers that register a chip

`mcp23016.c`, `fake-gpio-chip.c`, `fake-pwm.c` and `iio-dummy-random.c` fill in a structure and hand
it to a framework. The structure lies in memory of the device, which the driver core frees after a
failed probe and after a removal, or it is a static variable of the module.

Of the frameworks only the contract is here: a chip whose registration has succeeded is theirs, and
they may come back to it at any moment, until its driver has taken it back with success. What their
calls return is decided from outside. -/

namespace LinuxDrivers.Chips

open Lib

def GPIO_NUM : Nat := 16

/-! ## Chips and memory -/

/-- What the drivers fill in of a `gpio_chip`, a `pwm_chip` or an `iio_dev` (which has no `base`):
`n` is `ngpio`, `npwm` or `num_channels`. -/
structure Chip (ι : Type) where
  dev : Option ι
  base : Int
  n : Nat
  deriving DecidableEq

/-- The memory, with the numbers of the live structures that belong to each device, and the data of
the devices. `chips` are the chips that have been registered and not taken back. -/
structure Sys (ι : Type) where
  mem : Nat → Option (Chip ι)
  next : Nat
  devres : ι → List Nat
  drvdata : ι → KPtr
  chips : List Nat

abbrev ChipM (ι α : Type) := StateT (Sys ι) (Except Fault) α

/-- Which calls of a probe fail. -/
structure Outcome where
  functionality : Bool
  kzalloc : Bool
  add : Option Errno

def Outcome.fine : Outcome := ⟨true, true, none⟩

section

variable {ι : Type}

/-- The structure that a pointer designates. -/
def live (p : KPtr) : ChipM ι (Nat × Chip ι) := fun s =>
  match p with
  | .null => .error .nullDeref
  | .err _ => .error .notLive
  | .obj q =>
      match s.mem q with
      | none => .error .notLive
      | some chip => .ok ((q, chip), s)

def fill (p : KPtr) (f : Chip ι → Chip ι) : ChipM ι Unit := do
  let (q, chip) ← live p
  fun s => .ok ((), { s with mem := Function.update s.mem q (some (f chip)) })

/-- Without a failure the framework has the chip. -/
def register (fail : Option Errno) (p : KPtr) : ChipM ι Int := do
  let (q, _) ← live p
  match fail with
  | some e => return e.1
  | none => fun s => .ok (0, { s with chips := q :: s.chips })

/-- Only what the framework has can be taken back. -/
def unregister (p : KPtr) : ChipM ι Unit := do
  let (q, _) ← live p
  fun s => if q ∈ s.chips then .ok ((), { s with chips := s.chips.erase q }) else .error .notLive

def gpiochipAdd (o : Outcome) : KPtr → ChipM ι Int := register o.add
def gpiochipRemove : KPtr → ChipM ι Unit := unregister

def pwmchipAdd (o : Outcome) : KPtr → ChipM ι Int := register o.add

/-- The framework keeps a chip that is in use. -/
def pwmchipRemove (busy : Bool) (p : KPtr) : ChipM ι Int := do
  let _ ← live p
  if busy then return - EBUSY
  unregister p
  return 0

def iioDeviceRegister (o : Outcome) : KPtr → ChipM ι Int := register o.add
def iioDeviceUnregister : KPtr → ChipM ι Unit := unregister

section

variable [DecidableEq ι]

/-- The memory of a device. -/
def devmKzalloc (avail : Bool) (dev : ι) : ChipM ι KPtr := fun s =>
  if avail then
    .ok (.obj s.next, { s with
      mem := Function.update s.mem s.next (some ⟨none, 0, 0⟩)
      next := s.next + 1
      devres := Function.update s.devres dev (s.next :: s.devres dev) })
  else .ok (.null, s)

def setDrvdata (dev : ι) (p : KPtr) : ChipM ι Unit := fun s =>
  .ok ((), { s with drvdata := Function.update s.drvdata dev p })

def getDrvdata (dev : ι) : ChipM ι KPtr := fun s => .ok (s.drvdata dev, s)

/-- What the driver core does after a failed probe and after a removal. -/
def Sys.unbind (s : Sys ι) (i : ι) : Sys ι :=
  { s with
    mem := fun q => if q ∈ s.devres i then none else s.mem q
    devres := Function.update s.devres i []
    drvdata := Function.update s.drvdata i .null }

/-! ## The drivers -/

/-- The probe of a chip with `n` offsets in memory of its device. -/
def chipProbe (add : Outcome → KPtr → ChipM ι Int) (n : Nat) (o : Outcome) (dev : ι) :
    ChipM ι Int := do
  let p ← devmKzalloc o.kzalloc dev
  if p = .null then return - ENOMEM
  fill p (fun _ => ⟨some dev, -1, n⟩)
  setDrvdata dev p
  add o p

def mcp23016Probe (o : Outcome) (client : ι) : ChipM ι Int := do
  if o.functionality = false then return - EIO
  chipProbe gpiochipAdd GPIO_NUM o client

def mcp23016Remove (client : ι) : ChipM ι Int := do
  let mcp ← getDrvdata client
  gpiochipRemove mcp
  return 0

namespace FakeGpio

/-- The static variable of the module. -/
def chip : KPtr := .obj 0

def myPdrvProbe (o : Outcome) (pdev : ι) : ChipM ι Int := do
  fill chip (fun _ => ⟨some pdev, -1, GPIO_NUM⟩)
  gpiochipAdd o chip

def myPdrvRemove : ChipM ι Int := do
  gpiochipRemove chip
  return 0

end FakeGpio

def fakePwmProbe : Outcome → ι → ChipM ι Int := chipProbe pwmchipAdd 3

def fakePwmRemove (busy : Bool) (pdev : ι) : ChipM ι Int := do
  let priv ← getDrvdata pdev
  pwmchipRemove busy priv

namespace Iio

/-- What `iio_device_register` returns is not looked at. -/
def myPdrvProbe (o : Outcome) (pdev : ι) : ChipM ι Int := do
  let indio_dev ← devmKzalloc o.kzalloc pdev
  if indio_dev = .null then return - ENOMEM
  fill indio_dev (fun chip => { chip with dev := some pdev, n := 4 })
  let _ ← iioDeviceRegister o indio_dev
  setDrvdata pdev indio_dev
  return 0

def myPdrvRemove (pdev : ι) : ChipM ι Int := do
  let indio_dev ← getDrvdata pdev
  iioDeviceUnregister indio_dev
  return 0

end Iio

end

end

inductive Driver where
  | mcp23016
  | fakeGpioChip
  | fakePwm
  | iioDummyRandom
  deriving DecidableEq

section

variable {ι : Type} [DecidableEq ι]

def Driver.probe (d : Driver) (o : Outcome) (i : ι) : ChipM ι Int :=
  match d with
  | .mcp23016 => mcp23016Probe o i
  | .fakeGpioChip => FakeGpio.myPdrvProbe o i
  | .fakePwm => fakePwmProbe o i
  | .iioDummyRandom => Iio.myPdrvProbe o i

/-- `busy` says whether the chip is in use; only `pwmchip_remove` cares. -/
def Driver.remove (d : Driver) (busy : Bool) (i : ι) : ChipM ι Int :=
  match d with
  | .mcp23016 => mcp23016Remove i
  | .fakeGpioChip => FakeGpio.myPdrvRemove
  | .fakePwm => fakePwmRemove busy i
  | .iioDummyRandom => Iio.myPdrvRemove i

/-! ## Runs -/

/-- After a fault nothing happens any more. -/
structure State (ι : Type) where
  sys : Sys ι
  bound : ι → Bool
  fault : Option Fault

/-- Only the static variable is there. -/
def start (ι : Type) : State ι where
  sys :=
    ⟨Function.update (fun _ => none) 0 (some ⟨none, 0, 0⟩), 1, fun _ => [], fun _ => .null, []⟩
  bound _ := false
  fault := none

inductive ChipEvent (ι : Type) where
  | probe (i : ι) (o : Outcome)
  | remove (i : ι) (busy : Bool)

/-- Devices that are not bound are probed, and those that are bound are removed, whatever the
removal returns. -/
def chipStep (d : Driver) (s : State ι) (e : ChipEvent ι) : Option (State ι) :=
  if s.fault.isSome then none
  else
    match e with
    | .probe i o =>
        if s.bound i then none
        else
          match (d.probe o i).run s.sys with
          | .error f => some { s with fault := some f }
          | .ok (ret, t) =>
              if ret = 0 then some { s with sys := t, bound := Function.update s.bound i true }
              -- what the probe has allocated is freed
              else some { s with sys := t.unbind i }
    | .remove i busy =>
        if s.bound i then
          match (d.remove busy i).run s.sys with
          | .error f => some { s with fault := some f }
          | .ok (_, t) =>
              -- so it is after a removal, also if that has returned an error
              some { s with sys := t.unbind i, bound := Function.update s.bound i false }
        else none

/-- There was no fault. A chip that the framework has was handed over once, lies in live memory, and
its `dev` is a device that is bound. -/
structure Sound (s : State ι) : Prop where
  fault : s.fault = none
  nodup : s.sys.chips.Nodup
  live : ∀ q ∈ s.sys.chips, ∃ chip i, s.sys.mem q = some chip ∧ chip.dev = some i ∧
    s.bound i = true

/-- What the drivers do not see to: that the static chip has one device at a time, that a PWM chip
is not in use at the removal, and that the IIO device that is removed has been registered. The
driver of the mcp23016 needs nothing. -/
def Fits (d : Driver) (s : State ι) : ChipEvent ι → Prop
  | .probe _ _ => d = .fakeGpioChip → ∀ j, s.bound j = false
  | .remove i busy => (d = .fakePwm → busy = false) ∧
      (d = .iioDummyRandom → ∀ q, s.sys.drvdata i = .obj q → q ∈ s.sys.chips)

/-! ## What the calls do -/

section

variable {s : Sys ι} {q : Nat} {chip : Chip ι} {i : ι}

omit [DecidableEq ι] in
@[simp] theorem run_live (h : s.mem q = some chip) :
    (live (.obj q)).run s = .ok ((q, chip), s) := by
  simp only [StateT.run, live, h]

omit [DecidableEq ι] in
@[simp] theorem run_fill {f : Chip ι → Chip ι} (h : s.mem q = some chip) :
    (fill (.obj q) f).run s
      = .ok ((), { s with mem := Function.update s.mem q (some (f chip)) }) := by
  rw [fill, StateT.run_bind, run_live h]
  rfl

omit [DecidableEq ι] in
@[simp] theorem run_register_some {e : Errno} (h : s.mem q = some chip) :
    (register (some e) (.obj q)).run s = .ok (e.1, s) := by
  rw [register, StateT.run_bind, run_live h]
  rfl

omit [DecidableEq ι] in
@[simp] theorem run_register_none (h : s.mem q = some chip) :
    (register none (.obj q)).run s = .ok (0, { s with chips := q :: s.chips }) := by
  rw [register, StateT.run_bind, run_live h]
  rfl

omit [DecidableEq ι] in
@[simp] theorem run_unregister (h : s.mem q = some chip) (hq : q ∈ s.chips) :
    (unregister (.obj q)).run s = .ok ((), { s with chips := s.chips.erase q }) := by
  rw [unregister, StateT.run_bind, run_live h]
  exact if_pos hq

omit [DecidableEq ι] in
/-- What the framework does not have cannot be taken back. -/
theorem run_unregister_of_not_mem (h : s.mem q = some chip) (hq : q ∉ s.chips) :
    (unregister (.obj q)).run s = .error .notLive := by
  rw [unregister, StateT.run_bind, run_live h]
  exact if_neg hq

@[simp] theorem run_devmKzalloc_true :
    (devmKzalloc true i).run s = .ok (.obj s.next, { s with
      mem := Function.update s.mem s.next (some ⟨none, 0, 0⟩)
      next := s.next + 1
      devres := Function.update s.devres i (s.next :: s.devres i) }) := rfl

@[simp] theorem run_devmKzalloc_false : (devmKzalloc false i).run s = .ok (.null, s) := rfl

@[simp] theorem run_setDrvdata {p : KPtr} :
    (setDrvdata i p).run s = .ok ((), { s with drvdata := Function.update s.drvdata i p }) := rfl

omit [DecidableEq ι] in
@[simp] theorem run_getDrvdata : (getDrvdata i).run s = .ok (s.drvdata i, s) := rfl

end

/-! ## The chips in memory of the devices -/

section

variable {s t : Sys ι} {i : ι} {o : Outcome} {d : Driver}

/-- A state in which device `i` can be probed: its memory has been freed, and numbers from `next` on
are not used. -/
structure Ready (i : ι) (s : Sys ι) : Prop where
  devres : s.devres i = []
  fresh : ∀ q, s.next ≤ q → s.mem q = none

/-- The chip of device `i` in its memory. -/
def Sys.withChip (s : Sys ι) (i : ι) (chip : Chip ι) (listed : Bool) : Sys ι where
  mem := Function.update s.mem s.next (some chip)
  next := s.next + 1
  devres := Function.update s.devres i [s.next]
  drvdata := Function.update s.drvdata i (.obj s.next)
  chips := if listed then s.next :: s.chips else s.chips

/-- After a failed probe of device `i` all is as before. -/
structure Restored (i : ι) (s t : Sys ι) : Prop where
  mem : t.mem = s.mem
  next : s.next ≤ t.next
  devres : t.devres = s.devres
  drvdata : ∀ j, j ≠ i → t.drvdata j = s.drvdata j
  chips : t.chips = s.chips

theorem restored_unbind (h : s.devres i = []) : Restored i s (s.unbind i) where
  mem := by simp [Sys.unbind, h]
  next := Nat.le_refl _
  devres := by simp [Sys.unbind, ← h]
  drvdata j hj := Function.update_of_ne hj _ _
  chips := rfl

/-- The memory of a failed probe is freed. -/
theorem Ready.restored (h : Ready i s) {chip : Chip ι} :
    Restored i s ((s.withChip i chip false).unbind i) where
  mem := by
    funext q
    by_cases hq : q = s.next
    · simp [Sys.unbind, Sys.withChip, hq, h.fresh]
    · simp [Sys.unbind, Sys.withChip, hq]
  next := Nat.le_succ _
  devres := by simp [Sys.unbind, Sys.withChip, ← h.devres]
  drvdata j hj := by simp [Sys.unbind, Sys.withChip, hj]
  chips := rfl

/-- What a probe of device `i` may come to: `listed` says whether the framework has the chip. -/
def ProbeSpec (probe : ChipM ι Int) (i : ι) (s : Sys ι) (always : Prop) : Prop :=
  (∃ ret t, probe.run s = .ok (ret, t) ∧ ret ≠ 0 ∧ Restored i s (t.unbind i)) ∨
    ∃ chip listed, probe.run s = .ok (0, s.withChip i chip listed) ∧ chip.dev = some i ∧
      (always → listed = true)

theorem ProbeSpec.mono {probe : ChipM ι Int} {always always' : Prop}
    (h : ProbeSpec probe i s always) (himp : always' → always) : ProbeSpec probe i s always' := by
  rcases h with hfail | ⟨chip, listed, hrun, hdev, hall⟩
  · exact Or.inl hfail
  · exact Or.inr ⟨chip, listed, hrun, hdev, fun h => hall (himp h)⟩

/-- The probe fails, and leaves nothing behind, or the framework has the chip. -/
theorem chipProbe_spec (h : Ready i s) {n : Nat} {add : Outcome → KPtr → ChipM ι Int}
    (hadd : add o = register o.add) : ProbeSpec (chipProbe add n o i) i s True := by
  have hdevres := h.devres
  cases halloc : o.kzalloc with
  | false =>
      refine Or.inl ⟨- ENOMEM, s, ?_, by decide, restored_unbind hdevres⟩
      simp [chipProbe, halloc]
  | true =>
      cases hfail : o.add with
      | some e =>
          refine Or.inl ⟨e.1, s.withChip i ⟨some i, -1, n⟩ false, ?_, ne_of_lt e.2, h.restored⟩
          simp [chipProbe, hadd, Sys.withChip, halloc, hfail, hdevres]
      | none =>
          refine Or.inr ⟨⟨some i, -1, n⟩, true, ?_, rfl, fun _ => rfl⟩
          simp [chipProbe, hadd, Sys.withChip, halloc, hfail, hdevres]

theorem mcp23016Probe_spec (h : Ready i s) : ProbeSpec (mcp23016Probe o i) i s True := by
  cases hfun : o.functionality with
  | false =>
      refine Or.inl ⟨- EIO, s, ?_, by decide, restored_unbind h.devres⟩
      simp [mcp23016Probe, hfun]
  | true =>
      have hprobe : mcp23016Probe o i = chipProbe gpiochipAdd GPIO_NUM o i := by
        simp [mcp23016Probe, hfun]
      rw [hprobe]
      exact chipProbe_spec h rfl

/-- The framework may not have the chip. -/
theorem iioProbe_spec (h : Ready i s) : ProbeSpec (Iio.myPdrvProbe o i) i s False := by
  have hdevres := h.devres
  cases halloc : o.kzalloc with
  | false =>
      refine Or.inl ⟨- ENOMEM, s, ?_, by decide, restored_unbind hdevres⟩
      simp [Iio.myPdrvProbe, halloc]
  | true =>
      refine Or.inr ⟨⟨some i, 0, 4⟩, o.add.isNone, ?_, rfl, False.elim⟩
      cases hfail : o.add with
      | some e =>
          simp [Iio.myPdrvProbe, iioDeviceRegister, Sys.withChip, halloc, hfail, hdevres]
      | none =>
          simp [Iio.myPdrvProbe, iioDeviceRegister, Sys.withChip, halloc, hfail, hdevres]

theorem probe_spec (hd : d ≠ .fakeGpioChip) (h : Ready i s) :
    ProbeSpec (d.probe o i) i s (d ≠ .iioDummyRandom) := by
  cases d with
  | mcp23016 => exact (mcp23016Probe_spec h).mono fun _ => trivial
  | fakeGpioChip => exact absurd rfl hd
  | fakePwm => exact (chipProbe_spec h rfl).mono fun _ => trivial
  | iioDummyRandom => exact (iioProbe_spec h).mono fun hne => hne rfl

/-- The state in which the framework does not have the chip `q`. -/
def Sys.without (s : Sys ι) (q : Nat) : Sys ι := { s with chips := s.chips.erase q }

omit [DecidableEq ι] in
/-- A removal that takes the chip back. -/
theorem remove_spec {q : Nat} {chip : Chip ι} {busy : Bool} (hd : d ≠ .fakeGpioChip)
    (hdata : s.drvdata i = .obj q) (hmem : s.mem q = some chip) (hq : q ∈ s.chips)
    (hfree : d = .fakePwm → busy = false) :
    (d.remove busy i).run s = .ok (0, s.without q) := by
  cases d with
  | mcp23016 =>
      simp [Driver.remove, mcp23016Remove, gpiochipRemove, hdata, hmem, hq, Sys.without]
  | fakeGpioChip => exact absurd rfl hd
  | fakePwm =>
      simp [Driver.remove, fakePwmRemove, pwmchipRemove, hdata, hmem, hq, hfree rfl, Sys.without]
  | iioDummyRandom =>
      simp [Driver.remove, Iio.myPdrvRemove, iioDeviceUnregister, hdata, hmem, hq, Sys.without]

end

/-! ## The steps -/

section

variable {d : Driver} {s t : State ι} {i : ι} {busy : Bool}

/-- The step of a probe, whose run is known. -/
theorem chipStep_probe {o : Outcome} {ret : Int} {u : Sys ι}
    (hstep : chipStep d s (.probe i o) = some t) (hrun : (d.probe o i).run s.sys = .ok (ret, u)) :
    s.bound i = false ∧
      (ret ≠ 0 → t = { s with sys := u.unbind i }) ∧
      (ret = 0 → t = { s with sys := u, bound := Function.update s.bound i true }) := by
  simp only [chipStep, hrun] at hstep
  split_ifs at hstep with hfault hbound hret
  · refine ⟨Bool.eq_false_iff.mpr hbound, fun hne => absurd hret hne, fun _ => ?_⟩
    exact (Option.some.inj hstep).symm
  · refine ⟨Bool.eq_false_iff.mpr hbound, fun _ => ?_, fun h => absurd h hret⟩
    exact (Option.some.inj hstep).symm

theorem chipStep_probe_bound {o : Outcome} (hstep : chipStep d s (.probe i o) = some t) :
    s.bound i = false := by
  simp only [chipStep] at hstep
  split_ifs at hstep with hfault hbound
  exact Bool.eq_false_iff.mpr hbound

theorem chipStep_remove_bound (hstep : chipStep d s (.remove i busy) = some t) :
    s.bound i = true := by
  simp only [chipStep] at hstep
  split_ifs at hstep with hfault hbound
  exact hbound

theorem chipStep_remove {ret : Int} {u : Sys ι} (hstep : chipStep d s (.remove i busy) = some t)
    (hrun : (d.remove busy i).run s.sys = .ok (ret, u)) :
    t = { s with sys := u.unbind i, bound := Function.update s.bound i false } := by
  simp only [chipStep, hrun] at hstep
  split_ifs at hstep
  exact (Option.some.inj hstep).symm

theorem chipStep_remove_error {f : Fault} (hstep : chipStep d s (.remove i busy) = some t)
    (hrun : (d.remove busy i).run s.sys = .error f) : t = { s with fault := some f } := by
  simp only [chipStep, hrun] at hstep
  split_ifs at hstep
  exact (Option.some.inj hstep).symm

end

end

end LinuxDrivers.Chips
