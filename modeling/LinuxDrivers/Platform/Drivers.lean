import LinuxDrivers.Kernel.Platform
import LinuxDrivers.Lib.Lifecycle

set_option autoImplicit false

/-! # Three platform drivers

`input-polled-button.c`, `dummy-regulator.c` and `fake-eth.c`. Each probe makes several calls that
may fail and keeps what it got where the removal is meant to find it: in memory of the device, or in
a local array. -/

namespace LinuxDrivers.Platform

open Lib

inductive Driver where
  | inputPolledButton
  | dummyRegulator
  | fakeEth
  deriving DecidableEq

/-- Which of the calls fail; an allocation is there or not. -/
structure Outcome where
  kzalloc : Bool
  polled : Bool
  gpio : Option Errno
  registerPolled : Option Errno
  regulator : Nat → Option Errno
  etherdev : Bool
  registerNetdev : Option Errno

def Outcome.fine : Outcome := ⟨true, true, none, none, fun _ => none, true, none⟩

section

variable {ι : Type} [DecidableEq ι]

/-! ## The polled button -/

/-- The pointer that `gpiod_get` returns is not checked. -/
def polledBtnProbe (o : Outcome) (pdev : ι) : PlatM ι Int := do
  let priv ← devmKzalloc o.kzalloc pdev
  if priv = .null then return - ENOMEM
  let poll_dev ← inputAllocatePolledDevice o.polled
  if poll_dev = .null then return - ENOMEM
  let btn_gpiod ← gpiodGet o.gpio
  store (.mem pdev) priv .btn_gpiod btn_gpiod
  -- the fields of `poll_dev` are set, and those of its input device
  let _ ← live .polledDev poll_dev
  store (.mem pdev) priv .poll_dev poll_dev
  let poll_dev' ← load (.mem pdev) priv .poll_dev
  let ret ← inputRegisterPolledDevice o.registerPolled poll_dev'
  if ret ≠ 0 then
    inputFreePolledDevice poll_dev
    devmKfree pdev priv
    return ret
  platformSetDrvdata pdev priv
  return 0

def polledBtnRemove (pdev : ι) : PlatM ι Int := do
  let priv ← platformGetDrvdata pdev
  let poll_dev ← load (.mem pdev) priv .poll_dev
  inputUnregisterPolledDevice poll_dev
  let poll_dev ← load (.mem pdev) priv .poll_dev
  inputFreePolledDevice poll_dev
  let btn_gpiod ← load (.mem pdev) priv .btn_gpiod
  gpiodPut btn_gpiod
  return 0

/-! ## The regulator -/

/-- The loop of the probe. `IS_ERR` is asked about the array, not about its element. -/
def registerRegulators (o : Outcome) (dummy_regulator_rdev : KPtr) : List Nat → PlatM ι Int
  | [] => return 0
  | i :: is => do
      let rdev ← regulatorRegister (o.regulator i)
      store .frame dummy_regulator_rdev (.elem i) rdev
      match dummy_regulator_rdev with
      | .err ret => return ret.1
      | _ => registerRegulators o dummy_regulator_rdev is

/-- The array is a local variable. -/
def myPdrvProbe (o : Outcome) (pdev : ι) : PlatM ι Int := do
  let dummy_regulator_rdev ← create none .frame
  let ret ← registerRegulators o dummy_regulator_rdev [0, 1]
  if ret = 0 then
    platformSetDrvdata pdev dummy_regulator_rdev
  release .frame dummy_regulator_rdev
  return ret

def unregisterRegulators (dummy_regulator_rdev : KPtr) : List Nat → PlatM ι Int
  | [] => return 0
  | i :: is => do
      regulatorUnregister dummy_regulator_rdev i
      unregisterRegulators dummy_regulator_rdev is

/-- The data of the device is taken for an array of `struct regulator_dev`. -/
def myPdrvRemove (pdev : ι) : PlatM ι Int := do
  let dummy_regulator_rdev ← platformGetDrvdata pdev
  unregisterRegulators dummy_regulator_rdev [0, 1]

/-! ## The network device -/

/-- The pointer that `alloc_etherdev` returns is used without a check. -/
def fakeEthProbe (o : Outcome) (pdev : ι) : PlatM ι Int := do
  let priv ← devmKzalloc o.kzalloc pdev
  if priv = .null then return - ENOMEM
  let dummy_ndev ← allocEtherdev o.etherdev
  let _ ← live .netDev dummy_ndev
  let ret ← registerNetdev o.registerNetdev dummy_ndev
  if ret ≠ 0 then return ret
  store (.mem pdev) priv .dummy_ndev dummy_ndev
  platformSetDrvdata pdev priv
  return 0

def fakeEthRemove (pdev : ι) : PlatM ι Int := do
  let priv ← platformGetDrvdata pdev
  let dummy_ndev ← load (.mem pdev) priv .dummy_ndev
  unregisterNetdev dummy_ndev
  let dummy_ndev ← load (.mem pdev) priv .dummy_ndev
  freeNetdev dummy_ndev
  return 0

/-! ## The instances of a driver -/

def Driver.probe (d : Driver) (o : Outcome) (pdev : ι) : PlatM ι Int :=
  match d with
  | .inputPolledButton => polledBtnProbe o pdev
  | .dummyRegulator => myPdrvProbe o pdev
  | .fakeEth => fakeEthProbe o pdev

def Driver.remove (d : Driver) (pdev : ι) : PlatM ι Int :=
  match d with
  | .inputPolledButton => polledBtnRemove pdev
  | .dummyRegulator => myPdrvRemove pdev
  | .fakeEth => fakeEthRemove pdev

/-- The platform devices of a driver, with what the driver core does. -/
def instances (d : Driver) (ι : Type) [DecidableEq ι] :
    Lifecycle (Platform ι) ι Outcome Fault (PlatObj ι) where
  probe pdev o s :=
    match (d.probe o pdev).run s with
    | .error f => .error f
    | .ok (ret, t) => if ret = 0 then .ok (true, t) else .ok (false, t.unbind pdev)
  remove pdev s :=
    match (d.remove pdev).run s with
    | .error f => .error f
    | .ok (_, t) => .ok (t.unbind pdev)
  Held s o := o ∈ s.held

/-- All that the probe of the driver acquires. -/
def Driver.Succeeds (d : Driver) (o : Outcome) : Prop :=
  match d with
  | .inputPolledButton =>
      o.kzalloc = true ∧ o.polled = true ∧ o.gpio = none ∧ o.registerPolled = none
  | .dummyRegulator => o.regulator 0 = none ∧ o.regulator 1 = none
  | .fakeEth => o.kzalloc = true ∧ o.etherdev = true ∧ o.registerNetdev = none

/-- The data of the device leads to these objects. For the regulator it leads to none of them. -/
def Driver.Leads (d : Driver) (i : ι) (s : Platform ι) (os : List (PlatObj ι)) : Prop :=
  match d with
  | .inputPolledButton => ∃ q p g, s.drvdata i = .obj q ∧ s.field q .btn_gpiod = .obj g ∧
      s.field q .poll_dev = .obj p ∧ os = [.input p, .gpio g, .polledDev p, .mem i q]
  | .dummyRegulator => ∃ a r₀ r₁, s.drvdata i = .obj a ∧ a < s.next ∧ .regulator a ∉ s.held ∧
      os = [.regulator r₁, .regulator r₀]
  | .fakeEth => ∃ q n, s.drvdata i = .obj q ∧ s.field q .dummy_ndev = .obj n ∧
      os = [.netif n, .netDev n, .mem i q]

/-! ## The paths of the probes -/

section

variable {s : Platform ι} {i : ι} {o : Outcome} {e e' : Errno}

theorem polledBtnProbe_noMemory (h : o.kzalloc = false) :
    (polledBtnProbe o i).run s = .ok (- ENOMEM, s) := by
  simp [polledBtnProbe, devmKzalloc, orNull, h]

theorem polledBtnProbe_noDevice (h : o.kzalloc = true) (hpolled : o.polled = false) :
    (polledBtnProbe o i).run s
      = .ok (- ENOMEM, { s with held := .mem i s.next :: s.held, next := s.next + 1 }) := by
  simp [polledBtnProbe, devmKzalloc, inputAllocatePolledDevice, orNull, h, hpolled]

/-- The fields of the private data, with what `gpiod_get` has returned. -/
def buttonFields (s : Platform ι) (btn_gpiod : KPtr) : Nat → Field → KPtr :=
  Function.update s.field s.next (Function.update (Function.update (s.field s.next)
    .btn_gpiod btn_gpiod) .poll_dev (.obj (s.next + 1)))

theorem polledBtnProbe_all (h : o.kzalloc = true) (hpolled : o.polled = true)
    (hgpio : o.gpio = none) (hreg : o.registerPolled = none) :
    (polledBtnProbe o i).run s = .ok (0,
      { held := .input (s.next + 1) :: .gpio (s.next + 2) :: .polledDev (s.next + 1) ::
          .mem i s.next :: s.held
        next := s.next + 3
        field := buttonFields s (.obj (s.next + 2))
        drvdata := Function.update s.drvdata i (.obj s.next) }) := by
  simp [polledBtnProbe, devmKzalloc, inputAllocatePolledDevice, gpiodGet,
    inputRegisterPolledDevice, orNull, h, hpolled, hgpio, hreg, buttonFields]

/-- Without the GPIO the probe goes on. -/
theorem polledBtnProbe_noGpio (h : o.kzalloc = true) (hpolled : o.polled = true)
    (hgpio : o.gpio = some e) (hreg : o.registerPolled = none) :
    (polledBtnProbe o i).run s = .ok (0,
      { held := .input (s.next + 1) :: .polledDev (s.next + 1) :: .mem i s.next :: s.held
        next := s.next + 2
        field := buttonFields s (.err e)
        drvdata := Function.update s.drvdata i (.obj s.next) }) := by
  simp [polledBtnProbe, devmKzalloc, inputAllocatePolledDevice, gpiodGet,
    inputRegisterPolledDevice, orNull, h, hpolled, hgpio, hreg, buttonFields]

/-- The GPIO stays when the polled device cannot be registered. -/
theorem polledBtnProbe_noInput (hr : Ready i s) (h : o.kzalloc = true) (hpolled : o.polled = true)
    (hgpio : o.gpio = none) (hreg : o.registerPolled = some e) :
    (polledBtnProbe o i).run s = .ok (e.1,
      { s with
        held := .gpio (s.next + 2) :: s.held
        next := s.next + 3
        field := buttonFields s (.obj (s.next + 2)) }) := by
  have he : ¬ e.1 = 0 := ne_of_lt e.2
  have hdev := hr.filter_ne (o := .polledDev (s.next + 1)) (Nat.le_succ _)
  have hmem := hr.filter_ne (o := .mem i s.next) (Nat.le_refl _)
  simp [polledBtnProbe, devmKzalloc, inputAllocatePolledDevice, gpiodGet,
    inputRegisterPolledDevice, inputFreePolledDevice, devmKfree, orNull, h, hpolled, hgpio, hreg,
    he, buttonFields, hdev, hmem]

theorem polledBtnProbe_noGpio_noInput (hr : Ready i s) (h : o.kzalloc = true)
    (hpolled : o.polled = true) (hgpio : o.gpio = some e') (hreg : o.registerPolled = some e) :
    (polledBtnProbe o i).run s = .ok (e.1,
      { s with next := s.next + 2, field := buttonFields s (.err e') }) := by
  have he : ¬ e.1 = 0 := ne_of_lt e.2
  have hdev := hr.filter_ne (o := .polledDev (s.next + 1)) (Nat.le_succ _)
  have hmem := hr.filter_ne (o := .mem i s.next) (Nat.le_refl _)
  simp [polledBtnProbe, devmKzalloc, inputAllocatePolledDevice, gpiodGet,
    inputRegisterPolledDevice, inputFreePolledDevice, devmKfree, orNull, h, hpolled, hgpio, hreg,
    he, buttonFields, hdev, hmem]

/-- Whatever the registrations return, the probe of the regulator returns 0. -/
theorem myPdrvProbe_ret :
    ∃ t, (myPdrvProbe o i).run s = .ok (0, t) := by
  cases h₀ : o.regulator 0 <;> cases h₁ : o.regulator 1 <;>
    simp [myPdrvProbe, registerRegulators, regulatorRegister, h₀, h₁]

theorem myPdrvProbe_all (hr : Ready i s) (h₀ : o.regulator 0 = none)
    (h₁ : o.regulator 1 = none) :
    ∃ field, (myPdrvProbe o i).run s = .ok (0,
      { held := .regulator (s.next + 2) :: .regulator (s.next + 1) :: s.held
        next := s.next + 3
        field := Function.update s.field s.next field
        drvdata := Function.update s.drvdata i (.obj s.next) }) := by
  have hframe := hr.filter_ne (o := .frame s.next) (Nat.le_refl _)
  refine ⟨Function.update (Function.update (s.field s.next) (.elem 0) (.obj (s.next + 1)))
    (.elem 1) (.obj (s.next + 2)), ?_⟩
  simp [myPdrvProbe, registerRegulators, regulatorRegister, h₀, h₁, hframe]

theorem fakeEthProbe_noMemory (h : o.kzalloc = false) :
    (fakeEthProbe o i).run s = .ok (- ENOMEM, s) := by
  simp [fakeEthProbe, devmKzalloc, orNull, h]

/-- Without the network device NULL is written to. -/
theorem fakeEthProbe_noDevice (h : o.kzalloc = true) (hdev : o.etherdev = false) :
    (fakeEthProbe o i).run s = .error .nullDeref := by
  simp [fakeEthProbe, devmKzalloc, allocEtherdev, orNull, h, hdev]

/-- The network device stays when it cannot be registered. -/
theorem fakeEthProbe_noNetif (h : o.kzalloc = true) (hdev : o.etherdev = true)
    (hreg : o.registerNetdev = some e) :
    (fakeEthProbe o i).run s = .ok (e.1,
      { s with held := .netDev (s.next + 1) :: .mem i s.next :: s.held, next := s.next + 2 }) := by
  have he : ¬ e.1 = 0 := ne_of_lt e.2
  simp [fakeEthProbe, devmKzalloc, allocEtherdev, registerNetdev, orNull, h, hdev, hreg, he]

theorem fakeEthProbe_all (h : o.kzalloc = true) (hdev : o.etherdev = true)
    (hreg : o.registerNetdev = none) :
    (fakeEthProbe o i).run s = .ok (0,
      { held := .netif (s.next + 1) :: .netDev (s.next + 1) :: .mem i s.next :: s.held
        next := s.next + 2
        field := Function.update s.field s.next
          (Function.update (s.field s.next) .dummy_ndev (.obj (s.next + 1)))
        drvdata := Function.update s.drvdata i (.obj s.next) }) := by
  simp [fakeEthProbe, devmKzalloc, allocEtherdev, registerNetdev, orNull, h, hdev, hreg]

/-! ## The removals -/

theorem polledBtnRemove_of_leads {q p g : Nat} (hdata : s.drvdata i = .obj q)
    (hgpio : s.field q .btn_gpiod = .obj g) (hpoll : s.field q .poll_dev = .obj p)
    (hlive : ∀ b ∈ ([.input p, .gpio g, .polledDev p, .mem i q] : List (PlatObj ι)), b ∈ s.held) :
    (polledBtnRemove i).run s = .ok (0, { s with
      held := ((s.held.filter (fun o => !decide (o = .input p))).filter
        (fun o => !decide (o = .polledDev p))).filter (fun o => !decide (o = .gpio g)) }) := by
  simp only [List.forall_mem_cons, List.not_mem_nil, false_imp_iff, implies_true, and_true] at hlive
  rcases hlive with ⟨hinput, hgpio', hdev, hmem⟩
  simp [polledBtnRemove, inputUnregisterPolledDevice, inputFreePolledDevice, gpiodPut, hdata,
    hgpio, hpoll, hinput, hgpio', hdev, hmem]

/-- The address of the local array is not that of a regulator. -/
theorem myPdrvRemove_of_leads {a : Nat} (hdata : s.drvdata i = .obj a)
    (hnot : .regulator a ∉ s.held) : ∃ f, (myPdrvRemove i).run s = .error f := by
  refine ⟨.notLive, ?_⟩
  have hlive : (live .regulator (.obj a)).run s = .error .notLive := if_neg hnot
  simp [myPdrvRemove, unregisterRegulators, regulatorUnregister, release, hdata, hlive]

theorem fakeEthRemove_of_leads {q n : Nat} (hdata : s.drvdata i = .obj q)
    (hndev : s.field q .dummy_ndev = .obj n)
    (hlive : ∀ b ∈ ([.netif n, .netDev n, .mem i q] : List (PlatObj ι)), b ∈ s.held) :
    (fakeEthRemove i).run s = .ok (0, { s with
      held := (s.held.filter (fun o => !decide (o = .netif n))).filter
        (fun o => !decide (o = .netDev n)) }) := by
  simp only [List.forall_mem_cons, List.not_mem_nil, false_imp_iff, implies_true, and_true] at hlive
  rcases hlive with ⟨hnetif, hdev, hmem⟩
  simp [fakeEthRemove, unregisterNetdev, freeNetdev, hdata, hndev, hnetif, hdev, hmem]

end

end

end LinuxDrivers.Platform
