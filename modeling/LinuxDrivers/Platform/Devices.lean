import LinuxDrivers.Kernel.CTypes
import LinuxDrivers.Kernel.Memory
import LinuxDrivers.Lib.Run

set_option autoImplicit false

/-! # The modules that add a platform device

Each of the modules `*-ins.c` adds one platform device when it is loaded, for the driver of its
chapter to bind to, and gives back its reference to the device when it is unloaded. The result of
`platform_device_add` is not looked at, and an unload does not take the device off the bus.

`devices_ledger` says what becomes of the devices in any sequence of loads and unloads of all these
modules, with any of the kernel's calls failing. -/

namespace LinuxDrivers.Platform

open Lib

/-! ## The bus -/

/-- A platform device. There are `refs` references to it. -/
structure PlatformDevice where
  name : String
  id : Int
  refs : Nat
  deriving DecidableEq

/-- The devices in memory, and those on the bus: the lists of the bus hold a reference of their
own. -/
structure Bus where
  heap : Heap PlatformDevice
  devices : List Nat

/-- Whether a device with this name and id is on the bus. -/
def Bus.named (b : Bus) (name : String) (id : Int) : Bool :=
  b.devices.any (fun q => (b.heap.get? q).any (fun d => decide (d.name = name ∧ d.id = id)))

def platformDeviceAlloc (ok : Bool) (name : String) (id : Int) (b : Bus) : KPtr × Bus :=
  if ok then (.obj b.heap.next, { b with heap := b.heap.alloc ⟨name, id, 1⟩ }) else (.null, b)

/-- A name is given once. Any other reason for a failure is `fail`. -/
def platformDeviceAdd (fail : Option Errno) (p : KPtr) (b : Bus) : Except Fault (Int × Bus) :=
  match p with
  | .null => .ok (- EINVAL, b)
  | .err _ => .error .notLive
  | .obj q =>
      match b.heap.get? q with
      | none => .error .notLive
      | some d =>
          match fail with
          | some e => .ok (e.1, b)
          | none =>
              if b.named d.name d.id then .ok (- EEXIST, b) else
                match b.heap.set? q { d with refs := d.refs + 1 } with
                | none => .error .notLive
                | some heap => .ok (0, ⟨heap, q :: b.devices⟩)

/-- The last reference frees the device. -/
def platformDevicePut (p : KPtr) (b : Bus) : Except Fault Bus :=
  match p with
  | .null => .ok b
  | .err _ => .error .notLive
  | .obj q =>
      match b.heap.get? q with
      | none => .error .notLive
      | some d =>
          match (if d.refs = 1 then b.heap.free? q
            else b.heap.set? q { d with refs := d.refs - 1 }) with
          | none => .error .notLive
          | some heap => .ok { b with heap := heap }

/-! ## The modules -/

/-- Which of the calls of a load fail. -/
structure InsOutcome where
  alloc : Bool
  add : Option Errno

def InsOutcome.fine : InsOutcome := ⟨true, none⟩

/-- The bus, and the lines of `pr_info`. -/
structure InsSys where
  bus : Bus
  log : List String

/-- The init function of such a module: its `pdev` and what it returns. -/
def insAdd (name : String) (inst_id : Int) (added : String) (o : InsOutcome) (s : InsSys) :
    Except Fault (Int × KPtr × InsSys) :=
  let (pdev, bus) := platformDeviceAlloc o.alloc name inst_id s.bus
  match platformDeviceAdd o.add pdev bus with
  | .error f => .error f
  | .ok (_, bus) => .ok (0, pdev, ⟨bus, s.log ++ [added]⟩)

/-- The exit function. -/
def insPut (removed : String) (pdev : KPtr) (s : InsSys) : Except Fault InsSys :=
  let log := s.log ++ [removed]
  match platformDevicePut pdev s.bus with
  | .error f => .error f
  | .ok bus => .ok ⟨bus, log⟩

namespace PlatformDummyIns

def platformDummyCharAdd := insAdd "platform-dummy-char" 0 "platform-dummy-char device added\n"
def fplatformDummyCharPut := insPut "platform-dummy-char device removed\n"

end PlatformDummyIns

namespace FakeGpioIns

def platformDummyCharAdd := insAdd "fake-gpio-chip" 0 "fake-gpio-chip added\n"
def fplatformDummyCharPut := insPut "fake-gpio-chip removed\n"

end FakeGpioIns

def fakeIioAdd := insAdd "iio-dummy-random" 0 "iio-dummy-random added"
def fakeIioPut := insPut "iio-dummy-random removed"

def fakePollDevAdd := insAdd "input-polled-button" 0 "input-polled-button added"
def fakePollDevPut := insPut "input-polled-button removed"

def fakeRtcAdd := insAdd "fake-rtc" 1 "rtc_device added"
def fakeRtcPut := insPut "rtc_device removed"

def fakePwmAdd := insAdd "fake-pwm" 0 "fake-pwm added"
def fakePwmPut := insPut "fake-pwm removed"

def fakeRegAdd := insAdd "regulator-dummy" 0 "regulator-dummy added"
def fakeRegPut := insPut "regulator-dummy removed"

def fakeEthAdd := insAdd "fake-eth" 0 "fake-eth added"
def fakeEthPut := insPut "fake-fake removed"

/-- The modules, by the driver that their device is for. -/
inductive Ins where
  | dummyChar
  | gpioChip
  | iio
  | polledButton
  | rtc
  | pwm
  | regulator
  | eth
  deriving DecidableEq

def Ins.add : Ins → InsOutcome → InsSys → Except Fault (Int × KPtr × InsSys)
  | dummyChar => PlatformDummyIns.platformDummyCharAdd
  | gpioChip => FakeGpioIns.platformDummyCharAdd
  | iio => fakeIioAdd
  | polledButton => fakePollDevAdd
  | rtc => fakeRtcAdd
  | pwm => fakePwmAdd
  | regulator => fakeRegAdd
  | eth => fakeEthAdd

def Ins.put : Ins → KPtr → InsSys → Except Fault InsSys
  | dummyChar => PlatformDummyIns.fplatformDummyCharPut
  | gpioChip => FakeGpioIns.fplatformDummyCharPut
  | iio => fakeIioPut
  | polledButton => fakePollDevPut
  | rtc => fakeRtcPut
  | pwm => fakePwmPut
  | regulator => fakeRegPut
  | eth => fakeEthPut

/-- The name and the id of the module's device. -/
def Ins.key : Ins → String × Int
  | dummyChar => ("platform-dummy-char", 0)
  | gpioChip => ("fake-gpio-chip", 0)
  | iio => ("iio-dummy-random", 0)
  | polledButton => ("input-polled-button", 0)
  | rtc => ("fake-rtc", 1)
  | pwm => ("fake-pwm", 0)
  | regulator => ("regulator-dummy", 0)
  | eth => ("fake-eth", 0)

/-! ## Loads and unloads -/

/-- The modules that are loaded have a `pdev`. After a fault nothing happens any more. -/
structure InsState where
  sys : InsSys
  pdev : Ins → Option KPtr
  fault : Option Fault

inductive InsEvent where
  | load (i : Ins) (o : InsOutcome)
  | unload (i : Ins)

def insStep (s : InsState) (e : InsEvent) : Option InsState :=
  match s.fault, e with
  | some _, _ => none
  | none, .load i o =>
      match s.pdev i with
      | some _ => none
      | none =>
          match i.add o s.sys with
          | .error f => some { s with fault := some f }
          | .ok (ret, p, sys) =>
              if ret = 0 then some { s with sys := sys, pdev := Function.update s.pdev i (some p) }
              else some { s with sys := sys }
  | none, .unload i =>
      match s.pdev i with
      | none => none
      | some p =>
          match i.put p s.sys with
          | .error f => some { s with fault := some f }
          | .ok sys => some { s with sys := sys, pdev := Function.update s.pdev i none }

def InsState.start : InsState := ⟨⟨⟨Heap.empty, []⟩, []⟩, fun _ => none, none⟩

/-- The device at `q` is on the bus, and is one of the module `i`. -/
def OnBus (b : Bus) (i : Ins) (q : Nat) : Prop :=
  q ∈ b.devices ∧ ∃ d, b.heap.cell q = .live d ∧ (d.name, d.id) = i.key

/-- The references to the device at `q`, which is one of the module `i`. -/
def refsOf (s : InsState) (i : Ins) (q : Nat) : Nat :=
  (if q ∈ s.sys.bus.devices then 1 else 0) + (if s.pdev i = some (.obj q) then 1 else 0)

/-! ## What the calls do -/

theorem Ins.key_inj {i j : Ins} (h : i.key = j.key) : i = j := by
  revert h
  cases i <;> cases j <;> simp [Ins.key]

theorem Ins.add_eq (i : Ins) : ∃ added, i.add = insAdd i.key.1 i.key.2 added := by
  cases i <;> exact ⟨_, rfl⟩

theorem Ins.put_eq (i : Ins) : ∃ removed, i.put = insPut removed := by
  cases i <;> exact ⟨_, rfl⟩

section

variable {b : Bus} {i : Ins} {o : InsOutcome} {q : Nat} {d : PlatformDevice}

theorem named_iff : b.named i.key.1 i.key.2 = true ↔ ∃ q, OnBus b i q := by
  simp only [Bus.named, List.any_eq_true, Option.any_eq_true, Heap.get?_eq_some,
    decide_eq_true_eq, OnBus, Prod.ext_iff]

/-- A new device is on no list. -/
theorem onBus_alloc (hlive : ∀ q ∈ b.devices, ∃ d, b.heap.cell q = .live d) (x : PlatformDevice)
    {j : Ins} : OnBus { b with heap := b.heap.alloc x } j q ↔ OnBus b j q := by
  refine and_congr_right fun hq => ?_
  rcases hlive q hq with ⟨d, hd⟩
  have hlt : q < b.heap.next := Heap.lt_next (by simp [hd])
  rw [Heap.alloc_cell_ne _ _ (Nat.ne_of_lt hlt)]

/-- A load: there is no memory, or there is a device that may have come onto the bus. It has, unless
`platform_device_add` fails or the bus has such a device already. -/
theorem add_cases (hlive : ∀ q ∈ b.devices, ∃ d, b.heap.cell q = .live d) (log : List String) :
    ∃ log', (o.alloc = false ∧ i.add o ⟨b, log⟩ = .ok (0, .null, ⟨b, log'⟩)) ∨
      (o.alloc = true ∧ ((o.add ≠ none ∨ ∃ q, OnBus b i q) ∧
        i.add o ⟨b, log⟩ = .ok (0, .obj b.heap.next,
          ⟨{ b with heap := b.heap.alloc ⟨i.key.1, i.key.2, 1⟩ }, log'⟩) ∨
      (o.add = none ∧ ¬ ∃ q, OnBus b i q) ∧ ∃ heap : Heap PlatformDevice,
        heap.next = b.heap.next + 1 ∧
        heap.cell = Function.update b.heap.cell b.heap.next (.live ⟨i.key.1, i.key.2, 2⟩) ∧
        i.add o ⟨b, log⟩ = .ok (0, .obj b.heap.next, ⟨⟨heap, b.heap.next :: b.devices⟩, log'⟩))) := by
  rcases i.add_eq with ⟨added, hadd⟩
  refine ⟨log ++ [added], ?_⟩
  rw [hadd]
  cases ha : o.alloc with
  | false =>
      refine Or.inl ⟨rfl, ?_⟩
      simp [insAdd, platformDeviceAlloc, platformDeviceAdd, ha]
  | true =>
      refine Or.inr ⟨rfl, ?_⟩
      have hget : (b.heap.alloc ⟨i.key.1, i.key.2, 1⟩).get? b.heap.next
          = some ⟨i.key.1, i.key.2, 1⟩ := Heap.get?_eq_some.mpr (Heap.alloc_cell_self _ _)
      have hnamed : Bus.named { b with heap := b.heap.alloc ⟨i.key.1, i.key.2, 1⟩ } i.key.1 i.key.2
          = true ↔ ∃ q, OnBus b i q :=
        named_iff.trans (exists_congr fun q => onBus_alloc hlive _)
      cases hf : o.add with
      | some e =>
          refine Or.inl ⟨Or.inl (Option.some_ne_none e), ?_⟩
          simp [insAdd, platformDeviceAlloc, platformDeviceAdd, ha, hf, hget]
      | none =>
          by_cases hon : ∃ q, OnBus b i q
          · refine Or.inl ⟨Or.inr hon, ?_⟩
            simp [insAdd, platformDeviceAlloc, platformDeviceAdd, ha, hf, hget, hnamed.mpr hon]
          · refine Or.inr ⟨⟨rfl, hon⟩, ?_⟩
            rcases Heap.set?_of_live (Heap.get?_eq_some.mp hget) ⟨i.key.1, i.key.2, 1 + 1⟩
              with ⟨heap, hset, hnext, hcell⟩
            refine ⟨heap, hnext, ?_, ?_⟩
            · rw [hcell, Heap.alloc, Function.update_idem]
            · simp [insAdd, platformDeviceAlloc, platformDeviceAdd, ha, hf, hget,
                (Bool.not_eq_true _).mp (fun h => hon (hnamed.mp h)), hset]

/-- An unload of a module that has got a device. -/
theorem put_obj (hd : b.heap.cell q = .live d) (log : List String) :
    ∃ heap : Heap PlatformDevice, ∃ log', heap.next = b.heap.next ∧
      heap.cell = Function.update b.heap.cell q
        (if d.refs = 1 then .freed else .live { d with refs := d.refs - 1 }) ∧
      i.put (.obj q) ⟨b, log⟩ = .ok ⟨{ b with heap := heap }, log'⟩ := by
  rcases i.put_eq with ⟨removed, hput⟩
  have hget : b.heap.get? q = some d := Heap.get?_eq_some.mpr hd
  rw [hput]
  by_cases hone : d.refs = 1
  · rcases Heap.free?_of_live hd with ⟨heap, hfree, hnext, hcell⟩
    refine ⟨heap, log ++ [removed], hnext, ?_, ?_⟩
    · rw [hcell, if_pos hone]
    · simp [insPut, platformDevicePut, hget, hone, hfree]
  · rcases Heap.set?_of_live hd { d with refs := d.refs - 1 } with ⟨heap, hset, hnext, hcell⟩
    refine ⟨heap, log ++ [removed], hnext, ?_, ?_⟩
    · rw [hcell, if_neg hone]
    · simp [insPut, platformDevicePut, hget, hone, hset]

theorem put_null (log : List String) : ∃ log', i.put .null ⟨b, log⟩ = .ok ⟨b, log'⟩ := by
  rcases i.put_eq with ⟨removed, hput⟩
  exact ⟨log ++ [removed], by rw [hput]; rfl⟩

end

/-! ## Runs -/

/-- What holds after the events `es`. -/
structure InsInv (es : List InsEvent) (s : InsState) : Prop where
  running : s.fault = none
  used : ∀ q, q < s.sys.bus.heap.next → s.sys.bus.heap.cell q ≠ .unused
  registered : ∀ q ∈ s.sys.bus.devices, ∃ d, s.sys.bus.heap.cell q = .live d
  live : ∀ q d, s.sys.bus.heap.cell q = .live d →
    ∃ i, d = ⟨i.key.1, i.key.2, refsOf s i q⟩ ∧ 0 < refsOf s i q
  loaded : ∀ i p, s.pdev i = some p → p = .null ∨ ∃ q d, p = .obj q ∧
    s.sys.bus.heap.cell q = .live d ∧ (d.name, d.id) = i.key
  once : ∀ i q q', OnBus s.sys.bus i q → OnBus s.sys.bus i q' → q = q'
  history : ∀ i, (∃ q, OnBus s.sys.bus i q) ↔ .load i .fine ∈ es

theorem insInv_start : InsInv [] .start where
  running := rfl
  used q hq := absurd hq (Nat.not_lt_zero q)
  registered q hq := by cases hq
  live q d hd := by cases hd
  loaded i p hp := by cases hp
  once i q q' hq := by cases hq.1
  history i := by
    constructor
    · rintro ⟨q, hq, -⟩
      cases hq
    · intro h
      cases h

section

variable {es : List InsEvent} {s t : InsState} {i : Ins} {o : InsOutcome} {q : Nat}

/-- A device that a module has got belongs to it alone. -/
theorem InsInv.owner (h : InsInv es s) {j : Ins} {d : PlatformDevice}
    (hd : s.sys.bus.heap.cell q = .live d) (hj : (d.name, d.id) = j.key) :
    d = ⟨j.key.1, j.key.2, refsOf s j q⟩ ∧ 0 < refsOf s j q := by
  rcases h.live q d hd with ⟨i, hdi, hpos⟩
  obtain rfl : i = j := Ins.key_inj ((by rw [hdi] : i.key = (d.name, d.id)).trans hj)
  exact ⟨hdi, hpos⟩

/-- Nothing points to the next object. -/
theorem InsInv.fresh (h : InsInv es s) :
    s.sys.bus.heap.next ∉ s.sys.bus.devices ∧ ∀ i, s.pdev i ≠ some (.obj s.sys.bus.heap.next) := by
  have hcell : s.sys.bus.heap.cell s.sys.bus.heap.next = .unused :=
    s.sys.bus.heap.beyond _ (Nat.le_refl _)
  constructor
  · intro hmem
    rcases h.registered _ hmem with ⟨d, hd⟩
    rw [hcell] at hd
    cases hd
  · intro i hi
    rcases h.loaded i _ hi with hnull | ⟨q, d, hq, hd, -⟩
    · cases hnull
    · obtain rfl := KPtr.obj.inj hq
      rw [hcell] at hd
      cases hd

/-! ## One step changes one device -/

/-- Nothing has changed but the device at `q` and the `pdev` of the module `i`, which points to no
other device. -/
structure Touches (i : Ins) (q : Nat) (s t : InsState) : Prop where
  fault : t.fault = s.fault
  next : ∀ x, x ≠ q → x < t.sys.bus.heap.next → x < s.sys.bus.heap.next
  cell : ∀ x, x ≠ q → t.sys.bus.heap.cell x = s.sys.bus.heap.cell x
  devices : ∀ x, x ≠ q → (x ∈ t.sys.bus.devices ↔ x ∈ s.sys.bus.devices)
  others : ∀ j, j ≠ i → t.pdev j = s.pdev j
  own : ∀ x, x ≠ q → t.pdev i ≠ some (.obj x) ∧ s.pdev i ≠ some (.obj x)

theorem Touches.refsOf_eq (h : Touches i q s t) {x : Nat} (hx : x ≠ q) (j : Ins) :
    refsOf t j x = refsOf s j x := by
  have hpdev : t.pdev j = some (.obj x) ↔ s.pdev j = some (.obj x) := by
    by_cases hj : j = i
    · subst hj
      exact iff_of_false (h.own x hx).1 (h.own x hx).2
    · rw [h.others j hj]
  simp only [refsOf, h.devices x hx, hpdev]

theorem Touches.onBus_iff (h : Touches i q s t) {x : Nat} (hx : x ≠ q) (j : Ins) :
    OnBus t.sys.bus j x ↔ OnBus s.sys.bus j x := by
  rw [OnBus, OnBus, h.devices x hx, h.cell x hx]

/-- What the invariant asks of the device at `q`. It is one of the module `i`, and it comes onto the
bus only if the bus has no other one. -/
structure OwnAt (i : Ins) (q : Nat) (s t : InsState) : Prop where
  used : q < t.sys.bus.heap.next → t.sys.bus.heap.cell q ≠ .unused
  registered : q ∈ t.sys.bus.devices → ∃ d, t.sys.bus.heap.cell q = .live d
  live : ∀ d, t.sys.bus.heap.cell q = .live d →
    d = ⟨i.key.1, i.key.2, refsOf t i q⟩ ∧ 0 < refsOf t i q
  loaded : ∀ p, t.pdev i = some p → p = .null ∨ p = .obj q ∧ ∃ d, t.sys.bus.heap.cell q = .live d
  others : ∀ j, j ≠ i → s.pdev j ≠ some (.obj q)
  once : OnBus t.sys.bus i q → ∀ x, OnBus s.sys.bus i x → x = q

theorem OwnAt.key (h : OwnAt i q s t) {d : PlatformDevice}
    (hd : t.sys.bus.heap.cell q = .live d) : (d.name, d.id) = i.key := by
  rw [(h.live d hd).1]

theorem OwnAt.eq_of_onBus (h : OwnAt i q s t) {j : Ins} (hj : OnBus t.sys.bus j q) : j = i := by
  rcases hj with ⟨-, d, hd, hkey⟩
  exact Ins.key_inj (hkey.symm.trans (h.key hd))

/-- **The invariant after a step**: it is enough to look at the device at `q`. -/
theorem Touches.inv (ht : Touches i q s t) (h : InsInv es s) (hq : OwnAt i q s t)
    {es' : List InsEvent}
    (hhistory : ∀ j, (∃ x, OnBus t.sys.bus j x) ↔ .load j .fine ∈ es') : InsInv es' t := by
  refine ⟨ht.fault.trans h.running, ?_, ?_, ?_, ?_, ?_, hhistory⟩
  · intro x hx
    by_cases hxq : x = q
    · subst hxq
      exact hq.used hx
    · rw [ht.cell x hxq]
      exact h.used x (ht.next x hxq hx)
  · intro x hx
    by_cases hxq : x = q
    · subst hxq
      exact hq.registered hx
    · rw [ht.cell x hxq]
      exact h.registered x ((ht.devices x hxq).mp hx)
  · intro x d hd
    by_cases hxq : x = q
    · subst hxq
      exact ⟨i, hq.live d hd⟩
    · rw [ht.cell x hxq] at hd
      rcases h.live x d hd with ⟨j, hdj⟩
      rw [← ht.refsOf_eq hxq j] at hdj
      exact ⟨j, hdj⟩
  · intro j p hp
    by_cases hj : j = i
    · subst hj
      rcases hq.loaded p hp with hnull | ⟨rfl, d, hd⟩
      · exact Or.inl hnull
      · exact Or.inr ⟨q, d, rfl, hd, hq.key hd⟩
    · rw [ht.others j hj] at hp
      rcases h.loaded j p hp with hnull | ⟨x, d, rfl, hd, hkey⟩
      · exact Or.inl hnull
      · have hxq : x ≠ q := fun heq => hq.others j hj (heq ▸ hp)
        exact Or.inr ⟨x, d, rfl, (ht.cell x hxq).trans hd, hkey⟩
  · -- a device that is there together with the one at `q` is the one at `q`
    have hone : ∀ j x, OnBus t.sys.bus j q → OnBus t.sys.bus j x → x = q := by
      intro j x hj hx
      by_contra hxq
      obtain rfl := hq.eq_of_onBus hj
      exact hxq (hq.once hj x ((ht.onBus_iff hxq j).mp hx))
    intro j x y hx hy
    by_cases hxq : x = q
    · subst hxq
      exact (hone j y hx hy).symm
    · by_cases hyq : y = q
      · subst hyq
        exact hone j x hy hx
      · exact h.once j x y ((ht.onBus_iff hxq j).mp hx) ((ht.onBus_iff hyq j).mp hy)

/-! ## The steps -/

/-- A load or an unload without a device. -/
theorem InsInv.no_device (h : InsInv es s) {p : Option KPtr} (hi : ∀ v ∈ s.pdev i, v = .null)
    (hp : ∀ v ∈ p, v = .null) (log : List String) {es' : List InsEvent}
    (hes : ∀ j, .load j .fine ∈ es' ↔ .load j .fine ∈ es) :
    InsInv es' { s with sys := ⟨s.sys.bus, log⟩, pdev := Function.update s.pdev i p } := by
  have hfresh := h.fresh
  have hunused : s.sys.bus.heap.cell s.sys.bus.heap.next = .unused :=
    s.sys.bus.heap.beyond _ (Nat.le_refl _)
  have htouches : Touches i s.sys.bus.heap.next s
      { s with sys := ⟨s.sys.bus, log⟩, pdev := Function.update s.pdev i p } := by
    refine ⟨rfl, fun _ _ hx => hx, fun _ _ => rfl, fun _ _ => Iff.rfl,
      fun j hj => Function.update_of_ne hj _ _, fun x _ => ⟨fun hx => ?_, fun hx => ?_⟩⟩
    · cases hp _ ((Function.update_self i p s.pdev).symm.trans hx)
    · cases hi _ hx
  apply htouches.inv h _ fun j => (h.history j).trans (hes j).symm
  constructor
  · exact fun hlt => absurd hlt (Nat.lt_irrefl _)
  · exact fun hmem => absurd hmem hfresh.1
  · intro d hd
    cases hunused.symm.trans hd
  · intro v hv
    exact Or.inl (hp v ((Function.update_self i p s.pdev).symm.trans hv))
  · exact fun j _ => hfresh.2 j
  · exact fun hon => absurd hon.1 hfresh.1

/-- `b` is the bus with a new device of the module `i` at `q`; `on` says whether it has come onto
the bus. -/
structure Added (i : Ins) (on : Bool) (q : Nat) (s : InsState) (b : Bus) : Prop where
  fresh : q = s.sys.bus.heap.next
  next : b.heap.next = q + 1
  cell : b.heap.cell = Function.update s.sys.bus.heap.cell q
    (.live ⟨i.key.1, i.key.2, on.toNat + 1⟩)
  devices : ∀ x, x ∈ b.devices ↔ on = true ∧ x = q ∨ x ∈ s.sys.bus.devices

/-- The state after the load. -/
def InsState.loadedWith (s : InsState) (i : Ins) (q : Nat) (b : Bus) (log : List String) :
    InsState :=
  { s with sys := ⟨b, log⟩, pdev := Function.update s.pdev i (some (.obj q)) }

theorem InsState.loadedWith_pdev (b : Bus) (log : List String) :
    (s.loadedWith i q b log).pdev i = some (.obj q) := Function.update_self _ _ _

section

variable {on : Bool} {b : Bus} {log : List String}

theorem Added.live (ha : Added i on q s b) :
    b.heap.cell q = .live ⟨i.key.1, i.key.2, on.toNat + 1⟩ := by
  rw [ha.cell, Function.update_self]

theorem Added.mem_iff (ha : Added i on q s b) (h : InsInv es s) : q ∈ b.devices ↔ on = true := by
  have hfresh := h.fresh.1
  rw [← ha.fresh] at hfresh
  simp [ha.devices, hfresh]

theorem Added.touches (ha : Added i on q s b) (hi : s.pdev i = none) :
    Touches i q s (s.loadedWith i q b log) where
  fault := rfl
  next x hx hlt := by
    have hlt' : x < b.heap.next := hlt
    have hnext := ha.next
    have hfresh := ha.fresh
    omega
  cell x hx := (congrFun ha.cell x).trans (Function.update_of_ne hx _ _)
  devices x hx := (ha.devices x).trans (by simp [hx])
  others j hj := Function.update_of_ne hj _ _
  own x hx := ⟨by simp [InsState.loadedWith, Ne.symm hx], by simp [hi]⟩

theorem Added.own (ha : Added i on q s b) (h : InsInv es s)
    (hon : on = true → ¬ ∃ q, OnBus s.sys.bus i q) :
    OwnAt i q s (s.loadedWith i q b log) where
  used _ := by simp [InsState.loadedWith, ha.live]
  registered _ := ⟨_, ha.live⟩
  live d hd := by
    obtain rfl := Cell.live.inj (ha.live.symm.trans hd)
    have hrefs : refsOf (s.loadedWith i q b log) i q = on.toNat + 1 := by
      simp only [refsOf, InsState.loadedWith, ha.mem_iff h, Function.update_self, if_true]
      cases on <;> rfl
    rw [hrefs]
    exact ⟨rfl, Nat.succ_pos _⟩
  loaded p hp := by
    rw [InsState.loadedWith_pdev] at hp
    exact Or.inr ⟨(Option.some.inj hp).symm, _, ha.live⟩
  others j _ := by
    rw [ha.fresh]
    exact h.fresh.2 j
  once hbus x hx := absurd ⟨x, hx⟩ (hon ((ha.mem_iff h).mp hbus.1))

/-- A load that gets a device: it comes onto the bus if all goes well and the bus has none of the
module. -/
theorem InsInv.new (h : InsInv es s) (hi : s.pdev i = none) (ha : Added i on q s b)
    (hon : on = true → o = .fine ∧ ¬ ∃ q, OnBus s.sys.bus i q)
    (hoff : on = false → o = .fine → ∃ q, OnBus s.sys.bus i q) :
    InsInv (es ++ [.load i o]) (s.loadedWith i q b log) := by
  have htouches : Touches i q s (s.loadedWith i q b log) := ha.touches hi
  have hown : OwnAt i q s (s.loadedWith i q b log) := ha.own h fun hcase => (hon hcase).2
  have hmem := ha.mem_iff h
  refine htouches.inv h hown fun j => ?_
  rw [List.mem_append, List.mem_singleton, InsEvent.load.injEq, ← h.history j]
  constructor
  · rintro ⟨x, hx⟩
    by_cases hxq : x = q
    · subst hxq
      exact Or.inr ⟨hown.eq_of_onBus hx, (hon (hmem.mp hx.1)).1.symm⟩
    · exact Or.inl ⟨x, (htouches.onBus_iff hxq j).mp hx⟩
  · -- what was on the bus before is not `q`
    have hold : ∀ {j x}, OnBus s.sys.bus j x → OnBus b j x := by
      intro j x hx
      refine (htouches.onBus_iff ?_ j).mpr hx
      rintro rfl
      exact h.fresh.1 (ha.fresh ▸ hx.1)
    rintro (⟨x, hx⟩ | ⟨rfl, ho⟩)
    · exact ⟨x, hold hx⟩
    · cases hcase : on with
      | true => exact ⟨q, hmem.mpr hcase, _, ha.live, rfl⟩
      | false =>
          -- the device that kept the new one off the bus
          rcases hoff hcase ho.symm with ⟨x, hx⟩
          exact ⟨x, hold hx⟩

end

/-- `b` is the bus after the module `i` has given up the device at `q`. -/
structure GivenUp (i : Ins) (q : Nat) (d : PlatformDevice) (s : InsState) (b : Bus) : Prop where
  pdev : s.pdev i = some (.obj q)
  live : s.sys.bus.heap.cell q = .live d
  key : (d.name, d.id) = i.key
  next : b.heap.next = s.sys.bus.heap.next
  cell : b.heap.cell = Function.update s.sys.bus.heap.cell q
    (if d.refs = 1 then .freed else .live { d with refs := d.refs - 1 })
  devices : b.devices = s.sys.bus.devices

def InsState.unloadedWith (s : InsState) (i : Ins) (b : Bus) (log : List String) : InsState :=
  { s with sys := ⟨b, log⟩, pdev := Function.update s.pdev i none }

theorem InsState.unloadedWith_pdev (b : Bus) (log : List String) :
    (s.unloadedWith i b log).pdev i = none := Function.update_self _ _ _

section

variable {d : PlatformDevice} {b : Bus} {log : List String}

/-- A device that is on the bus stays there, any other one is freed. -/
theorem GivenUp.cell_eq (hg : GivenUp i q d s b) (h : InsInv es s) : b.heap.cell q =
    if q ∈ s.sys.bus.devices then .live { d with refs := 1 } else .freed := by
  have hrefs : d.refs = (if q ∈ s.sys.bus.devices then 1 else 0) + 1 := by
    rw [(h.owner hg.live hg.key).1, refsOf, if_pos hg.pdev]
  rw [hg.cell, Function.update_self]
  by_cases hmem : q ∈ s.sys.bus.devices
  · rw [if_pos hmem] at hrefs ⊢
    rw [hrefs, if_neg (by omega)]
  · rw [if_neg hmem] at hrefs ⊢
    rw [hrefs, if_pos rfl]

theorem GivenUp.touches (hg : GivenUp i q d s b) : Touches i q s (s.unloadedWith i b log) where
  fault := rfl
  next x _ hlt := hlt.trans_eq hg.next
  cell x hx := (congrFun hg.cell x).trans (Function.update_of_ne hx _ _)
  devices x _ := by
    rw [← hg.devices]
    rfl
  others j hj := Function.update_of_ne hj _ _
  own x hx := ⟨by simp [InsState.unloadedWith], by simp [hg.pdev, Ne.symm hx]⟩

theorem GivenUp.onBus_iff (hg : GivenUp i q d s b) (h : InsInv es s) (j : Ins) (x : Nat) :
    OnBus b j x ↔ OnBus s.sys.bus j x := by
  by_cases hxq : x = q
  · rw [OnBus, OnBus, hg.devices, hxq]
    refine and_congr_right fun hmem => ?_
    rw [hg.cell_eq h, if_pos hmem, hg.live]
    simp
  · have htouches : Touches i q s (s.unloadedWith i b s.sys.log) := hg.touches
    exact htouches.onBus_iff hxq j

theorem GivenUp.own (hg : GivenUp i q d s b) (h : InsInv es s) :
    OwnAt i q s (s.unloadedWith i b log) where
  used _ := by
    change b.heap.cell q ≠ _
    rw [hg.cell_eq h]
    split_ifs <;> simp
  registered hmem := by
    change q ∈ b.devices at hmem
    rw [hg.devices] at hmem
    exact ⟨_, (hg.cell_eq h).trans (if_pos hmem)⟩
  live d' hd' := by
    -- it is in memory, so that the bus still has it
    have hmem : q ∈ s.sys.bus.devices := by
      by_contra hmem
      cases ((hg.cell_eq h).trans (if_neg hmem)).symm.trans hd'
    obtain rfl := Cell.live.inj (((hg.cell_eq h).trans (if_pos hmem)).symm.trans hd')
    have hone : refsOf (s.unloadedWith i b log) i q = 1 := by
      simp [refsOf, InsState.unloadedWith, hg.devices, hmem]
    rw [hone, ← hg.key]
    exact ⟨rfl, Nat.one_pos⟩
  loaded p hp := by
    rw [InsState.unloadedWith_pdev] at hp
    cases hp
  others j hj hjq := by
    rcases h.loaded j _ hjq with hnull | ⟨x, d', hx, hd', hkey'⟩
    · cases hnull
    · obtain rfl := KPtr.obj.inj hx
      obtain rfl := Cell.live.inj (hg.live.symm.trans hd')
      exact hj (Ins.key_inj (hkey'.symm.trans hg.key))
  once hon x hx := h.once i x q hx ((hg.onBus_iff h i q).mp hon)

/-- An unload of a module with a device. -/
theorem InsInv.unload_obj (h : InsInv es s) (hg : GivenUp i q d s b) :
    InsInv (es ++ [.unload i]) (s.unloadedWith i b log) := by
  refine hg.touches.inv h (hg.own h) fun j => ?_
  exact (exists_congr (hg.onBus_iff h j)).trans ((h.history j).trans (by simp))

end

theorem insInv_step {e : InsEvent} (h : InsInv es s) (hstep : insStep s e = some t) :
    InsInv (es ++ [e]) t := by
  rcases s with ⟨⟨b, log⟩, pdev, fault⟩
  obtain rfl : fault = none := h.running
  cases e with
  | load i o =>
      cases hi : pdev i with
      | some p =>
          simp [insStep, hi] at hstep
      | none =>
          rcases add_cases (i := i) (o := o) h.registered log with ⟨log', ⟨ho, hadd⟩ |
            ⟨ho, ⟨hwhy, hadd⟩ | ⟨⟨hfail, hon⟩, heap, hnext, hcell, hadd⟩⟩⟩
          · simp only [insStep, hi, hadd, if_true, Option.some.injEq] at hstep
            subst hstep
            refine h.no_device (by simp [hi]) (by simp) log' fun j => ?_
            have hne : o ≠ .fine := by
              rintro rfl
              cases ho
            simp [Ne.symm hne]
          · simp only [insStep, hi, hadd, if_true, Option.some.injEq] at hstep
            subst hstep
            have ha : Added i false b.heap.next ⟨⟨b, log⟩, pdev, none⟩
                { b with heap := b.heap.alloc ⟨i.key.1, i.key.2, 1⟩ } :=
              ⟨rfl, rfl, rfl, by simp⟩
            refine h.new hi ha (fun hon => by cases hon) ?_
            rintro - rfl
            exact hwhy.resolve_left (fun hne => hne rfl)
          · simp only [insStep, hi, hadd, if_true, Option.some.injEq] at hstep
            subst hstep
            have ha : Added i true b.heap.next ⟨⟨b, log⟩, pdev, none⟩
                ⟨heap, b.heap.next :: b.devices⟩ := ⟨rfl, hnext, hcell, by simp⟩
            refine h.new hi ha (fun _ => ⟨?_, hon⟩) (fun hoff => by cases hoff)
            cases o
            cases ho
            cases hfail
            rfl
  | unload i =>
      cases hi : pdev i with
      | none =>
          simp [insStep, hi] at hstep
      | some p =>
          rcases h.loaded i p hi with rfl | ⟨q, d, rfl, hd, hkey⟩
          · rcases put_null (b := b) (i := i) log with ⟨log', hput⟩
            simp only [insStep, hi, hput, Option.some.injEq] at hstep
            subst hstep
            exact h.no_device (by simp [hi]) (by simp) log' (by simp)
          · rcases put_obj (i := i) hd log with ⟨heap, log', hnext, hcell, hput⟩
            simp only [insStep, hi, hput, Option.some.injEq] at hstep
            subst hstep
            exact h.unload_obj ⟨hi, hd, hkey, hnext, hcell, rfl⟩

end

/-- **What becomes of the devices**, in every sequence of loads and unloads, whichever calls fail: no
call is made with a device that is gone; a module has a device on the bus from the first load on in
which every call went well, whatever is unloaded later, and never two; every device in memory has
as many references as it has holders, the bus and the module that has it; and when no module is
loaded, what is not on the bus has been freed. -/
theorem devices_ledger (es : List InsEvent) (s : InsState)
    (hrun : run insStep .start es = some s) :
    s.fault = none ∧
      (∀ i, (∃ q, OnBus s.sys.bus i q) ↔ .load i .fine ∈ es) ∧
      (∀ i q q', OnBus s.sys.bus i q → OnBus s.sys.bus i q' → q = q') ∧
      (∀ q d, s.sys.bus.heap.cell q = .live d →
        ∃ i, d = ⟨i.key.1, i.key.2, refsOf s i q⟩ ∧ 0 < refsOf s i q) ∧
      ((∀ i, s.pdev i = none) → ∀ q, q < s.sys.bus.heap.next →
        q ∈ s.sys.bus.devices ∨ s.sys.bus.heap.cell q = .freed) := by
  have h : InsInv es s := run_induct_all (I := InsInv) insInv_start
    (fun _ _ _ _ _ h hstep => insInv_step h hstep) es s hrun
  refine ⟨h.running, h.history, h.once, h.live, fun hnone q hq => ?_⟩
  cases hcell : s.sys.bus.heap.cell q with
  | unused => exact absurd hcell (h.used q hq)
  | freed => exact Or.inr rfl
  | live d =>
      rcases h.live q d hcell with ⟨i, -, hpos⟩
      refine Or.inl ?_
      by_contra hmem
      simp [refsOf, hmem, hnone i] at hpos

/-- The second device of the module cannot come onto the bus; it is freed, the first one stays. -/
theorem devices_ledger_twice :
    ∃ s, run insStep .start [.load .rtc .fine, .unload .rtc, .load .rtc .fine, .unload .rtc]
        = some s ∧ s.fault = none ∧ ∃ q, OnBus s.sys.bus .rtc q := by
  have hrun : (run insStep .start
      [.load .rtc .fine, .unload .rtc, .load .rtc .fine, .unload .rtc]).isSome = true := by
    decide +kernel
  rcases Option.isSome_iff_exists.mp hrun with ⟨s, hs⟩
  have h := devices_ledger _ s hs
  exact ⟨s, hs, h.1, (h.2.1 .rtc).mpr (by simp)⟩

end LinuxDrivers.Platform
