import LinuxDrivers.Kernel.Memory
import Mathlib.Logic.Function.Basic

set_option autoImplicit false

/-! # Platform devices

The kernel calls of drivers for platform devices, on a state that records what is held. Every new
object gets a number that has not been used before; a pointer to it is `KPtr.obj`. Some objects are
blocks of memory with fields in which pointers are stored: the allocations of `devm_kzalloc`, which
the driver core frees after a failed probe and after a removal of their device, and the local
variables of a call, which are gone when it returns. -/

namespace LinuxDrivers

/-- Something that is held. The objects `input` and `netif` stand for the registration of the
polled device and of the network device with that number. -/
inductive PlatObj (ι : Type) where
  | mem (dev : ι) (q : Nat)
  | frame (q : Nat)
  | gpio (q : Nat)
  | polledDev (q : Nat)
  | input (q : Nat)
  | regulator (q : Nat)
  | netDev (q : Nat)
  | netif (q : Nat)
  deriving DecidableEq

def PlatObj.number {ι : Type} : PlatObj ι → Nat
  | mem _ q | frame q | gpio q | polledDev q | input q | regulator q | netDev q | netif q => q

/-- The fields of the drivers' structures, and the elements of a local array. -/
inductive Field where
  | btn_gpiod
  | poll_dev
  | dummy_ndev
  | elem (i : Nat)
  deriving DecidableEq

structure Platform (ι : Type) where
  held : List (PlatObj ι)
  next : Nat
  field : Nat → Field → KPtr
  drvdata : ι → KPtr

abbrev PlatM (ι α : Type) := StateT (Platform ι) (Except Fault) α

namespace Platform

def start (ι : Type) : Platform ι := ⟨[], 0, fun _ _ => .null, fun _ => .null⟩

section

variable {ι : Type} [DecidableEq ι]

/-- A new object, or the pointer that says that there is none. -/
def create (fail : Option KPtr) (o : Nat → PlatObj ι) : PlatM ι KPtr := fun s =>
  match fail with
  | some p => .ok (p, s)
  | none => .ok (.obj s.next, { s with held := o s.next :: s.held, next := s.next + 1 })

/-- The number of the live object that a pointer designates. -/
def live (o : Nat → PlatObj ι) (p : KPtr) : PlatM ι Nat := fun s =>
  match p with
  | .null => .error .nullDeref
  | .err _ => .error .notLive
  | .obj q => if o q ∈ s.held then .ok (q, s) else .error .notLive

def drop (o : PlatObj ι) : PlatM ι Unit := fun s =>
  .ok ((), { s with held := s.held.filter (fun o' => !decide (o' = o)) })

def release (o : Nat → PlatObj ι) (p : KPtr) : PlatM ι Unit := do
  let q ← live o p
  drop (o q)

/-- Register an object that exists. -/
def register (fail : Option Errno) (o reg : Nat → PlatObj ι) (p : KPtr) : PlatM ι Int := do
  let q ← live o p
  match fail with
  | some e => return e.1
  | none => fun s => .ok (0, { s with held := reg q :: s.held })

def store (o : Nat → PlatObj ι) (p : KPtr) (k : Field) (v : KPtr) : PlatM ι Unit := do
  let q ← live o p
  fun s => .ok ((), { s with field := Function.update s.field q (Function.update (s.field q) k v) })

def load (o : Nat → PlatObj ι) (p : KPtr) (k : Field) : PlatM ι KPtr := do
  let q ← live o p
  fun s => .ok (s.field q k, s)

/-! ## What the operations do -/

section

variable {s : Platform ι} {o reg : Nat → PlatObj ι} {q : Nat}

@[simp] theorem pure_eq_ok {α : Type} (a : α) : (pure a : Except Fault α) = .ok a := rfl

@[simp] theorem ok_bind {α β : Type} (a : α) (f : α → Except Fault β) :
    (Except.ok a >>= f) = f a := rfl

@[simp] theorem error_bind {α β : Type} (e : Fault) (f : α → Except Fault β) :
    (Except.error e >>= f) = .error e := rfl

omit [DecidableEq ι] in
@[simp] theorem run_create_none :
    (create none o).run s
      = .ok (.obj s.next, { s with held := o s.next :: s.held, next := s.next + 1 }) := rfl

omit [DecidableEq ι] in
@[simp] theorem run_create_some {p : KPtr} : (create (some p) o).run s = .ok (p, s) := rfl

@[simp] theorem run_live (h : o q ∈ s.held) : (live o (.obj q)).run s = .ok (q, s) := if_pos h

@[simp] theorem run_live_null : (live o .null).run s = .error .nullDeref := rfl

@[simp] theorem run_release (h : o q ∈ s.held) :
    (release o (.obj q)).run s
      = .ok ((), { s with held := s.held.filter (fun o' => !decide (o' = o q)) }) := by
  rw [release, StateT.run_bind, run_live h]
  rfl

@[simp] theorem run_register_none (h : o q ∈ s.held) :
    (register none o reg (.obj q)).run s = .ok (0, { s with held := reg q :: s.held }) := by
  rw [register, StateT.run_bind, run_live h]
  rfl

@[simp] theorem run_register_some {e : Errno} (h : o q ∈ s.held) :
    (register (some e) o reg (.obj q)).run s = .ok (e.1, s) := by
  rw [register, StateT.run_bind, run_live h]
  rfl

@[simp] theorem run_store {k : Field} {v : KPtr} (h : o q ∈ s.held) :
    (store o (.obj q) k v).run s = .ok ((), { s with
      field := Function.update s.field q (Function.update (s.field q) k v) }) := by
  rw [store, StateT.run_bind, run_live h]
  rfl

@[simp] theorem run_load {k : Field} (h : o q ∈ s.held) :
    (load o (.obj q) k).run s = .ok (s.field q k, s) := by
  rw [load, StateT.run_bind, run_live h]
  rfl

end

/-! ## The kernel calls -/

/-- What an allocation returns if there is no memory. -/
def orNull (avail : Bool) : Option KPtr := if avail then none else some .null

def devmKzalloc (avail : Bool) (dev : ι) : PlatM ι KPtr := create (orNull avail) (.mem dev)
def devmKfree (dev : ι) (p : KPtr) : PlatM ι Unit := release (.mem dev) p

def gpiodGet (fail : Option Errno) : PlatM ι KPtr := create (fail.map .err) .gpio
def gpiodPut (p : KPtr) : PlatM ι Unit := release .gpio p

def inputAllocatePolledDevice (avail : Bool) : PlatM ι KPtr := create (orNull avail) .polledDev
def inputFreePolledDevice (p : KPtr) : PlatM ι Unit := release .polledDev p
def inputRegisterPolledDevice (fail : Option Errno) (p : KPtr) : PlatM ι Int :=
  register fail .polledDev .input p
def inputUnregisterPolledDevice (p : KPtr) : PlatM ι Unit := release .input p

def regulatorRegister (fail : Option Errno) : PlatM ι KPtr := create (fail.map .err) .regulator

/-- `regulator_unregister(&p[i])`. Only the first one of these addresses is that of an object. -/
def regulatorUnregister (p : KPtr) (i : Nat) : PlatM ι Unit :=
  if i = 0 then release .regulator p else fun _ => .error .notLive

def allocEtherdev (avail : Bool) : PlatM ι KPtr := create (orNull avail) .netDev
def freeNetdev (p : KPtr) : PlatM ι Unit := release .netDev p
def registerNetdev (fail : Option Errno) (p : KPtr) : PlatM ι Int :=
  register fail .netDev .netif p
def unregisterNetdev (p : KPtr) : PlatM ι Unit := release .netif p

def platformSetDrvdata (dev : ι) (p : KPtr) : PlatM ι Unit := fun s =>
  .ok ((), { s with drvdata := Function.update s.drvdata dev p })

def platformGetDrvdata (dev : ι) : PlatM ι KPtr := fun s => .ok (s.drvdata dev, s)

@[simp] theorem run_platformSetDrvdata {s : Platform ι} {dev : ι} {p : KPtr} :
    (platformSetDrvdata dev p).run s
      = .ok ((), { s with drvdata := Function.update s.drvdata dev p }) := rfl

omit [DecidableEq ι] in
@[simp] theorem run_platformGetDrvdata {s : Platform ι} {dev : ι} :
    (platformGetDrvdata dev).run s = .ok (s.drvdata dev, s) := rfl

def isMem (dev : ι) : PlatObj ι → Bool
  | .mem dev' _ => dev' = dev
  | _ => false

theorem isMem_iff {dev : ι} {o : PlatObj ι} :
    isMem dev o = true ↔ ∃ q, o = .mem dev q := by
  cases o with
  | mem dev' q => simp [isMem]
  | _ => simp [isMem]

/-- What the driver core does after a failed probe and after a removal: it frees the memory of the
device and clears the driver's data. -/
def unbind (s : Platform ι) (dev : ι) : Platform ι :=
  { s with
    held := s.held.filter (fun o => !isMem dev o)
    drvdata := Function.update s.drvdata dev .null }

/-! ## What stays as it is -/

/-- What a probe or a removal of device `i` leaves alone: the data of the other devices and the older
blocks; and what is held in addition is new. -/
structure Frame (i : ι) (s t : Platform ι) : Prop where
  next : s.next ≤ t.next
  drvdata : ∀ j, j ≠ i → t.drvdata j = s.drvdata j
  field : ∀ q < s.next, t.field q = s.field q
  held : ∀ o ∈ t.held, o ∈ s.held ∨ s.next ≤ o.number ∧ o.number < t.next

/-- A state in which device `i` can be probed: it has no memory, and numbers from `next` on are not
used. -/
structure Ready (i : ι) (s : Platform ι) : Prop where
  fresh : ∀ o ∈ s.held, o.number < s.next
  mem : ∀ q, .mem i q ∉ s.held

variable {i : ι} {s t : Platform ι}

omit [DecidableEq ι] in
theorem Ready.not_mem (h : Ready i s) {o : PlatObj ι} (ho : s.next ≤ o.number) : o ∉ s.held :=
  fun hmem => absurd (h.fresh o hmem) (Nat.not_lt.mpr ho)

theorem Ready.filter_ne (h : Ready i s) {o : PlatObj ι} (ho : s.next ≤ o.number) :
    s.held.filter (fun o' => !decide (o' = o)) = s.held := by
  rw [List.filter_eq_self]
  intro o' ho'
  rw [Bool.not_eq_true', decide_eq_false_iff_not]
  rintro rfl
  exact h.not_mem ho ho'

theorem Ready.filter_mem (h : Ready i s) : s.held.filter (fun o => !isMem i o) = s.held := by
  rw [List.filter_eq_self]
  intro o ho
  cases o with
  | mem dev q =>
      have hdev : dev ≠ i := by
        rintro rfl
        exact h.mem q ho
      simpa [isMem] using hdev
  | _ => rfl

end

end Platform

end LinuxDrivers
