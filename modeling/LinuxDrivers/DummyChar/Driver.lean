import LinuxDrivers.Kernel.Chrdev
import LinuxDrivers.Lib.Lifecycle

set_option autoImplicit false

/-! # The dummy character drivers

`platform-dummy-char.c` makes a character device for each platform device it is probed for,
`dummy-char.c` makes one when it is loaded. Both do it with the same calls and keep the major
number, the class and the cdev in three file-level variables. -/

namespace LinuxDrivers.DummyChar

open Lib

/-- The two files. -/
inductive Driver where
  | platformDummyChar
  | dummyChar
  deriving DecidableEq

/-- The variables `major` and `dummy_class`. The third one, `dummy_cdev`, is the place
`CdevLoc.static`. -/
structure Globals where
  major : Nat
  dummy_class : KPtr

/-- The body that the two files have in common. The result of `cdev_add` is not looked at. -/
def createDevice (g : Globals) : ChrProg (Int × Globals) := do
  match ← Prog.send .allocChrdevRegion with
  | .error error => return (error.1, g)
  | .ok devt =>
      let g := { g with major := devt }
      match ← Prog.send (.classCreate "dummy_char_class") with
      | .error e =>
          let g := { g with dummy_class := .err e }
          let _ ← Prog.send (.unregisterChrdevRegion g.major)
          return (e.1, g)
      | .ok h =>
          let g := { g with dummy_class := .obj h }
          let _ ← Prog.send (.cdevInit .static)
          let _ ← Prog.send (.cdevAdd .static devt)
          match ← Prog.send (.deviceCreate g.dummy_class devt) with
          | .error _ =>
              let _ ← Prog.send (.classDestroy g.dummy_class)
              let _ ← Prog.send (.unregisterChrdevRegion devt)
              return (-1, g)
          | .ok _ => return (0, g)

def destroyDevice (g : Globals) : ChrProg Int := do
  let _ ← Prog.send (.unregisterChrdevRegion g.major)
  let _ ← Prog.send (.deviceDestroy g.dummy_class g.major)
  let _ ← Prog.send (.cdevDel .static)
  let _ ← Prog.send (.classDestroy g.dummy_class)
  return 0

def myPdrvProbe : Globals → ChrProg (Int × Globals) := createDevice
def myPdrvRemove : Globals → ChrProg Int := destroyDevice
def dummyCharInitModule : Globals → ChrProg (Int × Globals) := createDevice
def dummyCharCleanupModule : Globals → ChrProg Int := destroyDevice

def Driver.probe : Driver → Globals → ChrProg (Int × Globals)
  | .platformDummyChar => myPdrvProbe
  | .dummyChar => dummyCharInitModule

def Driver.remove : Driver → Globals → ChrProg Int
  | .platformDummyChar => myPdrvRemove
  | .dummyChar => dummyCharCleanupModule

theorem Driver.probe_eq (d : Driver) : d.probe = createDevice := by
  cases d <;> rfl

theorem Driver.remove_eq (d : Driver) : d.remove = destroyDevice := by
  cases d <;> rfl

/-! ## The driver and the kernel -/

structure Sys where
  kernel : Chrdev
  globals : Globals

def Sys.start : Sys := ⟨.empty, ⟨0, .null⟩⟩

/-- The instances of a driver: platform devices, or the loaded module. -/
def instances (d : Driver) (ι : Type) : Lifecycle Sys ι ChrOutcome Fault ChrObj where
  probe _ o s :=
    match (d.probe s.globals).exec (Chrdev.serve o) s.kernel with
    | .error f => .error f
    | .ok ((ret, globals), kernel) => .ok (decide (ret = 0), ⟨kernel, globals⟩)
  remove _ s :=
    match (d.remove s.globals).exec (Chrdev.serve .fine) s.kernel with
    | .error f => .error f
    | .ok (_, kernel) => .ok { s with kernel := kernel }
  Held s o := o ∈ s.kernel.held

/-- What a device with major number `m` and class `h` holds. -/
def objects (m h : Nat) : List ChrObj :=
  [.device h m, .cdev .static m, .cls h "dummy_char_class", .region m]

/-! ## What a probe and a removal do -/

section

variable {d : Driver} {ι : Type} {i : ι} {o : ChrOutcome} {s : Sys} {e : Errno}

/-- Without a region nothing happens. -/
theorem probe_noRegion (h : o.region = some e) :
    (instances d ι).probe i o s = .ok (false, s) := by
  have he : ¬ e.1 = 0 := ne_of_lt e.2
  simp [instances, d.probe_eq, createDevice, Prog.exec, Chrdev.serve, Chrdev.make, h, he]

/-- As long as the class exists a probe fails, and the variable for the class is an error
pointer. -/
theorem probe_classExists (h : o.region = none)
    (hname : s.kernel.hasName "dummy_char_class" = true) :
    ∃ kernel, (instances d ι).probe i o s
      = .ok (false, ⟨kernel, ⟨s.kernel.next, .err ⟨-EEXIST, by decide⟩⟩⟩) := by
  have hname' : (⟨.region s.kernel.next :: s.kernel.held, s.kernel.next + 1⟩ : Chrdev).hasName
      "dummy_char_class" = true := hname
  refine ⟨((⟨.region s.kernel.next :: s.kernel.held, s.kernel.next + 1⟩ : Chrdev).drop
    (· = .region s.kernel.next)).1, ?_⟩
  simp [instances, d.probe_eq, createDevice, Prog.exec, Chrdev.serve, Chrdev.make, h, hname',
    EEXIST]

/-- Without a class the region is given back. -/
theorem probe_noClass (h : o.region = none) (hcls : o.cls = some e) (hs : s.kernel.held = []) :
    (instances d ι).probe i o s
      = .ok (false, ⟨⟨[], s.kernel.next + 1⟩, ⟨s.kernel.next, .err e⟩⟩) := by
  have he : ¬ e.1 = 0 := ne_of_lt e.2
  simp [instances, d.probe_eq, createDevice, Prog.exec, Chrdev.serve, Chrdev.make, Chrdev.drop,
    Chrdev.hasName, h, hcls, hs, he]

/-- The outcome of a probe that gets its class, with nothing held before. -/
theorem probe_class (h : o.region = none) (hcls : o.cls = none) (hs : s.kernel.held = []) :
    ∃ n, (instances d ι).probe i o s = .ok (o.device.isNone,
      ⟨⟨if o.device.isSome = true then
          if o.cdev.isSome = true then [] else [.cdev .static s.kernel.next]
        else if o.cdev.isSome = true then
          (objects s.kernel.next (s.kernel.next + 1)).filter (fun o => !Chrdev.isCdev .static o)
        else objects s.kernel.next (s.kernel.next + 1), n⟩,
        ⟨s.kernel.next, .obj (s.kernel.next + 1)⟩⟩) := by
  cases hcdev : o.cdev with
  | none =>
      cases hdev : o.device with
      | none =>
          refine ⟨s.kernel.next + 4, ?_⟩
          simp [instances, d.probe_eq, createDevice, Prog.exec, Chrdev.serve, Chrdev.make, h, hcls,
            hcdev, hdev, hs, Chrdev.hasName, Chrdev.reachable, Chrdev.isClass, objects]
      | some e =>
          refine ⟨s.kernel.next + 3, ?_⟩
          simp [instances, d.probe_eq, createDevice, Prog.exec, Chrdev.serve, Chrdev.make, h, hcls,
            hcdev, hdev, hs, Chrdev.hasName, Chrdev.reachable, Chrdev.isClass, Chrdev.drop]
  | some e' =>
      cases hdev : o.device with
      | none =>
          refine ⟨s.kernel.next + 3, ?_⟩
          simp [instances, d.probe_eq, createDevice, Prog.exec, Chrdev.serve, Chrdev.make, h, hcls,
            hcdev, hdev, hs, Chrdev.hasName, Chrdev.reachable, Chrdev.isClass, objects,
            Chrdev.isCdev]
      | some e =>
          refine ⟨s.kernel.next + 2, ?_⟩
          simp [instances, d.probe_eq, createDevice, Prog.exec, Chrdev.serve, Chrdev.make, h, hcls,
            hcdev, hdev, hs, Chrdev.hasName, Chrdev.reachable, Chrdev.isClass, Chrdev.drop]

/-- A removal with the right variables gives everything back. -/
theorem remove_objects {m h n : Nat} :
    (instances d ι).remove i ⟨⟨objects m h, n⟩, ⟨m, .obj h⟩⟩
      = .ok ⟨⟨[], n⟩, ⟨m, .obj h⟩⟩ := by
  simp [instances, d.remove_eq, destroyDevice, Prog.exec, Chrdev.serve, Chrdev.reachable,
    Chrdev.isClass, Chrdev.isCdev, Chrdev.drop, objects]

end

end LinuxDrivers.DummyChar
