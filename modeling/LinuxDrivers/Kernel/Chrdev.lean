import LinuxDrivers.Kernel.Memory
import LinuxDrivers.Lib.Prog

set_option autoImplicit false

/-! # Character devices

The calls with which a driver makes a character device, as requests to a kernel that records what
is held: number regions, classes, allocations, live cdevs and devices. Every new object gets a
number that has not been used before. A class is created only if there is none of that name.

A call through an error pointer, or with an object that is gone, stops the kernel, except where the
kernel checks for it: `class_destroy` and `device_create` do. -/

namespace LinuxDrivers

/-- Where a `struct cdev` is: a variable of the driver, or part of an allocation. -/
inductive CdevLoc where
  | static
  | inside (q : Nat)
  deriving DecidableEq

/-- Something a driver can hold. A region is named by its major number. -/
inductive ChrObj where
  | region (major : Nat)
  | cls (h : Nat) (name : String)
  | mem (q : Nat)
  | cdev (loc : CdevLoc) (major : Nat)
  | device (cls major : Nat)
  deriving DecidableEq

structure Chrdev where
  held : List ChrObj
  next : Nat

def Chrdev.empty : Chrdev := ⟨[], 0⟩

/-- The kernel calls, with the arguments that matter here. `deref` is an access to an allocation. -/
inductive ChrOp where
  | allocChrdevRegion
  | unregisterChrdevRegion (major : Nat)
  | classCreate (name : String)
  | classDestroy (cls : KPtr)
  | kzalloc
  | kfree (p : Ptr)
  | deref (p : Ptr)
  | cdevInit (loc : CdevLoc)
  | cdevAdd (loc : CdevLoc) (major : Nat)
  | cdevDel (loc : CdevLoc)
  | deviceCreate (cls : KPtr) (major : Nat)
  | deviceDestroy (cls : KPtr) (major : Nat)
  deriving DecidableEq

/-- The class and the number that a call is given. -/
def ChrOp.clsArg : ChrOp → Option KPtr
  | .classDestroy cls | .deviceCreate cls _ | .deviceDestroy cls _ => some cls
  | _ => none

def ChrOp.majorArg : ChrOp → Option Nat
  | .unregisterChrdevRegion major | .cdevAdd _ major | .deviceCreate _ major
  | .deviceDestroy _ major => some major
  | _ => none

/-- An answer: an error, or the number of the new object. -/
abbrev ChrAns := Except Errno Nat

abbrev ChrProg := Lib.Prog ChrOp ChrAns

/-- Which of the calls fail, and with what error. -/
structure ChrOutcome where
  region : Option Errno
  cls : Option Errno
  mem : Option Errno
  cdev : Option Errno
  device : Option Errno
  deriving DecidableEq

/-- Nothing fails. -/
def ChrOutcome.fine : ChrOutcome := ⟨none, none, none, none, none⟩

theorem ChrOutcome.eq_fine {o : ChrOutcome} (hregion : o.region = none) (hcls : o.cls = none)
    (hmem : o.mem = none) (hcdev : o.cdev = none) (hdevice : o.device = none) : o = .fine := by
  cases o
  subst hregion hcls hmem hcdev hdevice
  rfl

namespace Chrdev

/-- A call that makes an object, unless it fails. -/
def make (s : Chrdev) (fail : Option Errno) (o : ChrObj) : Chrdev × ChrAns :=
  match fail with
  | some e => (s, .error e)
  | none => (⟨o :: s.held, s.next + 1⟩, .ok s.next)

/-- The objects that meet `p` go. -/
def drop (s : Chrdev) (p : ChrObj → Bool) : Chrdev × ChrAns :=
  ({ s with held := s.held.filter (fun o => !p o) }, .ok 0)

def isClass (h : Nat) : ChrObj → Bool
  | .cls h' _ => h' = h
  | _ => false

def isCdev (loc : CdevLoc) : ChrObj → Bool
  | .cdev loc' _ => loc' = loc
  | _ => false

/-- A class of that name exists. -/
def hasName (s : Chrdev) (name : String) : Bool :=
  s.held.any (fun o => match o with
    | .cls _ name' => name' = name
    | _ => false)

/-- A cdev inside an allocation can be used as long as the allocation is there. -/
def reachable (s : Chrdev) : CdevLoc → Bool
  | .static => true
  | .inside q => .mem q ∈ s.held

def serve (o : ChrOutcome) (s : Chrdev) : ChrOp → Except Fault (Chrdev × ChrAns)
  | .allocChrdevRegion => .ok (s.make o.region (.region s.next))
  | .unregisterChrdevRegion major => .ok (s.drop (· = .region major))
  | .classCreate name =>
      if s.hasName name then .ok (s, .error ⟨-EEXIST, by decide⟩)
      else .ok (s.make o.cls (.cls s.next name))
  | .classDestroy (.obj h) =>
      if s.held.any (isClass h) then .ok (s.drop (isClass h)) else .error .notLive
  | .classDestroy _ => .ok (s, .ok 0)
  | .kzalloc => .ok (s.make o.mem (.mem s.next))
  | .kfree none => .ok (s, .ok 0)
  | .kfree (some q) => if .mem q ∈ s.held then .ok (s.drop (· = .mem q)) else .error .badFree
  | .deref none => .error .nullDeref
  | .deref (some q) => if .mem q ∈ s.held then .ok (s, .ok 0) else .error .notLive
  | .cdevInit loc => if s.reachable loc then .ok (s, .ok 0) else .error .notLive
  | .cdevAdd loc major =>
      if s.reachable loc then .ok (s.make o.cdev (.cdev loc major)) else .error .notLive
  | .cdevDel loc => if s.reachable loc then .ok (s.drop (isCdev loc)) else .error .notLive
  | .deviceCreate (.obj h) major =>
      if s.held.any (isClass h) then .ok (s.make o.device (.device h major)) else .error .notLive
  | .deviceCreate _ _ => .ok (s, .error ⟨-ENODEV, by decide⟩)
  | .deviceDestroy .null _ => .ok (s, .ok 0)
  | .deviceDestroy (.err _) _ => .error .notLive
  | .deviceDestroy (.obj h) major =>
      if s.held.any (isClass h) then .ok (s.drop (· = .device h major)) else .error .notLive

end Chrdev

end LinuxDrivers
