import LinuxDrivers.Kernel.CTypes
import Mathlib.Data.List.TakeWhile

set_option autoImplicit false

/-! # The sysfs-poll module

Two attributes in `/sys/hello`, `notify` and `trigger`, each with an integer. `store` parses what
is written with `sscanf("%d")` and calls `sysfs_notify`, which counts an event of the attribute.
-/

namespace LinuxDrivers.SysfsPoll

/-- The two `struct d_attr`. -/
inductive DAttr where
  | notify
  | trigger
  deriving DecidableEq

/-- `attr.name`. -/
def DAttr.name : DAttr → String
  | .notify => "notify"
  | .trigger => "trigger"

theorem DAttr.name_injective {a b : DAttr} (h : a.name = b.name) : a = b := by
  cases a <;> cases b <;> first | rfl | exact absurd h (by decide)

/-- The values of the attributes, and the events sysfs has counted for each. -/
structure Sysfs where
  value : DAttr → Int
  event : DAttr → Nat

/-- Both values are 0 when the module is loaded. -/
def loaded : Sysfs := ⟨fun _ => 0, fun _ => 0⟩

/-! ## Decimal numbers -/

/-- `printf("%d")`. -/
def decimal (v : Int) : List Char :=
  if v < 0 then '-' :: Nat.toDigits 10 v.natAbs else Nat.toDigits 10 v.natAbs

/-- `isspace`. -/
def isBlank (c : Char) : Bool := c = ' ' ∨ (9 ≤ c.toNat ∧ c.toNat ≤ 13)

/-- The digits at the start of a text, at least one. -/
def scanDigits (cs : List Char) : Option Nat :=
  if cs.takeWhile Char.isDigit = [] then none
  else some (Nat.ofDigitChars 10 (cs.takeWhile Char.isDigit) 0)

/-- `sscanf("%d")`: blanks, a sign, digits; what follows is ignored. -/
def sscanfD (buf : List Char) : Option Int :=
  let cs := buf.dropWhile isBlank
  if cs.head? = some '-' then (scanDigits cs.tail).map (fun n => -(n : Int))
  else if cs.head? = some '+' then (scanDigits cs.tail).map (fun n => (n : Int))
  else (scanDigits cs).map (fun n => (n : Int))

/-! ## Show and store -/

def sizeofInt : Int := 4

/-- `show`, the text of a read. -/
def showAttr (s : Sysfs) (attr : DAttr) : List Char :=
  attr.name.toList ++ ": ".toList ++ decimal (s.value attr) ++ ['\n']

/-- `sysfs_notify` finds the attribute by its name. -/
def sysfsNotify (name : String) (s : Sysfs) : Sysfs :=
  { s with event := fun a => if a.name = name then s.event a + 1 else s.event a }

def setValue (attr : DAttr) (v : Int) (s : Sysfs) : Sysfs :=
  { s with value := Function.update s.value attr v }

/-- `store`. A text without a number leaves the value as it is. -/
def store (s : Sysfs) (attr : DAttr) (buf : List Char) : Int × Sysfs :=
  let s :=
    match sscanfD buf with
    | some v => setValue attr (toInt v) s
    | none => s
  let s :=
    if attr.name = "notify" then sysfsNotify "notify" (setValue .notify (s.value attr) s)
    else if attr.name = "trigger" then sysfsNotify "trigger" (setValue .trigger (s.value attr) s)
    else s
  (sizeofInt, s)

@[simp] theorem setValue_self (attr : DAttr) (s : Sysfs) :
    setValue attr (s.value attr) s = s := by
  simp [setValue]

theorem sysfsNotify_event (attr : DAttr) (s : Sysfs) :
    (sysfsNotify attr.name s).event = Function.update s.event attr (s.event attr + 1) := by
  funext a
  by_cases h : a = attr
  · subst h
    simp [sysfsNotify]
  · have hname : a.name ≠ attr.name := fun hname => h (DAttr.name_injective hname)
    simp [sysfsNotify, h, hname]

/-- What a call of `store` does, in full: the value, if there is one, and one event. -/
theorem store_eq (s : Sysfs) (attr : DAttr) (buf : List Char) :
    store s attr buf = (sizeofInt, sysfsNotify attr.name
      (setValue attr (((sscanfD buf).map toInt).getD (s.value attr)) s)) := by
  have hlast : ∀ t : Sysfs,
      (if attr.name = "notify" then sysfsNotify "notify" (setValue .notify (t.value attr) t)
        else if attr.name = "trigger" then sysfsNotify "trigger" (setValue .trigger (t.value attr) t)
        else t) = sysfsNotify attr.name t := by
    intro t
    cases attr with
    | notify => simp [DAttr.name]
    | trigger => simp [DAttr.name]
  -- the branch of the own name stores the value the attribute has already
  unfold store
  simp only [hlast]
  cases sscanfD buf with
  | none => simp
  | some v => rfl

theorem store_value (s : Sysfs) (attr : DAttr) (buf : List Char) :
    (store s attr buf).2.value
      = Function.update s.value attr (((sscanfD buf).map toInt).getD (s.value attr)) := by
  rw [store_eq]
  rfl

theorem store_event (s : Sysfs) (attr : DAttr) (buf : List Char) :
    (store s attr buf).2.event = Function.update s.event attr (s.event attr + 1) := by
  rw [store_eq]
  exact sysfsNotify_event attr _

end LinuxDrivers.SysfsPoll
