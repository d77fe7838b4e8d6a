import Mathlib.Data.BitVec
import Mathlib.Tactic

set_option autoImplicit false

/-! # C integer types

`int` has 32 bits, `size_t` has 32 or 64 bits depending on the architecture. A value of a
C type is an `Int` or a `Nat` in the range of the type, and a conversion to the type is
written out: `Arch.sizeT` reduces modulo the width of `size_t`, `toInt` to the range of
`int`. Bytes and SMBus words are bit vectors.
-/

namespace LinuxDrivers

abbrev U8 := BitVec 8
abbrev U32 := BitVec 32
abbrev S32 := BitVec 32

/-- The two data models the drivers are built for. -/
inductive Arch where
  | ilp32
  | lp64
  deriving DecidableEq, Repr

/-- Width of `size_t`. -/
def Arch.bits : Arch → Nat
  | .ilp32 => 32
  | .lp64 => 64

/-- Conversion to `size_t`. -/
def Arch.sizeT (a : Arch) (i : Int) : Nat := (i % ((2 ^ a.bits : Nat) : Int)).toNat

/-- Conversion to `int`. -/
def toInt (i : Int) : Int := Int.bmod i (2 ^ 32)

theorem Arch.two_pow_bits (a : Arch) :
    (2 : Nat) ^ a.bits = 2 ^ 32 ∨ (2 : Nat) ^ a.bits = 2 ^ 64 := by
  cases a
  · exact Or.inl rfl
  · exact Or.inr rfl

theorem Arch.two_pow_32_le (a : Arch) : 2 ^ 32 ≤ 2 ^ a.bits := by
  rcases a.two_pow_bits with h | h <;> omega

theorem Arch.sizeT_of_lt (a : Arch) {n : Nat} (h : n < 2 ^ a.bits) : a.sizeT n = n := by
  unfold Arch.sizeT
  rw [Int.emod_eq_of_lt (by omega) (by omega)]
  simp

/-- A sum that overflows `size_t` once. -/
theorem Arch.sizeT_of_overflow (a : Arch) {n : Nat} (h : 2 ^ a.bits ≤ n)
    (h' : n < 2 * 2 ^ a.bits) : a.sizeT n = n - 2 ^ a.bits := by
  unfold Arch.sizeT
  rw [Int.emod_eq_sub_self_emod, Int.emod_eq_of_lt (by omega) (by omega)]
  omega

/-- A difference that is negative before the conversion. -/
theorem Arch.sizeT_neg (a : Arch) {d : Nat} (hd : 0 < d) (hd' : d ≤ 2 ^ a.bits) :
    a.sizeT (-d) = 2 ^ a.bits - d := by
  unfold Arch.sizeT
  rw [Int.emod_eq_add_self_emod, Int.emod_eq_of_lt (by omega) (by omega)]
  omega

theorem toInt_of_lt {i : Int} (h : -2 ^ 31 ≤ i) (h' : i < 2 ^ 31) : toInt i = i := by
  unfold toInt
  rw [Int.bmod_eq_of_le (by omega) (by omega)]

/-! ## Error numbers -/

def ENOENT : Int := 2
def EINTR : Int := 4
def EIO : Int := 5
def ENOMEM : Int := 12
def EFAULT : Int := 14
def EBUSY : Int := 16
def EEXIST : Int := 17
def ENODEV : Int := 19
def EINVAL : Int := 22

/-- What a kernel function returns when it fails. -/
abbrev Errno := { e : Int // e < 0 }

/-- A pointer as a kernel function returns it: NULL, an error pointer, or an object by its
number. -/
inductive KPtr where
  | null
  | err (e : Errno)
  | obj (h : Nat)
  deriving DecidableEq

end LinuxDrivers
