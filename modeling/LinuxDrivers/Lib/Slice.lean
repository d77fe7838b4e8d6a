import Mathlib.Data.List.Basic
import Mathlib.Logic.Function.Basic
import Mathlib.Tactic.Ring

set_option autoImplicit false

/-! # Stretches of a memory

A memory is a function `f : Nat → α`. `slice f p n` reads the `n` cells from `p` on, and
`splice f p xs` overwrites the cells from `p` on with `xs`. -/

namespace LinuxDrivers.Lib

variable {α : Type}

/-- The cells `p, …, p + n - 1`. -/
def slice (f : Nat → α) (p n : Nat) : List α := (List.range n).map (fun i => f (p + i))

/-- Overwrite the cells from `p` on. -/
def splice (f : Nat → α) (p : Nat) (xs : List α) : Nat → α :=
  fun i => if p ≤ i then xs[i - p]?.getD (f i) else f i

@[simp] theorem slice_zero (f : Nat → α) (p : Nat) : slice f p 0 = [] := rfl

@[simp] theorem slice_length (f : Nat → α) (p n : Nat) : (slice f p n).length = n := by
  simp [slice]

theorem slice_getElem? (f : Nat → α) (p : Nat) {n i : Nat} (hi : i < n) :
    (slice f p n)[i]? = some (f (p + i)) := by
  simp [slice, hi]

theorem slice_congr {f g : Nat → α} {p n : Nat} (h : ∀ i, p ≤ i → i < p + n → f i = g i) :
    slice f p n = slice g p n := by
  apply List.map_congr_left
  intro i hi
  rw [List.mem_range] at hi
  exact h (p + i) (by omega) (by omega)

theorem slice_add (f : Nat → α) (p m n : Nat) :
    slice f p (m + n) = slice f p m ++ slice f (p + m) n := by
  simp only [slice, List.range_add, List.map_append, List.map_map, Function.comp_def,
    Nat.add_assoc]

theorem take_slice (f : Nat → α) (p : Nat) {m n : Nat} (h : m ≤ n) :
    (slice f p n).take m = slice f p m := by
  rcases Nat.exists_eq_add_of_le h with ⟨k, rfl⟩
  rw [slice_add, List.take_left' (slice_length f p m)]

theorem drop_slice (f : Nat → α) (p : Nat) {m n : Nat} (h : m ≤ n) :
    (slice f p n).drop m = slice f (p + m) (n - m) := by
  rcases Nat.exists_eq_add_of_le h with ⟨k, rfl⟩
  rw [slice_add, List.drop_left' (slice_length f p m), Nat.add_sub_cancel_left]

theorem slice_const (c : α) (p n : Nat) : slice (fun _ => c) p n = List.replicate n c := by
  simp [slice]

@[simp] theorem splice_nil (f : Nat → α) (p : Nat) : splice f p [] = f := by
  funext i
  simp [splice]

theorem splice_of_lt (f : Nat → α) {p i : Nat} (xs : List α) (h : i < p) :
    splice f p xs i = f i := by
  rw [splice, if_neg (by omega)]

theorem splice_of_ge (f : Nat → α) {p i : Nat} (xs : List α) (h : p + xs.length ≤ i) :
    splice f p xs i = f i := by
  rw [splice, if_pos (by omega), List.getElem?_eq_none (by omega), Option.getD_none]

theorem splice_cons (f : Nat → α) (p : Nat) (x : α) (xs : List α) :
    splice f p (x :: xs) = splice (Function.update f p x) (p + 1) xs := by
  funext i
  rcases Nat.lt_trichotomy i p with h | rfl | h
  · rw [splice_of_lt f _ h, splice_of_lt _ _ (by omega), Function.update_of_ne (by omega)]
  · simp [splice]
  · have hi : i - p = (i - (p + 1)) + 1 := by omega
    rw [splice, splice, if_pos (by omega), if_pos (by omega), hi, List.getElem?_cons_succ,
      Function.update_of_ne (by omega)]

theorem splice_append (f : Nat → α) (p : Nat) (xs ys : List α) :
    splice f p (xs ++ ys) = splice (splice f p xs) (p + xs.length) ys := by
  induction xs generalizing f p with
  | nil => simp
  | cons x xs ih =>
      rw [List.cons_append, splice_cons, splice_cons, ih, List.length_cons]
      congr 1
      ring

/-- What has just been written is read back. -/
theorem slice_splice_self (f : Nat → α) (p : Nat) (xs : List α) :
    slice (splice f p xs) p xs.length = xs := by
  apply List.ext_getElem?
  intro i
  by_cases hi : i < xs.length
  · rw [slice_getElem? _ _ hi, splice, if_pos (by omega), Nat.add_sub_cancel_left,
      List.getElem?_eq_getElem hi, Option.getD_some]
  · rw [List.getElem?_eq_none (by simpa using Nat.le_of_not_lt hi),
      List.getElem?_eq_none (Nat.le_of_not_lt hi)]

/-- A stretch of another memory, copied in. -/
theorem splice_slice (f g : Nat → α) {p n i : Nat} (hp : p ≤ i) (hn : i < p + n) :
    splice f p (slice g p n) i = g i := by
  rw [splice, if_pos hp, slice_getElem? g p (by omega), Option.getD_some, Nat.add_sub_cancel' hp]

/-- A stretch that has been overwritten at its start. -/
theorem slice_splice_append (f : Nat → α) (p : Nat) (xs : List α) (n : Nat) :
    slice (splice f p xs) p (xs.length + n) = xs ++ slice f (p + xs.length) n := by
  rw [slice_add, slice_splice_self]
  congr 1
  exact slice_congr fun i hi _ => splice_of_ge f xs hi

end LinuxDrivers.Lib
