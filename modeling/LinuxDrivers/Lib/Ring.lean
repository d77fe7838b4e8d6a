import LinuxDrivers.Lib.Slice

set_option autoImplicit false

/-! # Memories whose addresses wrap

A memory of `n` cells that is written at any address: the address is taken modulo `n`.
`ringSplice` overwrites cells one after the other (`ringSplice_cases`). Inside one turn it is a
`splice` (`ringSplice_of_turn`). -/

namespace LinuxDrivers.Lib

variable {α : Type} {n : Nat}

/-- Overwrite the cells from the address `p` on. -/
def ringSplice (n : Nat) : (Nat → α) → Nat → List α → Nat → α
  | f, _, [] => f
  | f, p, x :: xs => ringSplice n (Function.update f (p % n) x) (p + 1) xs

@[simp] theorem ringSplice_nil (f : Nat → α) (p : Nat) : ringSplice n f p [] = f := rfl

theorem ringSplice_append (f : Nat → α) (p : Nat) (xs ys : List α) :
    ringSplice n f p (xs ++ ys) = ringSplice n (ringSplice n f p xs) (p + xs.length) ys := by
  induction xs generalizing f p with
  | nil => rfl
  | cons x xs ih =>
      rw [List.cons_append, ringSplice, ih, ringSplice, List.length_cons]
      congr 1
      omega

/-- A cell keeps what it had, or it has one of the new values. -/
theorem ringSplice_cases (f : Nat → α) (p : Nat) (xs : List α) (i : Nat) :
    ringSplice n f p xs i = f i ∨
      ∃ d, i = (p + d) % n ∧ xs[d]? = some (ringSplice n f p xs i) := by
  induction xs generalizing f p with
  | nil => exact Or.inl rfl
  | cons x xs ih =>
      rw [ringSplice]
      rcases ih (Function.update f (p % n) x) (p + 1) with hold | ⟨d, hi, hd⟩
      · by_cases hip : i = p % n
        · refine Or.inr ⟨0, hip, ?_⟩
          rw [hold, hip, Function.update_self]
          rfl
        · exact Or.inl (hold.trans (Function.update_of_ne hip _ _))
      · refine Or.inr ⟨d + 1, ?_, hd⟩
        rw [hi]
        congr 1
        omega

/-- The address after this one. -/
theorem succ_mod (hn : 0 < n) (p : Nat) :
    (p + 1) % n = if p % n + 1 = n then 0 else p % n + 1 := by
  have hlt := Nat.mod_lt p hn
  rw [Nat.add_mod_eq_ite]
  by_cases hone : n = 1
  · subst hone
    simp [Nat.mod_one]
  · rw [Nat.mod_eq_of_lt (show 1 < n by omega)]
    split_ifs <;> omega

/-- Cells that lie in one turn. -/
theorem ringSplice_of_turn (f : Nat → α) (p : Nat) (xs : List α) (h : p % n + xs.length ≤ n) :
    ringSplice n f p xs = splice f (p % n) xs := by
  induction xs generalizing f p with
  | nil => simp
  | cons x xs ih =>
      rw [List.length_cons] at h
      rw [ringSplice, splice_cons]
      cases xs with
      | nil => simp
      | cons y ys =>
          rw [List.length_cons] at h
          have hnext : (p + 1) % n = p % n + 1 := by
            rw [succ_mod (by omega), if_neg (by omega)]
          rw [← hnext]
          exact ih _ _ (by rw [hnext, List.length_cons]; omega)

end LinuxDrivers.Lib
