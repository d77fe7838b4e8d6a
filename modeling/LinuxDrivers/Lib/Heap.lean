import Mathlib.Logic.Function.Basic

set_option autoImplicit false

/-! # A heap of numbered allocations

Addresses are handed out in increasing order and never reused, so that an address names one
allocation for ever and its history can be read off the heap: a cell is unused, live with
some contents, or freed. `free` of a cell that is not live has no result, which makes a
double free visible; a cell that is `freed` has therefore been freed exactly once.
-/

namespace LinuxDrivers.Lib

/-- What an address holds. -/
inductive Cell (β : Type) : Type where
  | unused
  | live (b : β)
  | freed

/-- A heap: nothing is stored at or beyond the next address to be handed out. -/
structure Heap (β : Type) where
  next : Nat
  cell : Nat → Cell β
  beyond : ∀ p, next ≤ p → cell p = .unused

namespace Heap

variable {β : Type}

def empty : Heap β := ⟨0, fun _ => .unused, fun _ _ => rfl⟩

theorem lt_next {h : Heap β} {p : Nat} (hp : h.cell p ≠ .unused) : p < h.next := by
  by_contra hlt
  exact hp (h.beyond p (Nat.le_of_not_lt hlt))

/-- Overwrite a cell that has been handed out. -/
def put (h : Heap β) (p : Nat) (c : Cell β) (hp : p < h.next) : Heap β where
  next := h.next
  cell := Function.update h.cell p c
  beyond q hq := by
    rw [Function.update_of_ne (by omega)]
    exact h.beyond q hq

/-- Allocate `b` at the next address, which is `h.next`. -/
def alloc (h : Heap β) (b : β) : Heap β where
  next := h.next + 1
  cell := Function.update h.cell h.next (.live b)
  beyond q hq := by
    rw [Function.update_of_ne (by omega)]
    exact h.beyond q (by omega)

/-- The contents of a live cell. -/
def get? (h : Heap β) (p : Nat) : Option β :=
  match h.cell p with
  | .live b => some b
  | _ => none

/-- Overwrite the contents of a live cell. -/
def set? (h : Heap β) (p : Nat) (b : β) : Option (Heap β) :=
  match hc : h.cell p with
  | .live _ => some (h.put p (.live b) (lt_next (by simp [hc])))
  | _ => none

/-- Free a live cell. -/
def free? (h : Heap β) (p : Nat) : Option (Heap β) :=
  match hc : h.cell p with
  | .live _ => some (h.put p .freed (lt_next (by simp [hc])))
  | _ => none

/-! ## What each operation leaves in each cell -/

@[simp] theorem empty_cell (p : Nat) : (empty : Heap β).cell p = .unused := rfl

@[simp] theorem alloc_next (h : Heap β) (b : β) : (h.alloc b).next = h.next + 1 := rfl

@[simp] theorem alloc_cell_self (h : Heap β) (b : β) : (h.alloc b).cell h.next = .live b := by
  simp [alloc]

theorem alloc_cell_ne (h : Heap β) (b : β) {p : Nat} (hp : p ≠ h.next) :
    (h.alloc b).cell p = h.cell p := by
  simp [alloc, Function.update_of_ne hp]

theorem get?_eq_some {h : Heap β} {p : Nat} {b : β} : h.get? p = some b ↔ h.cell p = .live b := by
  unfold get?
  cases h.cell p <;> simp

/-- The result of an overwrite, in full. -/
theorem set?_eq_some {h h' : Heap β} {p : Nat} {b : β} :
    h.set? p b = some h' ↔
      ∃ old, h.cell p = .live old ∧ h'.next = h.next ∧
        h'.cell = Function.update h.cell p (.live b) := by
  unfold set?
  split
  · rename_i old hc
    constructor
    · intro heq
      obtain rfl := Option.some.inj heq
      exact ⟨old, hc, rfl, rfl⟩
    · rintro ⟨_, -, hn, hcell⟩
      congr 1
      cases h'
      simp only [put, Heap.mk.injEq] at hn hcell ⊢
      exact ⟨hn.symm, hcell.symm⟩
  · rename_i hc
    simp only [reduceCtorEq, false_iff]
    rintro ⟨old, hold, -⟩
    exact hc old hold

/-- The result of a free, in full. -/
theorem free?_eq_some {h h' : Heap β} {p : Nat} :
    h.free? p = some h' ↔
      ∃ old, h.cell p = .live old ∧ h'.next = h.next ∧
        h'.cell = Function.update h.cell p .freed := by
  unfold free?
  split
  · rename_i old hc
    constructor
    · intro heq
      obtain rfl := Option.some.inj heq
      exact ⟨old, hc, rfl, rfl⟩
    · rintro ⟨_, -, hn, hcell⟩
      congr 1
      cases h'
      simp only [put, Heap.mk.injEq] at hn hcell ⊢
      exact ⟨hn.symm, hcell.symm⟩
  · rename_i hc
    simp only [reduceCtorEq, false_iff]
    rintro ⟨old, hold, -⟩
    exact hc old hold

theorem exists_set? {h : Heap β} {p : Nat} {old : β} (hp : h.cell p = .live old) (b : β) :
    ∃ h', h.set? p b = some h' := by
  unfold set?
  split
  · exact ⟨_, rfl⟩
  · rename_i hc
    exact absurd hp (hc old)

theorem exists_free? {h : Heap β} {p : Nat} {old : β} (hp : h.cell p = .live old) :
    ∃ h', h.free? p = some h' := by
  unfold free?
  split
  · exact ⟨_, rfl⟩
  · rename_i hc
    exact absurd hp (hc old)

/-- An overwrite of a live cell succeeds. -/
theorem set?_of_live {h : Heap β} {p : Nat} {old : β} (hp : h.cell p = .live old) (b : β) :
    ∃ h', h.set? p b = some h' ∧ h'.next = h.next ∧
      h'.cell = Function.update h.cell p (.live b) := by
  rcases exists_set? hp b with ⟨h', hset⟩
  rcases set?_eq_some.mp hset with ⟨-, -, hnext, hcell⟩
  exact ⟨h', hset, hnext, hcell⟩

/-- A free of a live cell succeeds. -/
theorem free?_of_live {h : Heap β} {p : Nat} {old : β} (hp : h.cell p = .live old) :
    ∃ h', h.free? p = some h' ∧ h'.next = h.next ∧
      h'.cell = Function.update h.cell p .freed := by
  rcases exists_free? hp with ⟨h', hfree⟩
  rcases free?_eq_some.mp hfree with ⟨-, -, hnext, hcell⟩
  exact ⟨h', hfree, hnext, hcell⟩

/-- Every allocation that was ever made has been freed, hence exactly once. -/
def AllFreed (h : Heap β) : Prop := ∀ p, p < h.next → h.cell p = .freed

end Heap

end LinuxDrivers.Lib
