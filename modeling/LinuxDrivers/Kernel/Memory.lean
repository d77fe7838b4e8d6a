import LinuxDrivers.Kernel.CTypes
import LinuxDrivers.Lib.Heap
import LinuxDrivers.Lib.Slice

set_option autoImplicit false

/-! # Kernel memory

Allocations of `kzalloc` live in a `Heap` of blocks. A pointer is `none` (NULL) or an address.
An access through NULL, to a block that is not live or outside of a block stops the kernel
with a `Fault`; an access to no cells at all touches nothing. -/

namespace LinuxDrivers

open Lib

/-- What stops the kernel. -/
inductive Fault where
  | nullDeref
  | notLive
  | outOfBounds
  | badFree
  deriving DecidableEq, Repr

/-- A computation that ends without a fault ends so in both of its parts. -/
theorem bind_eq_ok {ε α β : Type} {x : Except ε α} {f : α → Except ε β} {b : β} :
    (x >>= f) = .ok b ↔ ∃ a, x = .ok a ∧ f a = .ok b := by
  cases x with
  | error e => exact iff_of_false (fun h => by cases h) (fun ⟨_, h, _⟩ => by cases h)
  | ok a =>
      constructor
      · exact fun h => ⟨a, rfl, h⟩
      · rintro ⟨a', ha, h⟩
        obtain rfl := Except.ok.inj ha
        exact h

/-- An allocation: its size and its contents. -/
structure Block (α : Type) where
  size : Nat
  elem : Nat → α

abbrev Ptr := Option Nat

section

variable {α : Type}

/-- `kzalloc`: a block of `size` zeros, or NULL when there is no memory. -/
def kzalloc [Zero α] (avail : Bool) (size : Nat) (h : Heap (Block α)) : Ptr × Heap (Block α) :=
  if avail then (some h.next, h.alloc ⟨size, fun _ => 0⟩) else (none, h)

/-- `kfree`; freeing NULL does nothing. -/
def kfree (h : Heap (Block α)) : Ptr → Except Fault (Heap (Block α))
  | none => .ok h
  | some q =>
      match h.free? q with
      | some h' => .ok h'
      | none => .error .badFree

/-- The live block a pointer designates. -/
def deref (h : Heap (Block α)) : Ptr → Except Fault (Nat × Block α)
  | none => .error .nullDeref
  | some q =>
      match h.get? q with
      | some b => .ok (q, b)
      | none => .error .notLive

/-- Read `n` cells from offset `off` on. -/
def load (h : Heap (Block α)) (p : Ptr) (off n : Nat) : Except Fault (List α) :=
  if n = 0 then .ok []
  else
    match deref h p with
    | .error f => .error f
    | .ok (_, b) => if off + n ≤ b.size then .ok (slice b.elem off n) else .error .outOfBounds

/-- Write cells from offset `off` on. -/
def store (h : Heap (Block α)) (p : Ptr) (off : Nat) (xs : List α) :
    Except Fault (Heap (Block α)) :=
  if xs = [] then .ok h
  else
    match deref h p with
    | .error f => .error f
    | .ok (q, b) =>
        if off + xs.length ≤ b.size then
          match h.set? q { b with elem := splice b.elem off xs } with
          | some h' => .ok h'
          | none => .error .notLive
        else .error .outOfBounds

/-- `copy_from_user` of `n` bytes when only the bytes `buf` can be read: the rest is filled
with zeros, and the number of bytes that were not copied is returned. -/
def copyFromUser (h : Heap (Block U8)) (p : Ptr) (buf : List U8) (n : Nat) :
    Except Fault (Nat × Heap (Block U8)) :=
  match store h p 0 (buf.take n ++ List.replicate (n - buf.length) 0) with
  | .error f => .error f
  | .ok h' => .ok (n - buf.length, h')

/-- `copy_to_user` of `n` bytes when only `room` bytes can be written: the bytes the user
gets, and the number of bytes that were not copied. -/
def copyToUser (h : Heap (Block U8)) (p : Ptr) (room n : Nat) : Except Fault (Nat × List U8) :=
  match load h p 0 n with
  | .error f => .error f
  | .ok bs => .ok (n - room, bs.take room)

/-- `p` designates the live block `b`. -/
def Holds (h : Heap (Block α)) (p : Ptr) (b : Block α) : Prop :=
  ∃ q, p = some q ∧ h.cell q = .live b

/-- `h'` differs from `h` in the contents of the block of `p` at most. -/
def SameBut (h h' : Heap (Block α)) (p : Ptr) : Prop :=
  h'.next = h.next ∧ ∀ q, p ≠ some q → h'.cell q = h.cell q

theorem SameBut.refl (h : Heap (Block α)) (p : Ptr) : SameBut h h p := ⟨rfl, fun _ _ => rfl⟩

theorem Holds.deref {h : Heap (Block α)} {p : Ptr} {b : Block α} (hp : Holds h p b) :
    ∃ q, p = some q ∧ LinuxDrivers.deref h p = .ok (q, b) := by
  rcases hp with ⟨q, rfl, hq⟩
  exact ⟨q, rfl, by simp [LinuxDrivers.deref, Heap.get?_eq_some.mpr hq]⟩

theorem load_length {h : Heap (Block α)} {p : Ptr} {off n : Nat} {xs : List α}
    (hload : load h p off n = .ok xs) : xs.length = n := by
  unfold load at hload
  split_ifs at hload with hn
  · obtain rfl := Except.ok.inj hload
    exact hn.symm
  · cases hd : deref h p with
    | error f =>
        rw [hd] at hload
        cases hload
    | ok r =>
        simp only [hd] at hload
        split_ifs at hload
        obtain rfl := Except.ok.inj hload
        exact slice_length _ _ _

/-- Reading inside a live block. -/
theorem load_of_holds {h : Heap (Block α)} {p : Ptr} {b : Block α} (hp : Holds h p b)
    {off n : Nat} (hn : off + n ≤ b.size) : load h p off n = .ok (slice b.elem off n) := by
  unfold load
  split
  · subst n
    rfl
  · rcases hp.deref with ⟨q, -, hd⟩
    simp [hd, hn]

/-- Writing inside a live block. -/
theorem store_of_holds {h : Heap (Block α)} {p : Ptr} {b : Block α} (hp : Holds h p b)
    (off : Nat) (xs : List α) (hn : off + xs.length ≤ b.size) :
    ∃ h', store h p off xs = .ok h' ∧
      Holds h' p { b with elem := splice b.elem off xs } ∧ SameBut h h' p := by
  unfold store
  split
  · subst xs
    exact ⟨h, rfl, by simpa using hp, SameBut.refl h p⟩
  · rcases hp.deref with ⟨q, rfl, hd⟩
    rcases hp with ⟨q', hq', hlive⟩
    obtain rfl := Option.some.inj hq'
    rcases Heap.exists_set? hlive { b with elem := splice b.elem off xs } with ⟨h', hset⟩
    rcases Heap.set?_eq_some.mp hset with ⟨_, -, hnext, hcell⟩
    refine ⟨h', by simp [hd, hn, hset], ⟨q, rfl, by simp [hcell]⟩, hnext, ?_⟩
    intro r hr
    rw [hcell, Function.update_of_ne (fun hrq => hr (by rw [hrq]))]

/-- A fresh allocation. -/
theorem kzalloc_holds [Zero α] (size : Nat) (h : Heap (Block α)) :
    Holds (kzalloc true size h).2 (kzalloc true size h).1 ⟨size, fun _ => 0⟩ :=
  ⟨h.next, rfl, Heap.alloc_cell_self h _⟩

theorem copyFromUser_of_holds {h : Heap (Block U8)} {p : Ptr} {b : Block U8} (hp : Holds h p b)
    (buf : List U8) {n : Nat} (hn : n ≤ b.size) :
    ∃ h', copyFromUser h p buf n = .ok (n - buf.length, h') ∧
      Holds h' p { b with
        elem := splice b.elem 0 (buf.take n ++ List.replicate (n - buf.length) 0) } ∧
      SameBut h h' p := by
  have hlen : 0 + (buf.take n ++ List.replicate (n - buf.length) (0 : U8)).length ≤ b.size := by
    rw [List.length_append, List.length_take, List.length_replicate]
    omega
  rcases store_of_holds hp 0 _ hlen with ⟨h', hs, hholds, hsame⟩
  exact ⟨h', by rw [copyFromUser, hs], hholds, hsame⟩

theorem copyToUser_of_holds {h : Heap (Block U8)} {p : Ptr} {b : Block U8} (hp : Holds h p b)
    (room : Nat) {n : Nat} (hn : n ≤ b.size) :
    copyToUser h p room n = .ok (n - room, (slice b.elem 0 n).take room) := by
  rw [copyToUser, load_of_holds hp (by omega)]

/-- Freeing a live block. -/
theorem kfree_of_holds {h : Heap (Block α)} {p : Ptr} {b : Block α} (hp : Holds h p b) :
    ∃ h' q, p = some q ∧ kfree h p = .ok h' ∧ h'.next = h.next ∧
      h'.cell = Function.update h.cell q .freed := by
  rcases hp with ⟨q, rfl, hq⟩
  rcases Heap.exists_free? hq with ⟨h', hfree⟩
  rcases Heap.free?_eq_some.mp hfree with ⟨_, -, hnext, hcell⟩
  exact ⟨h', q, rfl, by simp [kfree, hfree], hnext, hcell⟩

end

end LinuxDrivers
