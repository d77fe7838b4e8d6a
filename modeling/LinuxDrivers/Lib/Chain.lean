import Mathlib.Data.List.Nodup
import Mathlib.Control.Monad.Basic

set_option autoImplicit false

/-! # Linked lists in memory

Nodes lie at addresses of a memory `cell`, each with a pointer to the next one; the null pointer is
`none`. `Chain cell next stop p l` says that the nodes from `p` up to the pointer `stop` are those
of the list `l`. With `stop = none` this is a list that ends with a null pointer, with `stop` the
address of its head it is a ring.

`walk` is the loop that follows the pointers, in any monad and bounded by `fuel`. On a chain it is
the fold of its body over the nodes (`walk_of_chain`). -/

namespace LinuxDrivers.Lib

section

variable {α : Type} (cell : Nat → Option α) (next : α → Option Nat) (stop : Option Nat)

/-- The nodes from `p` up to `stop`, each with its address. -/
def Chain : Option Nat → List (Nat × α) → Prop
  | p, [] => p = stop
  | p, (a, x) :: l => p ≠ stop ∧ p = some a ∧ cell a = some x ∧ Chain (next x) l

variable {cell next stop} {p : Option Nat} {l l' : List (Nat × α)}

theorem Chain.cons_of {a : Nat} {x : α} (h : Chain cell next stop p ((a, x) :: l)) :
    p ≠ stop ∧ p = some a ∧ cell a = some x ∧ Chain cell next stop (next x) l := h

/-- From one pointer there is only one chain. -/
theorem Chain.unique (h : Chain cell next stop p l) (h' : Chain cell next stop p l') : l = l' := by
  induction l generalizing p l' with
  | nil =>
      cases l' with
      | nil => rfl
      | cons y l' => exact absurd h h'.1
  | cons y l ih =>
      rcases h.cons_of with ⟨hne, hp, hx, hl⟩
      cases l' with
      | nil => exact absurd h' hne
      | cons z l' =>
          rcases h'.cons_of with ⟨-, hp', hx', hl'⟩
          have ha : y.1 = z.1 := Option.some.inj (hp.symm.trans hp')
          rw [← ha, hx] at hx'
          have hyz : y = z := Prod.ext ha (Option.some.inj hx')
          rw [hyz] at hl ⊢
          rw [ih hl hl']

/-- The nodes from any node on are a chain too. -/
theorem Chain.drop {a : Nat} {x : α} {l₁ l₂ : List (Nat × α)}
    (h : Chain cell next stop p (l₁ ++ (a, x) :: l₂)) :
    Chain cell next stop (some a) ((a, x) :: l₂) := by
  induction l₁ generalizing p with
  | nil =>
      rcases h.cons_of with ⟨hne, rfl, hx, hl⟩
      exact ⟨hne, rfl, hx, hl⟩
  | cons y l₁ ih => exact ih h.2.2.2

/-- **No node is met twice.** -/
theorem Chain.nodup (h : Chain cell next stop p l) : (l.map Prod.fst).Nodup := by
  induction l generalizing p with
  | nil => exact List.nodup_nil
  | cons y l ih =>
      rcases h.cons_of with ⟨hne, hp, hx, hl⟩
      rw [List.map_cons, List.nodup_cons]
      refine ⟨?_, ih hl⟩
      intro hmem
      -- the rest of the list from the second meeting on would be the list itself
      rcases List.mem_map.mp hmem with ⟨⟨a, z⟩, hz, rfl⟩
      rcases List.append_of_mem hz with ⟨l₁, l₂, rfl⟩
      have hsame := Chain.unique (hp ▸ h) hl.drop
      have hlen := congrArg List.length hsame
      simp only [List.length_cons, List.length_append] at hlen
      omega

/-- Every node is in the memory. -/
theorem Chain.mem {a : Nat} {x : α} (h : Chain cell next stop p l) (hmem : (a, x) ∈ l) :
    cell a = some x := by
  rcases List.append_of_mem hmem with ⟨l₁, l₂, rfl⟩
  exact h.drop.2.2.1

end

/-! ## Following the pointers -/

section

variable {α σ : Type} {m : Type → Type} [Monad m] (cell : Nat → Option α)
  (next : α → Option Nat) (stop : Option Nat) (bad running : m σ) (body : σ → α → m σ)

/-- `for (; p != stop; p = p->next) body`: `bad` is the access through a pointer to no node,
`running` stands for a loop that has not ended after `fuel` turns. -/
def walk : Nat → Option Nat → σ → m σ
  | 0, p, s => if p = stop then pure s else running
  | fuel + 1, p, s =>
      if p = stop then pure s else
        match p.bind cell with
        | none => bad
        | some x => do walk fuel (next x) (← body s x)

variable {cell next stop bad running body} {p : Option Nat} {l : List (Nat × α)}

/-- The loop over a chain, once for every node and in their order. -/
theorem walk_of_chain (h : Chain cell next stop p l) {fuel : Nat} (hf : l.length ≤ fuel) (s : σ) :
    walk cell next stop bad running body fuel p s = (l.map Prod.snd).foldlM body s := by
  induction l generalizing p fuel s with
  | nil =>
      rw [List.map_nil, List.foldlM_nil]
      cases fuel <;> exact if_pos h
  | cons y l ih =>
      rcases h.cons_of with ⟨hne, hp, hx, hl⟩
      obtain ⟨fuel, rfl⟩ : ∃ k, fuel = k + 1 :=
        ⟨fuel - 1, by rw [List.length_cons] at hf; omega⟩
      have hbind : p.bind cell = some y.2 := by rw [hp]; exact hx
      rw [walk, if_neg hne, List.map_cons, List.foldlM_cons]
      simp only [hbind]
      refine bind_congr fun t => ?_
      exact ih hl (by rw [List.length_cons] at hf; omega) t

end

end LinuxDrivers.Lib
