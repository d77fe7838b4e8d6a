import LinuxDrivers.Kernel.Memory
import LinuxDrivers.Lib.Run
import LinuxDrivers.SysfsPoll.Store

set_option autoImplicit false

/-! # Loading and unloading sysfs-poll

The module is loaded and unloaded any number of times, the allocation of its kobject or its
registration may fail, and as long as there is a directory its attributes are written and read.

* `show_last`: a read returns the whole text of the last number written since the load, and a user
  who parses the text gets that number.
* `kobjects_ledger`: a load without a directory is reported as a success and loses its kobject;
  every other kobject is freed once, by the unload. -/

namespace LinuxDrivers.SysfsPoll

open Lib

/-! ## The kobject -/

/-- The references to a kobject, and whether its directory is in sysfs. -/
structure Kobject where
  refs : Nat
  in_sysfs : Bool
  deriving DecidableEq

def kobjectInit (p : Nat) (h : Heap Kobject) : Except Fault (Heap Kobject) :=
  match h.set? p ⟨1, false⟩ with
  | none => .error .notLive
  | some h => .ok h

/-- `ok` is whether the directory could be made. -/
def kobjectAdd (ok : Bool) (p : Nat) (h : Heap Kobject) : Except Fault (Int × Heap Kobject) :=
  match h.get? p with
  | none => .error .notLive
  | some k =>
      if ok then
        match h.set? p { k with in_sysfs := true } with
        | none => .error .notLive
        | some h => .ok (0, h)
      else .ok (- ENOMEM, h)

/-- The last reference takes the directory away. The type of the kobject has no release function,
so that its memory stays. -/
def kobjectPut (p : Nat) (h : Heap Kobject) : Except Fault (Heap Kobject) :=
  match h.get? p with
  | none => .error .notLive
  | some k =>
      if k.refs = 0 then .error .badFree
      else
        match h.set? p ⟨k.refs - 1, k.in_sysfs && decide (k.refs ≠ 1)⟩ with
        | none => .error .notLive
        | some h => .ok h

def kfreeKobject (p : Nat) (h : Heap Kobject) : Except Fault (Heap Kobject) :=
  match h.free? p with
  | none => .error .badFree
  | some h => .ok h

/-! ## The module -/

/-- `mykobj` and the attributes are the module's own. -/
structure Hello where
  heap : Heap Kobject
  mykobj : Ptr
  sysfs : Sysfs

/-- `kzalloc` and `add` are whether the two calls succeed. After a failure of `kobject_add`, `err`
is set to -1, and then to 0. -/
def helloModuleInit (kzalloc add : Bool) (h : Hello) : Except Fault (Int × Hello) :=
  if kzalloc then do
    let mykobj := h.heap.next
    let heap ← kobjectInit mykobj (h.heap.alloc ⟨0, false⟩)
    let (ret, heap) ← kobjectAdd add mykobj heap
    if ret ≠ 0 then
      let heap ← kobjectPut mykobj heap
      return (0, { h with heap := heap, mykobj := none })
    return (0, { h with heap := heap, mykobj := some mykobj })
  else return (-1, { h with mykobj := none })

def helloModuleExit (h : Hello) : Except Fault Hello :=
  match h.mykobj with
  | none => return h
  | some mykobj => do
      let heap ← kobjectPut mykobj h.heap
      let heap ← kfreeKobject mykobj heap
      return { h with heap := heap }

/-- There is a directory, with the two attributes in it. -/
def Hello.dir (h : Hello) : Bool :=
  match h.mykobj with
  | none => false
  | some q => (h.heap.get? q).any (·.in_sysfs)

def PAGE_SIZE : Nat := 4096

/-- At most `size` bytes with the final zero; the bytes before it are counted. -/
def scnprintf (size : Nat) (text : List Char) : Int × List Char :=
  ((text.take (size - 1)).length, text.take (size - 1))

/-- `show`, and what it leaves in the buffer. -/
def showCall (s : Sysfs) (attr : DAttr) : Int × List Char := scnprintf PAGE_SIZE (showAttr s attr)

/-! ## Runs -/

structure HelloState where
  hello : Hello
  loaded : Bool
  fault : Option Fault

inductive HelloEvent where
  | load (kzalloc add : Bool)
  | unload
  | store (attr : DAttr) (buf : List Char)
  | read (attr : DAttr)

/-- A load starts with fresh variables; it is refused if `hello_module_init` returns an error. A
module that is gone has no `mykobj`. -/
def helloStep (s : HelloState) (e : HelloEvent) : Option HelloState :=
  match s.fault, e with
  | some _, _ => none
  | none, .load kzalloc add =>
      if s.loaded then none else
        let fresh := { s.hello with mykobj := none, sysfs := SysfsPoll.loaded }
        match helloModuleInit kzalloc add fresh with
        | .error f => some { s with fault := some f }
        | .ok (ret, hello) => some { s with hello := hello, loaded := decide (0 ≤ ret) }
  | none, .unload =>
      if s.loaded then
        match helloModuleExit s.hello with
        | .error f => some { s with fault := some f }
        | .ok hello => some { s with hello := { hello with mykobj := none }, loaded := false }
      else none
  | none, .store attr buf =>
      if s.hello.dir then
        some { s with hello := { s.hello with sysfs := (store s.hello.sysfs attr buf).2 } }
      else none
  | none, .read _ => if s.hello.dir then some s else none

def HelloState.start : HelloState := ⟨⟨Heap.empty, none, SysfsPoll.loaded⟩, false, none⟩

/-! ## What the calls do -/

section

variable {h : Hello}

/-- A load that gets memory: with a directory the kobject is the module's, without one it has no
reference left and nobody knows it. -/
theorem helloModuleInit_true (add : Bool) :
    ∃ heap : Heap Kobject, heap.next = h.heap.next + 1 ∧
      heap.cell = Function.update h.heap.cell h.heap.next (.live ⟨add.toNat, add⟩) ∧
      helloModuleInit true add h
        = .ok (0, { h with heap := heap, mykobj := if add then some h.heap.next else none }) := by
  have hnew := Heap.alloc_cell_self h.heap (⟨0, false⟩ : Kobject)
  rcases Heap.set?_of_live hnew ⟨1, false⟩ with ⟨h₁, hset₁, hnext₁, hcell₁⟩
  have hlive₁ : h₁.cell h.heap.next = .live ⟨1, false⟩ := by rw [hcell₁, Function.update_self]
  cases add with
  | true =>
      rcases Heap.set?_of_live hlive₁ ⟨1, true⟩ with ⟨h₂, hset₂, hnext₂, hcell₂⟩
      refine ⟨h₂, hnext₂.trans hnext₁, ?_, ?_⟩
      · rw [hcell₂, hcell₁, Heap.alloc, Function.update_idem, Function.update_idem]
        rfl
      · simp [helloModuleInit, kobjectInit, kobjectAdd, hset₁, Heap.get?_eq_some.mpr hlive₁, hset₂,
          bind, Except.bind, pure, Except.pure]
  | false =>
      rcases Heap.set?_of_live hlive₁ ⟨0, false⟩ with ⟨h₂, hset₂, hnext₂, hcell₂⟩
      refine ⟨h₂, hnext₂.trans hnext₁, ?_, ?_⟩
      · rw [hcell₂, hcell₁, Heap.alloc, Function.update_idem, Function.update_idem]
        rfl
      · simp [helloModuleInit, kobjectInit, kobjectAdd, kobjectPut, hset₁,
          Heap.get?_eq_some.mpr hlive₁, hset₂, bind, Except.bind, pure, Except.pure, ENOMEM]

theorem helloModuleInit_false (add : Bool) :
    helloModuleInit false add h = .ok (-1, { h with mykobj := none }) := rfl

theorem helloModuleExit_some {q : Nat} (hq : h.mykobj = some q)
    (hlive : h.heap.cell q = .live ⟨1, true⟩) :
    ∃ heap : Heap Kobject, heap.next = h.heap.next ∧
      heap.cell = Function.update h.heap.cell q .freed ∧
      helloModuleExit h = .ok { h with heap := heap } := by
  rcases Heap.set?_of_live hlive ⟨0, false⟩ with ⟨h₁, hset₁, hnext₁, hcell₁⟩
  have hlive₁ : h₁.cell q = .live ⟨0, false⟩ := by rw [hcell₁, Function.update_self]
  rcases Heap.free?_of_live hlive₁ with ⟨h₂, hfree, hnext₂, hcell₂⟩
  refine ⟨h₂, hnext₂.trans hnext₁, ?_, ?_⟩
  · rw [hcell₂, hcell₁, Function.update_idem]
  · simp [helloModuleExit, hq, kobjectPut, Heap.get?_eq_some.mpr hlive, hset₁, kfreeKobject, hfree,
      bind, Except.bind, pure, Except.pure]

theorem helloModuleExit_none (hq : h.mykobj = none) : helloModuleExit h = .ok h := by
  rw [helloModuleExit, hq]
  rfl

end

/-! ## The history -/

/-- The allocations, each with whether its registration succeeded. -/
def allocs (es : List HelloEvent) : List Bool :=
  es.filterMap fun
    | .load true add => some add
    | _ => none

/-- The last load, if no unload has followed. -/
def lastLoad (es : List HelloEvent) : Option (Bool × Bool) :=
  es.foldl (fun l e => match e with
    | .load kzalloc add => some (kzalloc, add)
    | .unload => none
    | _ => l) none

/-- The last number stored in the attribute since the last load, or 0. -/
def lastNumber (attr : DAttr) (es : List HelloEvent) : Int :=
  es.foldl (fun v e => match e with
    | .load _ _ => 0
    | .store a buf => if a = attr then ((sscanfD buf).map toInt).getD v else v
    | _ => v) 0

section

variable {es : List HelloEvent} {attr a : DAttr} {buf : List Char} {add : Bool}

theorem allocs_load_true : allocs (es ++ [.load true add]) = allocs es ++ [add] := by
  rw [allocs, List.filterMap_append]
  rfl

theorem allocs_of_not_load (es : List HelloEvent) (e : HelloEvent)
    (h : ∀ add, e ≠ .load true add) :
    allocs (es ++ [e]) = allocs es := by
  have hnone : allocs [e] = [] := by
    cases e with
    | load kzalloc add =>
        cases kzalloc with
        | true => exact absurd rfl (h add)
        | false => rfl
    | _ => rfl
  rw [allocs, List.filterMap_append]
  exact (congrArg _ hnone).trans (List.append_nil _)

theorem lastLoad_load {kzalloc : Bool} :
    lastLoad (es ++ [.load kzalloc add]) = some (kzalloc, add) := by
  rw [lastLoad, List.foldl_append]
  rfl

theorem lastLoad_unload : lastLoad (es ++ [.unload]) = none := by
  rw [lastLoad, List.foldl_append]
  rfl

theorem lastLoad_store : lastLoad (es ++ [.store a buf]) = lastLoad es := by
  rw [lastLoad, List.foldl_append]
  rfl

theorem lastLoad_read : lastLoad (es ++ [.read a]) = lastLoad es := by
  rw [lastLoad, List.foldl_append]
  rfl

theorem lastNumber_load {kzalloc : Bool} : lastNumber attr (es ++ [.load kzalloc add]) = 0 := by
  rw [lastNumber, List.foldl_append]
  rfl

theorem lastNumber_unload : lastNumber attr (es ++ [.unload]) = lastNumber attr es := by
  rw [lastNumber, List.foldl_append]
  rfl

theorem lastNumber_store : lastNumber attr (es ++ [.store a buf])
    = if a = attr then ((sscanfD buf).map toInt).getD (lastNumber attr es)
      else lastNumber attr es := by
  rw [lastNumber, List.foldl_append]
  rfl

theorem lastNumber_read : lastNumber attr (es ++ [.read a]) = lastNumber attr es := by
  rw [lastNumber, List.foldl_append]
  rfl

end

/-- What holds after the events `es`. -/
structure HelloInv (es : List HelloEvent) (s : HelloState) : Prop where
  running : s.fault = none
  next : s.hello.heap.next = (allocs es).length
  used : ∀ q, q < s.hello.heap.next → s.hello.heap.cell q ≠ .unused
  live : ∀ q k, s.hello.heap.cell q = .live k ↔
    (allocs es)[q]? = some false ∧ k = ⟨0, false⟩ ∨ s.hello.mykobj = some q ∧ k = ⟨1, true⟩
  mine : ∀ q, s.hello.mykobj = some q → (allocs es)[q]? = some true
  dir : s.hello.mykobj.isSome = true ↔ lastLoad es = some (true, true)
  loaded : s.loaded = true ↔ ∃ add, lastLoad es = some (true, add)
  value : ∀ attr, s.hello.sysfs.value attr = lastNumber attr es

theorem helloInv_start : HelloInv [] .start where
  running := rfl
  next := rfl
  used q hq := absurd hq (Nat.not_lt_zero q)
  live q k := by simp [HelloState.start, allocs]
  mine q hq := by cases hq
  dir := by simp [HelloState.start, lastLoad]
  loaded := by simp [HelloState.start, lastLoad]
  value attr := rfl

section

variable {es : List HelloEvent} {s t : HelloState}

theorem HelloInv.dir_eq (h : HelloInv es s) : s.hello.dir = s.hello.mykobj.isSome := by
  unfold Hello.dir
  cases hq : s.hello.mykobj with
  | none => rfl
  | some q =>
      have hlive : s.hello.heap.cell q = .live ⟨1, true⟩ := (h.live q _).mpr (Or.inr ⟨hq, rfl⟩)
      simp [Heap.get?_eq_some.mpr hlive]

/-- Without a loaded module there is no `mykobj`. -/
theorem HelloInv.mykobj_none (h : HelloInv es s) (hl : s.loaded = false) :
    s.hello.mykobj = none := by
  cases hq : s.hello.mykobj with
  | none => rfl
  | some q =>
      have hload := h.dir.mp (by rw [hq]; rfl)
      rw [h.loaded.mpr ⟨true, hload⟩] at hl
      cases hl

theorem HelloInv.load_true (h : HelloInv es s) (hl : s.loaded = false) (add : Bool)
    {heap : Heap Kobject} (hnext : heap.next = s.hello.heap.next + 1)
    (hcell : heap.cell = Function.update s.hello.heap.cell s.hello.heap.next
      (.live ⟨add.toNat, add⟩)) :
    HelloInv (es ++ [.load true add])
      ⟨⟨heap, if add then some s.hello.heap.next else none, SysfsPoll.loaded⟩, true, s.fault⟩ := by
  have hnone := h.mykobj_none hl
  have hlen := h.next
  have hold : ∀ q, q ≠ s.hello.heap.next → (allocs es ++ [add])[q]? = (allocs es)[q]? := by
    intro q hq
    rcases Nat.lt_or_gt_of_ne (hlen ▸ hq) with hlt | hgt
    · exact List.getElem?_append_left hlt
    · rw [List.getElem?_eq_none (by simpa using hgt), List.getElem?_eq_none hgt.le]
  have hnew : (allocs es ++ [add])[s.hello.heap.next]? = some add := by
    rw [hlen, List.getElem?_concat_length]
  refine ⟨h.running, ?_, ?_, ?_, ?_, ?_, ?_, ?_⟩
  · rw [allocs_load_true, List.length_append, ← hlen]
    exact hnext
  · intro q hq
    change q < heap.next at hq
    change heap.cell q ≠ .unused
    by_cases hqn : q = s.hello.heap.next
    · simp [hqn, hcell]
    · rw [hcell, Function.update_of_ne hqn]
      exact h.used q (by omega)
  · intro q k
    rw [allocs_load_true]
    change heap.cell q = .live k ↔ _ ∨ (if add then some s.hello.heap.next else none) = some q ∧ _
    by_cases hqn : q = s.hello.heap.next
    · subst hqn
      rw [hcell, Function.update_self, hnew]
      cases add <;> simp [eq_comm]
    · rw [hcell, Function.update_of_ne hqn, hold q hqn, h.live q k, hnone]
      cases add <;> simp [Ne.symm hqn]
  · intro q hq
    change (if add then some s.hello.heap.next else none) = some q at hq
    rw [allocs_load_true]
    cases add with
    | true =>
        obtain rfl := Option.some.inj hq
        exact hnew
    | false => cases hq
  · rw [lastLoad_load]
    cases add <;> simp
  · rw [lastLoad_load]
    simp
  · intro attr
    rw [lastNumber_load]
    rfl

theorem HelloInv.load_false (h : HelloInv es s) (add : Bool) (hl : s.loaded = false) :
    HelloInv (es ++ [.load false add])
      ⟨⟨s.hello.heap, none, SysfsPoll.loaded⟩, false, s.fault⟩ := by
  have hallocs := allocs_of_not_load es (.load false add) (by simp)
  have hnone := h.mykobj_none hl
  refine ⟨h.running, ?_, h.used, ?_, ?_, ?_, ?_, ?_⟩
  · rw [hallocs]
    exact h.next
  · intro q k
    rw [hallocs, ← hnone]
    exact h.live q k
  · intro q hq
    cases hq
  · rw [lastLoad_load]
    simp
  · rw [lastLoad_load]
    simp
  · intro attr
    rw [lastNumber_load]
    rfl

theorem HelloInv.unload_none (h : HelloInv es s) (hq : s.hello.mykobj = none) :
    HelloInv (es ++ [.unload]) ⟨{ s.hello with mykobj := none }, false, s.fault⟩ := by
  have hallocs := allocs_of_not_load es .unload (by simp)
  refine ⟨h.running, ?_, h.used, ?_, ?_, ?_, ?_, ?_⟩
  · rw [hallocs]
    exact h.next
  · intro q k
    rw [hallocs, ← hq]
    exact h.live q k
  · intro q hq
    cases hq
  · rw [lastLoad_unload]
    simp
  · rw [lastLoad_unload]
    simp
  · intro attr
    rw [lastNumber_unload]
    exact h.value attr

theorem HelloInv.unload_some (h : HelloInv es s) {q : Nat} (hq : s.hello.mykobj = some q)
    {heap : Heap Kobject} (hnext : heap.next = s.hello.heap.next)
    (hcell : heap.cell = Function.update s.hello.heap.cell q .freed) :
    HelloInv (es ++ [.unload]) ⟨⟨heap, none, s.hello.sysfs⟩, false, s.fault⟩ := by
  have hallocs := allocs_of_not_load es .unload (by simp)
  have hmine := h.mine q hq
  refine ⟨h.running, ?_, ?_, ?_, ?_, ?_, ?_, ?_⟩
  · rw [hallocs, ← h.next]
    exact hnext
  · intro x hx
    change x < heap.next at hx
    change heap.cell x ≠ .unused
    by_cases hxq : x = q
    · simp [hxq, hcell]
    · rw [hcell, Function.update_of_ne hxq]
      exact h.used x (by omega)
  · intro x k
    change heap.cell x = .live k ↔ _ ∨ none = some x ∧ _
    rw [hallocs]
    by_cases hxq : x = q
    · subst hxq
      rw [hcell, Function.update_self, hmine]
      simp
    · rw [hcell, Function.update_of_ne hxq, h.live x k, hq]
      simp [Ne.symm hxq]
  · intro x hx
    cases hx
  · rw [lastLoad_unload]
    simp
  · rw [lastLoad_unload]
    simp
  · intro attr
    rw [lastNumber_unload]
    exact h.value attr

theorem helloInv_step {e : HelloEvent} (h : HelloInv es s) (hstep : helloStep s e = some t) :
    HelloInv (es ++ [e]) t := by
  rcases s with ⟨hello, loaded, fault⟩
  obtain rfl : fault = none := h.running
  cases e with
  | load kzalloc add =>
      cases hl : loaded with
      | true => simp [helloStep, hl] at hstep
      | false =>
          subst hl
          cases kzalloc with
          | false =>
              simp only [helloStep, helloModuleInit_false] at hstep
              obtain rfl := Option.some.inj hstep
              exact h.load_false add rfl
          | true =>
              rcases helloModuleInit_true add
                (h := { hello with mykobj := none, sysfs := SysfsPoll.loaded })
                with ⟨heap, hnext, hcell, hinit⟩
              simp only [helloStep, hinit] at hstep
              obtain rfl := Option.some.inj hstep
              exact h.load_true rfl add hnext hcell
  | unload =>
      cases hl : loaded with
      | false => simp [helloStep, hl] at hstep
      | true =>
          subst hl
          cases hq : hello.mykobj with
          | none =>
              simp only [helloStep, helloModuleExit_none hq, if_true] at hstep
              obtain rfl := Option.some.inj hstep
              exact h.unload_none hq
          | some q =>
              have hlive := (h.live q ⟨1, true⟩).mpr (Or.inr ⟨hq, rfl⟩)
              rcases helloModuleExit_some hq hlive with ⟨heap, hnext, hcell, hexit⟩
              simp only [helloStep, hexit, if_true] at hstep
              obtain rfl := Option.some.inj hstep
              exact h.unload_some hq hnext hcell
  | store attr buf =>
      simp only [helloStep] at hstep
      split at hstep
      · obtain rfl := Option.some.inj hstep
        have hallocs := allocs_of_not_load es (.store attr buf) (by simp)
        refine ⟨rfl, ?_, h.used, ?_, ?_, ?_, ?_, fun a => ?_⟩
        · rw [hallocs]
          exact h.next
        · rw [hallocs]
          exact h.live
        · rw [hallocs]
          exact h.mine
        · rw [lastLoad_store]
          exact h.dir
        · rw [lastLoad_store]
          exact h.loaded
        · rw [lastNumber_store, ← h.value]
          change (store hello.sysfs attr buf).2.value a = _
          rw [store_value]
          by_cases ha : attr = a
          · subst ha
            rw [Function.update_self, if_pos rfl]
          · rw [Function.update_of_ne (Ne.symm ha), if_neg ha]
      · cases hstep
  | read attr =>
      simp only [helloStep] at hstep
      split at hstep
      · obtain rfl := Option.some.inj hstep
        have hallocs := allocs_of_not_load es (.read attr) (by simp)
        refine ⟨rfl, ?_, h.used, ?_, ?_, ?_, ?_, fun a => ?_⟩
        · rw [hallocs]
          exact h.next
        · rw [hallocs]
          exact h.live
        · rw [hallocs]
          exact h.mine
        · rw [lastLoad_read]
          exact h.dir
        · rw [lastLoad_read]
          exact h.loaded
        · rw [lastNumber_read]
          exact h.value a
      · cases hstep

end

theorem helloInv_run {es : List HelloEvent} {s : HelloState}
    (hrun : run helloStep .start es = some s) : HelloInv es s :=
  run_induct_all (I := HelloInv) helloInv_start (fun _ _ _ _ _ h hstep => helloInv_step h hstep)
    es s hrun

/-! ## Reads -/

theorem toInt_range (i : Int) : -2 ^ 31 ≤ toInt i ∧ toInt i < 2 ^ 31 := by
  have hle := Int.le_bmod (x := i) (m := 2 ^ 32) (by decide)
  have hlt := Int.bmod_lt (x := i) (m := 2 ^ 32) (by decide)
  unfold toInt
  omega

theorem lastNumber_range (attr : DAttr) (es : List HelloEvent) :
    -2 ^ 31 ≤ lastNumber attr es ∧ lastNumber attr es < 2 ^ 31 := by
  induction es using List.reverseRecOn with
  | nil =>
      change -2 ^ 31 ≤ (0 : Int) ∧ (0 : Int) < 2 ^ 31
      decide
  | append_singleton es e ih =>
      cases e with
      | load kzalloc add =>
          rw [lastNumber_load]
          exact ⟨by decide, by decide⟩
      | unload =>
          rw [lastNumber_unload]
          exact ih
      | store a buf =>
          rw [lastNumber_store]
          split
          · cases sscanfD buf with
            | none => exact ih
            | some v => exact toInt_range v
          · exact ih
      | read a =>
          rw [lastNumber_read]
          exact ih

/-- The text of a number has at most eleven characters. -/
theorem length_decimal_le {v : Int} (hmin : -2 ^ 31 ≤ v) (hmax : v < 2 ^ 31) :
    (decimal v).length ≤ 11 := by
  have hten := (length_digits_le_iff v.natAbs (k := 10) (by decide)).mpr (by omega)
  unfold decimal
  split
  · rw [List.length_cons]
    omega
  · omega

/-- A text that fits is not cut. -/
theorem showCall_eq {s : Sysfs} {attr : DAttr} (hmin : -2 ^ 31 ≤ s.value attr)
    (hmax : s.value attr < 2 ^ 31) :
    showCall s attr = (((showAttr s attr).length : Int), showAttr s attr) := by
  have hname : attr.name.toList.length ≤ 7 := by cases attr <;> decide
  have hlen : (showAttr s attr).length ≤ PAGE_SIZE - 1 := by
    have hdec := length_decimal_le hmin hmax
    have hsep : ": ".toList.length = 2 := by decide
    simp only [showAttr, List.length_append, List.length_singleton, PAGE_SIZE]
    omega
  rw [showCall, scnprintf, List.take_of_length_le hlen]

/-- **What a read returns**, in every run of loads, unloads, stores and reads: the whole text of the
last number stored since the load. A user who parses it behind the name gets this number, and one
call of the store function with this part of the text leaves the numbers that are stored. -/
theorem show_last (es : List HelloEvent) (s : HelloState)
    (hrun : run helloStep .start es = some s) (attr : DAttr) :
    showCall s.hello.sysfs attr
        = (((showAttr s.hello.sysfs attr).length : Int), showAttr s.hello.sysfs attr) ∧
      showAttr s.hello.sysfs attr
        = (attr.name.toList ++ ": ".toList) ++ (decimal (lastNumber attr es) ++ ['\n']) ∧
      sscanfD ((showAttr s.hello.sysfs attr).drop (attr.name.toList.length + 2))
        = some (lastNumber attr es) ∧
      (store s.hello.sysfs attr
          ((showAttr s.hello.sysfs attr).drop (attr.name.toList.length + 2))).2.value
        = s.hello.sysfs.value := by
  have h := helloInv_run hrun
  have hrange := lastNumber_range attr es
  have hvalue := h.value attr
  have htext : showAttr s.hello.sysfs attr
      = (attr.name.toList ++ ": ".toList) ++ (decimal (lastNumber attr es) ++ ['\n']) := by
    rw [showAttr, hvalue, List.append_assoc, List.append_assoc]
  have hdrop : (showAttr s.hello.sysfs attr).drop (attr.name.toList.length + 2)
      = decimal (lastNumber attr es) ++ ['\n'] := by
    rw [htext]
    exact List.drop_left' (by rw [List.length_append]; rfl)
  refine ⟨showCall_eq (by rw [hvalue]; exact hrange.1) (by rw [hvalue]; exact hrange.2), htext,
    ?_, ?_⟩
  · rw [hdrop, sscanfD_decimal]
  · rw [hdrop, store_value, sscanfD_decimal, Option.map_some, Option.getD_some,
      toInt_of_lt hrange.1 hrange.2, ← hvalue, Function.update_eq_self]

/-- A text that is no number leaves the last one. -/
theorem show_last_notify :
    ∃ s, run helloStep .start [.load true true, .store .notify ['4', '2', '\n'],
        .store .notify ['x'], .read .notify] = some s ∧
      showAttr s.hello.sysfs .notify = "notify: 42\n".toList := by
  have hrun : (run helloStep .start [.load true true, .store .notify ['4', '2', '\n'],
      .store .notify ['x'], .read .notify]).isSome = true := by decide +kernel
  rcases Option.isSome_iff_exists.mp hrun with ⟨s, hs⟩
  exact ⟨s, hs, (show_last _ s hs .notify).2.1.trans (by decide +kernel)⟩

/-! ## The kobjects -/

/-- **What becomes of the kobjects**, in every run: no kobject is used or freed when it is gone.
There is a directory if the last load made one, and the module is loaded also if it did not. The
kobjects in memory are that of the directory and one for every load that did not make one; all
others have been freed. -/
theorem kobjects_ledger (es : List HelloEvent) (s : HelloState)
    (hrun : run helloStep .start es = some s) :
    s.fault = none ∧
      (s.hello.dir = true ↔ lastLoad es = some (true, true)) ∧
      (s.loaded = true ↔ ∃ add, lastLoad es = some (true, add)) ∧
      s.hello.heap.next = (allocs es).length ∧
      ∀ q, q < s.hello.heap.next →
        ((allocs es)[q]? = some false ∨ s.hello.mykobj = some q) ∧
            (∃ k, s.hello.heap.cell q = .live k) ∨
          s.hello.mykobj ≠ some q ∧ (allocs es)[q]? = some true ∧
            s.hello.heap.cell q = .freed := by
  have h := helloInv_run hrun
  refine ⟨h.running, ?_, h.loaded, h.next, fun q hq => ?_⟩
  · rw [h.dir_eq]
    exact h.dir
  · by_cases hmine : s.hello.mykobj = some q
    · exact Or.inl ⟨Or.inr hmine, _, (h.live q _).mpr (Or.inr ⟨hmine, rfl⟩)⟩
    · have hlt : q < (allocs es).length := hq.trans_eq h.next
      cases hadd : (allocs es)[q]? with
      | none => exact absurd (List.getElem?_eq_none_iff.mp hadd) (Nat.not_le.mpr hlt)
      | some add =>
          cases add with
          | false => exact Or.inl ⟨Or.inl rfl, _, (h.live q _).mpr (Or.inl ⟨hadd, rfl⟩)⟩
          | true =>
              refine Or.inr ⟨hmine, rfl, ?_⟩
              cases hcell : s.hello.heap.cell q with
              | unused => exact absurd hcell (h.used q hq)
              | freed => rfl
              | live k =>
                  rcases (h.live q k).mp hcell with ⟨hfalse, -⟩ | ⟨hq', -⟩
                  · rw [hadd] at hfalse
                    cases hfalse
                  · exact absurd hq' hmine

/-- The second load makes no directory: it succeeds, and its kobject stays in memory. -/
theorem kobjects_ledger_failed_add :
    ∃ s, run helloStep .start [.load true true, .unload, .load true false, .unload] = some s ∧
      s.fault = none ∧ ∃ k, s.hello.heap.cell 1 = .live k := by
  have hrun : (run helloStep .start [.load true true, .unload, .load true false, .unload]).isSome
      = true := by decide +kernel
  rcases Option.isSome_iff_exists.mp hrun with ⟨s, hs⟩
  have h := kobjects_ledger _ s hs
  have hnext : 1 < s.hello.heap.next := by rw [h.2.2.2.1]; decide
  rcases h.2.2.2.2 1 hnext with ⟨-, hlive⟩ | ⟨-, hadd, -⟩
  · exact ⟨s, hs, h.1, hlive⟩
  · cases hadd

end LinuxDrivers.SysfsPoll
