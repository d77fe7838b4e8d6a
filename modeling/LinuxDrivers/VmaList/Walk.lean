import LinuxDrivers.Kernel.Memory
import LinuxDrivers.Lib.Chain

set_option autoImplicit false

/-! # Listing the memory areas of a process

`Chapter11/vma_list.c` goes through all processes when it is loaded, and prints the memory areas of
those with the process id `pid_mem`. Two loops follow pointers that belong to the kernel: the ring of
the processes, and the list of the areas of a process, which ends with a null pointer. `Kernel` is a
memory in which they do. A kernel thread has no `mm_struct`, and `print_mem` does not ask. -/

namespace LinuxDrivers.VmaList

open LinuxDrivers.Lib

/-! ## The kernel's data -/

structure VmAreaStruct where
  vm_start : Nat
  vm_end : Nat
  vm_next : Option Nat
  deriving DecidableEq

structure MmStruct where
  mmap : Option Nat
  map_count : Int
  start_code : Nat
  end_code : Nat
  start_data : Nat
  end_data : Nat
  start_stack : Nat
  deriving DecidableEq

structure TaskStruct where
  pid : Int
  comm : String
  mm : Option Nat
  next : Nat
  deriving DecidableEq

def nextTask (t : TaskStruct) : Option Nat := some t.next

/-- The kernel's memory, with the lists that its pointers make up: `processes` is the ring of the
processes without `init_task`, and `areas q` are the areas of the `mm_struct` at `q`. -/
structure Kernel where
  task : Nat → Option TaskStruct
  mm : Nat → Option MmStruct
  vma : Nat → Option VmAreaStruct
  init_task : Nat
  swapper : TaskStruct
  processes : List (Nat × TaskStruct)
  areas : Nat → List (Nat × VmAreaStruct)
  ring : Chain task nextTask (some init_task) (nextTask swapper) processes
  chains : ∀ q m, mm q = some m → Chain vma VmAreaStruct.vm_next none m.mmap (areas q)
  mm_live : ∀ a t, (a, t) ∈ processes → ∀ q, t.mm = some q → ∃ m, mm q = some m

/-! ## The module -/

inductive LogLevel where
  | KERN_DEFAULT
  | KERN_INFO
  deriving DecidableEq

/-- An argument of `printk`, by its conversion. -/
inductive Arg where
  | d (i : Int)
  | lx (n : Nat)
  | s (t : String)
  deriving DecidableEq

/-- One call of `printk`. -/
structure Line where
  level : LogLevel
  fmt : String
  args : List Arg
  deriving DecidableEq

/-- Why a call has not returned: it is still running, or it has made a bad access. -/
inductive Halt where
  | running
  | fault (f : Fault)
  deriving DecidableEq

abbrev PrintkM (α : Type) := ExceptT Halt (StateM (List Line)) α

def emit (l : Line) : PrintkM Unit := fun log => (.ok (), log ++ [l])

def halt {α : Type} (h : Halt) : PrintkM α := fun log => (.error h, log)

def printk (fmt : String) (args : List Arg) : PrintkM Unit := emit ⟨.KERN_DEFAULT, fmt, args⟩

def prInfo (fmt : String) (args : List Arg) : PrintkM Unit := emit ⟨.KERN_INFO, fmt, args⟩

/-- Access through a pointer to an object of the kernel. -/
def deref {α : Type} (cell : Nat → Option α) : Option Nat → PrintkM α
  | none => halt (.fault .nullDeref)
  | some q =>
      match cell q with
      | none => halt (.fault .notLive)
      | some x => pure x

section

variable (k : Kernel) (fuel : Nat)

/-- The body of the loop over the areas. -/
def printVma (count : Int) (vma : VmAreaStruct) : PrintkM Int := do
  let count := toInt (count + 1)
  printk "\nVma number %d: \n" [.d count]
  printk "  Starts at 0x%lx, Ends at 0x%lx\n" [.lx vma.vm_start, .lx vma.vm_end]
  return count

def printMem (task : TaskStruct) : PrintkM Unit := do
  let mm ← deref k.mm task.mm
  prInfo "\nThis mm_struct has %d vmas.\n" [.d mm.map_count]
  let _ ← walk k.vma VmAreaStruct.vm_next none (halt (.fault .notLive)) (halt .running) printVma
    fuel mm.mmap 0
  prInfo ("\nCode  Segment start = 0x%lx, end = 0x%lx \n"
      ++ "Data  Segment start = 0x%lx, end = 0x%lx\n"
      ++ "Stack Segment start = 0x%lx\n")
    [.lx mm.start_code, .lx mm.end_code, .lx mm.start_data, .lx mm.end_data, .lx mm.start_stack]

/-- The body of `for_each_process`. -/
def printTask (pid_mem : Int) (_ : Unit) (task : TaskStruct) : PrintkM Unit := do
  if task.pid = pid_mem then
    printk "%s[%d]\n" [.s task.comm, .d task.pid]
    printMem k fuel task

def mmExpLoad (pid_mem : Int) : PrintkM Int := do
  prInfo "\nGot the process id to look up as %d.\n" [.d pid_mem]
  let _ ← walk k.task nextTask (some k.init_task) (halt (.fault .notLive)) (halt .running)
    (printTask k fuel pid_mem) fuel (nextTask k.swapper) ()
  return 0

end

/-! ## What should be listed -/

/-- The lines about one area, the `i`-th of its process. -/
def vmaLines (vma : VmAreaStruct) (i : Nat) : List Line :=
  [⟨.KERN_DEFAULT, "\nVma number %d: \n", [.d (toInt i)]⟩,
    ⟨.KERN_DEFAULT, "  Starts at 0x%lx, Ends at 0x%lx\n", [.lx vma.vm_start, .lx vma.vm_end]⟩]

def countLine (m : MmStruct) : Line :=
  ⟨.KERN_INFO, "\nThis mm_struct has %d vmas.\n", [.d m.map_count]⟩

def segmentLine (m : MmStruct) : Line :=
  ⟨.KERN_INFO, "\nCode  Segment start = 0x%lx, end = 0x%lx \n"
      ++ "Data  Segment start = 0x%lx, end = 0x%lx\n" ++ "Stack Segment start = 0x%lx\n",
    [.lx m.start_code, .lx m.end_code, .lx m.start_data, .lx m.end_data, .lx m.start_stack]⟩

def taskLine (t : TaskStruct) : Line :=
  ⟨.KERN_DEFAULT, "%s[%d]\n", [.s t.comm, .d t.pid]⟩

def headLine (pid : Int) : Line :=
  ⟨.KERN_INFO, "\nGot the process id to look up as %d.\n", [.d pid]⟩

/-- The lines about the areas `vmas`, of which `c` have been listed already. -/
def areaLines (vmas : List VmAreaStruct) (c : Nat) : List Line :=
  (vmas.zipIdx (c + 1)).flatMap (fun v => vmaLines v.1 v.2)

def withId (pid : Int) (ts : List TaskStruct) : List TaskStruct :=
  ts.filter (fun t => decide (t.pid = pid))

namespace Kernel

variable (k : Kernel)

/-- All that there is to say about the memory at `q`. -/
def memLines (q : Nat) : List Line :=
  match k.mm q with
  | none => []
  | some m => countLine m :: (areaLines ((k.areas q).map Prod.snd) 0 ++ [segmentLine m])

/-- The lines of one process. -/
def lines (t : TaskStruct) : List Line :=
  taskLine t :: (t.mm.map k.memLines).getD []

/-- The processes with this id. -/
def found (pid : Int) : List TaskStruct := withId pid (k.processes.map Prod.snd)

/-- The lines up to the first process without memory, of which only the name is printed. -/
def linesOf : List TaskStruct → List Line
  | [] => []
  | t :: ts => k.lines t ++ if t.mm.isSome then linesOf ts else []

end Kernel

/-- How the listing ends. -/
def outcomeOf (ts : List TaskStruct) : Except Halt Int :=
  if ts.all (·.mm.isSome) then .ok 0 else .error (.fault .nullDeref)

/-! ## Running the module -/

section

variable {α β : Type}

/-- How a call ends, and what has been printed by then. -/
def exec (p : PrintkM α) (log : List Line) : Except Halt α × List Line := p.run.run log

@[simp] theorem exec_pure (a : α) (log : List Line) :
    exec (pure a) log = (.ok a, log) := rfl

@[simp] theorem exec_halt (h : Halt) (log : List Line) :
    exec (halt h : PrintkM α) log = (.error h, log) := rfl

@[simp] theorem exec_emit_bind (l : Line) (f : Unit → PrintkM β) (log : List Line) :
    exec (emit l >>= f) log = exec (f ()) (log ++ [l]) := rfl

@[simp] theorem exec_emit (l : Line) (log : List Line) :
    exec (emit l) log = (.ok (), log ++ [l]) := rfl

theorem exec_bind_ok {p : PrintkM α} {f : α → PrintkM β} {log log' : List Line} {a : α}
    (h : exec p log = (.ok a, log')) : exec (p >>= f) log = exec (f a) log' := by
  unfold exec at h ⊢
  rw [ExceptT.run_bind, StateT.run_bind, h]
  rfl

theorem exec_bind_error {p : PrintkM α} {f : α → PrintkM β} {log log' : List Line} {e : Halt}
    (h : exec p log = (.error e, log')) : exec (p >>= f) log = (.error e, log') := by
  unfold exec at h ⊢
  rw [ExceptT.run_bind, StateT.run_bind, h]
  rfl

end

/-! ## The areas of one process -/

theorem areaLines_nil (c : Nat) : areaLines [] c = [] := rfl

theorem areaLines_cons (v : VmAreaStruct) (vmas : List VmAreaStruct) (c : Nat) :
    areaLines (v :: vmas) c = vmaLines v (c + 1) ++ areaLines vmas (c + 1) := by
  rw [areaLines, List.zipIdx_cons, List.flatMap_cons]
  rfl

theorem toInt_succ (c : Nat) : toInt (toInt c + 1) = toInt ((c + 1 : Nat) : Int) := by
  rw [toInt, toInt, Int.bmod_add_bmod, Int.natCast_succ]
  rfl

/-- After `c` areas the loop counts on from there. -/
theorem exec_areas (vmas : List VmAreaStruct) (c : Nat) (log : List Line) :
    exec (vmas.foldlM printVma (toInt c)) log
      = (.ok (toInt ((c + vmas.length : Nat) : Int)), log ++ areaLines vmas c) := by
  induction vmas generalizing c log with
  | nil =>
      rw [areaLines_nil, List.append_nil]
      rfl
  | cons v vmas ih =>
      have hone : exec (printVma (toInt c) v) log
          = (.ok (toInt ((c + 1 : Nat) : Int)), log ++ vmaLines v (c + 1)) := by
        rw [vmaLines, ← toInt_succ, List.append_cons]
        rfl
      rw [List.foldlM_cons, exec_bind_ok hone, ih, areaLines_cons, List.append_assoc,
        List.length_cons]
      congr 4
      omega

section

variable {k : Kernel} {fuel : Nat} {t : TaskStruct} {q : Nat}

theorem exec_printMem_none (h : t.mm = none) (log : List Line) :
    exec (printMem k fuel t) log = (.error (.fault .nullDeref), log) := by
  rw [printMem, h]
  rfl

theorem exec_printMem {m : MmStruct} (h : t.mm = some q) (hm : k.mm q = some m)
    (hf : (k.areas q).length ≤ fuel) (log : List Line) :
    exec (printMem k fuel t) log = (.ok (), log ++ k.memLines q) := by
  have hd : exec (deref k.mm t.mm) log = (.ok m, log) := by
    rw [h, deref, hm]
    rfl
  have hareas := exec_areas ((k.areas q).map Prod.snd) 0 (log ++ [countLine m])
  rw [show toInt ((0 : Nat) : Int) = 0 from rfl] at hareas
  rw [printMem, exec_bind_ok hd]
  change exec (emit (countLine m) >>= _) log = _
  rw [exec_emit_bind, walk_of_chain (k.chains q m hm) hf, exec_bind_ok hareas]
  change exec (emit (segmentLine m)) _ = _
  rw [exec_emit, Kernel.memLines, hm]
  simp

end

/-! ## All processes -/

/-- A bound on the turns of every loop: the processes and all their areas. -/
def Kernel.size (k : Kernel) : Nat :=
  k.processes.length
    + (k.processes.map (fun t => (t.2.mm.map (fun q => (k.areas q).length)).getD 0)).sum

theorem Kernel.areas_le_size (k : Kernel) {a q : Nat} {t : TaskStruct}
    (ht : (a, t) ∈ k.processes) (hq : t.mm = some q) : (k.areas q).length ≤ k.size := by
  have hmem : (k.areas q).length
      ∈ k.processes.map (fun t => (t.2.mm.map (fun q => (k.areas q).length)).getD 0) := by
    apply List.mem_map.mpr
    exact ⟨(a, t), ht, by rw [hq]; rfl⟩
  exact (List.single_le_sum (fun _ _ => Nat.zero_le _) _ hmem).trans (Nat.le_add_left _ _)

theorem withId_cons_pos {pid : Int} {t : TaskStruct} (h : t.pid = pid) (ts : List TaskStruct) :
    withId pid (t :: ts) = t :: withId pid ts :=
  List.filter_cons_of_pos (by simpa using h)

theorem withId_cons_neg {pid : Int} {t : TaskStruct} (h : t.pid ≠ pid) (ts : List TaskStruct) :
    withId pid (t :: ts) = withId pid ts :=
  List.filter_cons_of_neg (by simpa using h)

theorem Kernel.linesOf_cons (k : Kernel) (t : TaskStruct) (ts : List TaskStruct) :
    k.linesOf (t :: ts) = k.lines t ++ if t.mm.isSome then k.linesOf ts else [] := rfl

/-- The loop over a part of the ring. -/
theorem exec_tasks (k : Kernel) {fuel : Nat} (hf : k.size ≤ fuel) (pid : Int)
    (ts : List (Nat × TaskStruct)) (hts : ∀ t ∈ ts, t ∈ k.processes) (log : List Line) :
    exec ((ts.map Prod.snd).foldlM (printTask k fuel pid) ()) log
      = ((outcomeOf (withId pid (ts.map Prod.snd))).map (fun _ => ()),
        log ++ k.linesOf (withId pid (ts.map Prod.snd))) := by
  induction ts generalizing log with
  | nil =>
      change _ = (_, log ++ [])
      rw [List.append_nil]
      rfl
  | cons y ts ih =>
      rcases List.forall_mem_cons.mp hts with ⟨hy, hrest⟩
      rw [List.map_cons, List.foldlM_cons]
      by_cases hpid : y.2.pid = pid
      · rw [withId_cons_pos hpid]
        have hbody : printTask k fuel pid () y.2 = emit (taskLine y.2) >>= fun _ =>
            printMem k fuel y.2 := if_pos hpid
        cases hmm : y.2.mm with
        | none =>
            have hone : exec (printTask k fuel pid () y.2) log
                = (.error (.fault .nullDeref), log ++ [taskLine y.2]) := by
              rw [hbody, exec_emit_bind, exec_printMem_none hmm]
            rw [exec_bind_error hone]
            simp [outcomeOf, Kernel.linesOf_cons, Kernel.lines, hmm, Except.map]
        | some q =>
            rcases k.mm_live y.1 y.2 hy q hmm with ⟨m, hm⟩
            have hone : exec (printTask k fuel pid () y.2) log
                = (.ok (), log ++ k.lines y.2) := by
              rw [hbody, exec_emit_bind,
                exec_printMem hmm hm ((k.areas_le_size hy hmm).trans hf), Kernel.lines, hmm,
                List.append_assoc]
              rfl
            rw [exec_bind_ok hone, ih hrest]
            simp [outcomeOf, Kernel.linesOf_cons, hmm]
      · rw [withId_cons_neg hpid]
        have hone : exec (printTask k fuel pid () y.2) log = (.ok (), log) := by
          rw [printTask, if_neg hpid]
          rfl
        rw [exec_bind_ok hone, ih hrest]

/-- **The listing.** In every kernel the loading of the module ends, and it prints the areas of
every process with the id `pid`, one after the other, each area once and with its number, unless one
of them is a kernel thread: then it prints no more than its name and makes an access through a null
pointer. -/
theorem load_lists (k : Kernel) (pid : Int) (log : List Line) :
    (∃ n, ∀ fuel, n ≤ fuel →
      exec (mmExpLoad k fuel pid) log
        = (outcomeOf (k.found pid), log ++ headLine pid :: k.linesOf (k.found pid)))
    ∧ (∀ q m, k.mm q = some m → ((k.areas q).map Prod.fst).Nodup
      ∧ ∀ a v, (a, v) ∈ k.areas q → k.vma a = some v) := by
  constructor
  · refine ⟨k.size, fun fuel hf => ?_⟩
    have htasks := exec_tasks k hf pid k.processes (fun _ h => h) (log ++ [headLine pid])
    have hlen : k.processes.length ≤ fuel := (Nat.le_add_right _ _).trans hf
    change exec (emit (headLine pid) >>= _) log = _
    rw [exec_emit_bind, walk_of_chain k.ring hlen,
      List.append_cons log (headLine pid) (k.linesOf _)]
    rw [← Kernel.found] at htasks
    cases hout : outcomeOf (k.found pid) with
    | ok r =>
        have hr : r = 0 := by
          unfold outcomeOf at hout
          split at hout
          · exact (Except.ok.inj hout).symm
          · cases hout
        rw [hout] at htasks
        rw [exec_bind_ok htasks, hr]
        rfl
    | error e =>
        rw [hout] at htasks
        exact exec_bind_error htasks
  · intro q m hm
    have hchain := k.chains q m hm
    exact ⟨hchain.nodup, fun a v => hchain.mem⟩

/-- A kernel with two processes and a kernel thread. -/
def small : Kernel where
  task a := if a = 11 then some ⟨1, "init", some 20, 12⟩
    else if a = 12 then some ⟨2, "kthreadd", none, 13⟩
    else if a = 13 then some ⟨7, "sh", some 21, 10⟩ else none
  mm q := if q = 20 then some ⟨none, 0, 0, 0, 0, 0, 0⟩
    else if q = 21 then some ⟨some 31, 2, 1, 2, 3, 4, 9⟩ else none
  vma a := if a = 30 then some ⟨5, 6, none⟩ else if a = 31 then some ⟨1, 2, some 30⟩ else none
  init_task := 10
  swapper := ⟨0, "swapper", none, 11⟩
  processes := [(11, ⟨1, "init", some 20, 12⟩), (12, ⟨2, "kthreadd", none, 13⟩),
    (13, ⟨7, "sh", some 21, 10⟩)]
  areas q := if q = 21 then [(31, ⟨1, 2, some 30⟩), (30, ⟨5, 6, none⟩)] else []
  ring := by simp [Chain, nextTask]
  chains := by
    intro q m hm
    split_ifs at hm with h₁ h₂
    · subst h₁
      cases hm
      simp [Chain]
    · subst h₂
      cases hm
      simp [Chain]
  mm_live := by
    intro a t ht q hq
    simp only [List.mem_cons, Prod.mk.injEq, List.not_mem_nil, or_false] at ht
    rcases ht with ⟨-, rfl⟩ | ⟨-, rfl⟩ | ⟨-, rfl⟩ <;> cases hq
    · exact ⟨_, rfl⟩
    · exact ⟨_, rfl⟩

/-- The kernel thread stops the loading after its name. -/
example : exec (mmExpLoad small 3 2) []
    = (.error (.fault .nullDeref), [headLine 2, taskLine ⟨2, "kthreadd", none, 13⟩]) := by
  rfl

end LinuxDrivers.VmaList
