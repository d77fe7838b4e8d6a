import LinuxDrivers.Lib.Party
import LinuxDrivers.Sdma.Driver
import Mathlib.Data.List.Nodup

set_option autoImplicit false

/-! # Concurrent writers and the completion they share

Any number of callers run `sdma_write` at the same time. All of them wait on the one completion
`dma_m2m_ok`, a counter: `dma_m2m_callback` adds one for whichever descriptor has been
finished, a wait takes one away, and every `sdma_open` resets it.

`ownTransfer_iff_inTurn`: every writer waits for its own transfer and no completion is lost, if
and only if each wait that returns has fewer writers waiting in front of it than the counter says
and no open falls between a callback and the end of a wait (`InTurn`). `ownTransfer_violated` has
one run for each way in which this fails.

The invariant counts: while nothing has gone wrong the counter is the number of the writers whose
transfer has been finished and who are still waiting. -/

namespace LinuxDrivers.Sdma

open Lib

/-! ## The engine -/

/-- The engine and the completion. Descriptors are named by their writers, in the order in which
they were submitted; the first `issued` of them have been issued and the first `finished` have
been finished. `passed` are the writers whose wait has returned. `discarded` are the waiting
writers whose completion had been signalled when the counter was reset. -/
structure Engine (ι : Type) where
  submitted : List ι
  issued : Nat
  finished : Nat
  hasDescriptor : Bool
  done : Nat
  passed : List ι
  discarded : List ι

section

variable {ι : Type} [DecidableEq ι]

/-- The writers whose own descriptor has been finished. -/
def Engine.completed (e : Engine ι) : List ι := e.submitted.take e.finished

/-- `complete`. -/
def complete (e : Engine ι) : Engine ι := { e with done := e.done + 1 }

/-- `init_completion`. The wait queue is emptied as well; a writer that is lost in it takes no
further step. -/
def initCompletion (e : Engine ι) : Engine ι :=
  { e with
    done := 0
    discarded := e.discarded ++
      if e.done = 0 then [] else e.completed.filter (fun i => i ∉ e.passed) }

def dmaM2mCallback (e : Engine ι) : Engine ι := complete e

/-- A request of writer `i`. A wait has to wait for the counter to be positive. A writer that
sets the callback of no descriptor does not get any further. -/
def serveDma (e : Engine ι) (i : ι) : DmaOp → Option (Engine ι × Bool)
  | .prep => some (e, e.hasDescriptor)
  | .setCallback desc => if desc then some (e, true) else none
  | .submit => some ({ e with submitted := e.submitted ++ [i] }, true)
  | .issuePending => some ({ e with issued := e.submitted.length }, true)
  | .waitForCompletion =>
      if e.done = 0 then none
      else some ({ e with done := e.done - 1, passed := e.passed ++ [i] }, true)
  | .fill _ _ | .slaveConfig | .map _ | .unmap _ => some (e, true)

/-- What else can happen: the engine finishes the next descriptor, another process calls
`sdma_open`, or the engine runs out of descriptors or has some again. -/
inductive DmaEvent where
  | finish
  | opening
  | descriptors (hasDescriptor : Bool)

def changeDma (e : Engine ι) : DmaEvent → Option (Engine ι)
  | .finish =>
      if e.finished < e.issued then some (dmaM2mCallback { e with finished := e.finished + 1 })
      else none
  | .opening => some (initCompletion e)
  | .descriptors b => some { e with hasDescriptor := b }

abbrev writersStep := partyStep (α := Nat) (serveDma (ι := ι)) changeDma

/-- The device as `sdma_open` leaves it, and the writers before their first request; `count` is
what each of them is asked to write. -/
def writers (d : Driver) (count : ι → Nat) : Parties (Engine ι) ι DmaOp Bool Nat :=
  ⟨⟨[], 0, 0, true, 0, [], []⟩, fun i => sdmaWrite d (count i)⟩

/-- Who has got past the wait has had its own descriptor finished, and no completion of a writer
that is still waiting has been discarded. -/
structure OwnTransfer (e : Engine ι) : Prop where
  own : ∀ i ∈ e.passed, i ∈ e.completed
  kept : ∀ i ∈ e.completed, i ∉ e.passed → i ∉ e.discarded

def nextOp : DmaProg Nat → Option DmaOp
  | .ret _ => none
  | .call op _ => some op

/-- The writers with earlier descriptors whose wait has not returned. -/
def Engine.ahead (e : Engine ι) (i : ι) : List ι :=
  (e.submitted.takeWhile (fun j => j ≠ i)).filter (fun j => j ∉ e.passed)

/-- A wait that returns has fewer writers ahead of it than completions are signalled, and
`sdma_open` is called while none is. -/
def InTurn (w : Parties (Engine ι) ι DmaOp Bool Nat) : PartyEvent ι DmaEvent → Prop
  | .step i =>
      nextOp (w.prog i) = some .waitForCompletion → (w.dev.ahead i).length < w.dev.done
  | .env .opening => w.dev.done = 0
  | .env _ => True

instance (w : Parties (Engine ι) ι DmaOp Bool Nat) : ∀ e, Decidable (InTurn w e)
  | .step i => inferInstanceAs (Decidable
      (nextOp (w.prog i) = some .waitForCompletion → (w.dev.ahead i).length < w.dev.done))
  | .env .opening => inferInstanceAs (Decidable (w.dev.done = 0))
  | .env .finish => inferInstanceAs (Decidable True)
  | .env (.descriptors _) => inferInstanceAs (Decidable True)

/-! ## Control points -/

/-- Where a writer is: the request that comes next. -/
inductive Point where
  | fill (i : Nat) (pairs : List Pair)
  | mapW
  | mapR
  | prep
  | setCallback (desc : Bool)
  | submit
  | issuePending
  | waitForCompletion
  | unmapW
  | unmapR
  | finished

/-- The request at a point; behind the last loop it is the configuration. -/
def Point.op : Point → Option DmaOp
  | .fill i (p :: _) => some (.fill i p.pattern)
  | .fill _ [] => some .slaveConfig
  | .mapW => some (.map .w)
  | .mapR => some (.map .r)
  | .prep => some .prep
  | .setCallback desc => some (.setCallback desc)
  | .submit => some .submit
  | .issuePending => some .issuePending
  | .waitForCompletion => some .waitForCompletion
  | .unmapW => some (.unmap .w)
  | .unmapR => some (.unmap .r)
  | .finished => none

/-- The point after the answer `a`. -/
def Point.next (a : Bool) : Point → Point
  | .fill i (_ :: ps) => .fill (i + 1) ps
  | .fill _ [] => .mapW
  | .mapW => .mapR
  | .mapR => .prep
  | .prep => .setCallback a
  | .setCallback _ => .submit
  | .submit => .issuePending
  | .issuePending => .waitForCompletion
  | .waitForCompletion => .unmapW
  | .unmapW => .unmapR
  | .unmapR => .finished
  | .finished => .finished

/-- The requests left at a point. -/
def Point.rank : Point → Nat
  | .fill _ ps => 10 + ps.length
  | .mapW => 9
  | .mapR => 8
  | .prep => 7
  | .setCallback _ => 6
  | .submit => 5
  | .issuePending => 4
  | .waitForCompletion => 3
  | .unmapW => 2
  | .unmapR => 1
  | .finished => 0

theorem Point.rank_next {pt : Point} {op : DmaOp} (h : pt.op = some op) (a : Bool) :
    (pt.next a).rank < pt.rank := by
  cases pt with
  | fill i ps =>
      cases ps with
      | nil => exact Nat.lt_add_one 9
      | cons p ps => exact Nat.lt_add_one (10 + ps.length)
  | finished => exact absurd h (by simp [Point.op])
  | _ => simp [Point.next, Point.rank]

/-- The rest of the program at a point. -/
def Point.prog (count : Nat) (pt : Point) : DmaProg Nat :=
  match _ : pt.op with
  | none => .ret count
  | some op => .call op (fun a => (pt.next a).prog count)
termination_by pt.rank
decreasing_by exact Point.rank_next ‹_› a

theorem Point.prog_of_op {count : Nat} {pt : Point} {op : DmaOp} (h : pt.op = some op) :
    pt.prog count = .call op (fun a => (pt.next a).prog count) := by
  rw [Point.prog]
  split
  · rename_i hnone
    exact absurd (hnone.symm.trans h) (by simp)
  · rename_i op' hop
    obtain rfl := Option.some.inj (hop.symm.trans h)
    rfl

theorem Point.prog_finished (count : Nat) : Point.finished.prog count = .ret count := by
  rw [Point.prog]
  rfl

/-- `sdma_write` starts at its first loop. -/
theorem sdmaWrite_eq_prog (d : Driver) (count : Nat) :
    sdmaWrite d count = (Point.fill 0 d.pairs).prog count := by
  have htransfer : ∀ i, transfer count = (Point.fill i []).prog count := by
    intro i
    simp [transfer, Point.prog_of_op, Point.prog_finished, Point.op, Point.next]
  have hfill : ∀ i ps,
      (fillAll i ps >>= fun _ => transfer count) = (Point.fill i ps).prog count := by
    intro i ps
    induction ps generalizing i with
    | nil => exact htransfer i
    | cons p ps ih =>
        have hop : (Point.fill i (p :: ps)).op = some (.fill i p.pattern) := rfl
        rw [Point.prog_of_op hop]
        exact congrArg (Prog.call _) (funext fun _ => ih (i + 1))
  exact hfill 0 d.pairs

/-- The descriptor has been submitted. -/
def Point.Submitted : Point → Prop
  | .issuePending | .waitForCompletion | .unmapW | .unmapR | .finished => True
  | _ => False

/-- The wait has returned. -/
def Point.Passed : Point → Prop
  | .unmapW | .unmapR | .finished => True
  | _ => False

/-! ## The invariant -/

/-- What holds of the engine and the writers while every wait returns in turn. -/
structure EngineInv (e : Engine ι) (pc : ι → Point) : Prop where
  nodup : e.submitted.Nodup
  submitted : ∀ i, i ∈ e.submitted ↔ (pc i).Submitted
  once : e.passed.Nodup
  passed : ∀ i, i ∈ e.passed ↔ (pc i).Passed
  issued : e.issued ≤ e.submitted.length
  finished : e.finished ≤ e.issued
  own : ∀ i ∈ e.passed, i ∈ e.completed
  count : e.done + e.passed.length = e.finished
  kept : e.discarded = []

variable {e : Engine ι} {pc : ι → Point} {i : ι}

omit [DecidableEq ι] in
theorem EngineInv.ownTransfer (h : EngineInv e pc) : OwnTransfer e :=
  ⟨h.own, fun i _ _ => by rw [h.kept]; exact List.not_mem_nil⟩

/-- A list without repetitions, less some of its members. -/
theorem length_filter_notMem {l m : List ι} (hl : l.Nodup) (hm : m.Nodup) (h : m ⊆ l) :
    m.length + (l.filter (fun i => i ∉ m)).length = l.length := by
  have hperm : (m ++ l.diff m).Perm l := by
    apply List.subperm_append_diff_self_of_count_le
    intro x _
    exact (hm.subperm h).count_le x
  calc m.length + (l.filter (fun i => i ∉ m)).length
      = m.length + (l.diff m).length := by rw [hl.sdiff_eq_filter]
    _ = (m ++ l.diff m).length := List.length_append.symm
    _ = l.length := hperm.length_eq

/-- The counter tells how many writers are waiting although their transfer is finished. -/
theorem EngineInv.length_waiting (h : EngineInv e pc) :
    (e.completed.filter (fun i => i ∉ e.passed)).length = e.done := by
  have hlength : e.completed.length = e.finished :=
    List.length_take_of_le (h.finished.trans h.issued)
  have hcount := h.count
  have hfilter := length_filter_notMem (h.nodup.sublist (List.take_sublist _ _)) h.once h.own
  rw [← Engine.completed, hlength] at hfilter
  omega

/-- A wait is in turn exactly if the writer's own descriptor has been finished. -/
theorem EngineInv.mem_completed_iff (h : EngineInv e pc) (hi : i ∉ e.passed) :
    i ∈ e.completed ↔ (e.ahead i).length < e.done := by
  have hsplit : e.submitted = e.completed ++ e.submitted.drop e.finished :=
    (List.take_append_drop _ _).symm
  rw [← h.length_waiting]
  constructor
  · intro hmem
    rcases List.eq_append_cons_of_mem hmem with ⟨s, t, hst, his⟩
    have hne : ∀ j ∈ s, decide (j ≠ i) = true := by
      intro j hj
      rw [decide_eq_true_eq]
      exact fun hji => his (hji ▸ hj)
    have hahead : e.ahead i = s.filter (fun j => j ∉ e.passed) := by
      rw [Engine.ahead, hsplit, hst, List.append_assoc, List.takeWhile_append_of_pos hne,
        List.cons_append, List.takeWhile_cons_of_neg (by simp), List.append_nil]
    rw [hahead, hst, List.filter_append, List.filter_cons_of_pos (by simpa using hi),
      List.length_append, List.length_cons]
    omega
  · intro hlt
    by_contra hmem
    -- then all finished descriptors are ahead of this one
    have hne : ∀ j ∈ e.completed, decide (j ≠ i) = true := by
      intro j hj
      rw [decide_eq_true_eq]
      exact fun hji => hmem (hji ▸ hj)
    rw [Engine.ahead, hsplit, List.takeWhile_append_of_pos hne, List.filter_append,
      List.length_append] at hlt
    omega

/-! ## Requests and events keep it -/

/-- A property of the control points of all writers, after writer `i` has moved to `pt`. -/
theorem iff_update {P : Point → Prop} {l : List ι} {pt : Point} (h : ∀ j, j ∈ l ↔ P (pc j))
    (hpt : P pt ↔ P (pc i)) (j : ι) : j ∈ l ↔ P (Function.update pc i pt j) := by
  by_cases hj : j = i
  · subst hj
    rw [Function.update_self, hpt]
    exact h j
  · rw [Function.update_of_ne hj]
    exact h j

/-- The same where `i` has been added to the list. -/
theorem iff_update_concat {P : Point → Prop} {l : List ι} {pt : Point}
    (h : ∀ j, j ∈ l ↔ P (pc j)) (hpt : P pt) (j : ι) :
    j ∈ l ++ [i] ↔ P (Function.update pc i pt j) := by
  by_cases hj : j = i
  · subst hj
    simp [hpt]
  · rw [Function.update_of_ne hj, ← h j]
    simp [hj]

/-- A request that neither submits nor waits. -/
theorem EngineInv.move {pt : Point} (h : EngineInv e pc)
    (hsub : pt.Submitted ↔ (pc i).Submitted) (hpass : pt.Passed ↔ (pc i).Passed) :
    EngineInv e (Function.update pc i pt) :=
  { h with
    submitted := iff_update h.submitted hsub
    passed := iff_update h.passed hpass }

theorem EngineInv.submit (h : EngineInv e pc) (hi : pc i = .submit) :
    EngineInv { e with submitted := e.submitted ++ [i] }
      (Function.update pc i .issuePending) := by
  have hnot : i ∉ e.submitted := by
    rw [h.submitted i, hi]
    exact id
  refine ⟨?_, iff_update_concat h.submitted trivial, h.once,
    iff_update h.passed (by rw [hi]; rfl), ?_, h.finished, ?_, h.count, h.kept⟩
  · exact List.concat_eq_append ▸ h.nodup.concat hnot
  · show e.issued ≤ (e.submitted ++ [i]).length
    rw [List.length_append]
    exact h.issued.trans (Nat.le_add_right _ _)
  · intro j hj
    show j ∈ (e.submitted ++ [i]).take e.finished
    rw [List.take_append_of_le_length (h.finished.trans h.issued)]
    exact h.own j hj

theorem EngineInv.issuePending (h : EngineInv e pc) (hi : pc i = .issuePending) :
    EngineInv { e with issued := e.submitted.length }
      (Function.update pc i .waitForCompletion) :=
  ⟨h.nodup, iff_update h.submitted (by rw [hi]; rfl), h.once,
    iff_update h.passed (by rw [hi]; rfl), Nat.le_refl _, h.finished.trans h.issued, h.own,
    h.count, h.kept⟩

theorem EngineInv.waitForCompletion (h : EngineInv e pc) (hi : pc i = .waitForCompletion)
    (hdone : e.done ≠ 0) (hmem : i ∈ e.completed) :
    EngineInv { e with done := e.done - 1, passed := e.passed ++ [i] }
      (Function.update pc i .unmapW) := by
  have hnot : i ∉ e.passed := by
    rw [h.passed i, hi]
    exact id
  refine ⟨h.nodup, iff_update h.submitted (by rw [hi]; rfl), ?_,
    iff_update_concat h.passed trivial, h.issued, h.finished, ?_, ?_, h.kept⟩
  · exact List.concat_eq_append ▸ h.once.concat hnot
  · intro j hj
    rcases List.mem_append.mp hj with hj | hj
    · exact h.own j hj
    · rw [List.mem_singleton.mp hj]
      exact hmem
  · show e.done - 1 + (e.passed ++ [i]).length = e.finished
    have hcount := h.count
    rw [List.length_append, List.length_singleton]
    omega

omit [DecidableEq ι] in
theorem EngineInv.finish (h : EngineInv e pc) (hlt : e.finished < e.issued) :
    EngineInv (dmaM2mCallback { e with finished := e.finished + 1 }) pc := by
  refine ⟨h.nodup, h.submitted, h.once, h.passed, h.issued, hlt, ?_, ?_, h.kept⟩
  · intro j hj
    exact (List.take_subset_take_left _ (Nat.le_add_right _ 1)) (h.own j hj)
  · show e.done + 1 + e.passed.length = e.finished + 1
    have hcount := h.count
    omega

theorem EngineInv.opening (h : EngineInv e pc) (hdone : e.done = 0) :
    EngineInv (initCompletion e) pc := by
  refine ⟨h.nodup, h.submitted, h.once, h.passed, h.issued, h.finished, h.own, ?_, ?_⟩
  · show 0 + e.passed.length = e.finished
    rw [← h.count, hdone]
  · show e.discarded ++ (if e.done = 0 then [] else _) = []
    rw [if_pos hdone, h.kept]
    rfl

/-- The request of one writer, its wait being in turn. -/
theorem EngineInv.request {op : DmaOp} {e' : Engine ι} {a : Bool} (h : EngineInv e pc)
    (hop : (pc i).op = some op)
    (hturn : op = .waitForCompletion → (e.ahead i).length < e.done)
    (hserve : serveDma e i op = some (e', a)) :
    EngineInv e' (Function.update pc i ((pc i).next a)) := by
  cases hi : pc i with
  | fill n ps =>
      rw [hi] at hop
      cases ps with
      | nil =>
          obtain rfl := Option.some.inj hop
          obtain rfl := (Prod.mk.inj (Option.some.inj hserve)).1
          exact h.move (by rw [hi]; rfl) (by rw [hi]; rfl)
      | cons p ps =>
          obtain rfl := Option.some.inj hop
          obtain rfl := (Prod.mk.inj (Option.some.inj hserve)).1
          exact h.move (by rw [hi]; rfl) (by rw [hi]; rfl)
  | setCallback desc =>
      rw [hi] at hop
      obtain rfl := Option.some.inj hop
      cases desc with
      | false => exact absurd hserve (by simp [serveDma])
      | true =>
          obtain rfl := (Prod.mk.inj (Option.some.inj hserve)).1
          exact h.move (by rw [hi]; rfl) (by rw [hi]; rfl)
  | submit =>
      rw [hi] at hop
      obtain rfl := Option.some.inj hop
      obtain rfl := (Prod.mk.inj (Option.some.inj hserve)).1
      exact h.submit hi
  | issuePending =>
      rw [hi] at hop
      obtain rfl := Option.some.inj hop
      obtain rfl := (Prod.mk.inj (Option.some.inj hserve)).1
      exact h.issuePending hi
  | waitForCompletion =>
      rw [hi] at hop
      obtain rfl := Option.some.inj hop
      have hnot : i ∉ e.passed := by
        rw [h.passed i, hi]
        exact id
      rw [serveDma] at hserve
      split_ifs at hserve with hdone
      obtain rfl := (Prod.mk.inj (Option.some.inj hserve)).1
      -- in turn, so the own descriptor has been finished
      exact h.waitForCompletion hi hdone ((h.mem_completed_iff hnot).mpr (hturn rfl))
  | finished =>
      rw [hi] at hop
      exact absurd hop (by simp [Point.op])
  | _ =>
      rw [hi] at hop
      obtain rfl := Option.some.inj hop
      obtain rfl := (Prod.mk.inj (Option.some.inj hserve)).1
      exact h.move (by rw [hi]; rfl) (by rw [hi]; rfl)

/-! ## All runs -/

theorem nextOp_prog (count : Nat) (pt : Point) : nextOp (pt.prog count) = pt.op := by
  cases h : pt.op with
  | none => rw [Point.prog]; split <;> simp_all [nextOp]
  | some op => rw [Point.prog_of_op h]; rfl

theorem Point.eq_of_op_wait {pt : Point} (h : pt.op = some .waitForCompletion) :
    pt = .waitForCompletion := by
  cases pt with
  | waitForCompletion => rfl
  | fill i ps => cases ps <;> exact absurd h (by simp [Point.op])
  | _ => exact absurd h (by simp [Point.op])

/-- The control points of the writers in their programs. -/
abbrev code (count : ι → Nat) (i : ι) (pt : Point) : DmaProg Nat := pt.prog (count i)

variable {d : Driver} {count : ι → Nat} {w v : Parties (Engine ι) ι DmaOp Bool Nat}
  {es : List (PartyEvent ι DmaEvent)}

theorem inv_of_inTurn (hturn : Along writersStep (fun _ => InTurn) (writers d count) es)
    (hrun : run writersStep (writers d count) es = some w) :
    ∃ pc, w.At (code count) pc ∧ EngineInv w.dev pc := by
  have hat : (writers d count).At (code count) (fun _ => .fill 0 d.pairs) :=
    fun i => sdmaWrite_eq_prog d (count i)
  have h₀ : EngineInv (writers d count).dev (fun _ => .fill 0 d.pairs) := by
    refine ⟨List.nodup_nil, ?_, List.nodup_nil, ?_, Nat.le_refl 0, Nat.le_refl 0, ?_, rfl, rfl⟩
    · exact fun i => iff_of_false List.not_mem_nil id
    · exact fun i => iff_of_false List.not_mem_nil id
    · exact fun i hi => absurd hi List.not_mem_nil
  refine party_induct (code count) hat h₀ ?_ ?_ es w hturn hrun
  · intro w pc i op k e a hat h hturn hcode hserve
    cases hop : (pc i).op with
    | none =>
        have hnext : nextOp (code count i (pc i)) = none := (nextOp_prog _ _).trans hop
        rw [hcode] at hnext
        cases hnext
    | some op' =>
        rw [code, Point.prog_of_op hop] at hcode
        injection hcode with hop' hk
        subst hop' hk
        refine ⟨(pc i).next a, rfl, h.request hop ?_ hserve⟩
        rintro rfl
        apply hturn
        rw [hat i, nextOp_prog, hop]
  · intro w pc event e _ h hturn hchange
    cases event with
    | finish =>
        rw [changeDma] at hchange
        split_ifs at hchange with hlt
        obtain rfl := Option.some.inj hchange
        exact h.finish hlt
    | opening =>
        obtain rfl := Option.some.inj hchange
        exact h.opening hturn
    | descriptors b =>
        obtain rfl := Option.some.inj hchange
        exact { h with }

/-- A step out of turn breaks the property at once. -/
theorem EngineInv.inTurn {pc : ι → Point} {event : PartyEvent ι DmaEvent}
    (h : EngineInv w.dev pc) (hat : w.At (code count) pc)
    (hstep : writersStep w event = some v) (hown : OwnTransfer v.dev) : InTurn w event := by
  cases event with
  | step i =>
      intro hnext
      rcases partyStep_step.mp hstep with ⟨op, k, e, a, hprog, hserve, rfl⟩
      have hop : some op = some DmaOp.waitForCompletion := by
        rw [hprog] at hnext
        exact hnext
      obtain rfl := Option.some.inj hop
      have hi : pc i = .waitForCompletion := by
        apply Point.eq_of_op_wait
        rw [← nextOp_prog (count i), ← hnext, hat i]
      have hnot : i ∉ w.dev.passed := by
        rw [h.passed i, hi]
        exact id
      rw [serveDma] at hserve
      split_ifs at hserve
      obtain rfl := (Prod.mk.inj (Option.some.inj hserve)).1
      exact (h.mem_completed_iff hnot).mp
        (hown.own i (List.mem_append_right _ (List.mem_singleton_self i)))
  | env event =>
      cases event with
      | finish => trivial
      | descriptors b => trivial
      | opening =>
          rcases partyStep_env.mp hstep with ⟨e, he, rfl⟩
          obtain rfl := Option.some.inj he
          show w.dev.done = 0
          by_contra hdone
          -- some writer is waiting although its descriptor has been finished
          have hpos : 0 < (w.dev.completed.filter (fun i => i ∉ w.dev.passed)).length := by
            rw [h.length_waiting]
            exact Nat.pos_of_ne_zero hdone
          rcases List.exists_mem_of_length_pos hpos with ⟨i, hi⟩
          have hmem := List.mem_filter.mp hi
          apply hown.kept i hmem.1 (of_decide_eq_true hmem.2)
          show i ∈ w.dev.discarded ++ _
          rw [if_neg hdone]
          exact List.mem_append_right _ hi

end

/-- **Writers and their own transfers.** In a run of any number of writers, with opens at any
time, every state on the way satisfies `OwnTransfer` if and only if every wait returns in turn and
no open finds a completion signalled. -/
theorem ownTransfer_iff_inTurn {ι : Type} [DecidableEq ι] (d : Driver) (count : ι → Nat)
    (es : List (PartyEvent ι DmaEvent)) (w : Parties (Engine ι) ι DmaOp Bool Nat)
    (hrun : run writersStep (writers d count) es = some w) :
    (∀ pre post u, es = pre ++ post → run writersStep (writers d count) pre = some u →
      OwnTransfer u.dev) ↔
    Along writersStep (fun _ => InTurn) (writers d count) es := by
  constructor
  · induction es using List.reverseRecOn generalizing w with
    | nil => exact fun _ => along_nil
    | append_singleton es e ih =>
        intro hown
        rcases run_concat.mp hrun with ⟨u, hu, hstep⟩
        have hturn : Along writersStep (fun _ => InTurn) (writers d count) es := by
          refine ih u hu fun pre post t hes => hown pre (post ++ [e]) t ?_
          rw [hes, List.append_assoc]
        -- up to the last event the invariant holds, and this event keeps the property
        rcases inv_of_inTurn hturn hu with ⟨pc, hat, h⟩
        refine along_concat.mpr ⟨hturn, fun s hs => ?_⟩
        obtain rfl : u = s := Option.some.inj (hu.symm.trans hs)
        exact h.inTurn hat hstep (hown (es ++ [e]) [] w (List.append_nil _).symm hrun)
  · intro hturn pre post u hes hu
    have hpre : Along writersStep (fun _ => InTurn) (writers d count) pre := by
      intro pre' e post' s hpre hs
      exact hturn pre' e (post' ++ post) s (by rw [hes, hpre]; simp) hs
    rcases inv_of_inTurn hpre hu with ⟨pc, -, h⟩
    exact h.ownTransfer

/-- Two writers up to their waits. -/
def twoWaiting : List (PartyEvent Nat DmaEvent) :=
  List.replicate 8 (.step 0) ++ List.replicate 8 (.step 1)

/-- Both transfers are finished before the writer of the second one is the first to go on, and
the device is opened again afterwards. -/
theorem ownTransfer_iff_inTurn_run :
    ∃ w, run writersStep (writers .single (fun _ : Nat => 1))
        (twoWaiting ++ [.env .finish, .env .finish, .step 1, .step 0, .env .opening, .step 0])
          = some w ∧
      ∀ pre post u,
        twoWaiting ++ [.env .finish, .env .finish, .step 1, .step 0, .env .opening, .step 0]
          = pre ++ post →
        run writersStep (writers .single (fun _ => 1)) pre = some u → OwnTransfer u.dev := by
  have hrun : (run writersStep (writers .single (fun _ : Nat => 1))
      (twoWaiting ++ [.env .finish, .env .finish, .step 1, .step 0, .env .opening,
        .step 0])).isSome = true := by
    decide +kernel
  have hcheck : checkAlong writersStep InTurn (writers .single (fun _ : Nat => 1))
      (twoWaiting ++ [.env .finish, .env .finish, .step 1, .step 0, .env .opening,
        .step 0]) = true := by
    decide +kernel
  rcases Option.isSome_iff_exists.mp hrun with ⟨w, hw⟩
  exact ⟨w, hw, (ownTransfer_iff_inTurn .single _ _ w hw).mpr (along_of_checkAlong _ _ hcheck)⟩

/-- **Two ways to fail.** The first transfer is finished and the second writer takes the
completion; and an open comes between the callback and the end of the wait. -/
theorem ownTransfer_violated :
    (∃ w, run writersStep (writers .single (fun _ : Nat => 1))
        (twoWaiting ++ [.env .finish, .step 1]) = some w ∧ ¬ OwnTransfer w.dev) ∧
    ∃ w, run writersStep (writers .single (fun _ : Nat => 1))
        (twoWaiting ++ [.env .finish, .env .opening]) = some w ∧ ¬ OwnTransfer w.dev := by
  constructor
  · have hrun : (run writersStep (writers .single (fun _ : Nat => 1))
        (twoWaiting ++ [.env .finish, .step 1])).any
          (fun w => decide (1 ∈ w.dev.passed ∧ 1 ∉ w.dev.completed)) = true := by
      decide +kernel
    rcases (Option.any_eq_true _ _).mp hrun with ⟨w, hw, hany⟩
    rw [decide_eq_true_eq] at hany
    exact ⟨w, hw, fun hown => hany.2 (hown.own 1 hany.1)⟩
  · have hrun : (run writersStep (writers .single (fun _ : Nat => 1))
        (twoWaiting ++ [.env .finish, .env .opening])).any (fun w =>
          decide (0 ∈ w.dev.completed ∧ 0 ∉ w.dev.passed ∧ 0 ∈ w.dev.discarded)) = true := by
      decide +kernel
    rcases (Option.any_eq_true _ _).mp hrun with ⟨w, hw, hany⟩
    rw [decide_eq_true_eq] at hany
    exact ⟨w, hw, fun hown => hown.kept 0 hany.1 hany.2.1 hany.2.2⟩

end LinuxDrivers.Sdma
