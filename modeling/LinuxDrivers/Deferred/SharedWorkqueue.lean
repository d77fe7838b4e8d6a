import LinuxDrivers.Lib.Run

set_option autoImplicit false

/-! # The initialiser that sleeps on its work item

`my_init` of `shared-workqueue.c` allocates `my_data`, schedules the work item inside it and
sleeps on the wait queue inside it. `work_handler` sleeps for a while, wakes the queue and frees
`my_data`. Both go on in steps, in any order, and the sleeper may be woken at any time by a
signal or for no reason.

`wakesSafely_iff`: a run is safe and loses no wake-up if and only if the handler does not come to
its `kfree`. What the README adds to the handler, the assignment `sleep = 1`, is not there. -/

namespace LinuxDrivers.Deferred

open Lib

/-- The steps of `my_init`; `firstTest` to `finish` are those of `wait_event_interruptible`. -/
inductive InitPc where
  | kmalloc
  | theData
  | initWork
  | initWaitqueueHead
  | scheduleWork
  | firstTest
  | prepareToWait
  | test
  | asleep
  | finishWait
  | returned
  | oops
  deriving DecidableEq

/-- The steps of `work_handler`. -/
inductive WorkPc where
  | unscheduled
  | queued
  | printing
  | msleep
  | wakeUp
  | kfree
  | finished
  deriving DecidableEq

/-- The allocation `my_data`. -/
inductive MyData where
  | none
  | live
  | freed
  deriving DecidableEq

/-- `onQueue` tells whether the entry of the sleeper is on `my_wq`, `runnable` whether its task is,
`int` whether `prepare_to_wait_event` has seen the signal. `usedFreed` records an access to
`my_data` after it has been freed. -/
structure Waiter where
  sleep : Int
  my_data : MyData
  usedFreed : Bool
  onQueue : Bool
  runnable : Bool
  signal : Bool
  int : Bool
  init : InitPc
  work : WorkPc
  deriving DecidableEq

def Waiter.start : Waiter :=
  ⟨0, .none, false, false, true, false, false, .kmalloc, .unscheduled⟩

/-- An access to `my_data` or to the queue inside it. -/
def Waiter.touch (s : Waiter) : Waiter :=
  { s with usedFreed := s.usedFreed || decide (s.my_data = .freed) }

/-- The next step of `my_init` or of `work_handler`, a signal, or a wake-up for no reason. -/
inductive WaiterEvent where
  | init (ok : Bool)
  | work
  | signal
  | spurious
  deriving DecidableEq

/-- `ok` tells whether there is memory. -/
def initStep (ok : Bool) (s : Waiter) : Option Waiter :=
  match s.init with
  | .kmalloc => some { s with my_data := if ok then .live else .none, init := .theData }
  | .theData =>
      if s.my_data = .none then some { s with init := .oops }
      else some { s.touch with init := .initWork }
  | .initWork => some { s.touch with init := .initWaitqueueHead }
  | .initWaitqueueHead => some { s.touch with init := .scheduleWork }
  | .scheduleWork => some { s.touch with work := .queued, init := .firstTest }
  | .firstTest => some { s with init := if s.sleep ≠ 0 then .returned else .prepareToWait }
  | .prepareToWait =>
      -- with a signal pending the entry is taken off the queue instead
      some { s.touch with
        onQueue := !s.signal, runnable := s.signal, int := s.signal, init := .test }
  | .test =>
      some { s with
        init := if s.sleep ≠ 0 then .finishWait else if s.int then .returned else .asleep }
  | .asleep => if s.runnable = true then some { s with init := .prepareToWait } else none
  | .finishWait =>
      -- the queue is looked at only if the entry is still on it
      if s.onQueue = true then
        some { s.touch with onQueue := false, runnable := true, init := .returned }
      else some { s with runnable := true, init := .returned }
  | .returned | .oops => none

def workStep (s : Waiter) : Option Waiter :=
  match s.work with
  | .unscheduled | .finished => none
  | .queued => some { s with work := .printing }
  | .printing => some { s.touch with work := .msleep }
  | .msleep => some { s with work := .wakeUp }
  | .wakeUp =>
      -- the entry of a sleeper that is woken leaves the queue
      if s.onQueue = true ∧ s.runnable = false then
        some { s.touch with onQueue := false, runnable := true, work := .kfree }
      else some { s.touch with work := .kfree }
  | .kfree => some { s with my_data := .freed, work := .finished }

def waiterStep (s : Waiter) : WaiterEvent → Option Waiter
  | .init ok => initStep ok s
  | .work => workStep s
  | .signal => some { s with signal := true, runnable := true }
  | .spurious => some { s with runnable := true }

/-! ## Safety -/

/-- No access after the `kfree`, and when the handler is over, the condition that `my_init` waits
for is true. -/
def WakesSafely (s : Waiter) : Prop :=
  s.usedFreed = false ∧ (s.work = .finished → s.sleep ≠ 0)

/-- The step is the `kfree` of the handler. -/
def Frees (s : Waiter) (e : WaiterEvent) : Prop := e = .work ∧ s.work = .kfree

/-! ## What a step can do -/

/-- What every step but the `kfree` keeps. -/
structure Harmless (s t : Waiter) : Prop where
  sleep : t.sleep = s.sleep
  used : t.usedFreed = true → s.usedFreed = true ∨ s.my_data = .freed
  freed : t.my_data = .freed → s.my_data = .freed
  finished : t.work = .finished → s.work = .finished

section

variable {s t : Waiter} {e : WaiterEvent} {ok : Bool}

theorem Harmless.of_eq (hs : t.sleep = s.sleep) (hu : t.usedFreed = s.usedFreed)
    (hd : t.my_data = .freed → s.my_data = .freed) (hw : t.work = .finished → s.work = .finished) :
    Harmless s t :=
  ⟨hs, fun h => Or.inl (hu ▸ h), hd, hw⟩

theorem Harmless.of_touch (hs : t.sleep = s.sleep) (hu : t.usedFreed = s.touch.usedFreed)
    (hd : t.my_data = s.my_data) (hw : t.work = .finished → s.work = .finished) :
    Harmless s t := by
  refine ⟨hs, fun h => ?_, fun h => hd ▸ h, hw⟩
  rw [hu] at h
  simpa [Waiter.touch] using h

theorem initStep_harmless (h : initStep ok s = some t) : Harmless s t := by
  cases hpc : s.init with
  | kmalloc =>
      simp only [initStep, hpc] at h
      cases h
      cases ok with
      | true => exact .of_eq rfl rfl nofun id
      | false => exact .of_eq rfl rfl nofun id
  | theData =>
      simp only [initStep, hpc] at h
      split_ifs at h <;> cases h
      · exact .of_eq rfl rfl id id
      · exact .of_touch rfl rfl rfl id
  | scheduleWork =>
      simp only [initStep, hpc] at h
      cases h
      exact .of_touch rfl rfl rfl nofun
  | initWork | initWaitqueueHead | prepareToWait =>
      simp only [initStep, hpc] at h
      cases h
      exact .of_touch rfl rfl rfl id
  | firstTest | test =>
      simp only [initStep, hpc] at h
      cases h
      exact .of_eq rfl rfl id id
  | asleep =>
      simp only [initStep, hpc] at h
      split_ifs at h
      cases h
      exact .of_eq rfl rfl id id
  | finishWait =>
      simp only [initStep, hpc] at h
      split_ifs at h <;> cases h
      · exact .of_touch rfl rfl rfl id
      · exact .of_eq rfl rfl id id
  | returned | oops =>
      simp only [initStep, hpc] at h
      cases h

theorem workStep_harmless (hfree : s.work ≠ .kfree) (h : workStep s = some t) : Harmless s t := by
  cases hpc : s.work with
  | unscheduled | finished =>
      simp only [workStep, hpc] at h
      cases h
  | queued | msleep =>
      simp only [workStep, hpc] at h
      cases h
      exact .of_eq rfl rfl id nofun
  | printing =>
      simp only [workStep, hpc] at h
      cases h
      exact .of_touch rfl rfl rfl nofun
  | wakeUp =>
      simp only [workStep, hpc] at h
      split_ifs at h <;> cases h
      · exact .of_touch rfl rfl rfl nofun
      · exact .of_touch rfl rfl rfl nofun
  | kfree => exact absurd hpc hfree

theorem waiterStep_harmless (hfree : ¬ Frees s e) (h : waiterStep s e = some t) :
    Harmless s t := by
  cases e with
  | init ok => exact initStep_harmless h
  | work => exact workStep_harmless (fun hpc => hfree ⟨rfl, hpc⟩) h
  | signal =>
      cases h
      exact .of_eq rfl rfl id id
  | spurious =>
      cases h
      exact .of_eq rfl rfl id id

/-- The `kfree` itself. -/
theorem waiterStep_frees (hfree : Frees s e) :
    waiterStep s e = some { s with my_data := .freed, work := .finished } := by
  rcases hfree with ⟨rfl, hpc⟩
  simp only [waiterStep, workStep, hpc]

/-- No step writes `sleep`. -/
theorem sleep_step (h : waiterStep s e = some t) : t.sleep = s.sleep := by
  by_cases hfree : Frees s e
  · rw [waiterStep_frees hfree] at h
    cases h
    rfl
  · exact (waiterStep_harmless hfree h).sleep

end

/-! ## Runs -/

/-- The invariant up to the `kfree`. -/
structure NotFreed (s : Waiter) : Prop where
  my_data : s.my_data ≠ .freed
  unused : s.usedFreed = false
  unfinished : s.work ≠ .finished

theorem NotFreed.step {s t : Waiter} (h : NotFreed s) (hs : Harmless s t) : NotFreed t := by
  refine ⟨fun hd => h.my_data (hs.freed hd), ?_, fun hw => h.unfinished (hs.finished hw)⟩
  rw [← Bool.not_eq_true]
  intro hused
  rcases hs.used hused with hu | hd
  · rw [h.unused] at hu
    cases hu
  · exact h.my_data hd

theorem sleep_eq_zero {es : List WaiterEvent} {s : Waiter}
    (hrun : run waiterStep .start es = some s) : s.sleep = 0 := by
  refine run_induct_all (I := fun _ s => s.sleep = 0) rfl ?_ es s hrun
  intro _ s e t _ h hstep
  rw [sleep_step hstep, h]

/-- **When the initialiser and its work item share `my_data` safely.** In every run, no access
comes after the `kfree` and no state has the handler finished with the condition false, if and
only if the handler never comes to its `kfree`. -/
theorem wakesSafely_iff (es : List WaiterEvent) :
    Always waiterStep WakesSafely .start es ↔
      Along waiterStep (fun _ s e => ¬ Frees s e) .start es := by
  constructor
  · intro h pre e post s hes hs hfree
    -- right after the `kfree` the handler is finished, and `sleep` is still zero
    have hfin := h (pre ++ [e]) post { s with my_data := .freed, work := .finished }
      (by rw [hes, List.append_assoc]; rfl)
      (run_concat.mpr ⟨s, hs, waiterStep_frees hfree⟩)
    have hzero : s.sleep = 0 := sleep_eq_zero hs
    exact hfin.2 rfl hzero
  · intro h pre post s hes hs
    have hinv : NotFreed s := by
      have hstart : NotFreed .start := ⟨by decide, rfl, by decide⟩
      refine always_of_along (I := NotFreed) hstart ?_ h pre post s hes hs
      intro _ s e t hI hfree hstep
      exact hI.step (waiterStep_harmless hfree hstep)
    exact ⟨hinv.unused, fun hw => absurd hw hinv.unfinished⟩

/-- **The recipe of the chapter goes wrong**: `my_init` sleeps, the handler wakes it and frees
`my_data`, and the sleeper goes back to a queue that is no longer there and sleeps on. -/
theorem not_wakesSafely :
    ∃ s, run waiterStep .start
        [.init true, .init true, .init true, .init true, .init true, .init true, .init true,
          .init true, .work, .work, .work, .work, .work, .init true, .init true, .init true]
          = some s ∧ s.init = .asleep ∧ s.usedFreed = true ∧ s.work = .finished ∧
      ¬ WakesSafely s := by
  refine ⟨⟨0, .freed, true, true, false, false, false, .asleep, .finished⟩, by decide, rfl, rfl,
    rfl, fun h => absurd h.1 (by decide)⟩

end LinuxDrivers.Deferred
