import LinuxDrivers.Lib.Run

set_option autoImplicit false

/-! # The modules with deferred work

Seven modules schedule a callback in their init function: a work item, a timer or a tasklet. Each
of them is three lists of kernel calls, for init, the callback and exit (`Module.init`,
`Module.callback`, `Module.exit`), and one machine runs all of them (`systemStep`). The callback
may become due, start and go on at any time between the calls of init and exit.

`INIT_WORK` and the like have no effect on the machine. Times are left out: a timer may expire
at any moment. -/

namespace LinuxDrivers.Deferred

/-- The kernel calls of the modules, and the assignment to the waiting condition. -/
inductive Call where
  | createSinglethreadWorkqueue
  | kmalloc
  | initWork
  | initDelayedWork
  | scheduleWork
  | queueWork
  | scheduleDelayedWork
  | waitEventInterruptible
  | setupTimer
  | modTimer
  | hrtimerInit
  | hrtimerStart
  | taskletSchedule
  | delTimer
  | hrtimerCancel
  | taskletKill
  | flushWorkqueue
  | destroyWorkqueue
  | msleep
  | setCondition
  | wakeUpInterruptible
  | kfree
  | callUsermodehelper
  deriving DecidableEq

/-- The files of the chapter. -/
inductive Module where
  | waitqueue
  | sharedWorkqueue
  | dedicatedWorkqueue
  | stdTimer
  | hrTimer
  | tasklet
  | userInvoke
  deriving DecidableEq

def Module.init : Module → List Call
  | .waitqueue => [.initWork, .scheduleWork, .waitEventInterruptible]
  | .sharedWorkqueue => [.kmalloc, .initWork, .scheduleWork, .waitEventInterruptible]
  | .dedicatedWorkqueue => [.createSinglethreadWorkqueue, .kmalloc, .initWork, .queueWork]
  | .stdTimer => [.setupTimer, .modTimer]
  | .hrTimer => [.hrtimerInit, .hrtimerStart]
  | .tasklet => [.taskletSchedule]
  | .userInvoke => [.initDelayedWork, .scheduleDelayedWork]

/-- Only `waitqueue.c` sets its condition; `sleep` of `shared-workqueue.c` is never written. -/
def Module.callback : Module → List Call
  | .waitqueue => [.msleep, .setCondition, .wakeUpInterruptible]
  | .sharedWorkqueue => [.msleep, .wakeUpInterruptible, .kfree]
  | .dedicatedWorkqueue => [.kfree]
  | .stdTimer => []
  | .hrTimer => []
  | .tasklet => []
  | .userInvoke => [.callUsermodehelper]

def Module.exit : Module → List Call
  | .waitqueue => []
  | .sharedWorkqueue => []
  | .dedicatedWorkqueue => [.flushWorkqueue, .destroyWorkqueue]
  | .stdTimer => [.delTimer]
  | .hrTimer => [.hrtimerCancel]
  | .tasklet => [.taskletKill]
  | .userInvoke => []

/-! ## The machine -/

/-- Where the module is: not loaded, in init or exit with some calls left, loaded, or stopped in
init by a NULL pointer. -/
inductive Phase where
  | unloaded
  | init (rest : List Call)
  | loaded
  | exit (rest : List Call)
  | oops
  deriving DecidableEq

/-- Where the callback is. It is pending while it waits for its time and when it is due. -/
inductive Stage where
  | idle
  | waiting
  | due
  | running (rest : List Call)
  deriving DecidableEq

def Stage.isRunning : Stage → Bool
  | .running _ => true
  | _ => false

structure System where
  phase : Phase
  stage : Stage
  condition : Bool
  deriving DecidableEq

def System.start : System := ⟨.unloaded, .idle, false⟩

/-- The effect of a call on the system, and `none` while it waits. `ok` tells whether there is
memory; without it the pointer is used all the same. `del_timer` only takes a pending timer off.
`hrtimer_cancel` does this too, but not while the callback runs. The other calls of the exit
functions wait for the callback to be over. -/
def doCall (c : Call) (ok : Bool) (s : System) : Option System :=
  match c with
  | .kmalloc | .createSinglethreadWorkqueue => some (if ok then s else { s with phase := .oops })
  | .scheduleWork | .queueWork | .taskletSchedule => some { s with stage := .due }
  | .modTimer | .hrtimerStart | .scheduleDelayedWork => some { s with stage := .waiting }
  | .waitEventInterruptible => if s.condition = true then some s else none
  | .delTimer => some (if s.stage.isRunning = true then s else { s with stage := .idle })
  | .hrtimerCancel =>
      if s.stage.isRunning = true then none else some { s with stage := .idle }
  | .taskletKill | .flushWorkqueue | .destroyWorkqueue =>
      if s.stage = .idle then some s else none
  | .setCondition => some { s with condition := true }
  | _ => some s

/-- `step` is the next call of init or exit, or its return; `work` is the next call of the
callback, or its return; `expire` makes a waiting callback due. -/
inductive SystemEvent where
  | load
  | step (ok : Bool)
  | signal
  | unload
  | expire
  | start
  | work
  deriving DecidableEq

/-- A module is loaded anew only when no callback of its last stay is left. -/
def systemStep (m : Module) (s : System) : SystemEvent → Option System
  | .load =>
      if s.phase = .unloaded ∧ s.stage = .idle then some ⟨.init m.init, .idle, false⟩ else none
  | .step ok =>
      match s.phase with
      | .init (c :: cs) => doCall c ok { s with phase := .init cs }
      | .init [] => some { s with phase := .loaded }
      | .exit (c :: cs) => doCall c ok { s with phase := .exit cs }
      | .exit [] => some { s with phase := .unloaded }
      | _ => none
  | .signal =>
      match s.phase with
      | .init (.waitEventInterruptible :: cs) => some { s with phase := .init cs }
      | _ => none
  | .unload => if s.phase = .loaded then some { s with phase := .exit m.exit } else none
  | .expire => if s.stage = .waiting then some { s with stage := .due } else none
  | .start => if s.stage = .due then some { s with stage := .running m.callback } else none
  | .work =>
      match s.stage with
      | .running (c :: cs) => doCall c true { s with stage := .running cs }
      | .running [] => some { s with stage := .idle }
      | _ => none

/-! ## What the calls do -/

/-- The calls that are there to stop a callback. -/
def Call.stops : Call → Bool
  | .delTimer | .hrtimerCancel | .taskletKill | .flushWorkqueue | .destroyWorkqueue => true
  | _ => false

theorem stops_of_mem_exit {m : Module} {c : Call} (h : c ∈ m.exit) : c.stops = true := by
  cases m <;> revert c <;> decide

section

variable {c : Call} {ok : Bool} {s t : System}

/-- A call moves the module to another phase only when memory is missing. -/
theorem doCall_phase (h : doCall c ok s = some t) :
    t.phase = s.phase ∨ ok = false ∧ t.phase = .oops := by
  cases c with
  | kmalloc | createSinglethreadWorkqueue =>
      cases h
      cases ok with
      | true => exact Or.inl rfl
      | false => exact Or.inr ⟨rfl, rfl⟩
  | waitEventInterruptible | hrtimerCancel | taskletKill | flushWorkqueue | destroyWorkqueue =>
      simp only [doCall] at h
      split_ifs at h
      cases h
      exact Or.inl rfl
  | delTimer =>
      simp only [doCall] at h
      cases h
      split_ifs
      · exact Or.inl rfl
      · exact Or.inl rfl
  | _ =>
      cases h
      exact Or.inl rfl

/-- **After a call that stops, the callback is over**, unless the call is `del_timer` and the
callback was running. -/
theorem doCall_stops (hc : c.stops = true) (hrun : c = .delTimer → s.stage.isRunning = false)
    (h : doCall c ok s = some t) : t.phase = s.phase ∧ t.stage = .idle := by
  cases c with
  | delTimer =>
      simp only [doCall, hrun rfl] at h
      cases h
      exact ⟨rfl, rfl⟩
  | hrtimerCancel =>
      simp only [doCall] at h
      split_ifs at h
      cases h
      exact ⟨rfl, rfl⟩
  | taskletKill | flushWorkqueue | destroyWorkqueue =>
      simp only [doCall] at h
      split_ifs at h with hidle
      cases h
      exact ⟨rfl, hidle⟩
  | _ => cases hc

end

end LinuxDrivers.Deferred
