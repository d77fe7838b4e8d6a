import LinuxDrivers.Deferred.Modules

set_option autoImplicit false

/-! # Unloading a module with deferred work

Once the exit function of a module has returned, its callback should be neither pending nor
running (`Quiescent`), since the code of the callback is gone then.

`quiescent_of_inTime`: it is so in every run in which the modules with an empty exit function are
unloaded only after their callback is over, and `del_timer` is not called while the callback
runs (`InTime`). For the modules whose exit function waits nothing is asked
(`quiescent_of_waits`). `outlives_of_not_inTime`: nothing less is enough. -/

namespace LinuxDrivers.Deferred

open Lib

/-- A module that is not loaded has no callback left. -/
def Quiescent (s : System) : Prop := s.phase = .unloaded → s.stage = .idle

/-- The call that the exit function makes next. -/
def Phase.exitCall : Phase → Option Call
  | .exit (c :: _) => some c
  | _ => none

theorem exitCall_eq_some {p : Phase} {c : Call} (h : p.exitCall = some c) :
    ∃ cs, p = .exit (c :: cs) := by
  cases p with
  | exit rest =>
      cases rest with
      | nil => cases h
      | cons d cs =>
          cases h
          exact ⟨cs, rfl⟩
  | _ => cases h

/-- An exit function without any calls is entered only when the callback is over, and `del_timer`
is called only when it is not running. -/
def InTime (m : Module) (s : System) : SystemEvent → Prop
  | .unload => m.exit = [] → s.stage = .idle
  | .step _ => s.phase.exitCall = some .delTimer → s.stage.isRunning = false
  | _ => True

/-- The invariant: outside of the module's stay there is no callback, and from the first call of
the exit function on there is none either. -/
structure Sealed (m : Module) (s : System) : Prop where
  unloaded : s.phase = .unloaded → s.stage = .idle
  suffix : ∀ rest, s.phase = .exit rest → rest <:+ m.exit
  stopped : ∀ rest, s.phase = .exit rest → rest = m.exit ∧ rest ≠ [] ∨ s.stage = .idle

theorem Sealed.quiescent {m : Module} {s : System} (h : Sealed m s) : Quiescent s := h.unloaded

theorem sealed_start (m : Module) : Sealed m .start :=
  ⟨fun _ => rfl, nofun, nofun⟩

section

variable {m : Module} {s t : System} {e : SystemEvent}

/-- Outside of `unloaded` and exit there is nothing to keep. -/
theorem sealed_of_phase (hun : s.phase ≠ .unloaded) (hexit : ∀ rest, s.phase ≠ .exit rest) :
    Sealed m s :=
  ⟨fun h => absurd h hun, fun rest h => absurd h (hexit rest), fun rest h => absurd h (hexit rest)⟩

/-- A callback that is on its way keeps the phase of the module, and the module is not
unloaded. -/
theorem sealed_of_active (h : Sealed m s) (hphase : t.phase = s.phase) (hactive : s.stage ≠ .idle) :
    Sealed m t := by
  refine ⟨?_, ?_, ?_⟩
  · intro hun
    exact absurd (h.unloaded (hphase ▸ hun)) hactive
  · intro rest hrest
    exact h.suffix rest (hphase ▸ hrest)
  · intro rest hrest
    exact Or.inl ((h.stopped rest (hphase ▸ hrest)).resolve_right hactive)

/-- The next call of init or exit. -/
theorem sealed_step {ok : Bool} (h : Sealed m s) (hin : InTime m s (.step ok))
    (hstep : systemStep m s (.step ok) = some t) : Sealed m t := by
  simp only [systemStep] at hstep
  cases hp : s.phase with
  | unloaded | loaded | oops =>
      rw [hp] at hstep
      cases hstep
  | init rest =>
      rw [hp] at hstep
      cases rest with
      | nil =>
          cases hstep
          exact sealed_of_phase nofun nofun
      | cons c cs =>
          have hcall : doCall c ok { s with phase := .init cs } = some t := hstep
          rcases doCall_phase hcall with hphase | ⟨-, hphase⟩
          · exact sealed_of_phase (by rw [hphase]; exact nofun) (by rw [hphase]; exact nofun)
          · exact sealed_of_phase (by rw [hphase]; exact nofun) (by rw [hphase]; exact nofun)
  | exit rest =>
      rw [hp] at hstep
      have hsuffix := h.suffix rest hp
      cases rest with
      | nil =>
          cases hstep
          have hidle : s.stage = .idle := (h.stopped [] hp).resolve_left (fun hne => hne.2 rfl)
          exact ⟨fun _ => hidle, nofun, nofun⟩
      | cons c cs =>
          -- the call is one that stops, so the callback is over when it is done
          have hstops : c.stops = true := stops_of_mem_exit (hsuffix.subset (List.mem_cons_self ..))
          have hrun : c = .delTimer → s.stage.isRunning = false :=
            fun hc => hin (by rw [hp, hc]; rfl)
          have hcall : doCall c ok { s with phase := .exit cs } = some t := hstep
          obtain ⟨hphase, hidle⟩ := doCall_stops (s := { s with phase := .exit cs }) hstops hrun hcall
          refine ⟨fun _ => hidle, ?_, fun _ _ => Or.inr hidle⟩
          intro rest hrest
          obtain rfl : cs = rest := Phase.exit.inj (hphase.symm.trans hrest)
          exact (List.suffix_cons c cs).trans hsuffix

theorem sealed_systemStep (h : Sealed m s) (hin : InTime m s e)
    (hstep : systemStep m s e = some t) : Sealed m t := by
  cases e with
  | load =>
      simp only [systemStep] at hstep
      split_ifs at hstep
      cases hstep
      exact sealed_of_phase nofun nofun
  | step ok => exact sealed_step h hin hstep
  | signal =>
      simp only [systemStep] at hstep
      split at hstep
      · cases hstep
        exact sealed_of_phase nofun nofun
      · cases hstep
  | unload =>
      simp only [systemStep] at hstep
      split_ifs at hstep
      cases hstep
      refine ⟨nofun, ?_, ?_⟩
      · intro rest hrest
        cases hrest
        exact List.suffix_refl _
      · intro rest hrest
        cases hrest
        by_cases hempty : m.exit = []
        · exact Or.inr (hin hempty)
        · exact Or.inl ⟨rfl, hempty⟩
  | expire =>
      simp only [systemStep] at hstep
      split_ifs at hstep with hstage
      cases hstep
      exact sealed_of_active h rfl (by rw [hstage]; exact nofun)
  | start =>
      simp only [systemStep] at hstep
      split_ifs at hstep with hstage
      cases hstep
      exact sealed_of_active h rfl (by rw [hstage]; exact nofun)
  | work =>
      simp only [systemStep] at hstep
      split at hstep
      · rename_i c cs hstage
        have hphase := (doCall_phase hstep).resolve_right nofun
        exact sealed_of_active h hphase (by rw [hstage]; exact nofun)
      · rename_i hstage
        cases hstep
        exact sealed_of_active h rfl (by rw [hstage]; exact nofun)
      · cases hstep

/-- Where the invariant holds, a module whose exit function makes calls, none of them
`del_timer`, has nothing to respect. -/
theorem inTime_of_waits (hne : m.exit ≠ []) (hdel : .delTimer ∉ m.exit) (h : Sealed m s) :
    InTime m s e := by
  cases e with
  | unload => exact fun hempty => absurd hempty hne
  | step ok =>
      intro hcall
      rcases exitCall_eq_some hcall with ⟨cs, hphase⟩
      exact absurd ((h.suffix _ hphase).subset (List.mem_cons_self ..)) hdel
  | _ => trivial

/-- The timer module calls `del_timer`, and nothing after it. -/
theorem nil_of_delTimer {cs : List Call} (h : .delTimer :: cs <:+ m.exit) : cs = [] := by
  have hmem : .delTimer ∈ m.exit := h.subset (List.mem_cons_self ..)
  have hlen : (Call.delTimer :: cs).length ≤ m.exit.length := h.length_le
  cases m with
  | stdTimer => exact List.eq_nil_of_length_eq_zero (Nat.le_zero.mp (Nat.le_of_succ_le_succ hlen))
  | _ => exact absurd hmem (by decide)

/-- **Where a step is not in time, the callback can outlive the module**: if the exit function
goes on and returns before anything else happens. -/
theorem outlives_of_not_inTime (h : Sealed m s) (hin : ¬ InTime m s e)
    (hstep : systemStep m s e = some t) :
    ∃ u, systemStep m t (.step true) = some u ∧ ¬ Quiescent u := by
  cases e with
  | unload =>
      rcases Classical.not_imp.mp hin with ⟨hempty, hactive⟩
      simp only [systemStep] at hstep
      split_ifs at hstep
      cases hstep
      rw [hempty]
      exact ⟨_, rfl, fun hq => hactive (hq rfl)⟩
  | step ok =>
      rcases Classical.not_imp.mp hin with ⟨hcall, hrun⟩
      rcases exitCall_eq_some hcall with ⟨cs, hphase⟩
      rw [Bool.not_eq_false] at hrun
      obtain rfl : cs = [] := nil_of_delTimer (h.suffix _ hphase)
      simp only [systemStep, hphase, doCall, hrun, if_true] at hstep
      cases hstep
      refine ⟨_, rfl, fun hq => ?_⟩
      have hidle : s.stage = .idle := hq rfl
      rw [hidle] at hrun
      cases hrun
  | _ => exact absurd trivial hin

end

/-! ## Runs -/

/-- **No callback outlives its module.** In every run, over any number of loads and unloads, whose
steps are all in time, an unloaded module has no callback pending or running. -/
theorem quiescent_of_inTime (m : Module) (es : List SystemEvent) (s : System)
    (hin : Along (systemStep m) (fun _ => InTime m) .start es)
    (hrun : run (systemStep m) .start es = some s) : Quiescent s := by
  have hsealed : Sealed m s := by
    refine run_induct (I := fun _ s => Sealed m s) (sealed_start m) ?_ es s hin hrun
    intro _ s e t _ h hc hstep
    exact sealed_systemStep h hc hstep
  exact hsealed.quiescent

instance (m : Module) (s : System) : ∀ e, Decidable (InTime m s e)
  | .unload => inferInstanceAs (Decidable (m.exit = [] → s.stage = .idle))
  | .step _ => inferInstanceAs (Decidable
      (s.phase.exitCall = some .delTimer → s.stage.isRunning = false))
  | .load => inferInstanceAs (Decidable True)
  | .signal => inferInstanceAs (Decidable True)
  | .expire => inferInstanceAs (Decidable True)
  | .start => inferInstanceAs (Decidable True)
  | .work => inferInstanceAs (Decidable True)

/-- The timer expires and its callback is over before the module goes, twice. -/
theorem quiescent_stdTimer_twice :
    ∃ s, run (systemStep .stdTimer) .start
        [.load, .step true, .step true, .step true, .expire, .start, .work, .unload, .step true,
          .step true, .load, .step true, .step true, .step true, .unload, .step true, .step true]
          = some s ∧ s.phase = .unloaded ∧ Quiescent s := by
  have hrun : (run (systemStep .stdTimer) .start
      [.load, .step true, .step true, .step true, .expire, .start, .work, .unload, .step true,
        .step true, .load, .step true, .step true, .step true, .unload, .step true, .step true]).any
        (fun s => s.phase = .unloaded) = true := by
    decide
  rcases (Option.any_eq_true _ _).mp hrun with ⟨s, hs, hphase⟩
  refine ⟨s, hs, of_decide_eq_true hphase, ?_⟩
  exact quiescent_of_inTime .stdTimer _ s (along_of_checkAlong _ _ (by decide)) hs

/-- **A timer callback that outlives its module**: `del_timer` does not wait for it. -/
theorem not_quiescent_stdTimer :
    ∃ s, run (systemStep .stdTimer) .start
        [.load, .step true, .step true, .step true, .expire, .start, .unload, .step true, .step true]
          = some s ∧ ¬ Quiescent s :=
  ⟨⟨.unloaded, .running [], false⟩, by decide, fun h => absurd (h rfl) (by decide)⟩

/-- The workqueue of its own, the high-resolution timer and the tasklet are stopped in any
run. -/
theorem quiescent_of_waits (m : Module) (hne : m.exit ≠ []) (hdel : .delTimer ∉ m.exit)
    (es : List SystemEvent) (s : System) (hrun : run (systemStep m) .start es = some s) :
    Quiescent s := by
  have hsealed : Sealed m s := by
    refine run_induct_all (I := fun _ s => Sealed m s) (sealed_start m) ?_ es s hrun
    intro _ s e t _ h hstep
    exact sealed_systemStep h (inTime_of_waits hne hdel h) hstep
  exact hsealed.quiescent

end LinuxDrivers.Deferred
