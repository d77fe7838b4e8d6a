import LinuxDrivers.DummyChar.Driver

set_option autoImplicit false

/-! # Character devices across instances and failures

Probes and removals of any number of instances, in any order. `Registered` says what one expects of
a run: no step faults, a failed probe leaves everything as it was, a removal gives back what the
own probe acquired, and the three variables are those of every bound device, with a live cdev for
its number. `registered_iff`: this is so if and only if a probe fails at its region, or happens with
no device bound and does not lose its cdev or its device alone. -/

namespace LinuxDrivers.DummyChar

open Lib

section

variable {ι : Type} [DecidableEq ι]

/-- The driver has just been loaded. -/
def noDevices (ι : Type) : Bound Sys ι := Bound.start ι Sys.start

/-- The number and the class that a bound device has created are those of the driver's variables,
and there is a live cdev for the number. -/
structure Serves (d : Driver) (s : Bound Sys ι) : Prop where
  number : ∀ i, ∀ own ∈ s.own i, ∀ m, (instances d ι).Acquired own (.region m) →
    s.state.globals.major = m ∧ .cdev .static m ∈ s.state.kernel.held
  cls : ∀ i, ∀ own ∈ s.own i, ∀ h name, (instances d ι).Acquired own (.cls h name) →
    s.state.globals.dummy_class = .obj h

/-- What is expected of a run. -/
structure Registered (d : Driver) (es : List (BindEvent ι ChrOutcome)) : Prop where
  balanced : Along (bindStep (instances d ι)) (fun _ => Balanced (instances d ι)) (noDevices ι) es
  serves : Always (bindStep (instances d ι)) (Serves d) (noDevices ι) es

/-- The probe gets no region; or no device is bound, and the probe gets no class, or both of cdev
and device, or none of the two. -/
def OnlyDevice (s : Bound Sys ι) : BindEvent ι ChrOutcome → Prop
  | .probe _ o => o.region.isSome = true ∨
      (∀ j, s.own j = none) ∧
        (o.cls.isSome = true ∨ (o.cdev.isSome = true ↔ o.device.isSome = true))
  | .remove _ => True

/-- The invariant: without a bound device nothing is held; a bound device is the only one, and what
is held is what the variables say. -/
def InstancesInv : Bound Sys ι → Prop :=
  Sole (fun u => u.kernel.held = []) fun _ own u => own.1.kernel.held = [] ∧
    ∃ m h n, own.2.kernel.held = objects m h ∧ u = ⟨⟨objects m h, n⟩, ⟨m, .obj h⟩⟩

/-- What one step should do, with the state it leaves. -/
def GoodStep (d : Driver) (s : Bound Sys ι) (e : BindEvent ι ChrOutcome) : Prop :=
  Balanced (instances d ι) s e ∧ ∀ t, bindStep (instances d ι) s e = some t → Serves d t

omit [DecidableEq ι] in
theorem instancesInv_start : InstancesInv (noDevices ι) := sole_start rfl

variable {d : Driver} {s t : Bound Sys ι} {i : ι} {o : ChrOutcome}

omit [DecidableEq ι] in
/-- A probe that succeeded with nothing held before acquired exactly what is held after it. -/
theorem acquired_iff {own : Sys × Sys} (h : own.1.kernel.held = []) (b : ChrObj) :
    (instances d ι).Acquired own b ↔ b ∈ own.2.kernel.held := by
  show b ∈ own.2.kernel.held ∧ ¬ b ∈ own.1.kernel.held ↔ _
  rw [h]
  exact ⟨fun hb => hb.1, fun hb => ⟨hb, List.not_mem_nil⟩⟩

omit [DecidableEq ι] in
theorem InstancesInv.serves (hinv : InstancesInv s) : Serves d s := by
  constructor
  · intro i own hown m hm
    rcases hinv.busy i own hown with ⟨-, hempty, m', h, n, hheld, hstate⟩
    rw [acquired_iff hempty, hheld] at hm
    obtain rfl : m = m' := by simpa [objects] using hm
    rw [hstate]
    exact ⟨rfl, by simp [objects]⟩
  · intro i own hown h name hcls
    rcases hinv.busy i own hown with ⟨-, hempty, m, h', n, hheld, hstate⟩
    rw [acquired_iff hempty, hheld] at hcls
    obtain ⟨rfl, -⟩ : h = h' ∧ name = "dummy_char_class" := by simpa [objects] using hcls
    rw [hstate]

omit [DecidableEq ι] in
/-- As long as a device is bound there is a class. -/
theorem InstancesInv.hasName (hinv : InstancesInv s) {own : Sys × Sys} (hown : own ∈ s.own i) :
    s.state.kernel.hasName "dummy_char_class" = true := by
  rcases hinv.busy i own hown with ⟨-, -, m, h, n, -, hstate⟩
  rw [hstate]
  simp [objects, Chrdev.hasName]

/-! ## Probe -/

omit [DecidableEq ι] in
/-- **A probe that meets the condition**: it fails with nothing held in addition, or it is the only
one and acquires the four objects. -/
theorem probe_of_onlyDevice (hinv : InstancesInv s) (hc : OnlyDevice s (.probe i o)) :
    (∃ u, (instances d ι).probe i o s.state = .ok (false, u) ∧
      u.kernel.held = s.state.kernel.held ∧ (u = s.state ∨ ∀ j, s.own j = none)) ∨
    (∀ j, s.own j = none) ∧ ∃ m h n, (instances d ι).probe i o s.state
      = .ok (true, ⟨⟨objects m h, n⟩, ⟨m, .obj h⟩⟩) := by
  cases hregion : o.region with
  | some e => exact Or.inl ⟨s.state, probe_noRegion hregion, rfl, Or.inl rfl⟩
  | none =>
      rcases hc with hsome | ⟨hnone, hc⟩
      · rw [hregion] at hsome
        cases hsome
      have hempty := hinv.idle hnone
      cases hcls : o.cls with
      | some e =>
          refine Or.inl ⟨_, probe_noClass hregion hcls hempty, ?_, Or.inr hnone⟩
          rw [hempty]
      | none =>
          rw [hcls, or_iff_right nofun] at hc
          rcases probe_class (d := d) (i := i) hregion hcls hempty with ⟨n, hprobe⟩
          cases hdev : o.device with
          | none =>
              have hcdev : ¬ o.cdev.isSome = true := by
                rw [hc, hdev]
                exact nofun
              refine Or.inr ⟨hnone, s.state.kernel.next, s.state.kernel.next + 1, n, ?_⟩
              rw [hprobe, hdev, if_neg nofun, if_neg hcdev]
              rfl
          | some e =>
              have hcdev : o.cdev.isSome = true := hc.mpr (by rw [hdev]; rfl)
              rw [hdev, Option.isSome_some, if_pos rfl, if_pos hcdev] at hprobe
              exact Or.inl ⟨_, hprobe, hempty.symm, Or.inr hnone⟩

/-- **A probe that does not meet the condition** disturbs a bound device, or has no cdev, or leaves
one behind. -/
theorem not_goodStep_probe (hinv : InstancesInv s) (hrun : s.stopped = false)
    (hi : s.own i = none) (hc : ¬ OnlyDevice s (.probe i o)) : ¬ GoodStep d s (.probe i o) := by
  rintro ⟨hbal, hserves⟩
  rcases not_or.mp hc with ⟨hregion, hc⟩
  rw [Option.not_isSome_iff_eq_none] at hregion
  by_cases hnone : ∀ j, s.own j = none
  · rcases not_or.mp (not_and.mp hc hnone) with ⟨hcls, hiff⟩
    rw [Option.not_isSome_iff_eq_none] at hcls
    have hempty := hinv.idle hnone
    rcases probe_class (d := d) (i := i) hregion hcls hempty with ⟨n, hprobe⟩
    cases hdev : o.device with
    | none =>
        -- the device is bound, and the result of `cdev_add` was an error
        have hcdev : o.cdev.isSome = true := by
          by_contra hno
          exact hiff (iff_of_false hno (by rw [hdev]; exact nofun))
        rw [hdev, if_neg nofun, if_pos hcdev] at hprobe
        have hnumber := (hserves _ (bindStep_of_ok hrun hi hprobe)).number i _
          (mem_update.mpr (Or.inl ⟨rfl, rfl⟩)) s.state.kernel.next
        obtain ⟨-, hlive⟩ := hnumber
          ((acquired_iff hempty _).mpr (by simp [objects, Chrdev.isCdev]))
        simp [objects, Chrdev.isCdev] at hlive
    | some e =>
        -- the cdev is still there after the failed probe
        have hcdev : ¬ o.cdev.isSome = true :=
          fun hsome => hiff (iff_of_true hsome (by rw [hdev]; rfl))
        rw [hdev, Option.isSome_some, if_pos rfl, if_neg hcdev] at hprobe
        rcases hbal with ⟨ok, u, hu, hfail, -⟩
        rw [hprobe] at hu
        cases hu
        have hleft := (hfail rfl (.cdev .static s.state.kernel.next)).mp (List.mem_singleton_self _)
        change _ ∈ s.state.kernel.held at hleft
        rw [hempty] at hleft
        cases hleft
  · -- the variable for the class of a bound device is overwritten
    rcases exists_own hnone with ⟨j, own, hown⟩
    rcases probe_classExists (d := d) (i := i) hregion (hinv.hasName hown) with ⟨kernel, hprobe⟩
    rcases hinv.busy j own hown with ⟨-, hempty, m, h, n, hheld, -⟩
    have hcls := (hserves _ (bindStep_of_fail hrun hi hprobe)).cls j own hown h "dummy_char_class"
      ((acquired_iff hempty _).mpr (by rw [hheld]; simp [objects]))
    cases hcls

/-! ## Remove -/

omit [DecidableEq ι] in
theorem remove_of_inv (hinv : InstancesInv s) {own : Sys × Sys} (hown : own ∈ s.own i) :
    ∃ u, (instances d ι).remove i s.state = .ok u ∧ u.kernel.held = [] ∧
      ∀ b, (instances d ι).Acquired own b ↔ b ∈ s.state.kernel.held := by
  rcases hinv.busy i own hown with ⟨-, hempty, m, h, n, hheld, hstate⟩
  refine ⟨_, by rw [hstate]; exact remove_objects, rfl, fun b => ?_⟩
  rw [acquired_iff hempty, hheld, hstate]

/-! ## Runs -/

theorem instancesInv_step {e : BindEvent ι ChrOutcome} (hinv : InstancesInv s)
    (hc : OnlyDevice s e) (hstep : bindStep (instances d ι) s e = some t) : InstancesInv t := by
  cases e with
  | probe i o =>
      rcases bindStep_probe hstep with ⟨hrun, hi, -⟩
      rcases probe_of_onlyDevice (d := d) hinv hc with
        ⟨u, hprobe, hheld, hu⟩ | ⟨hnone, m, h, n, hprobe⟩
      · rw [bindStep_of_fail hrun hi hprobe] at hstep
        cases hstep
        apply hinv.fail
        exact hu.imp id fun hnone => ⟨hnone, hheld.trans (hinv.idle hnone)⟩
      · rw [bindStep_of_ok hrun hi hprobe] at hstep
        cases hstep
        exact Sole.bind hnone ⟨hinv.idle hnone, m, h, n, rfl, rfl⟩
  | remove i =>
      rcases bindStep_remove hstep with ⟨hrun, own, hown, -⟩
      rcases remove_of_inv (d := d) hinv hown with ⟨u, hremove, hempty, -⟩
      rw [bindStep_of_remove hrun hown hremove] at hstep
      cases hstep
      exact hinv.unbind hown hempty

theorem goodStep_iff {e : BindEvent ι ChrOutcome} (hinv : InstancesInv s)
    (hstep : bindStep (instances d ι) s e = some t) : GoodStep d s e ↔ OnlyDevice s e := by
  have hserves : OnlyDevice s e → ∀ u, bindStep (instances d ι) s e = some u → Serves d u :=
    fun hc u hu => (instancesInv_step hinv hc hu).serves
  cases e with
  | probe i o =>
      rcases bindStep_probe hstep with ⟨hrun, hi, -⟩
      constructor
      · intro hgood
        by_contra hc
        exact not_goodStep_probe hinv hrun hi hc hgood
      · intro hc
        refine ⟨?_, hserves hc⟩
        rcases probe_of_onlyDevice (d := d) hinv hc with
          ⟨u, hprobe, hheld, -⟩ | ⟨hnone, m, h, n, hprobe⟩
        · refine ⟨false, u, hprobe, fun _ b => ?_, nofun⟩
          show b ∈ u.kernel.held ↔ b ∈ s.state.kernel.held
          rw [hheld]
        · refine ⟨true, _, hprobe, nofun, fun _ b hb => ?_⟩
          change b ∈ s.state.kernel.held at hb
          rw [hinv.idle hnone] at hb
          cases hb
  | remove i =>
      refine iff_of_true ⟨fun own hown => ?_, hserves trivial⟩ trivial
      rcases remove_of_inv (d := d) hinv hown with ⟨u, hremove, hempty, hacq⟩
      refine ⟨u, hremove, fun b => ?_⟩
      rw [hacq]
      show b ∈ u.kernel.held ↔ b ∈ s.state.kernel.held ∧ ¬ b ∈ s.state.kernel.held
      rw [hempty]
      exact iff_of_false List.not_mem_nil (fun hb => hb.2 hb.1)

theorem Registered.goodSteps {es : List (BindEvent ι ChrOutcome)} (h : Registered d es) :
    Along (bindStep (instances d ι)) (fun _ => GoodStep d) (noDevices ι) es :=
  along_and.mpr ⟨h.balanced, (always_iff.mp h.serves).2⟩

/-- **When the registration is balanced**: for each of the two drivers, a run is as it should be if
and only if every probe of it fails at its region, or happens with no device bound and gets no
class, or both of cdev and device, or none of the two. -/
theorem registered_iff (d : Driver) (es : List (BindEvent ι ChrOutcome)) (s : Bound Sys ι)
    (hrun : run (bindStep (instances d ι)) (noDevices ι) es = some s) :
    Registered d es ↔
      Along (bindStep (instances d ι)) (fun _ => OnlyDevice) (noDevices ι) es := by
  have hiff : Along (bindStep (instances d ι)) (fun _ => GoodStep d) (noDevices ι) es ↔
      Along (bindStep (instances d ι)) (fun _ => OnlyDevice) (noDevices ι) es :=
    along_iff (I := InstancesInv) (fun _ _ _ => instancesInv_step)
      (fun _ _ _ => goodStep_iff) es _ s instancesInv_start hrun
  rw [← hiff]
  constructor
  · exact Registered.goodSteps
  · intro h
    rcases along_and.mp h with ⟨hbal, hserves⟩
    exact ⟨hbal, always_iff.mpr ⟨instancesInv_start.serves, hserves⟩⟩

instance [Fintype ι] (s : Bound Sys ι) : ∀ e, Decidable (OnlyDevice s e)
  | .probe _ o => inferInstanceAs (Decidable (o.region.isSome = true ∨
      (∀ j, (s.own j) = none) ∧
        (o.cls.isSome = true ∨ (o.cdev.isSome = true ↔ o.device.isSome = true))))
  | .remove _ => inferInstanceAs (Decidable True)

/-- Probes that fail at each of the calls, two devices one after the other, and a probe of the
second one in between that gets no region. -/
theorem registered_one_at_a_time :
    (run (bindStep (instances .platformDummyChar Bool)) (noDevices Bool)
      [.probe true { ChrOutcome.fine with cls := some ⟨-1, by decide⟩ },
        .probe true ⟨none, none, none, some ⟨-1, by decide⟩, some ⟨-1, by decide⟩⟩,
        .probe true .fine, .probe false { ChrOutcome.fine with region := some ⟨-1, by decide⟩ },
        .remove true, .probe false .fine, .remove false]).isSome = true ∧
    Registered (ι := Bool) .platformDummyChar
      [.probe true { ChrOutcome.fine with cls := some ⟨-1, by decide⟩ },
        .probe true ⟨none, none, none, some ⟨-1, by decide⟩, some ⟨-1, by decide⟩⟩,
        .probe true .fine, .probe false { ChrOutcome.fine with region := some ⟨-1, by decide⟩ },
        .remove true, .probe false .fine, .remove false] := by
  have hrun : (run (bindStep (instances .platformDummyChar Bool)) (noDevices Bool)
      [.probe true { ChrOutcome.fine with cls := some ⟨-1, by decide⟩ },
        .probe true ⟨none, none, none, some ⟨-1, by decide⟩, some ⟨-1, by decide⟩⟩,
        .probe true .fine, .probe false { ChrOutcome.fine with region := some ⟨-1, by decide⟩ },
        .remove true, .probe false .fine, .remove false]).isSome = true := by
    decide +kernel
  refine ⟨hrun, ?_⟩
  rcases Option.isSome_iff_exists.mp hrun with ⟨s, hs⟩
  exact (registered_iff .platformDummyChar _ s hs).mpr (along_of_checkAlong _ _ (by decide +kernel))

/-- **A second device, and a device without a node**: the failed probe of a second device overwrites
the variable for the class, and the removal of the first one then faults; and a load of the module
that fails at its device leaves the cdev behind. -/
theorem not_registered :
    (¬ Registered (ι := Bool) .platformDummyChar
      [.probe true .fine, .probe false .fine, .remove true]) ∧
    ¬ Registered (ι := Unit) .dummyChar
      [.probe () { ChrOutcome.fine with device := some ⟨-1, by decide⟩ }] := by
  constructor
  · have hrun : (run (bindStep (instances .platformDummyChar Bool)) (noDevices Bool)
        [.probe true .fine, .probe false .fine]).any (fun s => (s.own true).isSome &&
          !((instances .platformDummyChar Bool).remove true s.state).isOk) = true := by
      decide +kernel
    rcases (Option.any_eq_true _ _).mp hrun with ⟨s, hs, hfault⟩
    rw [Bool.and_eq_true, Option.isSome_iff_exists] at hfault
    rcases hfault with ⟨⟨own, hown⟩, hfault⟩
    intro h
    obtain ⟨t, ht, -⟩ := h.balanced [.probe true .fine, .probe false .fine] (.remove true) [] s
      rfl hs own hown
    rw [ht] at hfault
    cases hfault
  · intro h
    exact not_goodStep_probe instancesInv_start rfl rfl (by decide)
      (h.goodSteps [] _ [] _ rfl rfl)

end

end LinuxDrivers.DummyChar
