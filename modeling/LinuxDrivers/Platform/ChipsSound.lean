import LinuxDrivers.Platform.Chips

set_option autoImplicit false

/-! # When the chips of the frameworks are sound

`chips_sound_iff` says in exactly which runs of probes and removals every chip that a framework has
is in live memory and is that of a bound device. The invariant has two forms: one for the chips in
memory of their devices, and one for the static chip. -/

namespace LinuxDrivers.Chips

open Lib

section

variable {ι : Type} [DecidableEq ι]

/-! ## The invariant of the drivers with memory of the device -/

section

variable {d : Driver} {s t : State ι} {i : ι} {busy : Bool}

/-- The data of each bound device is its chip, and the framework has only such ones. -/
structure DevmInv (d : Driver) (s : State ι) : Prop where
  fault : s.fault = none
  fresh : ∀ q, s.sys.next ≤ q → s.sys.mem q = none
  unbound : ∀ i, s.bound i = false → s.sys.devres i = []
  own : ∀ i, s.bound i = true → ∃ q chip, s.sys.drvdata i = .obj q ∧ s.sys.devres i = [q] ∧
    s.sys.mem q = some chip ∧ chip.dev = some i ∧ (d ≠ .iioDummyRandom → q ∈ s.sys.chips)
  nodup : s.sys.chips.Nodup
  listed : ∀ q ∈ s.sys.chips, ∃ i, s.bound i = true ∧ s.sys.drvdata i = .obj q

omit [DecidableEq ι] in
theorem DevmInv.sound (h : DevmInv d s) : Sound s where
  fault := h.fault
  nodup := h.nodup
  live q hq := by
    rcases h.listed q hq with ⟨i, hi, hdata⟩
    rcases h.own i hi with ⟨q', chip, hdata', -, hmem, hdev, -⟩
    obtain rfl : q = q' := by
      rw [hdata] at hdata'
      exact KPtr.obj.inj hdata'
    exact ⟨chip, i, hmem, hdev, hi⟩

omit [DecidableEq ι] in
theorem DevmInv.ready (h : DevmInv d s) (hi : s.bound i = false) : Ready i s.sys where
  devres := h.unbound i hi
  fresh := h.fresh

omit [DecidableEq ι] in
theorem ne_of_bound {j : ι} (hi : s.bound i = false) (hj : s.bound j = true) : j ≠ i := by
  rintro rfl
  rw [hi] at hj
  cases hj

omit [DecidableEq ι] in
/-- A failed probe. -/
theorem DevmInv.restored (h : DevmInv d s) (hi : s.bound i = false) {u : Sys ι}
    (hu : Restored i s.sys u) : DevmInv d { s with sys := u } where
  fault := h.fault
  fresh q hq := by
    rw [hu.mem]
    exact h.fresh q (hu.next.trans hq)
  unbound j hj := by
    rw [hu.devres]
    exact h.unbound j hj
  own j hj := by
    rw [hu.drvdata j (ne_of_bound hi hj), hu.devres, hu.mem, hu.chips]
    exact h.own j hj
  nodup := by
    rw [hu.chips]
    exact h.nodup
  listed q hq := by
    rw [hu.chips] at hq
    rcases h.listed q hq with ⟨j, hj, hdata⟩
    exact ⟨j, hj, (hu.drvdata j (ne_of_bound hi hj)).trans hdata⟩

omit [DecidableEq ι] in
/-- The chip of a bound device is older than `next`. -/
theorem DevmInv.ne_next (h : DevmInv d s) {q : Nat} {chip : Chip ι}
    (hmem : s.sys.mem q = some chip) :
    q ≠ s.sys.next := by
  rintro rfl
  rw [h.fresh _ (Nat.le_refl _)] at hmem
  cases hmem

omit [DecidableEq ι] in
theorem DevmInv.next_not_mem (h : DevmInv d s) : s.sys.next ∉ s.sys.chips := by
  intro hnext
  rcases h.sound.live _ hnext with ⟨chip, -, hmem, -⟩
  exact h.ne_next hmem rfl

theorem Sys.mem_withChip {s : Sys ι} {chip : Chip ι} {listed : Bool} {q : Nat} :
    q ∈ (s.withChip i chip listed).chips ↔ listed = true ∧ q = s.next ∨ q ∈ s.chips := by
  cases listed with
  | false => simp [Sys.withChip]
  | true => simp [Sys.withChip]

/-- A probe that succeeds. -/
theorem DevmInv.bind (h : DevmInv d s) (hi : s.bound i = false) {chip : Chip ι} {listed : Bool}
    (hdev : chip.dev = some i) (hlisted : d ≠ .iioDummyRandom → listed = true) :
    DevmInv d { s with
      sys := s.sys.withChip i chip listed, bound := Function.update s.bound i true } where
  fault := h.fault
  fresh q hq := by
    change s.sys.next + 1 ≤ q at hq
    have hne : q ≠ s.sys.next := by omega
    calc Function.update s.sys.mem s.sys.next (some chip) q = s.sys.mem q :=
          Function.update_of_ne hne _ _
      _ = none := h.fresh q (by omega)
  unbound j hj := by
    change Function.update s.bound i true j = false at hj
    have hne : j ≠ i := by
      rintro rfl
      rw [Function.update_self] at hj
      cases hj
    rw [Function.update_of_ne hne] at hj
    calc Function.update s.sys.devres i [s.sys.next] j = s.sys.devres j :=
          Function.update_of_ne hne _ _
      _ = [] := h.unbound j hj
  own j hj := by
    change Function.update s.bound i true j = true at hj
    by_cases hne : j = i
    · subst hne
      exact ⟨s.sys.next, chip, Function.update_self .., Function.update_self ..,
        Function.update_self .., hdev,
        fun hd => Sys.mem_withChip.mpr (Or.inl ⟨hlisted hd, rfl⟩)⟩
    · rw [Function.update_of_ne hne] at hj
      rcases h.own j hj with ⟨q, chip', hdata, hdevres, hmem, hdev', hall⟩
      refine ⟨q, chip', ?_, ?_, ?_, hdev', fun hd => Sys.mem_withChip.mpr (Or.inr (hall hd))⟩
      · exact (Function.update_of_ne hne _ _).trans hdata
      · exact (Function.update_of_ne hne _ _).trans hdevres
      · exact (Function.update_of_ne (h.ne_next hmem) _ _).trans hmem
  nodup := by
    cases listed with
    | false => exact h.nodup
    | true => exact List.nodup_cons.mpr ⟨h.next_not_mem, h.nodup⟩
  listed q hq := by
    rcases Sys.mem_withChip.mp hq with ⟨-, rfl⟩ | hq
    · exact ⟨i, Function.update_self .., Function.update_self ..⟩
    · rcases h.listed q hq with ⟨j, hj, hdata⟩
      have hne := ne_of_bound hi hj
      exact ⟨j, (Function.update_of_ne hne _ _).trans hj,
        (Function.update_of_ne hne _ _).trans hdata⟩

/-- A removal that took the chip back. -/
theorem DevmInv.unbind (h : DevmInv d s) (hi : s.bound i = true) {q : Nat}
    (hdata : s.sys.drvdata i = .obj q) :
    DevmInv d { s with
      sys := (s.sys.without q).unbind i, bound := Function.update s.bound i false } := by
  rcases h.own i hi with ⟨q', chip, hdata', hdevres, hmem, hdev, -⟩
  obtain rfl : q = q' := KPtr.obj.inj (hdata.symm.trans hdata')
  -- the other devices have other chips
  have hbound : ∀ j, Function.update s.bound i false j = true → j ≠ i ∧ s.bound j = true := by
    intro j hj
    by_cases hne : j = i
    · rw [hne, Function.update_self] at hj
      cases hj
    · exact ⟨hne, by rwa [Function.update_of_ne hne] at hj⟩
  have hother : ∀ j, j ≠ i → ∀ p chip', s.sys.mem p = some chip' → chip'.dev = some j → p ≠ q := by
    rintro j hne p chip' hmem' hdev' rfl
    obtain rfl : chip = chip' := Option.some.inj (hmem.symm.trans hmem')
    exact hne (Option.some.inj (hdev'.symm.trans hdev))
  have hkept : ∀ p, p ≠ q → ((s.sys.without q).unbind i).mem p = s.sys.mem p := by
    intro p hp
    simp [Sys.unbind, Sys.without, hdevres, hp]
  have hfreed : ((s.sys.without q).unbind i).mem q = none := by
    simp [Sys.unbind, Sys.without, hdevres]
  refine ⟨h.fault, fun p hp => ?_, fun j hj => ?_, fun j hj => ?_, h.nodup.erase q,
    fun p hp => ?_⟩
  · by_cases hpq : p = q
    · rw [hpq]
      exact hfreed
    · exact (hkept p hpq).trans (h.fresh p hp)
  · by_cases hne : j = i
    · rw [hne]
      exact Function.update_self ..
    · change Function.update s.bound i false j = false at hj
      rw [Function.update_of_ne hne] at hj
      exact (Function.update_of_ne hne _ _).trans (h.unbound j hj)
  · rcases hbound j hj with ⟨hne, hj⟩
    rcases h.own j hj with ⟨p, chip', hdata', hdevres', hmem', hdev', hall⟩
    have hpq := hother j hne p chip' hmem' hdev'
    refine ⟨p, chip', ?_, ?_, ?_, hdev', fun hd => ?_⟩
    · exact (Function.update_of_ne hne _ _).trans hdata'
    · exact (Function.update_of_ne hne _ _).trans hdevres'
    · exact (hkept p hpq).trans hmem'
    · exact (List.mem_erase_of_ne hpq).mpr (hall hd)
  · rcases (h.nodup.mem_erase_iff).mp hp with ⟨hpq, hp⟩
    rcases h.listed p hp with ⟨j, hj, hp'⟩
    have hne : j ≠ i := by
      rintro rfl
      exact hpq (KPtr.obj.inj (hp'.symm.trans hdata))
    exact ⟨j, (Function.update_of_ne hne _ _).trans hj,
      (Function.update_of_ne hne _ _).trans hp'⟩

/-- The removal of a device whose chip the framework has, and which is not in use. -/
theorem DevmInv.remove (h : DevmInv d s) (hd : d ≠ .fakeGpioChip)
    (hfits : Fits d s (.remove i busy)) (hstep : chipStep d s (.remove i busy) = some t) :
    DevmInv d t := by
  have hi := chipStep_remove_bound hstep
  rcases h.own i hi with ⟨q, chip, hdata, -, hmem, -, hall⟩
  rcases hfits with ⟨hfree, hreg⟩
  have hq : q ∈ s.sys.chips := by
    by_cases hiio : d = .iioDummyRandom
    · exact hreg hiio q hdata
    · exact hall hiio
  rw [chipStep_remove hstep (remove_spec hd hdata hmem hq hfree)]
  exact h.unbind hi hdata

theorem DevmInv.probe (h : DevmInv d s) (hd : d ≠ .fakeGpioChip) {o : Outcome}
    (hstep : chipStep d s (.probe i o) = some t) : DevmInv d t := by
  have hi := chipStep_probe_bound hstep
  rcases probe_spec (o := o) hd (h.ready hi) with
    ⟨ret, u, hrun, hret, hback⟩ | ⟨chip, listed, hrun, hdev, hlisted⟩
  · rw [(chipStep_probe hstep hrun).2.1 hret]
    exact h.restored hi hback
  · rw [(chipStep_probe hstep hrun).2.2 rfl]
    exact h.bind hi hdev hlisted

/-- What the condition leaves out goes wrong at once: the framework still has a PWM chip when its
memory is freed, and the removal of an IIO device that has not been registered faults. -/
theorem DevmInv.not_sound (h : DevmInv d s) (hfits : ¬ Fits d s (.remove i busy))
    (hstep : chipStep d s (.remove i busy) = some t) : ¬ Sound t := by
  have hi := chipStep_remove_bound hstep
  rcases h.own i hi with ⟨q, chip, hdata, hdevres, hmem, -, hall⟩
  have hbad : (d = .fakePwm ∧ busy = true) ∨ d = .iioDummyRandom ∧ q ∉ s.sys.chips := by
    by_contra hno
    rw [not_or, not_and, not_and, not_not, Bool.not_eq_true] at hno
    refine hfits ⟨hno.1, fun hiio q' hdata' => ?_⟩
    obtain rfl : q = q' := KPtr.obj.inj (hdata.symm.trans hdata')
    exact hno.2 hiio
  intro hsound
  rcases hbad with ⟨rfl, rfl⟩ | ⟨rfl, hq⟩
  · -- the driver core frees the chip, which is still registered
    have hrun : (Driver.fakePwm.remove true i).run s.sys = .ok (- EBUSY, s.sys) := by
      simp [Driver.remove, fakePwmRemove, pwmchipRemove, hdata, hmem]
    rw [chipStep_remove hstep hrun] at hsound
    rcases hsound.live q (hall (by decide)) with ⟨chip', -, hmem', -⟩
    simp [Sys.unbind, hdevres] at hmem'
  · have hrun : (Driver.iioDummyRandom.remove busy i).run s.sys = .error .notLive := by
      have hnot := run_unregister_of_not_mem hmem hq
      simp [Driver.remove, Iio.myPdrvRemove, iioDeviceUnregister, hdata, hnot]
    rw [chipStep_remove_error hstep hrun] at hsound
    cases hsound.fault

end

/-! ## The invariant of the static chip -/

section

variable {s t : State ι} {i : ι} {busy : Bool}

/-- One device has the chip, or none has. -/
structure StaticInv (s : State ι) : Prop where
  fault : s.fault = none
  mem : ∃ chip, s.sys.mem 0 = some chip
  devres : ∀ i, s.sys.devres i = []
  idle : (∀ j, s.bound j = false) → s.sys.chips = []
  busy : ∀ i, s.bound i = true → (∀ j, j ≠ i → s.bound j = false) ∧ s.sys.chips = [0] ∧
    ∃ chip, s.sys.mem 0 = some chip ∧ chip.dev = some i

omit [DecidableEq ι] in
theorem StaticInv.chips (h : StaticInv s) :
    (∀ j, s.bound j = false) ∧ s.sys.chips = [] ∨
      ∃ i, s.bound i = true ∧ s.sys.chips = [0] := by
  by_cases hnone : ∀ j, s.bound j = false
  · exact Or.inl ⟨hnone, h.idle hnone⟩
  · rcases not_forall.mp hnone with ⟨i, hi⟩
    have hi := Bool.not_eq_false _ ▸ hi
    exact Or.inr ⟨i, hi, (h.busy i hi).2.1⟩

omit [DecidableEq ι] in
theorem StaticInv.sound (h : StaticInv s) : Sound s := by
  refine ⟨h.fault, ?_, fun q hq => ?_⟩
  · rcases h.chips with ⟨-, hchips⟩ | ⟨i, -, hchips⟩
    · rw [hchips]
      exact List.nodup_nil
    · rw [hchips]
      exact List.nodup_singleton 0
  · rcases h.chips with ⟨-, hchips⟩ | ⟨i, hi, hchips⟩
    · rw [hchips] at hq
      cases hq
    · rw [hchips, List.mem_singleton] at hq
      rcases (h.busy i hi).2.2 with ⟨chip, hmem, hdev⟩
      exact ⟨chip, i, hq ▸ hmem, hdev, hi⟩

/-- The static chip after a probe of device `i`. -/
def Sys.withStatic (s : Sys ι) (i : ι) (chips : List Nat) : Sys ι :=
  { s with mem := Function.update s.mem 0 (some ⟨some i, -1, GPIO_NUM⟩), chips := chips }

omit [DecidableEq ι] in
theorem Sys.withStatic_mem (s : Sys ι) (chips : List Nat) :
    (s.withStatic i chips).mem 0 = some ⟨some i, -1, GPIO_NUM⟩ :=
  Function.update_self (0 : Nat) _ s.mem

omit [DecidableEq ι] in
theorem fakeGpio_probe {s : Sys ι} {chip : Chip ι} {o : Outcome} (hmem : s.mem 0 = some chip) :
    (∃ e, o.add = some e ∧
        (FakeGpio.myPdrvProbe o i).run s = .ok (e.1, s.withStatic i s.chips)) ∨
      (FakeGpio.myPdrvProbe o i).run s = .ok (0, s.withStatic i (0 :: s.chips)) := by
  unfold Sys.withStatic
  cases hadd : o.add with
  | some e =>
      refine Or.inl ⟨e, rfl, ?_⟩
      simp [FakeGpio.myPdrvProbe, FakeGpio.chip, gpiochipAdd, hadd, hmem]
  | none =>
      refine Or.inr ?_
      simp [FakeGpio.myPdrvProbe, FakeGpio.chip, gpiochipAdd, hadd, hmem]

/-- A probe with nobody bound. -/
theorem StaticInv.probe (h : StaticInv s) {o : Outcome} (hnone : ∀ j, s.bound j = false)
    (hstep : chipStep .fakeGpioChip s (.probe i o) = some t) : StaticInv t := by
  rcases h.mem with ⟨chip, hmem⟩
  have hchips := h.idle hnone
  rcases fakeGpio_probe (i := i) (o := o) hmem with ⟨e, -, hrun⟩ | hrun
  · rw [(chipStep_probe hstep hrun).2.1 (ne_of_lt e.2)]
    refine ⟨h.fault, ⟨⟨some i, -1, GPIO_NUM⟩, ?_⟩, fun j => ?_, fun _ => hchips,
      fun j hj => ?_⟩
    · simp [Sys.unbind, Sys.withStatic, h.devres]
    · simp [Sys.unbind, Sys.withStatic, h.devres, Function.update_apply]
    · rw [hnone j] at hj
      cases hj
  · rw [(chipStep_probe hstep hrun).2.2 rfl]
    refine ⟨h.fault, ⟨_, s.sys.withStatic_mem _⟩, h.devres, fun hno => ?_, fun j hj => ?_⟩
    · have hi : Function.update s.bound i true i = false := hno i
      rw [Function.update_self] at hi
      cases hi
    · have hji : j = i := by
        by_contra hne
        change Function.update s.bound i true j = true at hj
        rw [Function.update_of_ne hne, hnone j] at hj
        cases hj
      subst hji
      refine ⟨fun k hk => ?_, ?_, _, s.sys.withStatic_mem _, rfl⟩
      · exact (Function.update_of_ne hk _ _).trans (hnone k)
      · change 0 :: s.sys.chips = [0]
        rw [hchips]

/-- A probe while another device has the chip: a registered chip is overwritten, or it is handed
over a second time. -/
theorem StaticInv.not_sound (h : StaticInv s) {o : Outcome} {j : ι} (hj : s.bound j = true)
    (hstep : chipStep .fakeGpioChip s (.probe i o) = some t) : ¬ Sound t := by
  rcases h.mem with ⟨chip, hmem⟩
  have hchips := (h.busy j hj).2.1
  intro hsound
  rcases fakeGpio_probe (i := i) (o := o) hmem with ⟨e, -, hrun⟩ | hrun
  · -- the chip that device `j` has registered now names device `i`, which is not bound
    have hi := chipStep_probe_bound hstep
    rw [(chipStep_probe hstep hrun).2.1 (ne_of_lt e.2)] at hsound
    rcases hsound.live 0 (by simp [Sys.unbind, Sys.withStatic, hchips]) with
      ⟨chip', k, hmem', hdev, hk⟩
    obtain rfl : ⟨some i, -1, GPIO_NUM⟩ = chip' := by
      simpa [Sys.unbind, Sys.withStatic, h.devres] using hmem'
    obtain rfl : i = k := Option.some.inj hdev
    exact absurd (hi.symm.trans hk) Bool.false_ne_true
  · rw [(chipStep_probe hstep hrun).2.2 rfl] at hsound
    have hnodup := hsound.nodup
    simp [Sys.withStatic, hchips] at hnodup

theorem StaticInv.remove (h : StaticInv s)
    (hstep : chipStep .fakeGpioChip s (.remove i busy) = some t) : StaticInv t := by
  have hi := chipStep_remove_bound hstep
  rcases h.busy i hi with ⟨honly, hchips, chip, hmem, -⟩
  have hrun : (Driver.fakeGpioChip.remove busy i).run s.sys = .ok (0, s.sys.without 0) := by
    simp [Driver.remove, FakeGpio.myPdrvRemove, FakeGpio.chip, gpiochipRemove, hmem, hchips,
      Sys.without]
  rw [chipStep_remove hstep hrun]
  refine ⟨h.fault, ⟨chip, ?_⟩, fun j => ?_, fun _ => ?_, fun j hj => ?_⟩
  · simp [Sys.unbind, Sys.without, h.devres, hmem]
  · simp [Sys.unbind, Sys.without, h.devres, Function.update_apply]
  · simp [Sys.unbind, Sys.without, hchips]
  · change Function.update s.bound i false j = true at hj
    by_cases hji : j = i
    · rw [hji, Function.update_self] at hj
      cases hj
    · rw [Function.update_of_ne hji, honly j hji] at hj
      cases hj

end

/-! ## In which runs the chips stay sound -/

section

variable {d : Driver} {s t : State ι} {e : ChipEvent ι}

def ChipsInv (d : Driver) (s : State ι) : Prop :=
  (d = .fakeGpioChip → StaticInv s) ∧ (d ≠ .fakeGpioChip → DevmInv d s)

omit [DecidableEq ι] in
theorem chipsInv_start (d : Driver) : ChipsInv d (start ι) := by
  constructor
  · intro _
    exact ⟨rfl, ⟨_, rfl⟩, fun _ => rfl, fun _ => rfl, nofun⟩
  · intro _
    refine ⟨rfl, fun q hq => ?_, fun _ _ => rfl, nofun, List.nodup_nil, nofun⟩
    have hne : q ≠ 0 := by
      rintro rfl
      exact absurd hq Nat.one_pos.not_ge
    change Function.update (fun _ => none) 0 (some _) q = none
    exact Function.update_of_ne hne _ _

omit [DecidableEq ι] in
theorem ChipsInv.sound (h : ChipsInv d s) : Sound s := by
  by_cases hd : d = .fakeGpioChip
  · exact (h.1 hd).sound
  · exact (h.2 hd).sound

/-- The step lemma. -/
theorem chipsInv_step (h : ChipsInv d s) (hfits : Fits d s e) (hstep : chipStep d s e = some t) :
    ChipsInv d t := by
  constructor
  · rintro rfl
    have hinv := h.1 rfl
    cases e with
    | probe i o => exact hinv.probe (hfits rfl) hstep
    | remove i busy => exact hinv.remove hstep
  · intro hd
    have hinv := h.2 hd
    cases e with
    | probe i o => exact hinv.probe hd hstep
    | remove i busy => exact hinv.remove hd hfits hstep

theorem not_sound_of_not_fits (h : ChipsInv d s) (hfits : ¬ Fits d s e)
    (hstep : chipStep d s e = some t) : ¬ Sound t := by
  cases e with
  | probe i o =>
      rcases Classical.not_imp.mp hfits with ⟨rfl, hbound⟩
      rcases not_forall.mp hbound with ⟨j, hj⟩
      exact (h.1 rfl).not_sound ((Bool.not_eq_false _).mp hj) hstep
  | remove i busy =>
      by_cases hd : d = .fakeGpioChip
      · subst hd
        exact absurd ⟨nofun, nofun⟩ hfits
      · exact (h.2 hd).not_sound hfits hstep

/-- **The chips of the frameworks are sound exactly as long as the condition is met**: by the probes
of the static chip, the removals of PWM chips and the removals of IIO devices; for the mcp23016 in
every run. -/
theorem chips_sound_iff (d : Driver) (es : List (ChipEvent ι)) (u : State ι)
    (hrun : run (chipStep d) (start ι) es = some u) :
    Always (chipStep d) Sound (start ι) es ↔
      Along (chipStep d) (fun _ => Fits d) (start ι) es := by
  rw [always_iff, and_iff_right (chipsInv_start d).sound]
  apply along_iff (I := ChipsInv d) ?_ ?_ es (start ι) u (chipsInv_start d) hrun
  · intro s e t hinv hfits hstep
    exact chipsInv_step hinv hfits hstep
  · intro s e t hinv hstep
    constructor
    · intro hsound
      by_contra hfits
      exact not_sound_of_not_fits hinv hfits hstep (hsound t hstep)
    · intro hfits t' ht'
      exact (chipsInv_step hinv hfits ht').sound

/-- The PWM chip is in use when its device goes. -/
theorem chips_sound_iff_busy :
    ∃ u, run (chipStep .fakePwm) (start Unit) [.probe () .fine, .remove () true] = some u ∧
      ¬ Always (chipStep .fakePwm) Sound (start Unit) [.probe () .fine, .remove () true] := by
  have hall : (run (chipStep .fakePwm) (start Unit)
      [.probe () .fine, .remove () true]).isSome = true := by
    decide +kernel
  rcases Option.isSome_iff_exists.mp hall with ⟨u, hu⟩
  refine ⟨u, hu, ?_⟩
  rw [chips_sound_iff .fakePwm _ u hu]
  intro hfits
  have hbefore : (run (chipStep .fakePwm) (start Unit) [.probe () .fine]).isSome = true := by
    decide +kernel
  rcases Option.isSome_iff_exists.mp hbefore with ⟨s, hs⟩
  exact absurd ((hfits [.probe () .fine] (.remove () true) [] s rfl hs).1 rfl) (by decide)

end

end

end LinuxDrivers.Chips
