import LinuxDrivers.Lib.Run
import LinuxDrivers.Rtc.Driver
import Mathlib.Logic.Function.Basic

set_option autoImplicit false

/-! # Several fake RTC devices

Any number of devices are probed, removed, set and read in any order while the uptime goes on.
`Independent` says that what is done to one device does not change what another one reads, and
`NeverBack` that between two settings of a device its readings do not decrease.

All devices share the two variables of the driver, so both hold as long as the clock stays where
it is when it is probed or set for one device and another one looks (`Steady`):
`rtc_holds_of_steady`. -/

namespace LinuxDrivers.Rtc

open Lib

/-- The driver and its devices. `shown` is where the clock stood when the device was last read, if
the device has not been set since. -/
structure Bench (ι : Type) where
  globals : Globals
  uptime : Nat
  registered : ι → Bool
  shown : ι → Option Int

/-- The system has just been booted; the first probe may come at any time after. -/
def Bench.start (ι : Type) : Bench ι := ⟨⟨⟨0, 0⟩, 0⟩, 0, fun _ => false, fun _ => none⟩

inductive RtcEvent (ι Tm : Type) where
  | advance (ns : Nat)
  | probe (d : ι) (err : Int)
  | remove (d : ι)
  | setTime (d : ι) (tm : Tm)
  | readTime (d : ι)

section

variable {ι Tm : Type} [DecidableEq ι] {a : Arch} (lib : RtcLib a Tm)

/-- What the device's clock shows. -/
def Bench.clock (s : Bench ι) : Int := s.globals.clock s.uptime

/-- What a reading returns. -/
def Bench.readTime (s : Bench ι) : Int × Tm :=
  fakeRtcReadTime a lib.toRtcOps s.uptime s.globals

/-- The seconds of a reading. -/
def Bench.reading (s : Bench ι) : Nat := lib.rtcTmToTime (s.readTime lib).2

def rtcStep (s : Bench ι) : RtcEvent ι Tm → Option (Bench ι)
  | .advance ns => some { s with uptime := s.uptime + ns }
  | .probe d err =>
      if s.registered d = true then none
      else
        let (ret, globals) := fakeRtcProbe s.uptime err s.globals
        some { s with
          globals := globals, registered := Function.update s.registered d (decide (ret = 0)) }
  | .remove d =>
      if s.registered d = false then none
      else
        let (_, globals) := fakeRtcRemove s.globals
        some { s with globals := globals, registered := Function.update s.registered d false }
  | .setTime d tm =>
      if s.registered d = false then none
      else
        let (_, globals) := fakeRtcSetTime lib.toRtcOps s.uptime tm
        some { s with globals := globals, shown := Function.update s.shown d none }
  | .readTime d =>
      if s.registered d = false then none
      else some { s with shown := Function.update s.shown d (some s.clock) }

section

variable {lib} {s t : Bench ι} {d : ι}

theorem rtcStep_probe {err : Int} (h : rtcStep lib s (.probe d err) = some t) :
    t = { s with
      globals := (fakeRtcProbe s.uptime err s.globals).2
      registered := Function.update s.registered d
        (decide ((fakeRtcProbe s.uptime err s.globals).1 = 0)) } := by
  simp only [rtcStep] at h
  split_ifs at h
  exact (Option.some.inj h).symm

theorem rtcStep_remove (h : rtcStep lib s (.remove d) = some t) :
    t = { s with registered := Function.update s.registered d false } := by
  simp only [rtcStep] at h
  split_ifs at h
  exact (Option.some.inj h).symm

theorem rtcStep_setTime {tm : Tm} (h : rtcStep lib s (.setTime d tm) = some t) :
    t = { s with
      globals := (fakeRtcSetTime lib.toRtcOps s.uptime tm).2
      shown := Function.update s.shown d none } := by
  simp only [rtcStep] at h
  split_ifs at h
  exact (Option.some.inj h).symm

theorem rtcStep_readTime (h : rtcStep lib s (.readTime d) = some t) :
    t = { s with shown := Function.update s.shown d (some s.clock) } := by
  simp only [rtcStep] at h
  split_ifs at h
  exact (Option.some.inj h).symm

end

/-! ## The two properties -/

/-- A probe, a removal or a setting of another device than `d`. -/
def RtcEvent.Other (d : ι) : RtcEvent ι Tm → Prop
  | .probe d' _ => d' ≠ d
  | .remove d' => d' ≠ d
  | .setTime d' _ => d' ≠ d
  | _ => False

/-- What is done to another device does not change what a registered device reads. -/
def Independent (es : List (RtcEvent ι Tm)) : Prop :=
  ∀ pre e post s t d, es = pre ++ e :: post →
    run (rtcStep lib) (Bench.start ι) pre = some s → rtcStep lib s e = some t →
    e.Other d → s.registered d = true → t.readTime lib = s.readTime lib

/-- Two readings of a device that is not set in between do not decrease. -/
def NeverBack (es : List (RtcEvent ι Tm)) : Prop :=
  ∀ pre mid post d s t, es = pre ++ .readTime d :: (mid ++ .readTime d :: post) →
    (∀ tm, .setTime d tm ∉ mid) → run (rtcStep lib) (Bench.start ι) pre = some s →
    run (rtcStep lib) (Bench.start ι) (pre ++ .readTime d :: mid) = some t →
    s.reading lib ≤ t.reading lib

/-! ## The condition -/

/-- A device other than `d` is registered. -/
def Bench.Shared (s : Bench ι) (d : ι) : Prop := ∃ d', d' ≠ d ∧ s.registered d' = true

/-- No device has been read later than at `c` since it was set. -/
def Bench.ShownUpTo (s : Bench ι) (c : Int) : Prop := ∀ d, ∀ v ∈ s.shown d, v ≤ c

/-- The clock stays in the range in which the conversions are exact. Where a probe puts it back to
`time`, or a setting moves it, no other device is registered, or it stays where it is; and nobody
has seen it stand later. -/
def Steady (s : Bench ι) : RtcEvent ι Tm → Prop
  | .advance ns => s.globals.clock (s.uptime + ns) < lib.limit
  | .probe d _ => (s.Shared d → s.clock = s.globals.time) ∧ s.ShownUpTo s.globals.time
  | .setTime d tm =>
      lib.rtcTmToTime tm < lib.limit ∧ (s.Shared d → s.clock = lib.rtcTmToTime tm) ∧
        ∀ d', d' ≠ d → ∀ v ∈ s.shown d', v ≤ lib.rtcTmToTime tm
  | _ => True

/-- The invariant: the clock is in its range, and nobody has seen it stand later. -/
structure RtcInv (limit : Nat) (s : Bench ι) : Prop where
  fits : s.globals.Fits limit s.uptime
  shown : s.ShownUpTo s.clock

theorem rtcInv_start (ι : Type) {limit : Nat} (hpos : 0 < limit) :
    RtcInv limit (Bench.start ι) := by
  refine ⟨⟨le_refl _, ?_⟩, fun d v hv => by cases hv⟩
  have hclock : (Bench.start ι).globals.clock (Bench.start ι).uptime = 0 := by
    simp [Bench.start, Globals.clock, Timespec.ns]
  rw [hclock]
  exact Int.natCast_pos.mpr hpos

section

variable {lib} {s t : Bench ι} {e : RtcEvent ι Tm}

/-- One steady step. -/
theorem rtcInv_step (h : RtcInv lib.limit s) (hc : Steady lib s e)
    (hstep : rtcStep lib s e = some t) : RtcInv lib.limit t := by
  cases e with
  | advance ns =>
      obtain rfl := Option.some.inj hstep
      have hle := clock_advance s.globals s.uptime ns
      refine ⟨⟨?_, hc⟩, fun d v hv => le_trans (h.shown d v hv) hle⟩
      have := h.fits.begun
      push_cast
      omega
  | probe d err =>
      obtain rfl := rtcStep_probe hstep
      -- the clock goes back to `time`; the condition says that nobody has seen it stand later
      rcases fits_probe h.fits err with ⟨hfits, hclock⟩
      refine ⟨hfits, fun d' v hv => ?_⟩
      exact le_of_le_of_eq (hc.2 d' v hv) hclock.symm
  | remove d =>
      obtain rfl := rtcStep_remove hstep
      exact ⟨h.fits, h.shown⟩
  | setTime d tm =>
      obtain rfl := rtcStep_setTime hstep
      rcases fits_setTime lib.toRtcOps s.uptime hc.1 with ⟨hfits, hclock⟩
      refine ⟨hfits, fun d' v hv => ?_⟩
      change v ∈ Function.update s.shown d none d' at hv
      by_cases hd : d' = d
      · -- the device itself starts anew
        subst hd
        rw [Function.update_self] at hv
        cases hv
      · rw [Function.update_of_ne hd] at hv
        exact le_of_le_of_eq (hc.2.2 d' hd v hv) hclock.symm
  | readTime d =>
      obtain rfl := rtcStep_readTime hstep
      refine ⟨h.fits, fun d' v hv => ?_⟩
      change v ∈ Function.update s.shown d (some s.clock) d' at hv
      by_cases hd : d' = d
      · subst hd
        rw [Function.update_self] at hv
        exact le_of_eq (Option.some.inj hv).symm
      · rw [Function.update_of_ne hd] at hv
        exact h.shown d' v hv

/-- A steady step on one device leaves the clock of the others. -/
theorem clock_of_other {d : ι} (hc : Steady lib s e) (hstep : rtcStep lib s e = some t)
    (hother : e.Other d) (hreg : s.registered d = true) (h : RtcInv lib.limit s) :
    t.clock = s.clock := by
  cases e with
  | advance ns => cases hother
  | probe d' err =>
      obtain rfl := rtcStep_probe hstep
      rw [hc.1 ⟨d, fun hd => hother hd.symm, hreg⟩]
      exact (fits_probe h.fits err).2
  | remove d' =>
      obtain rfl := rtcStep_remove hstep
      rfl
  | setTime d' tm =>
      obtain rfl := rtcStep_setTime hstep
      rw [hc.2.1 ⟨d, fun hd => hother hd.symm, hreg⟩]
      exact (fits_setTime lib.toRtcOps s.uptime hc.1).2
  | readTime d' => cases hother

/-- What a device was last shown stays recorded, or becomes more, until the device is set. -/
theorem shown_step {d : ι} {c : Int} (h : RtcInv lib.limit s) (hstep : rtcStep lib s e = some t)
    (hset : ∀ tm, e ≠ .setTime d tm) (hshown : ∃ v, s.shown d = some v ∧ c ≤ v) :
    ∃ v, t.shown d = some v ∧ c ≤ v := by
  rcases hshown with ⟨v, hv, hle⟩
  have hkeep : t.shown = s.shown → ∃ v, t.shown d = some v ∧ c ≤ v :=
    fun heq => ⟨v, by rw [heq, hv], hle⟩
  cases e with
  | advance ns =>
      obtain rfl := Option.some.inj hstep
      exact hkeep rfl
  | probe d' err =>
      obtain rfl := rtcStep_probe hstep
      exact hkeep rfl
  | remove d' =>
      obtain rfl := rtcStep_remove hstep
      exact hkeep rfl
  | setTime d' tm =>
      obtain rfl := rtcStep_setTime hstep
      have hd : d ≠ d' := fun hd => hset tm (by rw [hd])
      exact ⟨v, (Function.update_of_ne hd none s.shown).trans hv, hle⟩
  | readTime d' =>
      obtain rfl := rtcStep_readTime hstep
      by_cases hd : d = d'
      · subst hd
        exact ⟨s.clock, Function.update_self .., le_trans hle (h.shown d v hv)⟩
      · exact ⟨v, (Function.update_of_ne hd _ s.shown).trans hv, hle⟩

end

/-! ## Runs -/

variable {lib}

theorem rtcInv_run {s t : Bench ι} (h : RtcInv lib.limit s) {es : List (RtcEvent ι Tm)}
    (hc : Along (rtcStep lib) (fun _ => Steady lib) s es)
    (hrun : run (rtcStep lib) s es = some t) : RtcInv lib.limit t := by
  refine run_induct (I := fun _ s => RtcInv lib.limit s) h ?_ es t hc hrun
  intro _ s e t _ hs hst hstep
  exact rtcInv_step hs hst hstep

theorem shown_run {s t : Bench ι} {d : ι} {c : Int} (h : RtcInv lib.limit s)
    {es : List (RtcEvent ι Tm)}
    (hc : Along (rtcStep lib) (fun _ => Steady lib) s es)
    (hrun : run (rtcStep lib) s es = some t) (hset : ∀ tm, .setTime d tm ∉ es)
    (hshown : ∃ v, s.shown d = some v ∧ c ≤ v) : ∃ v, t.shown d = some v ∧ c ≤ v := by
  induction es generalizing s with
  | nil =>
      obtain rfl : s = t := by simpa using hrun
      exact hshown
  | cons e es ih =>
      rw [run_cons, Option.bind_eq_some_iff] at hrun
      rcases hrun with ⟨u, hu, hrun⟩
      rcases along_cons.mp hc with ⟨hfirst, hrest⟩
      apply ih (rtcInv_step h hfirst hu) (hrest u hu) hrun
      · exact fun tm hmem => hset tm (List.mem_cons_of_mem _ hmem)
      · apply shown_step h hu _ hshown
        exact fun tm heq => hset tm (heq ▸ List.mem_cons_self ..)

/-- **Independent devices that never jump back.** In every run whose steps are all steady, what is
done to one device leaves the readings of the others, and the readings of a device do not
decrease until it is set. -/
theorem rtc_holds_of_steady (es : List (RtcEvent ι Tm))
    (hsteady : Along (rtcStep lib) (fun _ => Steady lib) (Bench.start ι) es) :
    Independent lib es ∧ NeverBack lib es := by
  have hstart : RtcInv lib.limit (Bench.start ι) := rtcInv_start ι lib.limit_pos
  constructor
  · intro pre e post s t d hes hs ht hother hreg
    have hinv : RtcInv lib.limit s := rtcInv_run hstart (hes ▸ hsteady).left hs
    have hst : Steady lib s e := hsteady pre e post s hes hs
    exact readTime_congr lib.toRtcOps lib.limit_le hinv.fits (rtcInv_step hinv hst ht).fits
      (clock_of_other hst ht hother hreg hinv)
  · intro pre mid post d s t hes hset hs ht
    have hinv : RtcInv lib.limit s := rtcInv_run hstart (hes ▸ hsteady).left hs
    have hes' : es = (pre ++ .readTime d :: mid) ++ .readTime d :: post := by
      rw [hes, List.append_assoc]
      rfl
    have hinv' : RtcInv lib.limit t := rtcInv_run hstart (hes' ▸ hsteady).left ht
    -- the first reading is recorded and stays so up to the second one
    rw [run_append, hs, Option.bind_some, run_cons, Option.bind_eq_some_iff] at ht
    rcases ht with ⟨r, hr, hmid⟩
    rcases along_cons.mp (Along.right (hes ▸ hsteady) hs) with ⟨hfirst, hrest⟩
    have hshown : ∃ v, r.shown d = some v ∧ s.clock ≤ v := by
      obtain rfl := rtcStep_readTime hr
      exact ⟨s.clock, Function.update_self .., le_refl _⟩
    obtain ⟨v, hv, hle⟩ :=
      shown_run (rtcInv_step hinv hfirst hr) (hrest r hr).left hmid hset hshown
    have hclock : s.clock ≤ t.clock := le_trans hle (hinv'.shown d v hv)
    have hread := tmToTime_readTime lib.toRtcOps lib.limit_le lib.tmToTime_timeToTm hinv.fits
    have hread' := tmToTime_readTime lib.toRtcOps lib.limit_le lib.tmToTime_timeToTm hinv'.fits
    show lib.rtcTmToTime _ ≤ lib.rtcTmToTime _
    unfold Bench.clock at hclock
    unfold Bench.readTime
    omega

/-! ## Two devices -/

instance [Fintype ι] (s : Bench ι) (d : ι) : Decidable (s.Shared d) :=
  inferInstanceAs (Decidable (∃ d', d' ≠ d ∧ s.registered d' = true))

instance [Fintype ι] (s : Bench ι) (c : Int) : Decidable (s.ShownUpTo c) :=
  inferInstanceAs (Decidable (∀ d, ∀ v ∈ s.shown d, v ≤ c))

instance [Fintype ι] (s : Bench ι) : ∀ e, Decidable (Steady lib s e)
  | .advance ns => inferInstanceAs (Decidable (s.globals.clock (s.uptime + ns) < lib.limit))
  | .probe d _ => inferInstanceAs (Decidable ((s.Shared d → s.clock = s.globals.time) ∧
      s.ShownUpTo s.globals.time))
  | .setTime d tm => inferInstanceAs (Decidable (lib.rtcTmToTime tm < lib.limit ∧
      (s.Shared d → s.clock = lib.rtcTmToTime tm) ∧
      ∀ d', d' ≠ d → ∀ v ∈ s.shown d', v ≤ lib.rtcTmToTime tm))
  | .remove _ => inferInstanceAs (Decidable True)
  | .readTime _ => inferInstanceAs (Decidable True)

end

/-- `struct rtc_time`, as far as the conversions use it. -/
structure RtcTime where
  tm_sec : Nat
  tm_min : Nat
  tm_hour : Nat
  tm_mday : Nat
  tm_mon : Nat
  tm_year : Nat
  deriving DecidableEq

/-- The conversions of a library that counts the days of January 1970 on and on. -/
def januaryLib (a : Arch) : RtcLib a RtcTime where
  rtcTmToTime tm :=
    a.sizeT ((((tm.tm_mday - 1) * 24 + tm.tm_hour) * 60 + tm.tm_min) * 60 + tm.tm_sec : Nat)
  rtcTimeToTm time :=
    ⟨time % 60, time / 60 % 60, time / 3600 % 24, time / 86400 + 1, 0, 70⟩
  rtcValidTm _ := 0
  limit := 2 ^ a.bits
  limit_pos := Nat.two_pow_pos a.bits
  limit_le := le_refl _
  tmToTime_timeToTm time h := by
    have hsplit : (((time / 86400 + 1 - 1) * 24 + time / 3600 % 24) * 60 + time / 60 % 60) * 60
        + time % 60 = time := by
      omega
    simp only
    rw [hsplit]
    exact a.sizeT_of_lt h

/-- Two devices are probed at once; then they are read a few times, and one of them is removed. -/
theorem rtc_holds_two_devices :
    (run (rtcStep (januaryLib .lp64)) (Bench.start Bool)
      [.advance 3600000000000, .probe true 0, .probe false 0, .advance 10000000000,
        .readTime true, .remove false, .advance 1500000000, .readTime true]).isSome = true ∧
    Independent (januaryLib .lp64) (ι := Bool)
      [.advance 3600000000000, .probe true 0, .probe false 0, .advance 10000000000,
        .readTime true, .remove false, .advance 1500000000, .readTime true] ∧
    NeverBack (januaryLib .lp64) (ι := Bool)
      [.advance 3600000000000, .probe true 0, .probe false 0, .advance 10000000000,
        .readTime true, .remove false, .advance 1500000000, .readTime true] :=
  ⟨by decide +kernel,
    rtc_holds_of_steady _ (along_of_checkAlong _ _ (by decide +kernel))⟩

/-- **A second device is probed**: the clock of the first one, set to ten past midnight and read ten
seconds later, is back at ten past midnight. -/
theorem rtc_jumps_back :
    ¬ (Independent (januaryLib .lp64) (ι := Bool)
      [.advance 3600000000000, .probe true 0, .setTime true ⟨0, 10, 0, 1, 0, 70⟩,
        .advance 10000000000, .readTime true, .probe false 0, .readTime true] ∧
      NeverBack (januaryLib .lp64) (ι := Bool)
      [.advance 3600000000000, .probe true 0, .setTime true ⟨0, 10, 0, 1, 0, 70⟩,
        .advance 10000000000, .readTime true, .probe false 0, .readTime true]) := by
  rintro ⟨-, hback⟩
  have hfirst : (run (rtcStep (januaryLib .lp64)) (Bench.start Bool)
      [.advance 3600000000000, .probe true 0, .setTime true ⟨0, 10, 0, 1, 0, 70⟩,
        .advance 10000000000]).any
      (fun s => s.reading (januaryLib .lp64) = 610) = true := by
    decide +kernel
  have hsecond : (run (rtcStep (januaryLib .lp64)) (Bench.start Bool)
      [.advance 3600000000000, .probe true 0, .setTime true ⟨0, 10, 0, 1, 0, 70⟩,
        .advance 10000000000, .readTime true, .probe false 0]).any
      (fun s => s.reading (januaryLib .lp64) = 600) = true := by
    decide +kernel
  rcases (Option.any_eq_true _ _).mp hfirst with ⟨s, hs, hread⟩
  rcases (Option.any_eq_true _ _).mp hsecond with ⟨t, ht, hread'⟩
  have hle := hback [.advance 3600000000000, .probe true 0,
    .setTime true ⟨0, 10, 0, 1, 0, 70⟩, .advance 10000000000] [.probe false 0] [] true s t rfl
    (by simp) hs ht
  simp only [decide_eq_true_eq] at hread hread'
  omega

end LinuxDrivers.Rtc
