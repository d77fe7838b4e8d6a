import LinuxDrivers.Lib.Run
import LinuxDrivers.Rtc.Independence
import Mathlib.Data.Rat.Floor
import Mathlib.Tactic.Linarith
import Mathlib.Tactic.NormNum

set_option autoImplicit false

/-! # Elapsed time, to the nearest second

One device is probed and then set and read, at uptimes that do not decrease. `ShowsTime` says
what the readings should be: the time set last and the exact time that has gone by since then,
rounded half up to a whole second. The exact times are rational numbers of seconds, whereas the
driver subtracts `struct timespec`s and looks at the nanoseconds of the difference.

`showsTime` holds of every run, with any library whose conversions are exact below some `limit`,
as long as what is to be shown is below it. -/

namespace LinuxDrivers.Rtc

open Lib

/-- A call of the RTC core, at an uptime in nanoseconds. -/
inductive RtcCall (Tm : Type) where
  | setTime (uptime : Nat) (tm : Tm)
  | readTime (uptime : Nat)

def RtcCall.uptime {Tm : Type} : RtcCall Tm → Nat
  | .setTime uptime _ => uptime
  | .readTime uptime => uptime

/-- The driver with its device probed, and the uptime of the last call. -/
structure Probed where
  globals : Globals
  uptime : Nat

/-- The device is probed at `uptime`, the first one since the module was loaded. -/
def Probed.start (uptime : Nat) : Probed := ⟨(fakeRtcProbe uptime 0 ⟨⟨0, 0⟩, 0⟩).2, uptime⟩

/-- The uptime does not go back. -/
def callStep {Tm : Type} (ops : RtcOps Tm) (s : Probed) (c : RtcCall Tm) : Option Probed :=
  if c.uptime < s.uptime then none
  else
    match c with
    | .setTime uptime tm => some ⟨(fakeRtcSetTime ops uptime tm).2, uptime⟩
    | .readTime uptime => some ⟨s.globals, uptime⟩

section

variable {Tm : Type} (a : Arch) (ops : RtcOps Tm) (probe : Nat)

/-- What a read at `uptime` gives after the calls `pre`. -/
def reading (pre : List (RtcCall Tm)) (uptime : Nat) : Option Tm :=
  (run (callStep ops) (.start probe) pre).bind fun s =>
    if uptime < s.uptime then none else some (fakeRtcReadTime a ops uptime s.globals).2

/-! ## What should be shown -/

/-- A time in seconds, and the uptime at which it was set. -/
structure SetAt where
  time : Nat
  uptime : Nat

def SetAt.after (s : SetAt) : RtcCall Tm → SetAt
  | .setTime uptime tm => ⟨ops.rtcTmToTime tm, uptime⟩
  | .readTime _ => s

/-- The last setting; the time 0 at the probe if there is none. -/
def lastSet (calls : List (RtcCall Tm)) : SetAt := calls.foldl (SetAt.after ops) ⟨0, probe⟩

/-- The exact time from `b` to `u`, in seconds. -/
def elapsed (b u : Nat) : ℚ := ((u : ℚ) - b) / 10 ^ 9

/-- The time to be shown at `uptime`. -/
def SetAt.wholeSecond (s : SetAt) (uptime : Nat) : Int :=
  s.time + ⌊elapsed s.uptime uptime + 1 / 2⌋

def NoSet (calls : List (RtcCall Tm)) : Prop := ∀ u tm, RtcCall.setTime u tm ∉ calls

/-- Each reading is the last setting and the time since then, rounded. So a reading at the moment
of a setting gives it back, and of two readings without a setting in between the second one is
not less, and more by what has gone by, up to less than a second. -/
structure ShowsTime (calls : List (RtcCall Tm)) : Prop where
  shown : ∀ pre u post, calls = pre ++ .readTime u :: post →
    ∃ tm, reading a ops probe pre u = some tm ∧
      (ops.rtcTmToTime tm : Int) = (lastSet ops probe pre).wholeSecond u
  atSetting : ∀ pre u tm mid post, calls = pre ++ .setTime u tm :: (mid ++ .readTime u :: post) →
    NoSet mid → ∃ tm', reading a ops probe (pre ++ .setTime u tm :: mid) u = some tm' ∧
      ops.rtcTmToTime tm' = ops.rtcTmToTime tm
  forward : ∀ pre u mid v post tm tm',
    calls = pre ++ .readTime u :: (mid ++ .readTime v :: post) → NoSet mid →
    reading a ops probe pre u = some tm →
    reading a ops probe (pre ++ .readTime u :: mid) v = some tm' →
    ops.rtcTmToTime tm ≤ ops.rtcTmToTime tm' ∧
      |(ops.rtcTmToTime tm' : ℚ) - ops.rtcTmToTime tm - elapsed u v| < 1

end

/-- A read adds up to less than `limit` seconds. -/
def SumFits {Tm : Type} (limit : Nat) (s : Probed) : RtcCall Tm → Prop
  | .readTime uptime => s.globals.clock uptime < limit
  | .setTime _ _ => True

/-! ## Rounding -/

/-- **The rounding of the driver is that of exact time.** -/
theorem roundedSecs_eq_floor (b u : Nat) :
    roundedSecs ((u : Int) - b) = ⌊elapsed b u + 1 / 2⌋ := by
  have hsum : elapsed b u + 1 / 2
      = (((u : Int) - b + 500000000 : Int) : ℚ) / (1000000000 : Nat) := by
    unfold elapsed
    push_cast
    ring
  rw [hsum, Rat.floor_intCast_div_natCast]
  rfl

theorem elapsed_self (b : Nat) : elapsed b b = 0 := by simp [elapsed]

theorem elapsed_nonneg {b u : Nat} (h : b ≤ u) : 0 ≤ elapsed b u := by
  have hcast : (b : ℚ) ≤ u := Nat.cast_le.mpr h
  exact div_nonneg (sub_nonneg.mpr hcast) (by norm_num)

theorem elapsed_sub (b u v : Nat) : elapsed b v - elapsed b u = elapsed u v := by
  unfold elapsed
  ring

@[simp] theorem wholeSecond_self (s : SetAt) : s.wholeSecond s.uptime = s.time := by
  have hhalf : ⌊(1 / 2 : ℚ)⌋ = 0 := by norm_num
  unfold SetAt.wholeSecond
  rw [elapsed_self, zero_add, hhalf, add_zero]

theorem wholeSecond_mono (s : SetAt) {u v : Nat} (h : u ≤ v) :
    s.wholeSecond u ≤ s.wholeSecond v := by
  have hle : elapsed s.uptime u ≤ elapsed s.uptime v :=
    sub_nonneg.mp (by rw [elapsed_sub]; exact elapsed_nonneg h)
  unfold SetAt.wholeSecond
  have := Int.floor_le_floor (add_le_add_left hle (1 / 2))
  omega

/-- Each of two readings is off by at most half a second, and only in one direction. -/
theorem abs_wholeSecond_sub (s : SetAt) (u v : Nat) :
    |(s.wholeSecond v : ℚ) - s.wholeSecond u - elapsed u v| < 1 := by
  have hsub := elapsed_sub s.uptime u v
  have hu := Int.floor_le (elapsed s.uptime u + 1 / 2)
  have hu' := Int.lt_floor_add_one (elapsed s.uptime u + 1 / 2)
  have hv := Int.floor_le (elapsed s.uptime v + 1 / 2)
  have hv' := Int.lt_floor_add_one (elapsed s.uptime v + 1 / 2)
  unfold SetAt.wholeSecond
  push_cast
  rw [abs_lt]
  constructor
  · linarith
  · linarith

/-! ## Runs -/

section

variable {Tm : Type} {ops : RtcOps Tm} {probe : Nat} {s t : Probed} {calls : List (RtcCall Tm)}

theorem callStep_setTime {u : Nat} {tm : Tm} (h : callStep ops s (.setTime u tm) = some t) :
    s.uptime ≤ u ∧ t = ⟨⟨getUptime u, ops.rtcTmToTime tm⟩, u⟩ := by
  unfold callStep at h
  split_ifs at h with hlt
  exact ⟨not_lt.mp hlt, (Option.some.inj h).symm⟩

theorem callStep_readTime {u : Nat} (h : callStep ops s (.readTime u) = some t) :
    s.uptime ≤ u ∧ t = ⟨s.globals, u⟩ := by
  unfold callStep at h
  split_ifs at h with hlt
  exact ⟨not_lt.mp hlt, (Option.some.inj h).symm⟩

theorem callStep_uptime {c : RtcCall Tm} (h : callStep ops s c = some t) :
    s.uptime ≤ c.uptime ∧ t.uptime = c.uptime := by
  cases c with
  | setTime u tm =>
      rcases callStep_setTime h with ⟨hle, rfl⟩
      exact ⟨hle, rfl⟩
  | readTime u =>
      rcases callStep_readTime h with ⟨hle, rfl⟩
      exact ⟨hle, rfl⟩

theorem uptime_mono (h : run (callStep ops) s calls = some t) : s.uptime ≤ t.uptime := by
  refine run_induct_all (I := fun _ t => s.uptime ≤ t.uptime) (le_refl _) ?_ calls t h
  intro _ u c v _ hu hstep
  rcases callStep_uptime hstep with ⟨hle, heq⟩
  omega

theorem NoSet.cons_readTime (h : NoSet calls) (u : Nat) : NoSet (.readTime u :: calls) := by
  intro v tm hmem
  rcases List.mem_cons.mp hmem with heq | hmem
  · cases heq
  · exact h v tm hmem

theorem lastSet_append_noSet {mid : List (RtcCall Tm)} (hmid : NoSet mid) :
    lastSet ops probe (calls ++ mid) = lastSet ops probe calls := by
  unfold lastSet
  rw [List.foldl_append]
  generalize calls.foldl (SetAt.after ops) ⟨0, probe⟩ = last
  induction mid with
  | nil => rfl
  | cons c mid ih =>
      cases c with
      | setTime u tm => exact absurd (List.mem_cons_self ..) (hmid u tm)
      | readTime u => exact ih fun u tm hmem => hmid u tm (List.mem_cons_of_mem _ hmem)

/-- The two variables of the driver are the last setting. -/
structure HoldsSet (last : SetAt) (s : Probed) : Prop where
  globals : s.globals = ⟨getUptime last.uptime, last.time⟩
  past : last.uptime ≤ s.uptime

theorem holdsSet_run (h : run (callStep ops) (.start probe) calls = some s) :
    HoldsSet (lastSet ops probe calls) s := by
  refine run_induct_all (I := fun calls s => HoldsSet (lastSet ops probe calls) s)
    ⟨rfl, le_refl _⟩ ?_ calls s h
  intro calls s c t _ hs hstep
  unfold lastSet at hs ⊢
  rw [List.foldl_append]
  cases c with
  | setTime u tm =>
      rcases callStep_setTime hstep with ⟨-, rfl⟩
      exact ⟨rfl, le_refl _⟩
  | readTime u =>
      rcases callStep_readTime hstep with ⟨hle, rfl⟩
      exact ⟨hs.globals, le_trans hs.past hle⟩

/-- What the clock of the driver shows is the last setting and the time since then. -/
theorem HoldsSet.clock {last : SetAt} (h : HoldsSet last s) (u : Nat) :
    s.globals.clock u = last.wholeSecond u := by
  unfold Globals.clock SetAt.wholeSecond
  rw [h.globals]
  show (last.time : Int) + roundedSecs (u - (Timespec.ofNs last.uptime).ns) = _
  rw [ofNs_ns, roundedSecs_eq_floor]

/-- A reading is not before the one it follows on. -/
theorem readTime_le {a : Arch} {pre mid : List (RtcCall Tm)} {u v : Nat} {tm : Tm}
    (h : reading a ops probe (pre ++ .readTime u :: mid) v = some tm) : u ≤ v := by
  unfold reading at h
  rcases Option.bind_eq_some_iff.mp h with ⟨t, ht, hread⟩
  rw [run_append, Option.bind_eq_some_iff] at ht
  rcases ht with ⟨s, -, hmid⟩
  rw [run_cons, Option.bind_eq_some_iff] at hmid
  rcases hmid with ⟨s', hs', hmid⟩
  split_ifs at hread with hlt
  calc u = s'.uptime := (callStep_uptime hs').2.symm
    _ ≤ t.uptime := uptime_mono hmid
    _ ≤ v := not_lt.mp hlt

/-- **One reading.** -/
theorem reading_of_fits {a : Arch} {limit : Nat} (hlimit : limit ≤ 2 ^ a.bits)
    (hexact : ∀ time, time < limit → ops.rtcTmToTime (ops.rtcTimeToTm time) = time)
    (hrun : run (callStep ops) (.start probe) calls = some s) {u : Nat} (hu : s.uptime ≤ u)
    (hfits : s.globals.clock u < limit) :
    ∃ tm, reading a ops probe calls u = some tm ∧
      (ops.rtcTmToTime tm : Int) = (lastSet ops probe calls).wholeSecond u := by
  have hlast := holdsSet_run hrun
  have hpast := le_trans hlast.past hu
  have h : s.globals.Fits limit u := by
    refine ⟨?_, hfits⟩
    rw [hlast.globals]
    show (Timespec.ofNs _).ns ≤ _
    rw [ofNs_ns]
    exact Int.ofNat_le.mpr hpast
  refine ⟨(fakeRtcReadTime a ops u s.globals).2, ?_, ?_⟩
  · unfold reading
    rw [hrun, Option.bind_some, if_neg (not_lt.mpr hu)]
  · rw [tmToTime_readTime ops hlimit hexact h, hlast.clock]

end

/-- **The RTC shows elapsed time to the nearest second**, in every run of settings and readings
whose sums stay below the `limit` up to which the conversions are exact. -/
theorem showsTime {Tm : Type} (ops : RtcOps Tm) (limit : Nat) (hlimit : limit ≤ 2 ^ Arch.lp64.bits)
    (hexact : ∀ time, time < limit → ops.rtcTmToTime (ops.rtcTimeToTm time) = time)
    (probe : Nat) (calls : List (RtcCall Tm)) (s : Probed)
    (hrun : run (callStep ops) (.start probe) calls = some s)
    (hfits : Along (callStep ops) (fun _ => SumFits limit) (.start probe) calls) :
    ShowsTime .lp64 ops probe calls := by
  have hshown : ∀ pre u post, calls = pre ++ .readTime u :: post →
      ∃ tm, reading .lp64 ops probe pre u = some tm ∧
        (ops.rtcTmToTime tm : Int) = (lastSet ops probe pre).wholeSecond u := by
    intro pre u post hcalls
    rw [hcalls, run_append, Option.bind_eq_some_iff] at hrun
    rcases hrun with ⟨t, ht, hrest⟩
    rw [run_cons, Option.bind_eq_some_iff] at hrest
    rcases hrest with ⟨v, hv, -⟩
    exact reading_of_fits hlimit hexact ht (callStep_readTime hv).1 (hfits pre _ post t hcalls ht)
  refine ⟨hshown, ?_, ?_⟩
  · intro pre u tm mid post hcalls hmid
    rcases hshown (pre ++ .setTime u tm :: mid) u post (by rw [hcalls]; simp) with ⟨tm', htm, hsecs⟩
    refine ⟨tm', htm, ?_⟩
    -- the last setting is this one
    have hlast : lastSet ops probe (pre ++ .setTime u tm :: mid) = ⟨ops.rtcTmToTime tm, u⟩ := by
      rw [List.append_cons, lastSet_append_noSet hmid]
      simp [lastSet, SetAt.after]
    rw [hlast] at hsecs
    exact Int.ofNat.inj (hsecs.trans (wholeSecond_self _))
  · intro pre u mid v post tm tm' hcalls hmid hfirst hsecond
    have hsecs : (ops.rtcTmToTime tm : Int) = (lastSet ops probe pre).wholeSecond u := by
      rcases hshown pre u _ hcalls with ⟨tm₁, htm, hsecs⟩
      obtain rfl : tm = tm₁ := Option.some.inj (hfirst.symm.trans htm)
      exact hsecs
    have hsecs' : (ops.rtcTmToTime tm' : Int) = (lastSet ops probe pre).wholeSecond v := by
      rcases hshown (pre ++ .readTime u :: mid) v post (by rw [hcalls]; simp) with ⟨tm₁, htm, hsecs'⟩
      obtain rfl : tm' = tm₁ := Option.some.inj (hsecond.symm.trans htm)
      rw [lastSet_append_noSet (hmid.cons_readTime u)] at hsecs'
      exact hsecs'
    have hle : u ≤ v := readTime_le hsecond
    constructor
    · have := wholeSecond_mono (lastSet ops probe pre) hle
      omega
    · have habs := abs_wholeSecond_sub (lastSet ops probe pre) u v
      rw [← hsecs, ← hsecs'] at habs
      exact_mod_cast habs

instance {Tm : Type} (limit : Nat) (s : Probed) : ∀ c : RtcCall Tm, Decidable (SumFits limit s c)
  | .readTime uptime => inferInstanceAs (Decidable (s.globals.clock uptime < limit))
  | .setTime _ _ => inferInstanceAs (Decidable True)

/-- A device that is read before it is set, and then set twice; the last reading comes a second
and a half after the last setting, and its nanoseconds are fewer. -/
theorem showsTime_set_twice :
    ShowsTime .lp64 (januaryLib .lp64).toRtcOps 3600400000000
      [.readTime 3601000000000, .setTime 4000100000000 ⟨0, 10, 0, 1, 0, 70⟩,
        .readTime 4000100000000, .setTime 5000700000000 ⟨30, 10, 0, 1, 0, 70⟩,
        .readTime 5002200000000] := by
  have hrun : (run (callStep (januaryLib .lp64).toRtcOps) (.start 3600400000000)
      [.readTime 3601000000000, .setTime 4000100000000 ⟨0, 10, 0, 1, 0, 70⟩,
        .readTime 4000100000000, .setTime 5000700000000 ⟨30, 10, 0, 1, 0, 70⟩,
        .readTime 5002200000000]).isSome = true := by
    decide +kernel
  rcases Option.isSome_iff_exists.mp hrun with ⟨s, hs⟩
  exact showsTime _ (2 ^ Arch.lp64.bits) (le_refl _) (januaryLib .lp64).tmToTime_timeToTm _ _ s hs
    (along_of_checkAlong _ _ (by decide +kernel))

end LinuxDrivers.Rtc
