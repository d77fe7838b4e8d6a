import LinuxDrivers.Kernel.CTypes

set_option autoImplicit false

/-! # The fake RTC driver

`fake-rtc.c` keeps the date in two file-level variables: `time` is the date at some moment and
`begin_time` is the uptime at that moment. `fake_rtc_set_time` writes both of them,
`fake_rtc_probe` only `begin_time`.

The uptime is counted in nanoseconds. The conversions between `struct rtc_time` and seconds
are those of the RTC library (`RtcOps`); in an `RtcLib` they are inverse to each other below a
limit, which is at most what an `unsigned long` can hold. `unsigned long` is as wide as `size_t`. -/

namespace LinuxDrivers.Rtc

def NSEC_PER_SEC : Int := 1000000000

structure Timespec where
  tv_sec : Int
  tv_nsec : Int
  deriving DecidableEq

def Timespec.ns (ts : Timespec) : Int := ts.tv_sec * NSEC_PER_SEC + ts.tv_nsec

/-- The normalised form, with `tv_nsec` between zero and a second. -/
def Timespec.ofNs (ns : Int) : Timespec := ⟨ns / NSEC_PER_SEC, ns % NSEC_PER_SEC⟩

def timespecSub (lhs rhs : Timespec) : Timespec := .ofNs (lhs.ns - rhs.ns)

def timespecToUlong (a : Arch) (ts : Timespec) : Nat :=
  a.sizeT (if ts.tv_nsec < NSEC_PER_SEC / 2 then ts.tv_sec else ts.tv_sec + 1)

/-- `getrawmonotonic`. -/
def getUptime (uptime : Nat) : Timespec := .ofNs uptime

/-- The RTC library's conversions and its check of a date, which is zero for a valid one. -/
structure RtcOps (Tm : Type) where
  rtcTmToTime : Tm → Nat
  rtcTimeToTm : Nat → Tm
  rtcValidTm : Tm → Int

/-- The conversions are exact below `limit`. -/
structure RtcLib (a : Arch) (Tm : Type) extends RtcOps Tm where
  limit : Nat
  limit_pos : 0 < limit
  limit_le : limit ≤ 2 ^ a.bits
  tmToTime_timeToTm : ∀ time, time < limit → rtcTmToTime (rtcTimeToTm time) = time

/-- The file-level variables. -/
structure Globals where
  begin_time : Timespec
  time : Nat
  deriving DecidableEq

section

variable (a : Arch) {Tm : Type} (ops : RtcOps Tm) (uptime : Nat)

/-- The returned value and what `tm` is set to. -/
def fakeRtcReadTime (g : Globals) : Int × Tm :=
  let now := getUptime uptime
  let diff := timespecSub now g.begin_time
  let tm := ops.rtcTimeToTm (a.sizeT ((g.time : Int) + timespecToUlong a diff))
  (ops.rtcValidTm tm, tm)

def fakeRtcSetTime (tm : Tm) : Int × Globals :=
  (0, ⟨getUptime uptime, ops.rtcTmToTime tm⟩)

/-- `err` is zero if the RTC device could be registered, and otherwise the error number. -/
def fakeRtcProbe (err : Int) (g : Globals) : Int × Globals :=
  (err, { g with begin_time := getUptime uptime })

/-- Only the RTC device goes. -/
def fakeRtcRemove (g : Globals) : Int × Globals := (0, g)

end

/-! ## The seconds since `begin_time` -/

/-- Nanoseconds rounded to seconds. -/
def roundedSecs (ns : Int) : Int := (ns + NSEC_PER_SEC / 2) / NSEC_PER_SEC

@[simp] theorem ofNs_ns (ns : Int) : (Timespec.ofNs ns).ns = ns :=
  Int.ediv_mul_add_emod ns NSEC_PER_SEC

theorem timespecToUlong_ofNs (a : Arch) (ns : Int) :
    timespecToUlong a (.ofNs ns) = a.sizeT (roundedSecs ns) := by
  unfold timespecToUlong Timespec.ofNs roundedSecs NSEC_PER_SEC
  congr 1
  simp only
  split_ifs <;> omega

theorem roundedSecs_mono {m n : Int} (h : m ≤ n) : roundedSecs m ≤ roundedSecs n := by
  unfold roundedSecs NSEC_PER_SEC
  omega

@[simp] theorem roundedSecs_zero : roundedSecs 0 = 0 := rfl

theorem roundedSecs_nonneg {n : Int} (h : 0 ≤ n) : 0 ≤ roundedSecs n := roundedSecs_mono h

/-- What the clock shows: `time` and the seconds since `begin_time`. -/
def Globals.clock (g : Globals) (uptime : Nat) : Int :=
  g.time + roundedSecs (uptime - g.begin_time.ns)

/-- `begin_time` is not in the future and the clock is below `limit`. -/
structure Globals.Fits (limit : Nat) (g : Globals) (uptime : Nat) : Prop where
  begun : g.begin_time.ns ≤ uptime
  range : g.clock uptime < limit

section

variable {a : Arch} {Tm : Type} (ops : RtcOps Tm) {limit uptime : Nat} {g : Globals}

theorem Globals.Fits.elapsed (h : g.Fits limit uptime) :
    0 ≤ roundedSecs (uptime - g.begin_time.ns) :=
  roundedSecs_nonneg (Int.sub_nonneg.mpr h.begun)

theorem Globals.Fits.clock_nonneg (h : g.Fits limit uptime) : 0 ≤ g.clock uptime := by
  have hsecs := h.elapsed
  unfold Globals.clock
  omega

/-- **Reading gives the clock**, as long as an `unsigned long` holds it. -/
theorem fakeRtcReadTime_of_fits (hlimit : limit ≤ 2 ^ a.bits) (h : g.Fits limit uptime) :
    (fakeRtcReadTime a ops uptime g).2 = ops.rtcTimeToTm (g.clock uptime).toNat := by
  have hrange := h.range
  have hsecs := h.elapsed
  unfold Globals.clock at *
  have hns : timespecSub (getUptime uptime) g.begin_time = .ofNs (uptime - g.begin_time.ns) := by
    unfold timespecSub getUptime
    rw [ofNs_ns]
  have hdiff : timespecToUlong a (.ofNs (uptime - g.begin_time.ns))
      = (roundedSecs (uptime - g.begin_time.ns)).toNat := by
    rw [timespecToUlong_ofNs]
    conv_lhs => rw [← Int.toNat_of_nonneg hsecs]
    exact a.sizeT_of_lt (by omega)
  show ops.rtcTimeToTm (a.sizeT _) = _
  rw [hns, hdiff, ← Int.natCast_add, a.sizeT_of_lt (by omega)]
  congr 1
  omega

/-- The seconds that a reading stands for, if the conversions are exact there. -/
theorem tmToTime_readTime (hlimit : limit ≤ 2 ^ a.bits)
    (hexact : ∀ time, time < limit → ops.rtcTmToTime (ops.rtcTimeToTm time) = time)
    (h : g.Fits limit uptime) :
    (ops.rtcTmToTime (fakeRtcReadTime a ops uptime g).2 : Int) = g.clock uptime := by
  have hrange := h.range
  have hnonneg := h.clock_nonneg
  rw [fakeRtcReadTime_of_fits ops hlimit h, hexact _ (by omega)]
  exact Int.toNat_of_nonneg hnonneg

/-- Two readings at the same clock are the same. -/
theorem readTime_congr {uptime' : Nat} {g' : Globals} (hlimit : limit ≤ 2 ^ a.bits)
    (h : g.Fits limit uptime) (h' : g'.Fits limit uptime')
    (hclock : g'.clock uptime' = g.clock uptime) :
    fakeRtcReadTime a ops uptime' g' = fakeRtcReadTime a ops uptime g := by
  have htm : (fakeRtcReadTime a ops uptime' g').2 = (fakeRtcReadTime a ops uptime g).2 := by
    rw [fakeRtcReadTime_of_fits ops hlimit h, fakeRtcReadTime_of_fits ops hlimit h', hclock]
  refine Prod.ext ?_ htm
  show ops.rtcValidTm (fakeRtcReadTime a ops uptime' g').2 = _
  rw [htm]
  rfl

/-- Setting the time sets the clock. -/
theorem fits_setTime (uptime : Nat) {tm : Tm} (htm : ops.rtcTmToTime tm < limit) :
    (fakeRtcSetTime ops uptime tm).2.Fits limit uptime ∧
      (fakeRtcSetTime ops uptime tm).2.clock uptime = ops.rtcTmToTime tm := by
  have hclock : (fakeRtcSetTime ops uptime tm).2.clock uptime = ops.rtcTmToTime tm := by
    show (ops.rtcTmToTime tm : Int) + roundedSecs (uptime - (getUptime uptime).ns) = _
    simp [getUptime]
  refine ⟨⟨?_, ?_⟩, hclock⟩
  · show (getUptime uptime).ns ≤ uptime
    simp [getUptime]
  · rw [hclock]
    exact Int.ofNat_lt.mpr htm

/-- **Probing sets the clock back to `time`.** -/
theorem fits_probe (h : g.Fits limit uptime) (err : Int) :
    (fakeRtcProbe uptime err g).2.Fits limit uptime ∧
      (fakeRtcProbe uptime err g).2.clock uptime = g.time := by
  have hclock : (fakeRtcProbe uptime err g).2.clock uptime = g.time := by
    show (g.time : Int) + roundedSecs (uptime - (getUptime uptime).ns) = _
    simp [getUptime]
  refine ⟨⟨?_, ?_⟩, hclock⟩
  · show (getUptime uptime).ns ≤ uptime
    simp [getUptime]
  · rw [hclock]
    have hrange := h.range
    have hsecs := h.elapsed
    unfold Globals.clock at hrange
    omega

/-- The clock only goes forward with the uptime. -/
theorem clock_advance (g : Globals) (uptime ns : Nat) :
    g.clock uptime ≤ g.clock (uptime + ns) := by
  unfold Globals.clock
  exact Int.add_le_add_left (roundedSecs_mono (by omega)) _

end

end LinuxDrivers.Rtc
