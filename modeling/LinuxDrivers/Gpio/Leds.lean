import LinuxDrivers.Gpio.Banks
import LinuxDrivers.Gpio.GetValue

set_option autoImplicit false

/-! # Two LEDs and a button on the expander

The three modules of chapter 14 show the state of a button on two LEDs: the interrupt of a first
button runs a handler that reads the second one and sets both LEDs. Here the LEDs and the second
button are pins of an mcp23016; the first button, which needs an interrupt, is somewhere else.

The handler asks the driver, and the driver reads INTCAPx. `leds_follow`: as long as the button is
an input its every change is captured, so that what is read is its level, and after every handler
both LEDs are driven at the level that the button had at that read. -/

namespace LinuxDrivers.Gpio

open Lib

/-! ## The modules -/

inductive LedModule where
  | legacy
  | legacyDt
  | descriptor
  deriving DecidableEq

/-- The pins. -/
structure Leds where
  red : Pin
  green : Pin
  btn2 : Pin

/-- The handler prints `state`. -/
def btn1PushedIrqHandler (gpioGetValue : Pin → SmbusProg S32)
    (gpioSetValue : Pin → Int → SmbusProg S32) (g : Leds) : SmbusProg S32 := do
  let state ← gpioGetValue g.btn2
  let _ ← gpioSetValue g.red state.toInt
  let _ ← gpioSetValue g.green state.toInt
  return state

/-- `gpio_get_value` and `gpio_set_value` call the driver of the pin. -/
def gpioGetValue (gpio : Pin) : SmbusProg S32 := (GpioCall.getValue gpio).prog

def gpioSetValue (gpio : Pin) (value : Int) : SmbusProg S32 := (GpioCall.setValue gpio value).prog

/-- The button is active low in the mapping of the module. -/
def gpiodGetValue (desc : Pin) : SmbusProg S32 := do
  let value ← gpioGetValue desc
  return if value = 0 then 1 else 0

/-- The calls of the init functions on pins of the expander. In the third one they are those of
`gpiod_get_index` and `gpiod_get`. -/
def LedModule.initCalls (g : Leds) : LedModule → List GpioCall
  | legacy | legacyDt =>
      [.directionInput g.btn2, .directionOutput g.red 0, .directionOutput g.green 0]
  | descriptor =>
      [.directionOutput g.red 0, .directionOutput g.green 0, .directionInput g.btn2]

def LedModule.init (m : LedModule) (g : Leds) : SmbusProg S32 := do
  let _ ← callsProg (m.initCalls g)
  return 0

def LedModule.handler (g : Leds) : LedModule → SmbusProg S32
  | legacy | legacyDt => btn1PushedIrqHandler gpioGetValue gpioSetValue g
  | descriptor => btn1PushedIrqHandler gpiodGetValue gpioSetValue g

/-- The state that a module reads at a button with this level. -/
def LedModule.state (level : Bool) : LedModule → S32
  | legacy | legacyDt => levelValue level
  | descriptor => levelValue (!level)

inductive LedCall where
  | init
  | irq
  deriving DecidableEq

def LedCall.prog (m : LedModule) (g : Leds) : LedCall → SmbusProg S32
  | init => m.init g
  | irq => m.handler g

/-! ## The board -/

/-- The expander, and the level that the button had when its INTCAPx was read last. -/
structure Board where
  chip : Chip
  atRead : Bool

def Board.serve (btn : Pin) (s : Board) (op : Smbus) : Board × S32 :=
  (⟨(s.chip.serve op).1,
    if op = .readByteData (regIntcap (btn.val / 8)) then s.chip.level btn else s.atRead⟩,
    (s.chip.serve op).2)

def Board.change (s : Board) (e : InputChange) : Board := { s with chip := s.chip.change e }

abbrev ledStep (m : LedModule) (g : Leds) :=
  userStep (Board.serve g.btn2) Board.change (LedCall.prog m g)

/-! ## The button stays captured -/

/-- The button is an input, and INTCAPx has its level. -/
structure Captures (btn : Pin) (c : Chip) : Prop where
  input : c.isInput btn = true
  intcap : (c.bank btn.bank).intcap.getLsbD btn.bit = c.level btn

theorem level_of_input {c : Chip} {pin : Pin} (h : c.isInput pin = true) :
    c.level pin = (c.bank pin.bank).ext.getLsbD pin.bit := by
  unfold Chip.isInput at h
  unfold Chip.level
  rw [Bank.getLsbD_level _ pin.bit_lt, h, if_pos rfl]

/-- A change of the button's level is captured, and so is its level at any other change. -/
theorem Captures.change {btn : Pin} {c : Chip} (h : Captures btn c) (e : InputChange) :
    Captures btn (c.change e) := by
  have hin : (c.change e).isInput btn = true := by
    unfold Chip.isInput
    rw [(sameRegs_change c e btn.bank).2]
    exact h.input
  refine ⟨hin, ?_⟩
  by_cases hbank : btn.bank = e.bank
  · by_cases hint : (c.bank e.bank).interrupts e.ext = true
    · simp [Chip.change, Chip.level, hbank, Bank.change, hint, Bank.level]
    · -- no interrupt: no input of the bank has changed
      have hsame : e.ext.getLsbD btn.bit = (c.bank e.bank).ext.getLsbD btn.bit := by
        have hzero : ((c.bank e.bank).ext ^^^ e.ext) &&& (c.bank e.bank).iodir = 0 := by
          simpa [Bank.interrupts] using hint
        have hbit := congrArg (fun v => BitVec.getLsbD v btn.bit) hzero
        have hdir : (c.bank e.bank).iodir.getLsbD btn.bit = true := by
          rw [← hbank]
          exact h.input
        simp only [BitVec.getLsbD_and, BitVec.getLsbD_xor, hdir, Bool.and_true] at hbit
        revert hbit
        cases (c.bank e.bank).ext.getLsbD btn.bit <;> cases e.ext.getLsbD btn.bit <;> simp
      have hcap := h.intcap
      rw [level_of_input h.input] at hcap
      rw [level_of_input hin]
      simp [Chip.change, hbank, Bank.change, hint, hsame]
      rw [← hbank]
      exact hcap
  · have hother : (c.change e).bank btn.bank = c.bank btn.bank := Function.update_of_ne hbank _ _
    unfold Chip.level
    rw [hother]
    exact h.intcap

/-- What changes from outside do between two transfers. -/
def Outside (btn : Pin) (c t : Chip) : Prop := SameRegs c t ∧ (Captures btn c → Captures btn t)

theorem Outside.refl (btn : Pin) (c : Chip) : Outside btn c c := ⟨SameRegs.refl c, id⟩

theorem Outside.trans {btn : Pin} {c t u : Chip} (h : Outside btn c t) (h' : Outside btn t u) :
    Outside btn c u := ⟨SameRegs.trans c t u h.1 h'.1, fun hc => h'.2 (h.2 hc)⟩

theorem outside_change (btn : Pin) (c : Chip) (e : InputChange) : Outside btn c (c.change e) :=
  ⟨sameRegs_change c e, fun h => h.change e⟩

/-! ## The calls -/

/-- The call does not make the button an output. -/
def GpioCall.LeavesInput (btn : Pin) (call : GpioCall) : Prop :=
  ∀ val, call ≠ .directionOutput btn val

section

variable {btn : Pin} {c : Chip}

theorem Captures.withOlat (h : Captures btn c) (b : Fin 2) (v : U8) :
    Captures btn (c.withOlat b v) := by
  have hin : (c.withOlat b v).isInput btn = true := (withOlat_isInput ..).trans h.input
  have hcap := h.intcap
  rw [level_of_input h.input] at hcap
  refine ⟨hin, ?_⟩
  rw [level_of_input hin]
  unfold Chip.withOlat
  by_cases hb : btn.bank = b
  · subst hb
    simpa using hcap
  · simpa [Function.update_of_ne hb] using hcap

theorem Captures.withIodir (h : Captures btn c) {b : Fin 2} {v : U8}
    (hin : (c.withIodir b v).isInput btn = true) : Captures btn (c.withIodir b v) := by
  have hcap := h.intcap
  rw [level_of_input h.input] at hcap
  refine ⟨hin, ?_⟩
  rw [level_of_input hin]
  unfold Chip.withIodir
  by_cases hb : btn.bank = b
  · subst hb
    simpa using hcap
  · simpa [Function.update_of_ne hb] using hcap

theorem set_captures (pin : Pin) (val : Int) (h : Captures btn c) :
    (mcp23016Set pin.val val).Meets Chip.serve (Outside btn) (fun _ t => Captures btn t) c := by
  unfold mcp23016Set i2cSmbusReadByteData
  rw [Prog.send_bind]
  intro t ht
  rw [serve_readGpio]
  show Prog.Meets _ _ _ (setRead _ _ _ _) t
  rw [setRead, if_pos (toInt_answer _)]
  intro t' ht'
  rw [serve_writeGpio]
  exact (ht'.2 (ht.2 h)).withOlat _ _

/-- The directions are written back as they were read, but for the pin of the call. -/
theorem direction_captures (pin : Pin) (direction : Nat) (val : Int)
    (hdir : direction ≠ 0 ∨ pin ≠ btn) (h : Captures btn c) :
    (mcp23016Direction pin.val direction val).Meets Chip.serve (Outside btn)
      (fun _ t => Captures btn t) c := by
  unfold mcp23016Direction i2cSmbusReadByteData i2cSmbusWriteByteData
  rw [Prog.send_bind]
  intro t ht
  rw [serve_readIodir]
  show Prog.Meets _ _ _ (Prog.call _ _) t
  intro t' ht'
  rw [serve_writeIodir]
  have hin : (t'.withIodir pin.bank (updated (t.bank pin.bank).iodir pin (direction ≠ 0))).isInput
      btn = true := by
    rw [withIodir_isInput, getLsbD_updated]
    by_cases hbank : btn.bank = pin.bank
    · rw [if_pos hbank]
      by_cases hbit : btn.bit = pin.bit
      · rw [if_pos hbit]
        exact decide_eq_true (hdir.resolve_right fun hne => hne (Pin.ext hbank hbit).symm)
      · rw [if_neg hbit, ← hbank]
        exact (ht.2 h).input
    · rw [if_neg hbank]
      exact (ht'.2 (ht.2 h)).input
  have hnext := (ht'.2 (ht.2 h)).withIodir hin
  show Prog.Meets _ _ _ (directionWritten _ _ _ _) _
  unfold directionWritten
  split
  · exact hnext
  · exact set_captures pin val hnext

theorem call_captures (call : GpioCall) (hcall : call.LeavesInput btn) (h : Captures btn c) :
    call.prog.Meets Chip.serve (Outside btn) (fun _ t => Captures btn t) c := by
  cases call with
  | directionInput pin => exact direction_captures pin INPUT 0 (Or.inl (by decide)) h
  | directionOutput pin val =>
      refine direction_captures pin OUTPUT val (Or.inr ?_) h
      rintro rfl
      exact hcall val rfl
  | setValue pin val =>
      exact ((set_captures pin val h).discard _).discard _
  | getValue pin =>
      show Prog.Meets _ _ _ (mcp23016GetValue pin.val) c
      unfold mcp23016GetValue i2cSmbusReadByteData
      rw [Prog.send_bind]
      intro t ht
      rw [serve_readIntcap]
      exact ht.2 h

/-- A list of calls does what it asks for, and the button stays captured. -/
theorem calls_meet {d : Pin → Commanded} (calls : List GpioCall)
    (hcalls : ∀ call ∈ calls, call.LeavesInput btn) (hc : Tracks d c) (h : Captures btn c) :
    (callsProg calls).Meets Chip.serve (Outside btn)
      (fun _ t => Tracks (calls.foldl GpioCall.command d) t ∧ Captures btn t) c := by
  induction calls generalizing d c with
  | nil => exact ⟨hc, h⟩
  | cons call calls ih =>
      rcases List.forall_mem_cons.mp hcalls with ⟨hcall, hrest⟩
      have htracks : call.prog.Meets Chip.serve (Outside btn)
          (fun _ t => Tracks (call.command d) t) c :=
        (call_meets call hc).lift id (fun _ _ => rfl) (fun _ _ ht => ht.1)
      refine Prog.Meets.bind ((htracks.and (call_captures call hcall h)).mono fun ret t ht => ?_)
      exact (ih hrest ht.1 ht.2).discard _

end

/-! ## The same on the board -/

/-- What changes from outside do on the board. -/
def BoardOutside (btn : Pin) (s t : Board) : Prop :=
  Outside btn s.chip t.chip ∧ t.atRead = s.atRead

section

variable {g : Leds} {m : LedModule} {d : Pin → Commanded} {s : Board}

theorem board_calls (calls : List GpioCall) (hcalls : ∀ call ∈ calls, call.LeavesInput g.btn2)
    (hs : Tracks d s.chip) (h : Captures g.btn2 s.chip) :
    (callsProg calls).Meets (Board.serve g.btn2) (BoardOutside g.btn2)
      (fun _ t => Tracks (calls.foldl GpioCall.command d) t.chip ∧ Captures g.btn2 t.chip) s :=
  (calls_meet calls hcalls hs h).lift Board.chip (fun _ _ => rfl) (fun _ _ ht => ht.1)

theorem regGpio_ne_regIntcap (a b : Nat) : regGpio a ≠ regIntcap b := by
  unfold regGpio regIntcap
  split_ifs <;> decide

theorem serve_atRead {btn : Pin} {t : Board} {op : Smbus}
    (h : op ≠ .readByteData (regIntcap (btn.val / 8))) :
    (t.serve btn op).1.atRead = t.atRead := if_neg h

/-- Setting a pin reads no INTCAPx. -/
theorem setValue_atRead (pin : Pin) (val : Int) {b : Bool} (hs : s.atRead = b) :
    (GpioCall.setValue pin val).prog.Meets (Board.serve g.btn2) (BoardOutside g.btn2)
      (fun _ t => t.atRead = b) s := by
  have hset : (mcp23016Set pin.val val).Meets (Board.serve g.btn2) (BoardOutside g.btn2)
      (fun _ t => t.atRead = b) s := by
    unfold mcp23016Set i2cSmbusReadByteData
    rw [Prog.send_bind]
    intro t ht
    have hread : (t.serve g.btn2 (.readByteData (regGpio (pin.val / 8)))).1.atRead = b := by
      refine (serve_atRead ?_).trans (ht.2.trans hs)
      rw [Ne, Smbus.readByteData.injEq]
      exact regGpio_ne_regIntcap _ _
    show Prog.Meets _ _ _ (setRead _ _ _ _) _
    unfold setRead
    split
    · intro t' ht'
      exact (serve_atRead (by simp)).trans (ht'.2.trans hread)
    · exact hread
  exact (hset.discard _).discard _

theorem board_setValue (pin : Pin) (val : Int) {b : Bool} (hs : Tracks d s.chip)
    (h : Captures g.btn2 s.chip) (hb : s.atRead = b) :
    (GpioCall.setValue pin val).prog.Meets (Board.serve g.btn2) (BoardOutside g.btn2)
      (fun _ t => Tracks ((GpioCall.setValue pin val).command d) t.chip ∧
        Captures g.btn2 t.chip ∧ t.atRead = b) s := by
  have htracks : (GpioCall.setValue pin val).prog.Meets (Board.serve g.btn2)
      (BoardOutside g.btn2) (fun _ t => Tracks ((GpioCall.setValue pin val).command d) t.chip) s :=
    (call_meets (.setValue pin val) hs).lift Board.chip (fun _ _ => rfl) (fun _ _ ht => ht.1.1)
  have hcaptures : (GpioCall.setValue pin val).prog.Meets (Board.serve g.btn2)
      (BoardOutside g.btn2) (fun _ t => Captures g.btn2 t.chip) s :=
    (call_captures (.setValue pin val) (fun _ => by simp) h).lift Board.chip (fun _ _ => rfl)
      (fun _ _ ht => ht.1)
  exact htracks.and (hcaptures.and (setValue_atRead pin val hb))

/-- The button is read at its level. -/
theorem board_getValue (hs : Tracks d s.chip) (h : Captures g.btn2 s.chip) :
    (gpioGetValue g.btn2).Meets (Board.serve g.btn2) (BoardOutside g.btn2)
      (fun ret t => ret = levelValue t.atRead ∧ Tracks d t.chip ∧ Captures g.btn2 t.chip) s := by
  show Prog.Meets _ _ _ (mcp23016GetValue g.btn2.val) s
  unfold mcp23016GetValue i2cSmbusReadByteData
  rw [Prog.send_bind]
  intro t ht
  have hcap := ht.1.2 h
  have hserve : t.serve g.btn2 (.readByteData (regIntcap (g.btn2.val / 8)))
      = (⟨t.chip, t.chip.level g.btn2⟩, (t.chip.bank g.btn2.bank).intcap.setWidth 32) := by
    rw [Board.serve, if_pos rfl, serve_readIntcap]
  rw [hserve]
  refine ⟨?_, ht.1.1.tracks hs, hcap⟩
  show (if _ then _ else _) = levelValue (t.chip.level g.btn2)
  rw [if_pos (toInt_answer _), ← hcap.intcap]
  exact shift_answer _ g.btn2.bit_lt

/-- The handler, with the state it has read. -/
theorem handler_meets (hs : Tracks d s.chip) (h : Captures g.btn2 s.chip) :
    (m.handler g).Meets (Board.serve g.btn2) (BoardOutside g.btn2)
      (fun ret t => ret = m.state t.atRead ∧ Captures g.btn2 t.chip ∧
        Tracks ((GpioCall.setValue g.green ret.toInt).command
          ((GpioCall.setValue g.red ret.toInt).command d)) t.chip) s := by
  -- what follows the read, for any state that is the level's
  have hrest : ∀ state (t : Board), state = m.state t.atRead → Tracks d t.chip →
      Captures g.btn2 t.chip →
      (do
        let _ ← gpioSetValue g.red state.toInt
        let _ ← gpioSetValue g.green state.toInt
        return state : SmbusProg S32).Meets (Board.serve g.btn2) (BoardOutside g.btn2)
      (fun ret t => ret = m.state t.atRead ∧ Captures g.btn2 t.chip ∧
        Tracks ((GpioCall.setValue g.green ret.toInt).command
          ((GpioCall.setValue g.red ret.toInt).command d)) t.chip) t := by
    intro state t hstate ht hcap
    refine Prog.Meets.bind ((board_setValue g.red state.toInt ht hcap rfl).mono fun _ t' ht' => ?_)
    rcases ht' with ⟨htracks, hcap', hread⟩
    refine Prog.Meets.bind
      ((board_setValue g.green state.toInt htracks hcap' hread).mono fun _ u hu => ?_)
    rcases hu with ⟨htracks', hcap'', hread'⟩
    exact ⟨hstate.trans (by rw [hread']), hcap'', htracks'⟩
  cases m with
  | legacy =>
      exact Prog.Meets.bind ((board_getValue hs h).mono fun ret t ht =>
        hrest ret t ht.1 ht.2.1 ht.2.2)
  | legacyDt =>
      exact Prog.Meets.bind ((board_getValue hs h).mono fun ret t ht =>
        hrest ret t ht.1 ht.2.1 ht.2.2)
  | descriptor =>
      refine Prog.Meets.bind (Prog.Meets.bind ((board_getValue hs h).mono fun ret t ht => ?_))
      refine hrest _ t ?_ ht.2.1 ht.2.2
      rw [ht.1]
      cases t.atRead <;> rfl

end

/-! ## Runs -/

/-- The calls of the driver that the finished calls of the module come down to, the reads left
out. -/
def gpioCalls (m : LedModule) (g : Leds) (done : List (LedCall × S32 × Board)) : List GpioCall :=
  done.flatMap fun call =>
    match call.1 with
    | .init => m.initCalls g
    | .irq => [.setValue g.red call.2.1.toInt, .setValue g.green call.2.1.toInt]

/-- What the LEDs should show: the state that the last handler has read, and nothing before. -/
def shown (done : List (LedCall × S32 × Board)) : Bool :=
  match done.getLast? with
  | some (.irq, ret, _) => decide (ret.toInt ≠ 0)
  | _ => false

/-- Every handler has read the state of the button at its level. -/
def ReadsButton (m : LedModule) (done : List (LedCall × S32 × Board)) : Prop :=
  ∀ ret s, (.irq, ret, s) ∈ done → ret = m.state s.atRead

section

variable {m : LedModule} {g : Leds} {done : List (LedCall × S32 × Board)} {ret : S32} {s : Board}

theorem commanded_init :
    commanded (gpioCalls m g (done ++ [(.init, ret, s)]))
      = (m.initCalls g).foldl GpioCall.command (commanded (gpioCalls m g done)) := by
  simp [commanded, gpioCalls]

theorem commanded_irq :
    commanded (gpioCalls m g (done ++ [(.irq, ret, s)]))
      = (GpioCall.setValue g.green ret.toInt).command
        ((GpioCall.setValue g.red ret.toInt).command (commanded (gpioCalls m g done))) := by
  simp [commanded, gpioCalls]

theorem shown_irq : shown (done ++ [(.irq, ret, s)]) = decide (ret.toInt ≠ 0) := by
  simp [shown]

theorem shown_init : shown (done ++ [(.init, ret, s)]) = false := by
  simp [shown]

/-- After the init function both LEDs are asked to be outputs at what is to be shown. -/
theorem commanded_leds (hred : g.red ≠ g.btn2) (hgreen : g.green ≠ g.btn2)
    (hinit : ∃ ret s, (LedCall.init, ret, s) ∈ done) :
    commanded (gpioCalls m g done) g.red = .output (shown done) ∧
      commanded (gpioCalls m g done) g.green = .output (shown done) := by
  induction done using List.reverseRecOn with
  | nil =>
      rcases hinit with ⟨ret, s, hmem⟩
      cases hmem
  | append_singleton done call ih =>
      rcases call with ⟨call, ret, s⟩
      cases call with
      | init =>
          rw [commanded_init, shown_init]
          cases m <;> by_cases hrg : g.red = g.green <;>
            simp [LedModule.initCalls, GpioCall.command, hred, hgreen, hrg]
      | irq =>
          rcases hinit with ⟨ret', s', hmem⟩
          have hmem' : (LedCall.init, ret', s') ∈ done := by simpa using hmem
          rcases ih ⟨ret', s', hmem'⟩ with ⟨hr, hg⟩
          rw [commanded_irq, shown_irq, command_setValue_of_output _ hr]
          by_cases hgr : g.green = g.red
          · have hnow : Function.update (commanded (gpioCalls m g done)) g.red
                (.output (decide (ret.toInt ≠ 0))) g.green = .output (decide (ret.toInt ≠ 0)) := by
              rw [hgr, Function.update_self]
            rw [command_setValue_of_output _ hnow, hgr, Function.update_self]
            exact ⟨rfl, rfl⟩
          · have hnow : Function.update (commanded (gpioCalls m g done)) g.red
                (.output (decide (ret.toInt ≠ 0))) g.green = .output (shown done) := by
              rw [Function.update_of_ne hgr, hg]
            rw [command_setValue_of_output _ hnow, Function.update_self,
              Function.update_of_ne (Ne.symm hgr), Function.update_self]
            exact ⟨rfl, rfl⟩

end

/-- What holds after the calls `done`. -/
structure LedsInv (m : LedModule) (g : Leds) (done : List (LedCall × S32 × Board)) (s : Board) :
    Prop where
  tracks : Tracks (commanded (gpioCalls m g done)) s.chip
  captures : Captures g.btn2 s.chip
  reads : ReadsButton m done

theorem initCalls_leaveInput {m : LedModule} {g : Leds} (hred : g.red ≠ g.btn2)
    (hgreen : g.green ≠ g.btn2) : ∀ call ∈ m.initCalls g, call.LeavesInput g.btn2 := by
  intro call hcall val heq
  subst heq
  cases m <;> simp [LedModule.initCalls, Ne.symm hred, Ne.symm hgreen] at hcall

theorem ledCall_meets {m : LedModule} {g : Leds} (hred : g.red ≠ g.btn2)
    (hgreen : g.green ≠ g.btn2) (done : List (LedCall × S32 × Board)) (s : Board) (call : LedCall)
    (h : LedsInv m g done s) :
    (call.prog m g).Meets (Board.serve g.btn2) (BoardOutside g.btn2)
      (fun ret t => LedsInv m g (done ++ [(call, ret, t)]) t) s := by
  cases call with
  | init =>
      refine Prog.Meets.bind ((board_calls (m.initCalls g) (initCalls_leaveInput hred hgreen)
        h.tracks h.captures).mono fun rets t ht => ?_)
      refine ⟨by rw [commanded_init]; exact ht.1, ht.2, fun ret' s' hmem => ?_⟩
      exact h.reads ret' s' (by simpa using hmem)
  | irq =>
      refine (handler_meets h.tracks h.captures).mono fun ret t ht => ?_
      refine ⟨by rw [commanded_irq]; exact ht.2.2, ht.2.1, fun ret' s' hmem => ?_⟩
      rcases List.mem_append.mp hmem with hold | hnew
      · exact h.reads ret' s' hold
      · simp only [List.mem_singleton, Prod.mk.injEq, true_and] at hnew
        rw [hnew.1, hnew.2]
        exact ht.1

/-- **The LEDs follow the button.** The expander has just been powered up and INTCAPx has the level
of the button. Then in every run of the init function and of the handler, with the levels on the
pins changing at any moment, also between two transfers, every handler reads the level that the
button has at its read; and whenever no call is in progress after the init function, both LEDs are
outputs at the state that the last handler has read. -/
theorem leds_follow (m : LedModule) (g : Leds) (hred : g.red ≠ g.btn2) (hgreen : g.green ≠ g.btn2)
    (chip : Chip) (hstart : PowerUp chip)
    (hcap : (chip.bank g.btn2.bank).intcap.getLsbD g.btn2.bit = chip.level g.btn2)
    (es : List (UserEvent LedCall InputChange)) (u : User Board LedCall Smbus S32 S32)
    (hrun : run (ledStep m g) (User.start ⟨chip, false⟩) es = some u) (hidle : u.cur = none) :
    ReadsButton m u.done ∧
      ((∃ ret s, (LedCall.init, ret, s) ∈ u.done) →
        ∀ led, led = g.red ∨ led = g.green →
          u.dev.chip.isInput led = false ∧ u.dev.chip.level led = shown u.done) := by
  have hinv : UserInv (Board.serve g.btn2) (BoardOutside g.btn2) (LedsInv m g) u := by
    refine user_induct (fun s => ⟨Outside.refl _ _, rfl⟩)
      (fun s t v h h' => ⟨h.1.trans h'.1, h'.2.trans h.2⟩)
      (fun s e => ⟨outside_change _ _ e, rfl⟩) ?_ (fun done s call => ledCall_meets hred hgreen _ _ _)
      ⟨tracks_powerUp hstart, ⟨tracks_powerUp hstart g.btn2, hcap⟩, ?_⟩ hrun
    · rintro done s e ⟨htracks, hcaps, hreads⟩
      exact ⟨(sameRegs_change s.chip e).tracks htracks, hcaps.change e, hreads⟩
    · intro ret s hmem
      cases hmem
  unfold UserInv at hinv
  rw [hidle] at hinv
  refine ⟨hinv.reads, fun hinit led hled => ?_⟩
  have hleds := commanded_leds (m := m) hred hgreen hinit
  have hcommand : commanded (gpioCalls m g u.done) led = .output (shown u.done) := by
    rcases hled with rfl | rfl
    · exact hleds.1
    · exact hleds.2
  have hdoes := hinv.tracks led
  rw [hcommand] at hdoes
  exact hdoes

/-- The button on pin 5 goes high, and low again while the handler sets the LEDs on pins 3 and
12. -/
theorem leds_follow_press :
    ∃ u, run (ledStep .legacy ⟨3, 12, 5⟩) (User.start ⟨idleChip, false⟩)
        [.call .init, .serve, .serve, .serve, .serve, .serve, .serve, .serve, .serve, .serve,
          .serve, .env ⟨0, 0x20⟩, .call .irq, .serve, .serve, .env ⟨0, 0⟩, .serve, .serve, .serve]
        = some u ∧ u.dev.chip.level 3 = true ∧ u.dev.chip.level 12 = true := by
  have hrun : (run (ledStep .legacy ⟨3, 12, 5⟩) (User.start ⟨idleChip, false⟩)
      [.call .init, .serve, .serve, .serve, .serve, .serve, .serve, .serve, .serve, .serve,
        .serve, .env ⟨0, 0x20⟩, .call .irq, .serve, .serve, .env ⟨0, 0⟩, .serve, .serve,
        .serve]).any (fun u => u.cur.isNone && shown u.done
          && u.done.any (fun call => decide (call.1 = .init))) = true := by
    decide +kernel
  rcases (Option.any_eq_true _ _).mp hrun with ⟨u, hu, hall⟩
  rw [Bool.and_eq_true, Bool.and_eq_true] at hall
  rcases hall with ⟨⟨hidle, hshown⟩, hinit⟩
  rcases List.any_eq_true.mp hinit with ⟨⟨call, ret, s⟩, hmem, hcall⟩
  obtain rfl : call = .init := of_decide_eq_true hcall
  have hleds := (leds_follow .legacy ⟨3, 12, 5⟩ (by decide) (by decide) idleChip (fun _ => rfl)
    (by decide) _ u hu (Option.isNone_iff_eq_none.mp hidle)).2 ⟨ret, s, hmem⟩
  exact ⟨u, hu, (hleds 3 (Or.inl rfl)).2.trans hshown, (hleds 12 (Or.inr rfl)).2.trans hshown⟩

end LinuxDrivers.Gpio
