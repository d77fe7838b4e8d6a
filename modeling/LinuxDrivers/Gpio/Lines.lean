import LinuxDrivers.Gpio.Leds
import LinuxDrivers.Kernel.CTypes
import LinuxDrivers.Lib.Registry

set_option autoImplicit false

/-! # Who has requested the lines

The modules of chapter 14 request four lines and an interrupt when they are loaded, or probed, and
give them back when they are unloaded. They look at the result of none of these requests.

`lines_sound_iff` says in exactly which runs of loads and unloads, among other users of the lines
and of the interrupts, nothing is given back that is not the module's own. A platform driver is
probed for one device at a time: of a second one its static variables could not keep account. -/

namespace LinuxDrivers.Gpio

open Lib

/-! ## Lines and interrupts -/

/-- One of the modules, or anybody else. -/
inductive Holder where
  | led (m : LedModule)
  | user (c : Nat)
  deriving DecidableEq

structure Lines where
  line : Registry Nat Holder
  action : Registry Nat Holder

/-- `fail` is any reason but that the line is taken. -/
def gpioRequest (who : Holder) (fail : Option Errno) (gpio : Nat) (s : Lines) : Int × Lines :=
  match fail with
  | some e => (e.1, s)
  | none =>
      if (s.line.holder gpio).isSome then (-EBUSY, s)
      else (0, { s with line := s.line.take who gpio })

/-- Nobody is asked whose line it is. -/
def gpioFree (who : Holder) (gpio : Nat) (s : Lines) : Lines :=
  { s with line := s.line.release who gpio }

/-- What the kernel decides about one line: which one it is, and whether its request fails. -/
structure LineOutcome where
  found : Except Errno Nat
  fail : Option Errno

def ofGetNamedGpio (o : LineOutcome) : Int :=
  match o.found with
  | .ok n => n
  | .error e => e.1

def gpiodGetIndex (who : Holder) (o : LineOutcome) (s : Lines) : KPtr × Lines :=
  match o.found with
  | .error e => (.err e, s)
  | .ok n =>
      let (ret, s) := gpioRequest who o.fail n s
      if h : ret < 0 then (.err ⟨ret, h⟩, s) else (.obj n, s)

/-- An error pointer is no descriptor. -/
def gpiodPut (who : Holder) (desc : KPtr) (s : Lines) : Lines :=
  match desc with
  | .obj n => gpioFree who n s
  | _ => { s with line := s.line.abuse }

/-- The interrupts are not shared. -/
def requestThreadedIrq (who : Holder) (fail : Option Errno) (irq : Int) (s : Lines) : Int × Lines :=
  if irq < 0 then (-EINVAL, s)
  else
    match fail with
    | some e => (e.1, s)
    | none =>
        if (s.action.holder irq.toNat).isSome then (-EBUSY, s)
        else (0, { s with action := s.action.take who irq.toNat })

/-- All the modules have NULL as their `dev_id`. A number that is no interrupt is ignored. -/
def freeIrq (who : Holder) (irq : Int) (s : Lines) : Lines :=
  if irq < 0 then s
  else
    match s.action.holder irq.toNat with
    | some (.user _) => { s with action := s.action.abuse }
    | _ => { s with action := s.action.release who irq.toNat }

/-! ## The modules -/

/-- A static variable: a number or a descriptor. -/
inductive LineVar where
  | gpio (n : Nat)
  | desc (p : KPtr)
  deriving DecidableEq

def LineVar.line : LineVar → Option Nat
  | gpio n => some n
  | desc (.obj n) => some n
  | desc _ => none

/-- A variable, and the result of its request, which nobody looks at. -/
structure Requested where
  var : LineVar
  ret : Int

/-- The static variables of a module, with the result of `request_threaded_irq`. -/
structure LineVars where
  red : Requested
  green : Requested
  btn1 : Requested
  btn2 : Requested
  irq : Int
  retval : Int

/-- What the kernel decides about a load. `np` says whether there is a node of the device tree. -/
structure LoadOutcome where
  np : Bool
  red : LineOutcome
  green : LineOutcome
  btn1 : LineOutcome
  btn2 : LineOutcome
  irq : Option Errno

section

variable (gpioToIrq : Nat → Int)

/-- What the first two modules do with the numbers of their lines. -/
def requestLines (who : Holder) (o : LoadOutcome) (red green btn1 btn2 : Nat) (s : Lines) :
    LineVars × Lines :=
  let (ret_green, s) := gpioRequest who o.green.fail green s
  let (ret_red, s) := gpioRequest who o.red.fail red s
  let (ret_btn1, s) := gpioRequest who o.btn1.fail btn1 s
  let (ret_btn2, s) := gpioRequest who o.btn2.fail btn2 s
  let irq := gpioToIrq btn1
  let (retval, s) := requestThreadedIrq who o.irq irq s
  (⟨⟨.gpio red, ret_red⟩, ⟨.gpio green, ret_green⟩, ⟨.gpio btn1, ret_btn1⟩, ⟨.gpio btn2, ret_btn2⟩,
    irq, retval⟩, s)

def LineVar.free (who : Holder) : LineVar → Lines → Lines
  | gpio n => gpioFree who n
  | desc p => gpiodPut who p

/-- What all of them do when they are unloaded. -/
def freeLines (who : Holder) (v : LineVars) (s : Lines) : Lines :=
  let s := freeIrq who v.irq s
  let s := v.red.var.free who s
  let s := v.green.var.free who s
  let s := v.btn1.var.free who s
  v.btn2.var.free who s

namespace Legacy

def GPIO_LED_RED : Nat := 49
def GPIO_BTN1 : Nat := 115
def GPIO_BTN2 : Nat := 116
def GPIO_LED_GREEN : Nat := 120

def hellowolrdInit (o : LoadOutcome) (s : Lines) : Except Int (LineVars × Lines) :=
  .ok (requestLines gpioToIrq (.led .legacy) o GPIO_LED_RED GPIO_LED_GREEN GPIO_BTN1 GPIO_BTN2 s)

def hellowolrdExit := freeLines (.led .legacy)

end Legacy

namespace LegacyDt

/-- The conversion to `unsigned int`. -/
def toUInt (v : Int) : Nat := (v % 2 ^ 32).toNat

def myPdrvProbe (o : LoadOutcome) (s : Lines) : Except Int (LineVars × Lines) :=
  if o.np then
    let gpio_red := toUInt (ofGetNamedGpio o.red)
    let gpio_green := toUInt (ofGetNamedGpio o.green)
    let gpio_btn1 := toUInt (ofGetNamedGpio o.btn1)
    let gpio_btn2 := toUInt (ofGetNamedGpio o.btn2)
    .ok (requestLines gpioToIrq (.led .legacyDt) o gpio_red gpio_green gpio_btn1 gpio_btn2 s)
  else .error (-ENOENT)

def myPdrvRemove := freeLines (.led .legacyDt)

end LegacyDt

/-- `PTR_ERR` of an error pointer. -/
def ptrErr : KPtr → Int
  | .err e => e.1
  | _ => 0

def gpiodToIrq : KPtr → Int
  | .obj n => gpioToIrq n
  | _ => -EINVAL

namespace Descriptor

def myPdrvProbe (o : LoadOutcome) (s : Lines) : Except Int (LineVars × Lines) :=
  let who := .led .descriptor
  let (red, s) := gpiodGetIndex who o.red s
  let (green, s) := gpiodGetIndex who o.green s
  let (btn1, s) := gpiodGetIndex who o.btn1 s
  let (btn2, s) := gpiodGetIndex who o.btn2 s
  let irq := gpiodToIrq gpioToIrq btn1
  let (retval, s) := requestThreadedIrq who o.irq irq s
  .ok (⟨⟨.desc red, ptrErr red⟩, ⟨.desc green, ptrErr green⟩, ⟨.desc btn1, ptrErr btn1⟩,
    ⟨.desc btn2, ptrErr btn2⟩, irq, retval⟩, s)

def myPdrvRemove := freeLines (.led .descriptor)

end Descriptor

def LedModule.load : LedModule → LoadOutcome → Lines → Except Int (LineVars × Lines)
  | legacy => Legacy.hellowolrdInit gpioToIrq
  | legacyDt => LegacyDt.myPdrvProbe gpioToIrq
  | descriptor => Descriptor.myPdrvProbe gpioToIrq

def LedModule.unload : LedModule → LineVars → Lines → Lines
  | legacy => Legacy.hellowolrdExit
  | legacyDt => LegacyDt.myPdrvRemove
  | descriptor => Descriptor.myPdrvRemove

/-! ## Runs -/

/-- The modules that are loaded have their variables. -/
structure LedSys where
  lines : Lines
  vars : LedModule → Option LineVars

def LedSys.start : LedSys := ⟨⟨Registry.empty, Registry.empty⟩, fun _ => none⟩

/-- A line or an interrupt has been given back by someone who did not have it. -/
def LedSys.misused (s : LedSys) : Bool := s.lines.line.misused || s.lines.action.misused

inductive LineEvent where
  | load (m : LedModule) (o : LoadOutcome)
  | unload (m : LedModule)
  | request (c gpio : Nat)
  | free (c gpio : Nat)
  | requestIrq (c irq : Nat)
  | freeIrq (c irq : Nat)

def LineEvent.party : LineEvent → Holder
  | load m _ | unload m => .led m
  | request c _ | free c _ | requestIrq c _ | freeIrq c _ => .user c

/-- The other users give back what they have. A driver with static variables is bound to one device
at a time. -/
def lineStep (s : LedSys) : LineEvent → Option LedSys
  | .load m o =>
      match s.vars m with
      | some _ => none
      | none =>
          match m.load gpioToIrq o s.lines with
          | .error _ => some s
          | .ok (v, lines) => some ⟨lines, Function.update s.vars m (some v)⟩
  | .unload m =>
      match s.vars m with
      | none => none
      | some v => some ⟨m.unload v s.lines, Function.update s.vars m none⟩
  | .request c gpio =>
      if (s.lines.line.holder gpio).isSome then none
      else some { s with lines := { s.lines with line := s.lines.line.take (.user c) gpio } }
  | .free c gpio =>
      if s.lines.line.holder gpio = some (.user c) then
        some { s with lines := { s.lines with line := s.lines.line.release (.user c) gpio } }
      else none
  | .requestIrq c irq =>
      if (s.lines.action.holder irq).isSome then none
      else some { s with lines := { s.lines with action := s.lines.action.take (.user c) irq } }
  | .freeIrq c irq =>
      if s.lines.action.holder irq = some (.user c) then
        some { s with lines := { s.lines with action := s.lines.action.release (.user c) irq } }
      else none

end

/-- None of the requests has been refused. A refused interrupt counts only if `gpio_to_irq` has
given a number of one; for its error nothing is given back. -/
structure LineVars.Fine (v : LineVars) : Prop where
  red : 0 ≤ v.red.ret
  green : 0 ≤ v.green.ret
  btn1 : 0 ≤ v.btn1.ret
  btn2 : 0 ≤ v.btn2.ret
  irq : 0 ≤ v.irq → 0 ≤ v.retval

/-- The module that is unloaded has been refused nothing. -/
def UnloadsFine (s : LedSys) (e : LineEvent) : Prop :=
  ∀ m v, e = .unload m → s.vars m = some v → v.Fine

/-! ## What a module asks for -/

def Requested.ask (r : Requested) : Ask Nat := ⟨r.var.line, decide (0 ≤ r.ret)⟩

def LineVars.asks (v : LineVars) : List (Ask Nat) :=
  [v.red.ask, v.green.ask, v.btn1.ask, v.btn2.ask]

def irqAsks (irq retval : Int) : List (Ask Nat) :=
  if irq < 0 then [] else [⟨some irq.toNat, decide (0 ≤ retval)⟩]

def LineVars.irqAsks (v : LineVars) : List (Ask Nat) := Gpio.irqAsks v.irq v.retval

theorem LineVars.fine_iff (v : LineVars) : v.Fine ↔
    (∀ a ∈ v.asks, a.granted = true) ∧ ∀ a ∈ v.irqAsks, a.granted = true := by
  have hirq : (∀ a ∈ v.irqAsks, a.granted = true) ↔ (0 ≤ v.irq → 0 ≤ v.retval) := by
    unfold LineVars.irqAsks Gpio.irqAsks
    split_ifs with hneg
    · exact iff_of_true nofun fun h => absurd h (not_le.mpr hneg)
    · simp [not_lt.mp hneg]
  rw [hirq]
  simp only [LineVars.asks, Requested.ask, List.forall_mem_cons, decide_eq_true_eq]
  constructor
  · rintro ⟨hred, hgreen, hbtn1, hbtn2, hirq⟩
    exact ⟨⟨hred, hgreen, hbtn1, hbtn2, nofun⟩, hirq⟩
  · rintro ⟨⟨hred, hgreen, hbtn1, hbtn2, -⟩, hirq⟩
    exact ⟨hred, hgreen, hbtn1, hbtn2, hirq⟩

section

variable {who : Holder} {s t : Lines} {gpioToIrq : Nat → Int}

theorem gpioRequest_asked {fail : Option Errno} {gpio : Nat} {ret : Int}
    (h : gpioRequest who fail gpio s = (ret, t)) :
    s.line.Asked who (Requested.ask ⟨.gpio gpio, ret⟩) t.line ∧ t.action = s.action := by
  unfold gpioRequest at h
  cases fail with
  | some e =>
      rcases Prod.mk.inj h with ⟨rfl, rfl⟩
      exact ⟨Or.inl ⟨decide_eq_false (not_le.mpr e.2), rfl⟩, rfl⟩
  | none =>
      cases hholder : s.line.holder gpio with
      | some w =>
          simp only [hholder] at h
          rcases Prod.mk.inj h with ⟨rfl, rfl⟩
          exact ⟨Or.inl ⟨rfl, rfl⟩, rfl⟩
      | none =>
          simp only [hholder] at h
          rcases Prod.mk.inj h with ⟨rfl, rfl⟩
          exact ⟨Or.inr ⟨gpio, rfl, rfl, hholder, rfl⟩, rfl⟩

theorem gpiodGetIndex_asked {o : LineOutcome} {p : KPtr} (h : gpiodGetIndex who o s = (p, t)) :
    s.line.Asked who (Requested.ask ⟨.desc p, ptrErr p⟩) t.line ∧ t.action = s.action := by
  unfold gpiodGetIndex at h
  cases hfound : o.found with
  | error e =>
      rw [hfound] at h
      rcases Prod.mk.inj h with ⟨rfl, rfl⟩
      exact ⟨Or.inl ⟨decide_eq_false (not_le.mpr e.2), rfl⟩, rfl⟩
  | ok n =>
      rw [hfound] at h
      rcases hrequest : gpioRequest who o.fail n s with ⟨ret, u⟩
      rcases gpioRequest_asked hrequest with ⟨hasked, haction⟩
      simp only [hrequest] at h
      by_cases hret : ret < 0
      · rw [dif_pos hret] at h
        rcases Prod.mk.inj h with ⟨rfl, rfl⟩
        refine ⟨Or.inl ⟨decide_eq_false (not_le.mpr hret), ?_⟩, haction⟩
        rcases hasked with ⟨-, hsame⟩ | ⟨_, hgranted, -⟩
        · exact hsame
        · exact absurd (of_decide_eq_true hgranted) (not_le.mpr hret)
      · rw [dif_neg hret] at h
        rcases Prod.mk.inj h with ⟨rfl, rfl⟩
        refine ⟨?_, haction⟩
        rcases hasked with ⟨hrefused, -⟩ | ⟨k, -, hkey, hfree, htake⟩
        · exact absurd (not_lt.mp hret) (of_decide_eq_false hrefused)
        · exact Or.inr ⟨k, rfl, hkey, hfree, htake⟩

theorem requestThreadedIrq_asked {fail : Option Errno} {irq retval : Int}
    (h : requestThreadedIrq who fail irq s = (retval, t)) :
    s.action.AskedAll who (irqAsks irq retval) t.action ∧ t.line = s.line := by
  unfold requestThreadedIrq at h
  unfold irqAsks
  by_cases hneg : irq < 0
  · rw [if_pos hneg] at h ⊢
    rcases Prod.mk.inj h with ⟨-, rfl⟩
    exact ⟨rfl, rfl⟩
  rw [if_neg hneg] at h ⊢
  cases fail with
  | some e =>
      rcases Prod.mk.inj h with ⟨rfl, rfl⟩
      exact ⟨⟨_, Or.inl ⟨decide_eq_false (not_le.mpr e.2), rfl⟩, rfl⟩, rfl⟩
  | none =>
      cases hholder : s.action.holder irq.toNat with
      | some w =>
          simp only [hholder] at h
          rcases Prod.mk.inj h with ⟨rfl, rfl⟩
          exact ⟨⟨_, Or.inl ⟨rfl, rfl⟩, rfl⟩, rfl⟩
      | none =>
          simp only [hholder] at h
          rcases Prod.mk.inj h with ⟨rfl, rfl⟩
          exact ⟨⟨_, Or.inr ⟨irq.toNat, rfl, rfl, hholder, rfl⟩, rfl⟩, rfl⟩

/-- **What a load does**: it asks for four lines and an interrupt. -/
structure Loads (who : Holder) (s : Lines) (v : LineVars) (t : Lines) : Prop where
  line : ∃ as : List (Ask Nat), as.Perm v.asks ∧ s.line.AskedAll who as t.line
  action : s.action.AskedAll who v.irqAsks t.action

theorem requestLines_loads {o : LoadOutcome} {red green btn1 btn2 : Nat} {v : LineVars}
    (h : requestLines gpioToIrq who o red green btn1 btn2 s = (v, t)) : Loads who s v t := by
  unfold requestLines at h
  rcases hgreen : gpioRequest who o.green.fail green s with ⟨ret₁, s₁⟩
  rcases hred : gpioRequest who o.red.fail red s₁ with ⟨ret₂, s₂⟩
  rcases hbtn1 : gpioRequest who o.btn1.fail btn1 s₂ with ⟨ret₃, s₃⟩
  rcases hbtn2 : gpioRequest who o.btn2.fail btn2 s₃ with ⟨ret₄, s₄⟩
  rcases hirq : requestThreadedIrq who o.irq (gpioToIrq btn1) s₄ with ⟨retval, s₅⟩
  simp only [hgreen, hred, hbtn1, hbtn2, hirq] at h
  rcases Prod.mk.inj h with ⟨rfl, rfl⟩
  rcases gpioRequest_asked hgreen with ⟨hline₁, haction₁⟩
  rcases gpioRequest_asked hred with ⟨hline₂, haction₂⟩
  rcases gpioRequest_asked hbtn1 with ⟨hline₃, haction₃⟩
  rcases gpioRequest_asked hbtn2 with ⟨hline₄, haction₄⟩
  rcases requestThreadedIrq_asked hirq with ⟨haction₅, hline₅⟩
  rw [haction₄, haction₃, haction₂, haction₁] at haction₅
  -- the green one comes first
  refine ⟨⟨_, List.Perm.swap _ _ _, _, hline₁, _, hline₂, _, hline₃, _, hline₄, ?_⟩, haction₅⟩
  exact hline₅

theorem descriptor_loads {o : LoadOutcome} {v : LineVars}
    (h : Descriptor.myPdrvProbe gpioToIrq o s = .ok (v, t)) :
    Loads (.led .descriptor) s v t := by
  unfold Descriptor.myPdrvProbe at h
  rcases hred : gpiodGetIndex (.led .descriptor) o.red s with ⟨red, s₁⟩
  rcases hgreen : gpiodGetIndex (.led .descriptor) o.green s₁ with ⟨green, s₂⟩
  rcases hbtn1 : gpiodGetIndex (.led .descriptor) o.btn1 s₂ with ⟨btn1, s₃⟩
  rcases hbtn2 : gpiodGetIndex (.led .descriptor) o.btn2 s₃ with ⟨btn2, s₄⟩
  rcases hirq : requestThreadedIrq (.led .descriptor) o.irq (gpiodToIrq gpioToIrq btn1) s₄
    with ⟨retval, s₅⟩
  simp only [hgreen, hred, hbtn1, hbtn2, hirq] at h
  rcases Prod.mk.inj (Except.ok.inj h) with ⟨rfl, rfl⟩
  rcases gpiodGetIndex_asked hred with ⟨hline₁, haction₁⟩
  rcases gpiodGetIndex_asked hgreen with ⟨hline₂, haction₂⟩
  rcases gpiodGetIndex_asked hbtn1 with ⟨hline₃, haction₃⟩
  rcases gpiodGetIndex_asked hbtn2 with ⟨hline₄, haction₄⟩
  rcases requestThreadedIrq_asked hirq with ⟨haction₅, hline₅⟩
  rw [haction₄, haction₃, haction₂, haction₁] at haction₅
  refine ⟨⟨_, List.Perm.refl _, _, hline₁, _, hline₂, _, hline₃, _, hline₄, ?_⟩, haction₅⟩
  exact hline₅

theorem load_loads {m : LedModule} {o : LoadOutcome} {v : LineVars}
    (h : m.load gpioToIrq o s = .ok (v, t)) : Loads (.led m) s v t := by
  cases m with
  | legacy => exact requestLines_loads (Except.ok.inj h)
  | legacyDt =>
      change LegacyDt.myPdrvProbe gpioToIrq o s = _ at h
      unfold LegacyDt.myPdrvProbe at h
      split_ifs at h with hnp
      exact requestLines_loads (Except.ok.inj h)
  | descriptor => exact descriptor_loads h

/-! ## What a module gives back -/

theorem free_eq (who : Holder) (x : LineVar) (s : Lines) :
    x.free who s = ⟨s.line.giveBack who x.line, s.action⟩ := by
  cases x with
  | gpio n => rfl
  | desc p =>
      cases p with
      | null => rfl
      | err e => rfl
      | obj n => rfl

/-- An interrupt is given back like a line, if it is one's own. -/
theorem freeIrq_spec (m : LedModule) (irq retval : Int) (s : Lines) :
    ∃ r : Registry Nat Holder, freeIrq (.led m) irq s = ⟨s.line, r⟩ ∧
      (r.misused = false ↔ s.action.misused = false ∧
        s.action.HoldsAll (.led m) ((irqAsks irq retval).map Ask.key)) ∧
      (r.misused = false → r = s.action.giveAll (.led m) ((irqAsks irq retval).map Ask.key)) := by
  unfold freeIrq irqAsks
  by_cases hneg : irq < 0
  · rw [if_pos hneg, if_pos hneg]
    exact ⟨s.action, rfl, @Registry.giveAll_misused _ _ _ _ _ _ [], fun _ => rfl⟩
  rw [if_neg hneg, if_neg hneg]
  have hrelease : ∃ r : Registry Nat Holder,
      (⟨s.line, s.action.release (.led m) irq.toNat⟩ : Lines) = ⟨s.line, r⟩ ∧
      (r.misused = false ↔ s.action.misused = false ∧ s.action.HoldsAll (.led m) [some irq.toNat]) ∧
      (r.misused = false → r = s.action.giveAll (.led m) [some irq.toNat]) :=
    ⟨_, rfl, @Registry.giveAll_misused _ _ _ _ _ _ [some irq.toNat], fun _ => rfl⟩
  cases hholder : s.action.holder irq.toNat with
  | none => exact hrelease
  | some w =>
      cases w with
      | led m' => exact hrelease
      | user c =>
          refine ⟨s.action.abuse, rfl, iff_of_false nofun ?_, nofun⟩
          rintro ⟨-, -, hall⟩
          rcases hall _ (List.mem_singleton_self _) with ⟨k, hk, hheld⟩
          rw [← Option.some.inj hk, hholder] at hheld
          cases hheld

theorem unload_eq (m : LedModule) (v : LineVars) (s : Lines) :
    m.unload v s = freeLines (.led m) v s := by
  cases m with
  | legacy => rfl
  | legacyDt => rfl
  | descriptor => rfl

/-- **What an unload does.** -/
theorem unload_spec (m : LedModule) (v : LineVars) (s : Lines) :
    (m.unload v s).line = s.line.giveAll (.led m) (v.asks.map Ask.key) ∧
      ((m.unload v s).action.misused = false ↔ s.action.misused = false ∧
        s.action.HoldsAll (.led m) (v.irqAsks.map Ask.key)) ∧
      ((m.unload v s).action.misused = false →
        (m.unload v s).action = s.action.giveAll (.led m) (v.irqAsks.map Ask.key)) := by
  rcases freeIrq_spec m v.irq v.retval s with ⟨r, hfree, hmisused, hgive⟩
  have hunload : m.unload v s = ⟨s.line.giveAll (.led m) (v.asks.map Ask.key), r⟩ := by
    rw [unload_eq, freeLines, hfree]
    simp only [free_eq]
    rfl
  rw [hunload]
  exact ⟨rfl, hmisused, hgive⟩

end

/-! ## The steps -/

def asksOf (v : Option LineVars) : List (Ask Nat) := v.elim [] LineVars.asks

def irqAsksOf (v : Option LineVars) : List (Ask Nat) := v.elim [] LineVars.irqAsks

/-- Every module has what it has been granted. -/
structure LedInv (s : LedSys) : Prop where
  line : ∀ m, s.lines.line.Owns (.led m) (asksOf (s.vars m))
  action : ∀ m, s.lines.action.Owns (.led m) (irqAsksOf (s.vars m))

/-- Nobody but the party `who` has gained or lost anything. -/
structure Others (who : Holder) (s t : Lines) : Prop where
  line : ∀ w, w ≠ who → s.line.SameFor w t.line
  action : ∀ w, w ≠ who → s.action.SameFor w t.action

section

variable {s t : LedSys} {e : LineEvent} {gpioToIrq : Nat → Int} {m : LedModule}

theorem ledInv_start : LedInv .start where
  line _ := ⟨fun _ => iff_of_false nofun nofun,
    iff_of_true nofun ⟨List.nodup_nil, fun _ h => absurd h List.not_mem_nil⟩⟩
  action _ := ⟨fun _ => iff_of_false nofun nofun,
    iff_of_true nofun ⟨List.nodup_nil, fun _ h => absurd h List.not_mem_nil⟩⟩

/-- A step of another user. -/
theorem LedInv.of_user {c : Nat} {lines : Lines} (h : LedInv s)
    (hothers : Others (.user c) s.lines lines) : LedInv { s with lines := lines } where
  line m := (h.line m).congr (hothers.line _ nofun)
  action m := (h.action m).congr (hothers.action _ nofun)

/-- A step of a module. -/
theorem LedInv.of_module {lines : Lines} {v : Option LineVars} (h : LedInv s)
    (hothers : Others (.led m) s.lines lines) (hline : lines.line.Owns (.led m) (asksOf v))
    (haction : lines.action.Owns (.led m) (irqAsksOf v)) :
    LedInv ⟨lines, Function.update s.vars m v⟩ := by
  have hother : ∀ m', m' ≠ m → Holder.led m' ≠ .led m := fun _ hne heq =>
    hne (Holder.led.inj heq)
  constructor
  · intro m'
    by_cases hm : m' = m
    · subst hm
      simpa using hline
    · simpa [Function.update_of_ne hm] using (h.line m').congr (hothers.line _ (hother m' hm))
  · intro m'
    by_cases hm : m' = m
    · subst hm
      simpa using haction
    · simpa [Function.update_of_ne hm] using (h.action m').congr (hothers.action _ (hother m' hm))

theorem Loads.others {who : Holder} {v : LineVars} {s t : Lines} (h : Loads who s v t) :
    Others who s t where
  line _ hne := h.line.choose_spec.2.sameFor hne
  action _ hne := h.action.sameFor hne

theorem Loads.misused {who : Holder} {v : LineVars} {s t : Lines} (h : Loads who s v t) :
    t.line.misused = s.line.misused ∧ t.action.misused = s.action.misused :=
  ⟨h.line.choose_spec.2.misused, h.action.misused⟩

/-- A load of a module that has nothing. -/
theorem Loads.inv {v : LineVars} {lines : Lines} (h : Loads (.led m) s.lines v lines)
    (hinv : LedInv s) (hvars : s.vars m = none) :
    LedInv ⟨lines, Function.update s.vars m (some v)⟩ := by
  have hline := hinv.line m
  have haction := hinv.action m
  rw [hvars] at hline haction
  rcases h.line with ⟨as, hperm, hasked⟩
  exact hinv.of_module h.others ((hasked.owns hline.none).perm hperm) (h.action.owns haction.none)

/-- An unload is clean if and only if the module has got everything. -/
theorem unload_misused {v : LineVars} (hinv : LedInv s) (hvars : s.vars m = some v) :
    ((m.unload v s.lines).line.misused = false ∧ (m.unload v s.lines).action.misused = false) ↔
      (s.lines.line.misused = false ∧ s.lines.action.misused = false) ∧ v.Fine := by
  rcases unload_spec m v s.lines with ⟨hline, hmisused, -⟩
  have howns := hinv.line m
  have howns' := hinv.action m
  rw [hvars] at howns howns'
  rw [hline, Registry.giveAll_misused, hmisused, v.fine_iff]
  change _ ↔ _ ∧ (∀ a ∈ asksOf (some v), _) ∧ ∀ a ∈ irqAsksOf (some v), _
  rw [howns.all, howns'.all]
  exact and_and_and_comm

theorem unload_inv {v : LineVars} (hinv : LedInv s) (hvars : s.vars m = some v) (hfine : v.Fine)
    (hclean : (m.unload v s.lines).action.misused = false) :
    Others (.led m) s.lines (m.unload v s.lines) ∧
      LedInv ⟨m.unload v s.lines, Function.update s.vars m none⟩ := by
  rcases unload_spec m v s.lines with ⟨hline, -, haction⟩
  have howns := hinv.line m
  have howns' := hinv.action m
  rw [hvars] at howns howns'
  rcases v.fine_iff.mp hfine with ⟨hall, hall'⟩
  have hothers : Others (.led m) s.lines (m.unload v s.lines) := by
    constructor
    · intro w hne
      rw [hline]
      exact (howns.all.mp hall).sameFor hne
    · intro w hne
      rw [haction hclean]
      exact (howns'.all.mp hall').sameFor hne
  refine ⟨hothers, hinv.of_module hothers ?_ ?_⟩
  · rw [hline]
    exact howns.giveAll hall
  · rw [haction hclean]
    exact howns'.giveAll hall'

theorem misused_eq_false : s.misused = false ↔
    s.lines.line.misused = false ∧ s.lines.action.misused = false := Bool.or_eq_false_iff

theorem unloadsFine_of_ne (h : ∀ m, e ≠ .unload m) : UnloadsFine s e :=
  fun m _ he => absurd he (h m)

/-- What a step may come to. -/
def StepOk (s : LedSys) (e : LineEvent) (t : LedSys) : Prop :=
  (t.misused = false ↔ s.misused = false ∧ UnloadsFine s e) ∧
    (t.misused = false → LedInv t ∧ Others e.party s.lines t.lines)

/-- A user takes a free line. -/
theorem request_ok {c gpio : Nat} (hinv : LedInv s) (hfree : s.lines.line.holder gpio = none) :
    StepOk s (.request c gpio)
      { s with lines := { s.lines with line := s.lines.line.take (.user c) gpio } } := by
  have hothers : Others (.user c) s.lines
      { s.lines with line := s.lines.line.take (.user c) gpio } :=
    ⟨fun _ hne => Registry.take_sameFor hfree hne, fun _ _ => Registry.SameFor.refl _ _⟩
  exact ⟨(and_iff_left (unloadsFine_of_ne fun _ => LineEvent.noConfusion)).symm,
    fun _ => ⟨hinv.of_user hothers, hothers⟩⟩

theorem free_ok {c gpio : Nat} (hinv : LedInv s)
    (hheld : s.lines.line.holder gpio = some (.user c)) :
    StepOk s (.free c gpio)
      { s with lines := { s.lines with line := s.lines.line.release (.user c) gpio } } := by
  have hothers : Others (.user c) s.lines
      { s.lines with line := s.lines.line.release (.user c) gpio } :=
    ⟨fun _ hne => Registry.release_sameFor hheld hne, fun _ _ => Registry.SameFor.refl _ _⟩
  refine ⟨?_, fun _ => ⟨hinv.of_user hothers, hothers⟩⟩
  rw [misused_eq_false, misused_eq_false, Registry.release_misused hheld]
  exact (and_iff_left (unloadsFine_of_ne fun _ => LineEvent.noConfusion)).symm

theorem requestIrq_ok {c irq : Nat} (hinv : LedInv s) (hfree : s.lines.action.holder irq = none) :
    StepOk s (.requestIrq c irq)
      { s with lines := { s.lines with action := s.lines.action.take (.user c) irq } } := by
  have hothers : Others (.user c) s.lines
      { s.lines with action := s.lines.action.take (.user c) irq } :=
    ⟨fun _ _ => Registry.SameFor.refl _ _, fun _ hne => Registry.take_sameFor hfree hne⟩
  exact ⟨(and_iff_left (unloadsFine_of_ne fun _ => LineEvent.noConfusion)).symm,
    fun _ => ⟨hinv.of_user hothers, hothers⟩⟩

theorem freeIrq_ok {c irq : Nat} (hinv : LedInv s)
    (hheld : s.lines.action.holder irq = some (.user c)) :
    StepOk s (.freeIrq c irq)
      { s with lines := { s.lines with action := s.lines.action.release (.user c) irq } } := by
  have hothers : Others (.user c) s.lines
      { s.lines with action := s.lines.action.release (.user c) irq } :=
    ⟨fun _ _ => Registry.SameFor.refl _ _, fun _ hne => Registry.release_sameFor hheld hne⟩
  refine ⟨?_, fun _ => ⟨hinv.of_user hothers, hothers⟩⟩
  rw [misused_eq_false, misused_eq_false, Registry.release_misused hheld]
  exact (and_iff_left (unloadsFine_of_ne fun _ => LineEvent.noConfusion)).symm

/-- What a step does, in full. -/
inductive LineMove (s : LedSys) : LineEvent → LedSys → Prop where
  | failed (m : LedModule) (o : LoadOutcome) : LineMove s (.load m o) s
  | loaded {m : LedModule} {o : LoadOutcome} {v : LineVars} {lines : Lines}
      (hvars : s.vars m = none) (hloads : Loads (.led m) s.lines v lines) :
      LineMove s (.load m o) ⟨lines, Function.update s.vars m (some v)⟩
  | unloaded {m : LedModule} {v : LineVars} (hvars : s.vars m = some v) :
      LineMove s (.unload m) ⟨m.unload v s.lines, Function.update s.vars m none⟩
  | requested {c gpio : Nat} (hfree : s.lines.line.holder gpio = none) :
      LineMove s (.request c gpio)
        { s with lines := { s.lines with line := s.lines.line.take (.user c) gpio } }
  | freed {c gpio : Nat} (hheld : s.lines.line.holder gpio = some (.user c)) :
      LineMove s (.free c gpio)
        { s with lines := { s.lines with line := s.lines.line.release (.user c) gpio } }
  | requestedIrq {c irq : Nat} (hfree : s.lines.action.holder irq = none) :
      LineMove s (.requestIrq c irq)
        { s with lines := { s.lines with action := s.lines.action.take (.user c) irq } }
  | freedIrq {c irq : Nat} (hheld : s.lines.action.holder irq = some (.user c)) :
      LineMove s (.freeIrq c irq)
        { s with lines := { s.lines with action := s.lines.action.release (.user c) irq } }

theorem lineStep_move (hstep : lineStep gpioToIrq s e = some t) : LineMove s e t := by
  cases e with
  | load m o =>
      cases hvars : s.vars m with
      | some v => simp [lineStep, hvars] at hstep
      | none =>
          cases hload : m.load gpioToIrq o s.lines with
          | error ret =>
              obtain rfl : s = t := by simpa [lineStep, hvars, hload] using hstep
              exact .failed m o
          | ok r =>
              rcases r with ⟨v, lines⟩
              obtain rfl : ⟨lines, Function.update s.vars m (some v)⟩ = t := by
                simpa [lineStep, hvars, hload] using hstep
              exact .loaded hvars (load_loads hload)
  | unload m =>
      cases hvars : s.vars m with
      | none => simp [lineStep, hvars] at hstep
      | some v =>
          obtain rfl : ⟨m.unload v s.lines, Function.update s.vars m none⟩ = t := by
            simpa [lineStep, hvars] using hstep
          exact .unloaded hvars
  | request c gpio =>
      by_cases hfree : s.lines.line.holder gpio = none
      · obtain rfl := by simpa [lineStep, hfree] using hstep
        exact .requested hfree
      · simp [lineStep, Option.isSome_iff_ne_none, hfree] at hstep
  | free c gpio =>
      by_cases hheld : s.lines.line.holder gpio = some (.user c)
      · obtain rfl := by simpa [lineStep, hheld] using hstep
        exact .freed hheld
      · simp [lineStep, hheld] at hstep
  | requestIrq c irq =>
      by_cases hfree : s.lines.action.holder irq = none
      · obtain rfl := by simpa [lineStep, hfree] using hstep
        exact .requestedIrq hfree
      · simp [lineStep, Option.isSome_iff_ne_none, hfree] at hstep
  | freeIrq c irq =>
      by_cases hheld : s.lines.action.holder irq = some (.user c)
      · obtain rfl := by simpa [lineStep, hheld] using hstep
        exact .freedIrq hheld
      · simp [lineStep, hheld] at hstep

/-- **One step.** Only an unload misuses anything, and only if something was refused at the load. -/
theorem LineMove.ok (hinv : LedInv s) (hmove : LineMove s e t) : StepOk s e t := by
  cases hmove with
  | failed m o =>
      exact ⟨(and_iff_left (unloadsFine_of_ne fun _ => LineEvent.noConfusion)).symm, fun _ =>
        ⟨hinv, fun _ _ => Registry.SameFor.refl _ _, fun _ _ => Registry.SameFor.refl _ _⟩⟩
  | loaded hvars hloads =>
      refine ⟨?_, fun _ => ⟨hloads.inv hinv hvars, hloads.others⟩⟩
      rw [misused_eq_false, misused_eq_false, hloads.misused.1, hloads.misused.2]
      exact (and_iff_left (unloadsFine_of_ne fun _ => LineEvent.noConfusion)).symm
  | @unloaded m v hvars =>
      have hfine : UnloadsFine s (.unload m) ↔ v.Fine := by
        constructor
        · exact fun h => h m v rfl hvars
        · rintro hv m' v' hm hv'
          cases hm
          obtain rfl : v = v' := Option.some.inj (hvars.symm.trans hv')
          exact hv
      unfold StepOk
      rw [misused_eq_false, misused_eq_false, hfine]
      refine ⟨unload_misused hinv hvars, fun hclean => ?_⟩
      have hv := ((unload_misused hinv hvars).mp hclean).2
      exact (unload_inv hinv hvars hv hclean.2).symm
  | requested hfree => exact request_ok hinv hfree
  | freed hheld => exact free_ok hinv hheld
  | requestedIrq hfree => exact requestIrq_ok hinv hfree
  | freedIrq hheld => exact freeIrq_ok hinv hheld

/-- Nothing undoes a misuse. -/
theorem LineMove.misused (hmove : LineMove s e t) (h : t.misused = false) : s.misused = false := by
  rw [misused_eq_false] at h ⊢
  cases hmove with
  | failed m o => exact h
  | loaded hvars hloads => rwa [hloads.misused.1, hloads.misused.2] at h
  | @unloaded m v hvars =>
      rcases unload_spec m v s.lines with ⟨hline, haction, -⟩
      rw [hline, Registry.giveAll_misused, haction] at h
      exact ⟨h.1.1, h.2.1⟩
  | requested hfree => exact h
  | freed hheld => rwa [Registry.release_misused hheld] at h
  | requestedIrq hfree => exact h
  | freedIrq hheld => rwa [Registry.release_misused hheld] at h

end

section

variable {gpioToIrq : Nat → Int} {es : List LineEvent} {s : LedSys}

/-- What holds after the events `es`. -/
structure LineRun (gpioToIrq : Nat → Int) (es : List LineEvent) (s : LedSys) : Prop where
  fine : s.misused = false ↔
    Along (lineStep gpioToIrq) (fun _ => UnloadsFine) LedSys.start es
  inv : s.misused = false → LedInv s
  others : s.misused = false → ∀ pre post t w, es = pre ++ post →
    run (lineStep gpioToIrq) LedSys.start pre = some t → (∀ e ∈ post, e.party ≠ w) →
    t.lines.line.SameFor w s.lines.line ∧ t.lines.action.SameFor w s.lines.action

theorem lineRun (hrun : run (lineStep gpioToIrq) LedSys.start es = some s) :
    LineRun gpioToIrq es s := by
  refine run_induct_all (I := LineRun gpioToIrq) ?_ ?_ es s hrun
  · refine ⟨iff_of_true rfl along_nil, fun _ => ledInv_start, ?_⟩
    intro _ pre post t w hes ht _
    obtain ⟨rfl, rfl⟩ := List.append_eq_nil_iff.mp hes.symm
    obtain rfl := Option.some.inj ht
    exact ⟨Registry.SameFor.refl _ _, Registry.SameFor.refl _ _⟩
  · intro es s e t hs h hstep
    have hmove := lineStep_move hstep
    have hlast : (∀ u, run (lineStep gpioToIrq) LedSys.start es = some u → UnloadsFine u e) ↔
        UnloadsFine s e := by
      constructor
      · exact fun hall => hall s hs
      · intro hfine u hu
        obtain rfl : s = u := Option.some.inj (hs.symm.trans hu)
        exact hfine
    refine ⟨?_, fun hclean => ?_, fun hclean pre post u w hes hu hw => ?_⟩
    · rw [along_concat, ← h.fine, hlast]
      constructor
      · intro hclean
        exact ((hmove.ok (h.inv (hmove.misused hclean))).1).mp hclean
      · rintro ⟨hclean, hfine⟩
        exact ((hmove.ok (h.inv hclean)).1).mpr ⟨hclean, hfine⟩
    · exact ((hmove.ok (h.inv (hmove.misused hclean))).2 hclean).1
    · have hbefore := hmove.misused hclean
      rcases List.eq_nil_or_concat post with rfl | ⟨post', f, rfl⟩
      · rw [List.append_nil] at hes
        rw [← hes, run_concat] at hu
        rcases hu with ⟨s', hs', hstep'⟩
        obtain rfl : s = s' := Option.some.inj (hs.symm.trans hs')
        obtain rfl : t = u := Option.some.inj (hstep.symm.trans hstep')
        exact ⟨Registry.SameFor.refl _ _, Registry.SameFor.refl _ _⟩
      · rw [List.concat_eq_append, ← List.append_assoc] at hes
        rcases List.append_inj' hes rfl with ⟨hes', hef⟩
        obtain rfl : e = f := by simpa using hef
        have hother : w ≠ e.party := fun heq => hw e (by simp) heq.symm
        have hsteps := ((hmove.ok (h.inv hbefore)).2 hclean).2
        rcases h.others hbefore pre post' u w hes' hu (fun d hd => hw d (by simp [hd])) with
          ⟨hline, haction⟩
        exact ⟨fun k => (hsteps.line w hother k).trans (hline k),
          fun k => (hsteps.action w hother k).trans (haction k)⟩

theorem LedInv.line_iff (h : LedInv s) (m : LedModule) (n : Nat) :
    s.lines.line.holder n = some (.led m) ↔ ∃ v, s.vars m = some v ∧
      ∃ r ∈ [v.red, v.green, v.btn1, v.btn2], 0 ≤ r.ret ∧ r.var.line = some n := by
  rw [(h.line m).held n]
  cases s.vars m with
  | none => simp [asksOf]
  | some v => simp [asksOf, LineVars.asks, Requested.ask]

theorem LedInv.action_iff (h : LedInv s) (m : LedModule) (i : Nat) :
    s.lines.action.holder i = some (.led m) ↔ ∃ v, s.vars m = some v ∧
      0 ≤ v.irq ∧ 0 ≤ v.retval ∧ v.irq.toNat = i := by
  rw [(h.action m).held i]
  cases s.vars m with
  | none => simp [irqAsksOf]
  | some v =>
      by_cases hneg : v.irq < 0
      · simp [irqAsksOf, LineVars.irqAsks, irqAsks, hneg, not_le.mpr hneg]
      · simp [irqAsksOf, LineVars.irqAsks, irqAsks, hneg, not_lt.mp hneg]

theorem LedInv.nodup {m : LedModule} {v : LineVars} (h : LedInv s) (hvars : s.vars m = some v)
    (hfine : v.Fine) : ([v.red, v.green, v.btn1, v.btn2].map fun r => r.var.line).Nodup := by
  have howns := h.line m
  rw [hvars] at howns
  exact (howns.all.mp (v.fine_iff.mp hfine).1).1

/-- **Loads and unloads among other users.** Nothing has been given back by someone who did not have
it if and only if every module that was unloaded had been refused no line and no valid interrupt,
which its init function does not look at. Up to then a module has exactly the lines and the
interrupt it has been granted, and nobody's lines change but by himself. A module of which two lines
are the same one has been refused one. -/
theorem lines_sound_iff (gpioToIrq : Nat → Int) (es : List LineEvent) (s : LedSys)
    (hrun : run (lineStep gpioToIrq) LedSys.start es = some s) :
    (s.misused = false ↔
      Along (lineStep gpioToIrq) (fun _ => UnloadsFine) LedSys.start es) ∧
    (s.misused = false →
      (∀ m n, s.lines.line.holder n = some (.led m) ↔ ∃ v, s.vars m = some v ∧
        ∃ r ∈ [v.red, v.green, v.btn1, v.btn2], 0 ≤ r.ret ∧ r.var.line = some n) ∧
      (∀ m i, s.lines.action.holder i = some (.led m) ↔ ∃ v, s.vars m = some v ∧
        0 ≤ v.irq ∧ 0 ≤ v.retval ∧ v.irq.toNat = i) ∧
      (∀ m v, s.vars m = some v → v.Fine →
        ([v.red, v.green, v.btn1, v.btn2].map fun r => r.var.line).Nodup) ∧
      ∀ pre post t w, es = pre ++ post → run (lineStep gpioToIrq) LedSys.start pre = some t →
        (∀ e ∈ post, e.party ≠ w) →
        (∀ n, s.lines.line.holder n = some w ↔ t.lines.line.holder n = some w) ∧
          ∀ i, s.lines.action.holder i = some w ↔ t.lines.action.holder i = some w) := by
  have h := lineRun hrun
  exact ⟨h.fine, fun hclean => ⟨(h.inv hclean).line_iff, (h.inv hclean).action_iff,
    fun _ _ hvars hfine => (h.inv hclean).nodup hvars hfine, h.others hclean⟩⟩

/-- The first module and a user who has got one of its buttons before. -/
def takenButton : List LineEvent :=
  [.request 0 Legacy.GPIO_BTN2,
    .load .legacy ⟨true, ⟨.ok 0, none⟩, ⟨.ok 0, none⟩, ⟨.ok 0, none⟩, ⟨.ok 0, none⟩, none⟩,
    .unload .legacy]

/-- The user loses his line. -/
theorem lines_sound_iff_taken :
    ∃ s, run (lineStep fun n => n) LedSys.start takenButton = some s ∧ s.misused = true ∧
      s.lines.line.holder Legacy.GPIO_BTN2 = none ∧
      ¬ Along (lineStep fun n => n) (fun _ => UnloadsFine) LedSys.start takenButton := by
  have hrun : (run (lineStep fun n => n) LedSys.start takenButton).any (fun s =>
      decide (s.misused = true ∧ s.lines.line.holder Legacy.GPIO_BTN2 = none)) = true := by
    decide +kernel
  rcases (Option.any_eq_true _ _).mp hrun with ⟨s, hs, hstate⟩
  rcases of_decide_eq_true hstate with ⟨hmisused, hholder⟩
  refine ⟨s, hs, hmisused, hholder, fun halong => ?_⟩
  have hclean := (lines_sound_iff _ _ s hs).1.mpr halong
  rw [hmisused] at hclean
  cases hclean

end

end LinuxDrivers.Gpio
