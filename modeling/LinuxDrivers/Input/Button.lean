import LinuxDrivers.Kernel.Memory
import LinuxDrivers.Lib.Party

set_option autoImplicit false

/-! # The button with an interrupt

Each binding of `input-button.c` runs `btn_probe` and, if it returns 0, later `btn_remove`. Any
number of bindings do so at the same time, and `packt_btn_interrupt` may run whenever the interrupt of its
binding is requested.

`NoDeadDevice` says what one expects: the handler finds a registered input device and a GPIO that is
held, the interrupt requested is that of the stored GPIO, and whatever way a binding ends, input
device, GPIO and interrupt have been released once. This is so as long as no binding gets further
than the allocation of its input device, and once they have all ended only then
(`noDeadDevice_failsEarly`). -/

namespace LinuxDrivers.Input

open Lib

/-! ## The resources of a binding -/

inductive InputDev where
  | absent
  | allocated
  | registered
  | gone
  deriving DecidableEq

inductive Resource where
  | absent
  | held
  | released
  deriving DecidableEq

/-- The fields of `struct btn_data`, and the state of what the binding has acquired. `requested` is
the number with which an interrupt was asked for; `misused` records a call on something that is not
there, or not in the state for that call. -/
structure Btn where
  i_dev : Ptr
  btn_gpiod : Ptr
  irq : Int
  input : InputDev
  gpio : Resource
  line : Resource
  requested : Option Int
  misused : Bool
  deriving DecidableEq

def Btn.start : Btn := ⟨none, none, 0, .absent, .absent, .absent, none, false⟩

/-- What the calls of a binding return. -/
structure BtnOutcome where
  kzalloc : Bool
  input : Ptr
  gpio : Except Errno Nat
  register : Option Errno
  request : Option Errno

inductive BtnOp where
  | devmKzalloc
  | inputAllocateDevice
  | storeIDev (p : Ptr)
  | loadIDev
  | gpiodGet
  | storeGpiod (p : Ptr)
  | loadGpiod
  | storeIrq (n : Int)
  | loadIrq
  | inputRegisterDevice (p : Ptr)
  | inputUnregisterDevice (p : Ptr)
  | inputFreeDevice (p : Ptr)
  | requestAnyContextIrq (n : Int)
  | freeIrq (n : Int)
  | gpiodPut (p : Ptr)

/-- A pointer or a number, as the call has it; an error pointer is a negative number. -/
structure BtnAns where
  ptr : Ptr
  ret : Int

abbrev BtnProg := Prog BtnOp BtnAns

def BtnAns.none : BtnAns := ⟨Option.none, 0⟩
def BtnAns.error (e : Errno) : BtnAns := ⟨Option.none, e.1⟩

/-- `input_free_device` is for a device that is not registered; `input_unregister_device` gives up
one that is. -/
def btnServe (o : BtnOutcome) (b : Btn) : BtnOp → Btn × BtnAns
  | .devmKzalloc => (b, ⟨if o.kzalloc then some 0 else none, 0⟩)
  | .inputAllocateDevice =>
      (if o.input = none then b else { b with input := .allocated }, ⟨o.input, 0⟩)
  | .storeIDev p => ({ b with i_dev := p }, .none)
  | .loadIDev => (b, ⟨b.i_dev, 0⟩)
  | .gpiodGet =>
      match o.gpio with
      | .error e => (b, .error e)
      | .ok g => ({ b with gpio := .held }, ⟨some g, 0⟩)
  | .storeGpiod p => ({ b with btn_gpiod := p }, .none)
  | .loadGpiod => (b, ⟨b.btn_gpiod, 0⟩)
  | .storeIrq n => ({ b with irq := n }, .none)
  | .loadIrq => (b, ⟨none, b.irq⟩)
  | .inputRegisterDevice p =>
      if p = none ∨ b.input ≠ .allocated then ({ b with misused := true }, .none)
      else
        match o.register with
        | some e => (b, .error e)
        | none => ({ b with input := .registered }, .none)
  | .inputUnregisterDevice p =>
      if p = none ∨ b.input ≠ .registered then ({ b with misused := true }, .none)
      else ({ b with input := .gone }, .none)
  | .inputFreeDevice p =>
      if p = none ∨ b.input ≠ .allocated then ({ b with misused := true }, .none)
      else ({ b with input := .gone }, .none)
  | .requestAnyContextIrq n =>
      match o.request with
      | some e => ({ b with requested := some n }, .error e)
      | none => ({ b with requested := some n, line := .held }, .none)
  | .freeIrq _ =>
      if b.line ≠ .held then ({ b with misused := true }, .none)
      else ({ b with line := .released }, .none)
  | .gpiodPut p =>
      if p = none ∨ b.gpio ≠ .held then ({ b with misused := true }, .none)
      else ({ b with gpio := .released }, .none)

/-! ## The driver -/

/-- `priv->btn_gpiod` has not been set when `gpiod_to_irq` is called with it. -/
def btnProbe (gpiodToIrq : Ptr → Int) : BtnProg Int := do
  let priv ← Prog.send .devmKzalloc
  if priv.ptr = none then return - ENOMEM
  let i_dev ← Prog.send .inputAllocateDevice
  if i_dev.ptr = none then return - ENOMEM
  let _ ← Prog.send (.storeIDev i_dev.ptr)
  let gpiod ← Prog.send .gpiodGet
  if gpiod.ret < 0 then return - ENODEV
  let btn_gpiod ← Prog.send .loadGpiod
  let _ ← Prog.send (.storeIrq (gpiodToIrq btn_gpiod.ptr))
  let _ ← Prog.send (.storeGpiod gpiod.ptr)
  let dev ← Prog.send .loadIDev
  let ret ← Prog.send (.inputRegisterDevice dev.ptr)
  if ret.ret ≠ 0 then
    let _ ← Prog.send (.inputFreeDevice i_dev.ptr)
    return ret.ret
  let irq ← Prog.send .loadIrq
  let ret ← Prog.send (.requestAnyContextIrq irq.ret)
  if ret.ret < 0 then
    let btn_gpiod ← Prog.send .loadGpiod
    let _ ← Prog.send (.gpiodPut btn_gpiod.ptr)
    let _ ← Prog.send (.inputFreeDevice i_dev.ptr)
    return ret.ret
  return 0

def btnRemove : BtnProg Int := do
  let i_dev ← Prog.send .loadIDev
  let _ ← Prog.send (.inputUnregisterDevice i_dev.ptr)
  let i_dev ← Prog.send .loadIDev
  let _ ← Prog.send (.inputFreeDevice i_dev.ptr)
  let irq ← Prog.send .loadIrq
  let _ ← Prog.send (.freeIrq irq.ret)
  let btn_gpiod ← Prog.send .loadGpiod
  let _ ← Prog.send (.gpiodPut btn_gpiod.ptr)
  return 0

/-- A binding; it is removed when its next step is taken. -/
def binding (gpiodToIrq : Ptr → Int) : BtnProg Int := do
  let ret ← btnProbe gpiodToIrq
  if ret = 0 then btnRemove else return ret

section

variable {ι : Type} [DecidableEq ι]

abbrev Bindings (ι : Type) := Parties (ι → Btn) ι BtnOp BtnAns Int

/-- The handler runs if the interrupt is requested. It changes nothing of the binding. -/
def packtBtnInterrupt (b : ι → Btn) (i : ι) : Option (ι → Btn) :=
  if (b i).line = .held then some b else none

def bindingStep (o : ι → BtnOutcome) : Bindings ι → PartyEvent ι ι → Option (Bindings ι) :=
  partyStep (ownServe (fun i => btnServe (o i))) packtBtnInterrupt

def noBindings (gpiodToIrq : Ptr → Int) : Bindings ι :=
  ⟨fun _ => Btn.start, fun _ => binding gpiodToIrq⟩

/-! ## What is expected -/

/-- What the handler uses is there. -/
def HandlerOk (w : Bindings ι) : PartyEvent ι ι → Prop
  | .step _ => True
  | .env i => (w.dev i).i_dev ≠ none ∧ (w.dev i).input = .registered ∧
      (w.dev i).btn_gpiod ≠ none ∧ (w.dev i).gpio = .held

/-- The interrupt that was asked for is that of the stored GPIO. -/
def OwnIrq (gpiodToIrq : Ptr → Int) (b : Btn) : Prop :=
  ∀ n ∈ b.requested, b.btn_gpiod ≠ none ∧ n = gpiodToIrq b.btn_gpiod

/-- Nothing is left to release. -/
structure Released (b : Btn) : Prop where
  input : b.input = .absent ∨ b.input = .gone
  gpio : b.gpio ≠ .held
  line : b.line ≠ .held

/-- What is expected of a run. Nothing is released twice, as that is a misuse. -/
structure NoDeadDevice (gpiodToIrq : Ptr → Int) (o : ι → BtnOutcome)
    (es : List (PartyEvent ι ι)) : Prop where
  handler : Along (bindingStep o) (fun _ => HandlerOk) (noBindings gpiodToIrq) es
  irq : Always (bindingStep o) (fun w => ∀ i, OwnIrq gpiodToIrq (w.dev i))
    (noBindings gpiodToIrq) es
  used : Always (bindingStep o) (fun w => ∀ i, (w.dev i).misused = false)
    (noBindings gpiodToIrq) es
  released : Always (bindingStep o) (fun w => ∀ i ret, w.prog i = .ret ret → Released (w.dev i))
    (noBindings gpiodToIrq) es

/-- The probe gets no memory, or no input device. -/
def FailsEarly (o : BtnOutcome) : Prop := o.kzalloc = false ∨ o.input = none

/-! ## One binding -/

/-- Nothing has been acquired. -/
structure Clean (b : Btn) : Prop where
  input : b.input = .absent
  gpio : b.gpio = .absent
  line : b.line = .absent
  requested : b.requested = none
  misused : b.misused = false

/-- Something is held, or has been misused. -/
def Leaky (b : Btn) : Prop := b.misused = true ∨ b.input = .allocated ∨ b.gpio = .held

theorem clean_start : Clean Btn.start := ⟨rfl, rfl, rfl, rfl, rfl⟩

section

variable (gpiodToIrq : Ptr → Int) {o : BtnOutcome}

/-- A probe that fails early acquires nothing. -/
theorem binding_of_failsEarly (h : FailsEarly o) :
    (binding gpiodToIrq).Passes (btnServe o) Clean (fun _ _ => True) Btn.start := by
  have hstart := clean_start
  cases hmem : o.kzalloc with
  | false => simp [binding, btnProbe, Prog.Passes, btnServe, hmem, hstart, ENOMEM]
  | true =>
      have hinput : o.input = none := by
        rw [FailsEarly, hmem, or_iff_right nofun] at h
        exact h
      simp [binding, btnProbe, Prog.Passes, btnServe, hmem, hinput, hstart, ENOMEM]

/-- **Every other binding** ends with something held or misused: without a GPIO, the input device
stays; without a registration, the GPIO; without an interrupt a registered device is freed; and
the removal frees a device that it has unregistered. -/
theorem binding_leaky (h : ¬ FailsEarly o) :
    (binding gpiodToIrq).Passes (btnServe o) (fun _ => True) (fun _ => Leaky) Btn.start := by
  rcases not_or.mp h with ⟨hmem, hinput⟩
  rw [Bool.not_eq_false] at hmem
  rcases Option.ne_none_iff_exists'.mp hinput with ⟨q, hq⟩
  cases hgpio : o.gpio with
  | error e =>
      have he := e.2
      simp [binding, btnProbe, Prog.Passes, btnServe, BtnAns.error, hmem, hq, hgpio, he, ENODEV,
        Leaky]
  | ok g =>
      cases hreg : o.register with
      | some e =>
          have he : ¬ e.1 = 0 := ne_of_lt e.2
          simp [binding, btnProbe, Prog.Passes, btnServe, BtnAns.error, BtnAns.none, Btn.start, hmem,
            hq, hgpio, hreg, he, Leaky]
      | none =>
          cases hreq : o.request with
          | some e =>
              have he := e.2
              have he' : ¬ e.1 = 0 := ne_of_lt e.2
              simp [binding, btnProbe, Prog.Passes, btnServe, BtnAns.error, BtnAns.none, Btn.start,
                hmem, hq, hgpio, hreg, hreq, he, he', Leaky]
          | none =>
              simp [binding, btnProbe, btnRemove, Prog.Passes, btnServe, BtnAns.none, Btn.start,
                hmem, hq, hgpio, hreg, hreq, Leaky]

end

/-! ## Runs -/

section

variable {gpiodToIrq : Ptr → Int} {o : ι → BtnOutcome} {es : List (PartyEvent ι ι)}
  {w : Bindings ι}

omit [DecidableEq ι] in
/-- The handler changes nothing. -/
theorem packtBtnInterrupt_eq {b c : ι → Btn} {i : ι} (h : packtBtnInterrupt b i = some c) :
    c = b := by
  unfold packtBtnInterrupt at h
  split_ifs at h
  cases h
  rfl

/-- As long as only bindings that fail early take steps, nothing is acquired. -/
theorem clean_of_failsEarly (h : ∀ i, .step i ∈ es → FailsEarly (o i))
    (hrun : run (bindingStep o) (noBindings gpiodToIrq) es = some w) (i : ι) : Clean (w.dev i) := by
  by_cases hi : .step i ∈ es
  · have hpass := party_passes (fun _ _ _ => packtBtnInterrupt_eq) (i := i)
      (binding_of_failsEarly gpiodToIrq (h i hi)) hrun
    exact hpass.here
  · obtain ⟨hdev, -⟩ := party_idle (fun _ _ _ => packtBtnInterrupt_eq) hi hrun
    rw [hdev]
    exact clean_start

/-- A binding that does not fail early and has ended has left something. -/
theorem leaky_of_ended {i : ι} {ret : Int} (h : ¬ FailsEarly (o i))
    (hrun : run (bindingStep o) (noBindings gpiodToIrq) es = some w) (hret : w.prog i = .ret ret) :
    Leaky (w.dev i) := by
  have hpass := party_passes (fun _ _ _ => packtBtnInterrupt_eq) (i := i)
    (binding_leaky gpiodToIrq h) hrun
  rw [hret] at hpass
  exact hpass.2

theorem Released.not_leaky {b : Btn} (h : Released b) (hused : b.misused = false) : ¬ Leaky b := by
  rintro (hmis | hinput | hgpio)
  · rw [hused] at hmis
    cases hmis
  · rcases h.input with habsent | hgone
    · rw [hinput] at habsent
      cases habsent
    · rw [hinput] at hgone
      cases hgone
  · exact h.gpio hgpio

theorem noDeadDevice_of_failsEarly (h : ∀ i, .step i ∈ es → FailsEarly (o i))
    (hrun : run (bindingStep o) (noBindings gpiodToIrq) es = some w) :
    NoDeadDevice gpiodToIrq o es := by
  have hclean : ∀ pre post v, es = pre ++ post →
      run (bindingStep o) (noBindings gpiodToIrq) pre = some v → ∀ i, Clean (v.dev i) := by
    intro pre post v hes hv
    refine clean_of_failsEarly (fun i hi => h i ?_) hv
    rw [hes]
    exact List.mem_append_left _ hi
  constructor
  · intro pre e post v hes hv
    cases e with
    | step i => trivial
    | env i =>
        -- no interrupt is requested, so that the handler cannot run
        have hfree := (hclean pre _ v hes hv i).line
        rw [hes, run_append, hv, Option.bind_some, run_cons, Option.bind_eq_some_iff] at hrun
        rcases hrun with ⟨t, ht, -⟩
        rcases partyStep_env.mp ht with ⟨c, hc, -⟩
        have hnone : packtBtnInterrupt v.dev i = none := if_neg (by rw [hfree]; exact nofun)
        rw [hnone] at hc
        cases hc
  · intro pre post v hes hv i n hn
    rw [(hclean pre post v hes hv i).requested] at hn
    cases hn
  · exact fun pre post v hes hv i => (hclean pre post v hes hv i).misused
  · intro pre post v hes hv i ret _
    have hi := hclean pre post v hes hv i
    refine ⟨Or.inl hi.input, ?_, ?_⟩
    · rw [hi.gpio]
      exact nofun
    · rw [hi.line]
      exact nofun

/-- **When no interrupt meets a dead device, and all is released once**: in every run in which each
binding that is probed gets no memory or no input device; and a run in which all bindings that have
been probed have ended, by an error or by their removal, is as expected only then. -/
theorem noDeadDevice_failsEarly (gpiodToIrq : Ptr → Int) (o : ι → BtnOutcome)
    (es : List (PartyEvent ι ι)) (w : Bindings ι)
    (hrun : run (bindingStep o) (noBindings gpiodToIrq) es = some w) :
    ((∀ i, .step i ∈ es → FailsEarly (o i)) → NoDeadDevice gpiodToIrq o es) ∧
    ((∀ i, .step i ∈ es → ∃ ret, w.prog i = .ret ret) → NoDeadDevice gpiodToIrq o es →
      ∀ i, .step i ∈ es → FailsEarly (o i)) := by
  refine ⟨fun h => noDeadDevice_of_failsEarly h hrun, fun hended h i hi => ?_⟩
  rcases hended i hi with ⟨ret, hret⟩
  by_contra hlate
  have hreleased := h.released es [] w (List.append_nil es).symm hrun i ret hret
  exact hreleased.not_leaky (h.used es [] w (List.append_nil es).symm hrun i)
    (leaky_of_ended hlate hrun hret)

end

/-- What `gpiod_to_irq` returns, for the runs below: an error for NULL. -/
def irqOf : Ptr → Int
  | none => - EINVAL
  | some g => g

def fineOutcome : BtnOutcome := ⟨true, some 0, .ok 7, none, none⟩

/-- One binding without an input device and one without memory. -/
theorem noDeadDevice_two_bindings :
    (run (bindingStep (fun i : Bool => { fineOutcome with kzalloc := i, input := none }))
      (noBindings irqOf) [.step true, .step false, .step true]).isSome = true ∧
    NoDeadDevice irqOf (fun i : Bool => { fineOutcome with kzalloc := i, input := none })
      [.step true, .step false, .step true] := by
  have hrun : (run (bindingStep (fun i : Bool => { fineOutcome with kzalloc := i, input := none }))
      (noBindings irqOf) [.step true, .step false, .step true]).isSome = true := by
    decide +kernel
  refine ⟨hrun, ?_⟩
  rcases Option.isSome_iff_exists.mp hrun with ⟨w, hw⟩
  exact (noDeadDevice_failsEarly irqOf _ _ w hw).1 (fun _ _ => Or.inr rfl)

/-- **Each part fails**: a probe that gets no GPIO leaves its input device; one that gets everything
asks for the interrupt of NULL; and its removal lets the handler meet a device that is gone. -/
theorem not_noDeadDevice :
    (¬ NoDeadDevice irqOf (fun _ : Unit => { fineOutcome with gpio := .error ⟨-1, by decide⟩ })
      (List.replicate 4 (.step ()))) ∧
    (¬ NoDeadDevice irqOf (fun _ : Unit => fineOutcome) (List.replicate 11 (.step ()))) ∧
    ¬ Along (bindingStep (fun _ : Unit => fineOutcome)) (fun _ => HandlerOk) (noBindings irqOf)
      (List.replicate 13 (.step ()) ++ [.env ()]) := by
  refine ⟨fun h => ?_, fun h => ?_, fun h => ?_⟩
  · have hleft := h.released (List.replicate 4 (.step ())) [] _ rfl rfl () _ rfl
    rcases hleft.input with habsent | hgone
    · cases habsent
    · cases hgone
  · have hown := h.irq (List.replicate 11 (.step ())) [] _ rfl rfl () _ rfl
    exact absurd hown.2 (by decide)
  · have hok := h (List.replicate 13 (.step ())) (.env ()) [] _ rfl rfl
    cases hok.2.1

end

end LinuxDrivers.Input
