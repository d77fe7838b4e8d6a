import LinuxDrivers.Gpio.OtherPins

set_option autoImplicit false

/-! # Turning a pin into an output

`mcp23016_direction_output` first makes the pin an output and then sets its value. In between
the pin is driven at whatever its latch holds: the value it was set to last, or the level that
an update of another pin of the bank has left there. `glitchFree_iff`: nothing wrong is seen on
any pin exactly if the latch holds the new value already. -/

namespace LinuxDrivers.Gpio

open Lib

/-- At every moment of `mcp23016_direction_output`, and of what comes after it up to the next
call, the pin `o` is an input or driven at the new value, and every other output pin has the
level it had. The levels outside change at any moment. -/
def GlitchFree (u : User Chip GpioCall Smbus S32 S32) (o : Pin) (val : Int) : Prop :=
  ∀ es v, (∀ call, UserEvent.call call ∉ es) →
    run gpioStep u (.call (.directionOutput o val) :: es) = some v →
    (v.dev.isInput o = true ∨ v.dev.level o = decide (val ≠ 0)) ∧
      ∀ p, p ≠ o → u.dev.isInput p = false →
        v.dev.isInput p = false ∧ v.dev.level p = u.dev.level p

/-- The latch of `o` holds `v`, and the other pins that are outputs of `c` are outputs with the
latches of `c`. -/
def Steady (c : Chip) (o : Pin) (v : Bool) (s : Chip) : Prop :=
  s.latch o = v ∧ ∀ p, p ≠ o → c.isInput p = false → PinIs p (c.latch p) false s

section

variable {c s t : Chip} {o : Pin} {v : Bool}

theorem Steady.stable (s t : Chip) (hs : Steady c o v s) (h : SameRegs s t) : Steady c o v t :=
  ⟨(h.latch o).trans hs.1, fun p hp hout => (hs.2 p hp hout).stable s t h⟩

theorem Steady.set {val : Int} (hs : Steady c o (decide (val ≠ 0)) s) :
    (mcp23016Set o.val val).Keeps Chip.serve SameRegs (fun _ _ => True)
      (Steady c o (decide (val ≠ 0))) s := by
  refine set_keeps o val Steady.stable (fun t t' ht ht' _ _ => ⟨?_, fun p hp hout => ?_⟩) hs
  · rw [withOlat_latch, getLsbD_updated, if_pos rfl, if_pos rfl]
  · -- what is read of another output is its latch
    rcases ht.2 p hp hout with ⟨hlatch, hdir⟩
    rcases ht'.2 p hp hout with ⟨hlatch', hdir'⟩
    refine ⟨?_, by rw [withOlat_isInput]; exact hdir'⟩
    rw [latch_updated _ hp, Chip.level_of_output hdir, hlatch, hlatch', ite_self]

theorem Steady.directionOutput {val : Int} (hs : Steady c o (decide (val ≠ 0)) s) :
    (GpioCall.directionOutput o val).prog.Keeps Chip.serve SameRegs (fun _ _ => True)
      (Steady c o (decide (val ≠ 0))) s := by
  refine direction_keeps o val OUTPUT Steady.stable
    (fun t t' _ ht' hsame => ⟨?_, fun p hp hout => ?_⟩) (fun s _ hs => hs.set) hs
  · rw [withIodir_latch]
    exact ht'.1
  · rcases ht'.2 p hp hout with ⟨hlatch', hdir'⟩
    exact ⟨by rw [withIodir_latch]; exact hlatch', by rw [isInput_updated _ hp hsame]; exact hdir'⟩

end

/-- The call up to the moment when IODIR has been written. -/
theorem run_direction (c : Chip) (done : List (GpioCall × S32 × Chip)) (o : Pin) (val : Int) :
    run gpioStep ⟨c, none, done⟩ [.call (.directionOutput o val), .serve, .serve]
      = some ⟨c.withIodir o.bank (updated (c.bank o.bank).iodir o false),
          some (.directionOutput o val, mcp23016Set o.val val), done⟩ := by
  let written : S32 → SmbusProg S32 := fun x =>
    .call (.writeByteData (regIodir (o.val / 8)) ((assignBit x (o.val % 8) false).setWidth 8))
      (fun _ => mcp23016Set o.val val)
  have hcall : gpioStep ⟨c, none, done⟩ (.call (.directionOutput o val))
      = some ⟨c, some (.directionOutput o val, .call (.readByteData (regIodir (o.val / 8))) written),
          done⟩ := rfl
  have hread : gpioStep ⟨c, some (.directionOutput o val,
        .call (.readByteData (regIodir (o.val / 8))) written), done⟩ .serve
      = some ⟨c, some (.directionOutput o val, written ((c.bank o.bank).iodir.setWidth 32)),
          done⟩ := by
    simp only [gpioStep, userStep, serve_readIodir]
    rfl
  have hwrite : gpioStep ⟨c, some (.directionOutput o val,
        written ((c.bank o.bank).iodir.setWidth 32)), done⟩ .serve
      = some ⟨c.withIodir o.bank (updated (c.bank o.bank).iodir o false),
          some (.directionOutput o val, mcp23016Set o.val val), done⟩ := by
    simp only [gpioStep, userStep, written, serve_writeIodir]
    rfl
  rw [run_cons, hcall, Option.bind_some, run_cons, hread, Option.bind_some, run_cons, hwrite]
  rfl

/-- **When turning a pin into an output is glitch-free**: when its latch already holds the new
value. The calls and the levels before it may be any. -/
theorem glitchFree_iff (u : User Chip GpioCall Smbus S32 S32) (o : Pin) (val : Int)
    (hidle : u.cur = none) (hin : u.dev.isInput o = true) :
    GlitchFree u o val ↔ u.dev.latch o = decide (val ≠ 0) := by
  rcases u with ⟨c, cur, done⟩
  change cur = none at hidle
  subst hidle
  constructor
  · intro h
    -- the state after IODIR has been written: an output at its old latch
    have hdir : (c.withIodir o.bank (updated (c.bank o.bank).iodir o false)).isInput o = false := by
      rw [withIodir_isInput, if_pos rfl, getLsbD_updated, if_pos rfl]
    have hpin := (h [.serve, .serve] _ (by simp) (run_direction c done o val)).1
    change (c.withIodir _ _).isInput o = true ∨ (c.withIodir _ _).level o = _ at hpin
    rw [hdir, Chip.level_of_output hdir, withIodir_latch] at hpin
    exact hpin.resolve_left Bool.false_ne_true
  · intro hlatch es v hes hrun
    have hstart : UserKeeps Chip.serve SameRegs (fun _ _ => True)
        (Steady c o (decide (val ≠ 0))) (⟨c, none, done⟩ : User Chip GpioCall Smbus S32 S32) :=
      ⟨hlatch, fun p _ hout => ⟨rfl, hout⟩⟩
    have hcalls : ∀ call, UserEvent.call call ∈ .call (.directionOutput o val) :: es →
        call = .directionOutput o val := by
      intro call hcall
      rcases List.mem_cons.mp hcall with heq | hmem
      · exact UserEvent.call.inj heq
      · exact absurd hmem (hes call)
    have htrivial : Along gpioStep (fun _ => RequestMeets fun _ _ => True) ⟨c, none, done⟩
        (.call (.directionOutput o val) :: es) := by
      intro pre e post w _ _
      cases e with
      | serve => exact fun _ _ => trivial
      | call call => trivial
      | env e => trivial
    have hsteady : Steady c o (decide (val ≠ 0)) v.dev :=
      (user_keeps (C := fun call => call = .directionOutput o val) SameRegs.refl SameRegs.trans
        sameRegs_change Steady.stable
        (fun s call hcall hs => by rw [hcall]; exact hs.directionOutput) hstart hcalls htrivial
        hrun).here
    refine ⟨?_, fun p hp hout => ?_⟩
    · cases hdir : v.dev.isInput o with
      | true => exact Or.inl rfl
      | false =>
          right
          rw [Chip.level_of_output hdir]
          exact hsteady.1
    · rcases hsteady.2 p hp hout with ⟨hl, hdir⟩
      refine ⟨hdir, ?_⟩
      rw [Chip.level_of_output hdir, hl]
      exact (Chip.level_of_output hout).symm

/-- After power-up the latches hold 0, so a pin becomes an output at 0 without a glitch. -/
theorem glitchFree_low : GlitchFree (User.start idleChip) 5 0 :=
  (glitchFree_iff (User.start idleChip) 5 0 rfl (by decide)).mpr (by decide)

/-- **Turning a pin into an output at 1 after power-up** drives it at 0 first. -/
theorem not_glitchFree_high : ¬ GlitchFree (User.start idleChip) 5 1 := by
  intro h
  have hpin := (h [.serve, .serve] _ (by simp) (run_direction idleChip [] 5 1)).1
  revert hpin
  decide

end LinuxDrivers.Gpio
