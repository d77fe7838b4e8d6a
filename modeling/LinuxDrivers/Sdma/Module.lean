import LinuxDrivers.Kernel.Chrdev
import LinuxDrivers.Lib.Lifecycle
import LinuxDrivers.Sdma.Driver

set_option autoImplicit false

/-! # Loading and unloading the two SDMA modules

`sdma_init_module` and `sdma_cleanup_module` are the same in both modules. Each module keeps its
major number and its class in two variables of its own; both use the name "sdma_test" for the
class, so only one of them can be loaded at a time.

`modules_balanced`: in every sequence of loads and unloads of the two, with any of the kernel's
calls failing, and beside whatever other drivers hold, a load that fails leaves nothing behind, an
unload gives back what its own load acquired, and no call is made with an object that is gone. -/

namespace LinuxDrivers.Sdma

open Lib

/-- `gMajor` and `dma_tm_class`. -/
structure ModuleVars where
  gMajor : Nat
  dma_tm_class : KPtr

/-- `register_chrdev` with major number 0; the region stands for the cdev that comes with it. -/
def registerChrdev : ChrProg ChrAns := Prog.send .allocChrdevRegion

def unregisterChrdev (major : Nat) : ChrProg ChrAns := Prog.send (.unregisterChrdevRegion major)

def sdmaInitModule (g : ModuleVars) : ChrProg (Int × ModuleVars) := do
  match ← registerChrdev with
  | .error error => return (error.1, g)
  | .ok error =>
      let g := { g with gMajor := error }
      match ← Prog.send (.classCreate "sdma_test") with
      | .error e =>
          let g := { g with dma_tm_class := .err e }
          let _ ← unregisterChrdev g.gMajor
          return (e.1, g)
      | .ok h =>
          let g := { g with dma_tm_class := .obj h }
          match ← Prog.send (.deviceCreate g.dma_tm_class g.gMajor) with
          | .error _ =>
              let _ ← Prog.send (.classDestroy g.dma_tm_class)
              let _ ← unregisterChrdev g.gMajor
              return (-1, g)
          | .ok _ => return (0, g)

def sdmaCleanupModule (g : ModuleVars) : ChrProg Unit := do
  let _ ← unregisterChrdev g.gMajor
  let _ ← Prog.send (.deviceDestroy g.dma_tm_class g.gMajor)
  let _ ← Prog.send (.classDestroy g.dma_tm_class)
  return ()

/-- The kernel and the variables of both modules. -/
structure ModuleSys where
  kernel : Chrdev
  vars : Driver → ModuleVars

def modules : Lifecycle ModuleSys Driver ChrOutcome Fault ChrObj where
  probe d o s :=
    match (sdmaInitModule (s.vars d)).exec (Chrdev.serve o) s.kernel with
    | .error f => .error f
    | .ok ((ret, g), kernel) => .ok (decide (ret = 0), ⟨kernel, Function.update s.vars d g⟩)
  remove d s :=
    match (sdmaCleanupModule (s.vars d)).exec (Chrdev.serve .fine) s.kernel with
    | .error f => .error f
    | .ok (_, kernel) => .ok { s with kernel := kernel }
  Held s o := o ∈ s.kernel.held

/-- Neither module is loaded; the kernel may hold objects of others. -/
def ModuleSys.start (kernel : Chrdev) : ModuleSys := ⟨kernel, fun _ => ⟨0, .null⟩⟩

/-! ## What the kernel holds -/

/-- The numbers of the object have been given out. -/
def ChrObj.Below (n : Nat) : ChrObj → Prop
  | .region major => major < n
  | .cls h _ => h < n
  | .mem q => q < n
  | .cdev _ major => major < n
  | .device h major => h < n ∧ major < n

theorem ChrObj.Below.mono {n m : Nat} (hnm : n ≤ m) {o : ChrObj} (h : ChrObj.Below n o) :
    ChrObj.Below m o := by
  cases o with
  | device c major => exact ⟨h.1.trans_le hnm, h.2.trans_le hnm⟩
  | _ => exact Nat.lt_of_lt_of_le h hnm

/-- A kernel state that the calls can lead to: all numbers have been given out, and a class has one
name and a name one class. -/
structure WellNumbered (k : Chrdev) : Prop where
  below : ∀ o ∈ k.held, ChrObj.Below k.next o
  name : ∀ h n n', .cls h n ∈ k.held → .cls h n' ∈ k.held → n = n'
  number : ∀ h h' n, .cls h n ∈ k.held → .cls h' n ∈ k.held → h = h'

theorem wellNumbered_empty : WellNumbered .empty where
  below o ho := by cases ho
  name h n n' hn := by cases hn
  number h h' n hn := by cases hn

theorem WellNumbered.of_subset {k k' : Chrdev} (h : WellNumbered k)
    (hsub : ∀ o ∈ k'.held, o ∈ k.held) (hnext : k.next ≤ k'.next) : WellNumbered k' where
  below o ho := (h.below o (hsub o ho)).mono hnext
  name c n n' hn hn' := h.name c n n' (hsub _ hn) (hsub _ hn')
  number c c' n hc hc' := h.number c c' n (hsub _ hc) (hsub _ hc')

/-- What a module with the numbers `m` and `h` holds. -/
def moduleObjects (m h : Nat) : List ChrObj := [.device h m, .cls h "sdma_test", .region m]

section

variable {k : Chrdev}

theorem hasName_iff (name : String) : k.hasName name = true ↔ ∃ h, .cls h name ∈ k.held := by
  unfold Chrdev.hasName
  rw [List.any_eq_true]
  constructor
  · rintro ⟨o, ho, hname⟩
    cases o with
    | cls h name' =>
        obtain rfl : name' = name := of_decide_eq_true hname
        exact ⟨h, ho⟩
    | _ => exact Bool.noConfusion hname
  · rintro ⟨h, hh⟩
    exact ⟨_, hh, decide_eq_true rfl⟩

theorem isClass_cls (h h' : Nat) (name : String) :
    Chrdev.isClass h (.cls h' name) = decide (h' = h) := rfl

theorem isClass_region (h m : Nat) : Chrdev.isClass h (.region m) = false := rfl

/-- Nothing held has a number that has not been given out. -/
theorem WellNumbered.ne_region (hk : WellNumbered k) : ∀ o ∈ k.held, ¬ o = .region k.next := by
  rintro o ho rfl
  exact Nat.lt_irrefl _ (hk.below _ ho)

theorem WellNumbered.not_isClass (hk : WellNumbered k) :
    ∀ o ∈ k.held, Chrdev.isClass (k.next + 1) o = false := by
  intro o ho
  cases o with
  | cls h name =>
      have hlt : h < k.next := hk.below _ ho
      rw [isClass_cls]
      exact decide_eq_false (by omega)
  | _ => rfl

end

/-! ## What a load and an unload do -/

section

variable {d : Driver} {s : ModuleSys} {o : ChrOutcome}

/-- A load fails and changes nothing but its own variables, or it adds its three objects. -/
theorem probe_modules (hk : WellNumbered s.kernel) :
    (∃ next g, s.kernel.next ≤ next ∧ modules.probe d o s
        = .ok (false, ⟨⟨s.kernel.held, next⟩, Function.update s.vars d g⟩)) ∨
      (s.kernel.hasName "sdma_test" = false ∧ modules.probe d o s
        = .ok (true, ⟨⟨moduleObjects s.kernel.next (s.kernel.next + 1) ++ s.kernel.held,
            s.kernel.next + 3⟩,
          Function.update s.vars d ⟨s.kernel.next, .obj (s.kernel.next + 1)⟩⟩)) := by
  have hregion := hk.ne_region
  have hclass := hk.not_isClass
  have hname : (⟨.region s.kernel.next :: s.kernel.held, s.kernel.next + 1⟩ : Chrdev).hasName
      "sdma_test" = s.kernel.hasName "sdma_test" := rfl
  cases hreg : o.region with
  | some e =>
      refine Or.inl ⟨s.kernel.next, s.vars d, Nat.le_refl _, ?_⟩
      simp [modules, sdmaInitModule, registerChrdev, Prog.exec, Chrdev.serve, Chrdev.make, hreg,
        ne_of_lt e.2]
  | none =>
      cases htaken : s.kernel.hasName "sdma_test" with
      | true =>
          refine Or.inl ⟨s.kernel.next + 1, ⟨s.kernel.next, .err ⟨-EEXIST, by decide⟩⟩,
            Nat.le_succ _, ?_⟩
          simpa [modules, sdmaInitModule, registerChrdev, unregisterChrdev, Prog.exec, Chrdev.serve,
            Chrdev.make, Chrdev.drop, hreg, hname, htaken, EEXIST] using hregion
      | false =>
          cases hcls : o.cls with
          | some e =>
              refine Or.inl ⟨s.kernel.next + 1, ⟨s.kernel.next, .err e⟩, Nat.le_succ _, ?_⟩
              simpa [modules, sdmaInitModule, registerChrdev, unregisterChrdev, Prog.exec,
                Chrdev.serve, Chrdev.make, Chrdev.drop, hreg, hname, htaken, hcls, ne_of_lt e.2]
                using hregion
          | none =>
              cases hdev : o.device with
              | some e =>
                  refine Or.inl ⟨s.kernel.next + 2, ⟨s.kernel.next, .obj (s.kernel.next + 1)⟩,
                    Nat.le_add_right _ 2, ?_⟩
                  simpa [modules, sdmaInitModule, registerChrdev, unregisterChrdev, Prog.exec,
                    Chrdev.serve, Chrdev.make, Chrdev.drop, hreg, hname, htaken, hcls, hdev,
                    isClass_cls, isClass_region] using fun o ho => ⟨hregion o ho, hclass o ho⟩
              | none =>
                  refine Or.inr ⟨rfl, ?_⟩
                  simp [modules, sdmaInitModule, registerChrdev, Prog.exec, Chrdev.serve,
                    Chrdev.make, hreg, hname, htaken, hcls, hdev, isClass_cls, moduleObjects]

/-- An unload takes away the three objects of its module. -/
theorem remove_modules {m h : Nat} (hvars : s.vars d = ⟨m, .obj h⟩)
    (hmem : .cls h "sdma_test" ∈ s.kernel.held) :
    modules.remove d s = .ok { s with kernel := { s.kernel with
      held := ((s.kernel.held.filter (fun o => !decide (o = .region m))).filter
        (fun o => !decide (o = .device h m))).filter (fun o => !Chrdev.isClass h o) } } := by
  have hfirst : (s.kernel.held.filter (fun o => !decide (o = .region m))).any (Chrdev.isClass h)
      = true := List.any_eq_true.mpr ⟨_, List.mem_filter.mpr ⟨hmem, rfl⟩, decide_eq_true rfl⟩
  have hsecond : ((s.kernel.held.filter (fun o => !decide (o = .region m))).filter
      (fun o => !decide (o = .device h m))).any (Chrdev.isClass h) = true :=
    List.any_eq_true.mpr ⟨_, List.mem_filter.mpr ⟨List.mem_filter.mpr ⟨hmem, rfl⟩, rfl⟩,
      decide_eq_true rfl⟩
  simp only [modules, sdmaCleanupModule, unregisterChrdev, hvars, Prog.send_bind, Prog.exec,
    Chrdev.serve, Chrdev.drop, hfirst, hsecond, if_true]
  rfl

end

/-! ## Runs -/

/-- A loaded module is the only one; its variables name its three objects, which are held, and are
what its load acquired. -/
structure ModulesInv (s : Bound ModuleSys Driver) : Prop where
  running : s.stopped = false
  numbered : WellNumbered s.state.kernel
  sole : ∀ d d', (s.own d).isSome = true → (s.own d').isSome = true → d = d'
  loaded : ∀ d, ∀ own ∈ s.own d, ∃ m h, s.state.vars d = ⟨m, .obj h⟩ ∧
    (∀ o ∈ moduleObjects m h, o ∈ s.state.kernel.held) ∧
    ∀ o, modules.Acquired own o ↔ o ∈ moduleObjects m h

theorem modulesInv_start {k : Chrdev} (hk : WellNumbered k) :
    ModulesInv (Bound.start Driver (ModuleSys.start k)) where
  running := rfl
  numbered := hk
  sole d d' hd := by cases hd
  loaded d own hown := by cases hown

section

variable {s t : Bound ModuleSys Driver} {d : Driver} {o : ChrOutcome}

/-- A loaded module has the class. -/
theorem ModulesInv.hasName (h : ModulesInv s) (hd : (s.own d).isSome = true) :
    s.state.kernel.hasName "sdma_test" = true := by
  rcases Option.isSome_iff_exists.mp hd with ⟨own, hown⟩
  rcases h.loaded d own hown with ⟨m, c, -, hheld, -⟩
  exact (hasName_iff _).mpr ⟨c, hheld _ (by simp [moduleObjects])⟩

/-- The objects of a module leave: they are all that goes. -/
theorem held_remove {k : Chrdev} (hk : WellNumbered k) {m h : Nat}
    (hmem : .cls h "sdma_test" ∈ k.held) (b : ChrObj) :
    b ∈ ((k.held.filter (fun o => !decide (o = .region m))).filter
        (fun o => !decide (o = .device h m))).filter (fun o => !Chrdev.isClass h o) ↔
      b ∈ k.held ∧ b ∉ moduleObjects m h := by
  have hcls : b ∈ k.held → (Chrdev.isClass h b = true ↔ b = .cls h "sdma_test") := by
    intro hb
    cases b with
    | cls h' name =>
        rw [isClass_cls, decide_eq_true_eq, ChrObj.cls.injEq]
        refine ⟨?_, And.left⟩
        rintro rfl
        exact ⟨rfl, hk.name h' name "sdma_test" hb hmem⟩
    | _ => exact iff_of_false Bool.false_ne_true (fun hne => by cases hne)
  simp only [List.mem_filter, Bool.not_eq_true', decide_eq_false_iff_not, moduleObjects,
    List.mem_cons, List.not_mem_nil, or_false, not_or]
  constructor
  · rintro ⟨⟨⟨hb, hreg⟩, hdev⟩, hnot⟩
    exact ⟨hb, hdev, fun heq => Bool.false_ne_true (hnot.symm.trans ((hcls hb).mpr heq)), hreg⟩
  · rintro ⟨hb, hdev, hnot, hreg⟩
    refine ⟨⟨⟨hb, hreg⟩, hdev⟩, ?_⟩
    rw [← Bool.not_eq_true, hcls hb]
    exact hnot

/-- Every step is balanced. -/
theorem ModulesInv.balanced (h : ModulesInv s) (e : BindEvent Driver ChrOutcome) :
    Balanced modules s e := by
  cases e with
  | probe d o =>
      rcases probe_modules (d := d) (o := o) h.numbered with ⟨next, g, -, hfail⟩ | ⟨-, hload⟩
      · exact ⟨_, _, hfail, fun _ b => Iff.rfl, (fun hok => by cases hok)⟩
      · exact ⟨_, _, hload, (fun hok => by cases hok), fun _ b hb => List.mem_append_right _ hb⟩
  | remove d =>
      intro own hown
      rcases h.loaded d own hown with ⟨m, c, hvars, hheld, hacq⟩
      have hmem := hheld (.cls c "sdma_test") (by simp [moduleObjects])
      refine ⟨_, remove_modules hvars hmem, fun b => ?_⟩
      rw [hacq b]
      exact held_remove h.numbered hmem b

/-- A load that succeeds. -/
theorem ModulesInv.load (h : ModulesInv s) (hname : s.state.kernel.hasName "sdma_test" = false)
    {u : ModuleSys} (hu : u = ⟨⟨moduleObjects s.state.kernel.next (s.state.kernel.next + 1)
        ++ s.state.kernel.held, s.state.kernel.next + 3⟩,
      Function.update s.state.vars d ⟨s.state.kernel.next, .obj (s.state.kernel.next + 1)⟩⟩) :
    ModulesInv { s with state := u, own := Function.update s.own d (some (s.state, u)) } := by
  have hk := h.numbered
  have hnone : ∀ d', s.own d' = none := by
    intro d'
    by_contra hd'
    have := h.hasName (Option.isSome_iff_ne_none.mpr hd')
    rw [hname] at this
    cases this
  have hfresh : ∀ c n, .cls c n ∈ s.state.kernel.held → c < s.state.kernel.next :=
    fun c n hc => hk.below _ hc
  have hother : ∀ c, .cls c "sdma_test" ∉ s.state.kernel.held := by
    intro c hc
    rw [(hasName_iff _).mpr ⟨c, hc⟩] at hname
    cases hname
  -- who is loaded now is the module itself
  have hsole : ∀ d' own, own ∈ Function.update s.own d (some (s.state, u)) d' →
      d' = d ∧ own = (s.state, u) := by
    intro d' own hown
    rcases mem_update.mp hown with ⟨rfl, hnew⟩ | ⟨-, hold⟩
    · exact ⟨rfl, (Option.some.inj hnew).symm⟩
    · rw [hnone d'] at hold
      cases hold
  subst hu
  refine ⟨h.running, ⟨?_, ?_, ?_⟩, ?_, ?_⟩
  · intro b hb
    rcases List.mem_append.mp hb with hb | hb
    · simp only [moduleObjects, List.mem_cons, List.not_mem_nil, or_false] at hb
      rcases hb with rfl | rfl | rfl
      · exact ⟨Nat.add_lt_add_left (by decide) _, Nat.lt_add_of_pos_right (by decide)⟩
      · exact Nat.add_lt_add_left (by decide) _
      · exact Nat.lt_add_of_pos_right (by decide)
    · exact (hk.below b hb).mono (Nat.le_add_right _ 3)
  · intro c n n' hn hn'
    simp only [moduleObjects, List.mem_append, List.mem_cons, List.not_mem_nil, or_false,
      reduceCtorEq, ChrObj.cls.injEq, false_or] at hn hn'
    rcases hn with ⟨rfl, rfl⟩ | hn
    · rcases hn' with ⟨-, rfl⟩ | hn'
      · rfl
      · exact absurd (hfresh _ _ hn') (by omega)
    · rcases hn' with ⟨rfl, rfl⟩ | hn'
      · exact absurd (hfresh _ _ hn) (by omega)
      · exact hk.name c n n' hn hn'
  · intro c c' n hc hc'
    simp only [moduleObjects, List.mem_append, List.mem_cons, List.not_mem_nil, or_false,
      reduceCtorEq, ChrObj.cls.injEq, false_or] at hc hc'
    rcases hc with ⟨rfl, rfl⟩ | hc
    · rcases hc' with ⟨rfl, -⟩ | hc'
      · rfl
      · exact absurd hc' (hother c')
    · rcases hc' with ⟨rfl, rfl⟩ | hc'
      · exact absurd hc (hother c)
      · exact hk.number c c' n hc hc'
  · intro d₁ d₂ h₁ h₂
    rcases Option.isSome_iff_exists.mp h₁ with ⟨own₁, h₁⟩
    rcases Option.isSome_iff_exists.mp h₂ with ⟨own₂, h₂⟩
    rw [(hsole d₁ own₁ h₁).1, (hsole d₂ own₂ h₂).1]
  · intro d' own hown
    rcases hsole d' own hown with ⟨rfl, rfl⟩
    refine ⟨s.state.kernel.next, s.state.kernel.next + 1, Function.update_self .., ?_, ?_⟩
    · exact fun b hb => List.mem_append_left _ hb
    · intro b
      constructor
      · rintro ⟨hnew, hold⟩
        exact (List.mem_append.mp hnew).resolve_right hold
      · intro hb
        refine ⟨List.mem_append_left _ hb, fun hold => ?_⟩
        have hbelow := hk.below b hold
        simp only [moduleObjects, List.mem_cons, List.not_mem_nil, or_false] at hb
        rcases hb with rfl | rfl | rfl
        · exact Nat.lt_irrefl _ hbelow.2
        · exact absurd hbelow (Nat.not_lt.mpr (Nat.le_succ _))
        · exact Nat.lt_irrefl _ hbelow

theorem modulesInv_step {e : BindEvent Driver ChrOutcome} (h : ModulesInv s)
    (hstep : bindStep modules s e = some t) : ModulesInv t := by
  have hk := h.numbered
  cases e with
  | probe d o =>
      rcases bindStep_probe hstep with ⟨-, hd, hcases⟩
      rcases probe_modules (d := d) (o := o) hk with ⟨next, g, hnext, hfail⟩ | ⟨hname, hload⟩
      · rw [hfail] at hcases
        rcases hcases with ⟨f, hf, -⟩ | ⟨u, hu, rfl⟩ | ⟨u, hu, -⟩
        · cases hf
        · obtain rfl := (Prod.mk.inj (Except.ok.inj hu)).2
          refine ⟨h.running, hk.of_subset (fun o ho => ho) hnext, h.sole, fun d' own hown => ?_⟩
          have hne : d' ≠ d := by
            rintro rfl
            change own ∈ s.own d' at hown
            rw [hd] at hown
            cases hown
          rcases h.loaded d' own hown with ⟨m, c, hvars, hheld, hacq⟩
          exact ⟨m, c, (Function.update_of_ne hne _ _).trans hvars, hheld, hacq⟩
        · cases (Prod.mk.inj (Except.ok.inj hu)).1
      · rw [hload] at hcases
        rcases hcases with ⟨f, hf, -⟩ | ⟨u, hu, -⟩ | ⟨u, hu, rfl⟩
        · cases hf
        · cases (Prod.mk.inj (Except.ok.inj hu)).1
        · exact h.load hname (Prod.mk.inj (Except.ok.inj hu)).2.symm
  | remove d =>
      rcases bindStep_remove hstep with ⟨-, own, hown, hcases⟩
      rcases h.loaded d own hown with ⟨m, c, hvars, hheld, hacq⟩
      have hmem := hheld (.cls c "sdma_test") (by simp [moduleObjects])
      rw [remove_modules hvars hmem] at hcases
      rcases hcases with ⟨f, hf, -⟩ | ⟨u, hu, rfl⟩
      · cases hf
      · obtain rfl := Except.ok.inj hu
        -- nobody is loaded any more
        have hnone : ∀ d', Function.update s.own d none d' = none := by
          intro d'
          by_cases hd : d' = d
          · rw [hd, Function.update_self]
          · rw [Function.update_of_ne hd]
            by_contra hd'
            exact hd (h.sole d' d (Option.isSome_iff_ne_none.mpr hd') (by rw [hown]; rfl))
        refine ⟨h.running, ?_, ?_, ?_⟩
        · refine hk.of_subset (fun b hb => ?_) (Nat.le_refl _)
          exact ((held_remove hk hmem b).mp hb).1
        · intro d' d'' hd'
          change (Function.update s.own d none d').isSome = true at hd'
          rw [hnone d'] at hd'
          cases hd'
        · intro d' own' hown'
          change own' ∈ Function.update s.own d none d' at hown'
          rw [hnone d'] at hown'
          cases hown'

end

/-- **Loading and unloading is balanced**, in every sequence of loads and unloads of the two
modules, whichever calls fail and whatever else the kernel holds: no call faults, the kernel holds
what it held at first and what the loaded module has acquired, at most one module is loaded, and when
none is nothing is left behind. -/
theorem modules_balanced (k : Chrdev) (hk : WellNumbered k)
    (es : List (BindEvent Driver ChrOutcome)) (s : Bound ModuleSys Driver)
    (hrun : run (bindStep modules) (Bound.start Driver (ModuleSys.start k)) es = some s) :
    s.stopped = false ∧ Ledger modules (ModuleSys.start k) s ∧
      (∀ d d', (s.own d).isSome = true → (s.own d').isSome = true → d = d') ∧
      ((∀ d, s.own d = none) → ∀ o, o ∈ s.state.kernel.held ↔ o ∈ k.held) := by
  have hinv : ModulesInv s ∧ Ledger modules (ModuleSys.start k) s := by
    refine run_induct_all (I := fun _ s => ModulesInv s ∧ Ledger modules (ModuleSys.start k) s)
      ⟨modulesInv_start hk, ledger_start modules _⟩ ?_ es s hrun
    rintro _ s e t _ ⟨h, hledger⟩ hstep
    exact ⟨modulesInv_step h hstep, ledger_step hledger (h.balanced e) hstep⟩
  exact ⟨hinv.1.running, hinv.2, hinv.1.sole, hinv.2.held_of_unbound⟩

/-- The second module cannot be loaded beside the first one, and a load without a device fails. -/
theorem modules_balanced_run :
    ∃ s, run (bindStep modules) (Bound.start Driver (ModuleSys.start .empty))
        [.probe .single { ChrOutcome.fine with device := some ⟨-ENOMEM, by decide⟩ },
          .probe .single .fine, .probe .scatterGather .fine, .remove .single,
          .probe .scatterGather .fine, .remove .scatterGather] = some s ∧
      ((∀ d, s.own d = none) → ∀ o, o ∈ s.state.kernel.held ↔ o ∈ Chrdev.empty.held) := by
  have hrun : (run (bindStep modules) (Bound.start Driver (ModuleSys.start .empty))
      [.probe .single { ChrOutcome.fine with device := some ⟨-ENOMEM, by decide⟩ },
        .probe .single .fine, .probe .scatterGather .fine, .remove .single,
        .probe .scatterGather .fine, .remove .scatterGather]).isSome = true := by
    decide +kernel
  rcases Option.isSome_iff_exists.mp hrun with ⟨s, hs⟩
  exact ⟨s, hs, (modules_balanced .empty wellNumbered_empty _ s hs).2.2.2⟩

end LinuxDrivers.Sdma
