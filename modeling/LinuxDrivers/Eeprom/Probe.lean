import LinuxDrivers.Kernel.Chrdev
import LinuxDrivers.Lib.Lifecycle

set_option autoImplicit false

/-! # Probe and remove of the EEPROM driver

For each client `ee24lc512_probe` makes a number region, a class, the `struct eep_dev` with its cdev
and a device, and `ee24lc512_remove` is meant to undo this. The number and the class are kept in
file-level variables, the `struct eep_dev` as the data of the client.

`ProbesBalanced` says what one expects of any sequence of probes and removals; `probesBalanced_iff`:
it is so if and only if a probe that gets its region is the only one, with nothing failing after
that, and no client is ever removed. -/

namespace LinuxDrivers.Eeprom

open Lib

/-! ## The driver -/

def EEP_DEVICE_NAME : String := "packt-mem"

structure EepVars where
  eep_major : Nat
  eep_class : KPtr

/-- From the label `fail` on. -/
def probeFail (g : EepVars) (eep_device : Ptr) (err : Int) :
    ChrProg (Int × EepVars × Option Ptr) := do
  if g.eep_class ≠ .null then
    let _ ← Prog.send (.deviceDestroy g.eep_class g.eep_major)
    let _ ← Prog.send (.classDestroy g.eep_class)
  if eep_device ≠ none then
    let _ ← Prog.send (.kfree eep_device)
  return (err, g, none)

/-- The last result is what `i2c_set_clientdata` stores. If the transfer to the chip fails, this is
only logged. -/
def ee24lc512Probe (functionality : Bool) (g : EepVars) :
    ChrProg (Int × EepVars × Option Ptr) :=
  if functionality = false then return (- EIO, g, none)
  else do
    match ← Prog.send .allocChrdevRegion with
    | .error err => return (err.1, g, none)
    | .ok devno =>
        let g := { g with eep_major := devno }
        match ← Prog.send (.classCreate EEP_DEVICE_NAME) with
        | .error err => probeFail { g with eep_class := .err err } none err.1
        | .ok h =>
            let g := { g with eep_class := .obj h }
            match ← Prog.send .kzalloc with
            | .error _ => probeFail g none (- ENOMEM)
            | .ok q =>
                let _ ← Prog.send (.deref (some q))
                let _ ← Prog.send (.cdevInit (.inside q))
                match ← Prog.send (.cdevAdd (.inside q) devno) with
                | .error err => probeFail g (some q) err.1
                | .ok _ =>
                    match ← Prog.send (.deviceCreate g.eep_class devno) with
                    | .error err =>
                        let _ ← Prog.send (.cdevDel (.inside q))
                        probeFail g (some q) err.1
                    | .ok _ => return (0, g, some (some q))

/-- The buffer `eep_device->data` of a file that is not open is NULL. -/
def ee24lc512Remove (g : EepVars) (eep_device : Ptr) : ChrProg Int := do
  let _ ← Prog.send (.deviceDestroy g.eep_class g.eep_major)
  let _ ← Prog.send (.deref eep_device)
  let _ ← Prog.send (.kfree none)
  let _ ← Prog.send (.kfree eep_device)
  let _ ← Prog.send (.classDestroy g.eep_class)
  let _ ← Prog.send (.unregisterChrdevRegion g.eep_major)
  return 0

/-! ## The clients -/

structure EepSys (ι : Type) where
  kernel : Chrdev
  vars : EepVars
  clientdata : ι → Ptr

def EepSys.start (ι : Type) : EepSys ι := ⟨.empty, ⟨0, .null⟩, fun _ => none⟩

/-- What happens around a probe: the functionality of the adapter, and the kernel calls. -/
structure EepOutcome where
  functionality : Bool
  calls : ChrOutcome

section

variable {ι : Type} [DecidableEq ι]

def setClientdata (i : ι) (clientdata : ι → Ptr) : Option Ptr → ι → Ptr
  | none => clientdata
  | some p => Function.update clientdata i p

def clients (ι : Type) [DecidableEq ι] : Lifecycle (EepSys ι) ι EepOutcome Fault ChrObj where
  probe i o s :=
    match (ee24lc512Probe o.functionality s.vars).exec (Chrdev.serve o.calls) s.kernel with
    | .error f => .error f
    | .ok ((ret, vars, data), kernel) =>
        .ok (decide (ret = 0), ⟨kernel, vars, setClientdata i s.clientdata data⟩)
  remove i s :=
    match (ee24lc512Remove s.vars (s.clientdata i)).exec (Chrdev.serve .fine) s.kernel with
    | .error f => .error f
    | .ok (_, kernel) => .ok { s with kernel := kernel }
  Held s o := o ∈ s.kernel.held

/-- The driver has just been loaded. -/
def noClients (ι : Type) : Bound (EepSys ι) ι := Bound.start ι (EepSys.start ι)

def eventClient : BindEvent ι EepOutcome → ι
  | .probe i _ => i
  | .remove i => i

/-- The kernel calls of a step. -/
def eventCalls (s : Bound (EepSys ι) ι) : BindEvent ι EepOutcome → List ChrOp
  | .probe _ o => (ee24lc512Probe o.functionality s.state.vars).requests
      (Chrdev.serve o.calls) s.state.kernel
  | .remove i => (ee24lc512Remove s.state.vars (s.state.clientdata i)).requests
      (Chrdev.serve .fine) s.state.kernel

/-! ## What is expected -/

/-- No call of the step is given an error pointer, or the class or the number of another client. -/
def OwnArguments (s : Bound (EepSys ι) ι) (e : BindEvent ι EepOutcome) : Prop :=
  ∀ op ∈ eventCalls s e,
    (∀ err, op.clsArg ≠ some (.err err)) ∧
      ∀ j, j ≠ eventClient e → ∀ own ∈ s.own j,
        (∀ h name, op.clsArg = some (.obj h) → ¬ (clients ι).Acquired own (.cls h name)) ∧
          ∀ m, op.majorArg = some m → ¬ (clients ι).Acquired own (.region m)

/-- No live cdev is inside freed memory. -/
def CdevsInMemory (s : Bound (EepSys ι) ι) : Prop :=
  ∀ q m, .cdev (.inside q) m ∈ s.state.kernel.held → .mem q ∈ s.state.kernel.held

structure ProbesBalanced (es : List (BindEvent ι EepOutcome)) : Prop where
  balanced : Along (bindStep (clients ι)) (fun _ => Balanced (clients ι)) (noClients ι) es
  arguments : Along (bindStep (clients ι)) (fun _ => OwnArguments) (noClients ι) es
  memory : Always (bindStep (clients ι)) CdevsInMemory (noClients ι) es

/-- The probe fails before it has a region; or no client is bound and nothing fails. There is no
removal. -/
def OnlyProbe (s : Bound (EepSys ι) ι) : BindEvent ι EepOutcome → Prop
  | .probe _ o => o.functionality = false ∨ o.calls.region.isSome = true ∨
      (∀ j, s.own j = none) ∧ o.calls = .fine
  | .remove _ => False

/-! ## Probe -/

/-- What a client with number `m`, class `h` and memory `q` holds. -/
def eepObjects (m h q : Nat) : List ChrObj :=
  [.device h m, .cdev (.inside q) m, .mem q, .cls h EEP_DEVICE_NAME, .region m]

section

variable {i : ι} {o : EepOutcome} {s : EepSys ι} {e : Errno}

theorem probe_noFunctionality (h : o.functionality = false) :
    (clients ι).probe i o s = .ok (false, s) := by
  simp [clients, ee24lc512Probe, h, setClientdata, EIO]

theorem probe_noRegion (h : o.functionality = true) (hregion : o.calls.region = some e) :
    (clients ι).probe i o s = .ok (false, s) := by
  have he : ¬ e.1 = 0 := ne_of_lt e.2
  simp [clients, ee24lc512Probe, h, Prog.exec, Chrdev.serve, Chrdev.make, setClientdata, hregion,
    he]

/-- Without a class the error pointer goes to `device_destroy`. -/
theorem probe_noClass (h : o.functionality = true) (hregion : o.calls.region = none)
    (hcls : s.kernel.hasName EEP_DEVICE_NAME = true ∨ o.calls.cls = some e) :
    ∃ f, (clients ι).probe i o s = .error f := by
  have hname : (⟨.region s.kernel.next :: s.kernel.held, s.kernel.next + 1⟩ : Chrdev).hasName
      EEP_DEVICE_NAME = s.kernel.hasName EEP_DEVICE_NAME := rfl
  refine ⟨.notLive, ?_⟩
  cases htaken : s.kernel.hasName EEP_DEVICE_NAME with
  | true =>
      simp [clients, ee24lc512Probe, probeFail, h, Prog.exec, Chrdev.serve, Chrdev.make, hregion,
        hname, htaken]
  | false =>
      rw [htaken, Bool.false_eq_true, false_or] at hcls
      simp [clients, ee24lc512Probe, probeFail, h, Prog.exec, Chrdev.serve, Chrdev.make, hregion,
        hname, htaken, hcls]

/-- A failure after `class_create` leaves the region behind. -/
theorem probe_late (h : o.functionality = true) (hregion : o.calls.region = none)
    (hcls : o.calls.cls = none) (hlate : o.calls ≠ .fine) (hs : s.kernel.held = []) :
    ∃ t, (clients ι).probe i o s = .ok (false, t) ∧ .region s.kernel.next ∈ t.kernel.held := by
  cases hmem : o.calls.mem with
  | some e =>
      simp [clients, ee24lc512Probe, probeFail, h, hregion, hcls, hmem, hs, Prog.exec, Chrdev.serve,
        Chrdev.make, Chrdev.drop, Chrdev.hasName, Chrdev.isClass, ENOMEM]
  | none =>
      cases hcdev : o.calls.cdev with
      | some e =>
          have he : ¬ e.1 = 0 := ne_of_lt e.2
          simp [clients, ee24lc512Probe, probeFail, h, hregion, hcls, hmem, hcdev, hs, he,
            Prog.exec, Chrdev.serve, Chrdev.make, Chrdev.drop, Chrdev.hasName, Chrdev.isClass,
            Chrdev.reachable]
      | none =>
          cases hdev : o.calls.device with
          | some e =>
              have he : ¬ e.1 = 0 := ne_of_lt e.2
              simp [clients, ee24lc512Probe, probeFail, h, hregion, hcls, hmem, hcdev, hdev, hs, he,
                Prog.exec, Chrdev.serve, Chrdev.make, Chrdev.drop, Chrdev.hasName, Chrdev.isClass,
                Chrdev.isCdev, Chrdev.reachable]
          | none => exact absurd (ChrOutcome.eq_fine hregion hcls hmem hcdev hdev) hlate

theorem probe_fine (h : o.functionality = true) (hfine : o.calls = .fine)
    (hs : s.kernel.held = []) :
    ∃ m h q n, (clients ι).probe i o s = .ok (true,
      ⟨⟨eepObjects m h q, n⟩, ⟨m, .obj h⟩, Function.update s.clientdata i (some q)⟩) := by
  refine ⟨s.kernel.next, s.kernel.next + 1, s.kernel.next + 2, s.kernel.next + 5, ?_⟩
  simp [clients, ee24lc512Probe, h, hfine, hs, Prog.exec, Chrdev.serve, Chrdev.make,
    Chrdev.hasName, Chrdev.reachable, Chrdev.isClass, ChrOutcome.fine, setClientdata, eepObjects]

/-- A removal leaves the cdev, in memory that is freed. -/
theorem remove_eepObjects {m h q n : Nat} (hdata : s.clientdata i = some q)
    (hkernel : s.kernel = ⟨eepObjects m h q, n⟩) (hvars : s.vars = ⟨m, .obj h⟩) :
    (clients ι).remove i s = .ok { s with kernel := ⟨[.cdev (.inside q) m], n⟩ } := by
  simp [clients, ee24lc512Remove, hdata, hkernel, hvars, Prog.exec, Chrdev.serve, Chrdev.drop,
    Chrdev.reachable, Chrdev.isClass, eepObjects]

end

/-! ## Runs -/

/-- The invariant: without a bound client nothing is held; a bound client is the only one, and what
is held is what the variables and the data of the client say. -/
def ClientsInv : Bound (EepSys ι) ι → Prop :=
  Sole (fun u => u.kernel.held = []) fun i own u => own.1.kernel.held = [] ∧
    ∃ m h q n, own.2.kernel.held = eepObjects m h q ∧ u.kernel = ⟨eepObjects m h q, n⟩ ∧
      u.vars = ⟨m, .obj h⟩ ∧ u.clientdata i = some q

/-- What one step should do, with the state it leaves. -/
def GoodStep (s : Bound (EepSys ι) ι) (e : BindEvent ι EepOutcome) : Prop :=
  (Balanced (clients ι) s e ∧ OwnArguments s e) ∧
    ∀ t, bindStep (clients ι) s e = some t → CdevsInMemory t

omit [DecidableEq ι] in
theorem clientsInv_start : ClientsInv (noClients ι) := sole_start rfl

section

variable {s t : Bound (EepSys ι) ι} {i : ι} {o : EepOutcome}

omit [DecidableEq ι] in
theorem ClientsInv.cdevsInMemory (hinv : ClientsInv s) : CdevsInMemory s := by
  intro q m hq
  by_cases hnone : ∀ j, s.own j = none
  · rw [hinv.idle hnone] at hq
    cases hq
  · rcases exists_own hnone with ⟨j, own, hown⟩
    rcases hinv.busy j own hown with ⟨-, -, m', h, q', n, -, hkernel, -⟩
    rw [hkernel] at hq ⊢
    obtain ⟨rfl, -⟩ : q = q' ∧ m = m' := by simpa [eepObjects] using hq
    simp [eepObjects]

/-- The calls of a probe that meets the condition. -/
theorem ownArguments_probe (hc : OnlyProbe s (.probe i o)) (hempty : (∀ j, s.own j = none) →
    s.state.kernel.held = []) : OwnArguments s (.probe i o) := by
  cases hfun : o.functionality with
  | false =>
      have hcalls : eventCalls s (.probe i o) = [] := by
        simp [eventCalls, ee24lc512Probe, hfun, Prog.requests]
      intro op hop
      rw [hcalls] at hop
      cases hop
  | true =>
      cases hregion : o.calls.region with
      | some e =>
          have hcalls : eventCalls s (.probe i o) = [.allocChrdevRegion] := by
            simp [eventCalls, ee24lc512Probe, hfun, hregion, Prog.requests, Chrdev.serve,
              Chrdev.make]
          intro op hop
          rw [hcalls, List.mem_singleton] at hop
          subst hop
          exact ⟨fun _ => nofun, fun _ _ _ _ => ⟨fun _ _ => nofun, fun _ => nofun⟩⟩
      | none =>
          rw [OnlyProbe, hfun, hregion, or_iff_right nofun, or_iff_right nofun] at hc
          rcases hc with ⟨hnone, hfine⟩
          intro op hop
          refine ⟨fun err => ?_, fun j _ own hown => ?_⟩
          · -- the class is the new one in each of the seven calls
            simp [eventCalls, ee24lc512Probe, hfun, hfine, hempty hnone, Prog.requests,
              Chrdev.serve, Chrdev.make, Chrdev.hasName, Chrdev.reachable, Chrdev.isClass,
              ChrOutcome.fine] at hop
            rcases hop with rfl | rfl | rfl | rfl | rfl | rfl | rfl <;> simp [ChrOp.clsArg]
          · rw [hnone j] at hown
            cases hown

/-- **A probe that meets the condition** fails with nothing changed, or it is the only one and
acquires the five objects. -/
theorem probe_of_onlyProbe (hinv : ClientsInv s) (hc : OnlyProbe s (.probe i o)) :
    (clients ι).probe i o s.state = .ok (false, s.state) ∨
      (∀ j, s.own j = none) ∧ ∃ m h q n, (clients ι).probe i o s.state = .ok (true,
        ⟨⟨eepObjects m h q, n⟩, ⟨m, .obj h⟩, Function.update s.state.clientdata i (some q)⟩) := by
  cases hfun : o.functionality with
  | false => exact Or.inl (probe_noFunctionality hfun)
  | true =>
      cases hregion : o.calls.region with
      | some e => exact Or.inl (probe_noRegion hfun hregion)
      | none =>
          rw [OnlyProbe, hfun, hregion, or_iff_right nofun, or_iff_right nofun] at hc
          exact Or.inr ⟨hc.1, probe_fine hfun hc.2 (hinv.idle hc.1)⟩

/-- **A probe that does not meet the condition** faults or leaves its region behind. -/
theorem not_balanced_probe (hinv : ClientsInv s) (hc : ¬ OnlyProbe s (.probe i o)) :
    ¬ Balanced (clients ι) s (.probe i o) := by
  rintro ⟨ok, t, hprobe, hfail, -⟩
  rcases not_or.mp hc with ⟨hfun, hc⟩
  rcases not_or.mp hc with ⟨hregion, hc⟩
  rw [Bool.not_eq_false] at hfun
  rw [Option.not_isSome_iff_eq_none] at hregion
  by_cases hcls : s.state.kernel.hasName EEP_DEVICE_NAME = true ∨ ∃ e, o.calls.cls = some e
  · have hfault : ∃ f, (clients ι).probe i o s.state = .error f := by
      rcases hcls with hname | ⟨e, he⟩
      · exact probe_noClass (e := ⟨-1, by decide⟩) hfun hregion (Or.inl hname)
      · exact probe_noClass hfun hregion (Or.inr he)
    rcases hfault with ⟨f, hf⟩
    rw [hf] at hprobe
    cases hprobe
  · rcases not_or.mp hcls with ⟨hname, hcls⟩
    have hnone : ∀ j, s.own j = none := by
      by_contra hbound
      rcases exists_own hbound with ⟨j, own, hown⟩
      rcases hinv.busy j own hown with ⟨-, -, m, h, q, n, -, hkernel, -⟩
      exact hname (by rw [hkernel]; simp [eepObjects, Chrdev.hasName])
    have hlate : o.calls ≠ .fine := fun hfine => hc ⟨hnone, hfine⟩
    obtain ⟨u, hu, hleft⟩ := probe_late (i := i) hfun hregion
      (Option.eq_none_iff_forall_ne_some.mpr fun e he => hcls ⟨e, he⟩) hlate (hinv.idle hnone)
    rw [hu] at hprobe
    cases hprobe
    have hbefore := (hfail rfl _).mp hleft
    change _ ∈ s.state.kernel.held at hbefore
    rw [hinv.idle hnone] at hbefore
    cases hbefore

/-- **No removal is balanced.** -/
theorem not_balanced_remove (hinv : ClientsInv s) {own : EepSys ι × EepSys ι}
    (hown : own ∈ s.own i) : ¬ Balanced (clients ι) s (.remove i) := by
  intro hbal
  rcases hbal own hown with ⟨t, ht, hgive⟩
  rcases hinv.busy i own hown with ⟨-, hempty, m, h, q, n, hheld, hkernel, hvars, hdata⟩
  rw [remove_eepObjects hdata hkernel hvars] at ht
  cases ht
  refine ((hgive (.cdev (.inside q) m)).mp (List.mem_singleton_self _)).2 ⟨?_, ?_⟩
  · show _ ∈ own.2.kernel.held
    rw [hheld]
    simp [eepObjects]
  · show ¬ _ ∈ own.1.kernel.held
    rw [hempty]
    exact List.not_mem_nil

theorem clientsInv_step {e : BindEvent ι EepOutcome} (hinv : ClientsInv s) (hc : OnlyProbe s e)
    (hstep : bindStep (clients ι) s e = some t) : ClientsInv t := by
  cases e with
  | remove i => exact hc.elim
  | probe i o =>
      rcases bindStep_probe hstep with ⟨hrun, hi, -⟩
      rcases probe_of_onlyProbe hinv hc with hprobe | ⟨hnone, m, h, q, n, hprobe⟩
      · rw [bindStep_of_fail hrun hi hprobe] at hstep
        cases hstep
        exact hinv
      · rw [bindStep_of_ok hrun hi hprobe] at hstep
        cases hstep
        refine Sole.bind hnone ⟨hinv.idle hnone, m, h, q, n, rfl, rfl, rfl, ?_⟩
        exact Function.update_self ..

theorem goodStep_iff {e : BindEvent ι EepOutcome} (hinv : ClientsInv s)
    (hstep : bindStep (clients ι) s e = some t) : GoodStep s e ↔ OnlyProbe s e := by
  cases e with
  | probe i o =>
      constructor
      · intro hgood
        by_contra hc
        exact not_balanced_probe hinv hc hgood.1.1
      · intro hc
        refine ⟨⟨?_, ownArguments_probe hc hinv.idle⟩, fun u hu => ?_⟩
        · rcases probe_of_onlyProbe hinv hc with hprobe | ⟨hnone, m, h, q, n, hprobe⟩
          · exact ⟨false, _, hprobe, fun _ _ => Iff.rfl, nofun⟩
          · refine ⟨true, _, hprobe, nofun, fun _ b hb => ?_⟩
            change b ∈ s.state.kernel.held at hb
            rw [hinv.idle hnone] at hb
            cases hb
        · exact (clientsInv_step hinv hc hu).cdevsInMemory
  | remove i =>
      rcases bindStep_remove hstep with ⟨-, own, hown, -⟩
      refine iff_of_false ?_ id
      intro hgood
      exact not_balanced_remove hinv hown hgood.1.1

end

theorem ProbesBalanced.goodSteps {es : List (BindEvent ι EepOutcome)} (h : ProbesBalanced es) :
    Along (bindStep (clients ι)) (fun _ => GoodStep) (noClients ι) es :=
  along_and.mpr ⟨along_and.mpr ⟨h.balanced, h.arguments⟩, (always_iff.mp h.memory).2⟩

/-- **When probe and remove are balanced**: in a run, if and only if every probe fails before it has
a region, or happens with no client bound and with nothing failing, and nobody is removed. -/
theorem probesBalanced_iff (es : List (BindEvent ι EepOutcome)) (s : Bound (EepSys ι) ι)
    (hrun : run (bindStep (clients ι)) (noClients ι) es = some s) :
    ProbesBalanced es ↔ Along (bindStep (clients ι)) (fun _ => OnlyProbe) (noClients ι) es := by
  have hiff : Along (bindStep (clients ι)) (fun _ => GoodStep) (noClients ι) es ↔
      Along (bindStep (clients ι)) (fun _ => OnlyProbe) (noClients ι) es :=
    along_iff (I := ClientsInv) (fun _ _ _ => clientsInv_step) (fun _ _ _ => goodStep_iff) es _ s
      clientsInv_start hrun
  rw [← hiff]
  constructor
  · exact ProbesBalanced.goodSteps
  · intro h
    rcases along_and.mp h with ⟨hcalls, hmemory⟩
    rcases along_and.mp hcalls with ⟨hbal, hargs⟩
    exact ⟨hbal, hargs, always_iff.mpr ⟨clientsInv_start.cdevsInMemory, hmemory⟩⟩

instance [Fintype ι] (s : Bound (EepSys ι) ι) : ∀ e, Decidable (OnlyProbe s e)
  | .probe _ o => inferInstanceAs (Decidable (o.functionality = false ∨
      o.calls.region.isSome = true ∨ (∀ j, (s.own j) = none) ∧ o.calls = .fine))
  | .remove _ => inferInstanceAs (Decidable False)

/-- An adapter that cannot do it, a probe without a region, and one client that stays. -/
theorem probesBalanced_one_client :
    (run (bindStep (clients Bool)) (noClients Bool)
      [.probe true ⟨false, .fine⟩,
        .probe true ⟨true, { ChrOutcome.fine with region := some ⟨-1, by decide⟩ }⟩,
        .probe true ⟨true, .fine⟩, .probe false ⟨false, .fine⟩]).isSome = true ∧
    ProbesBalanced (ι := Bool)
      [.probe true ⟨false, .fine⟩,
        .probe true ⟨true, { ChrOutcome.fine with region := some ⟨-1, by decide⟩ }⟩,
        .probe true ⟨true, .fine⟩, .probe false ⟨false, .fine⟩] := by
  have hrun : (run (bindStep (clients Bool)) (noClients Bool)
      [.probe true ⟨false, .fine⟩,
        .probe true ⟨true, { ChrOutcome.fine with region := some ⟨-1, by decide⟩ }⟩,
        .probe true ⟨true, .fine⟩, .probe false ⟨false, .fine⟩]).isSome = true := by
    decide +kernel
  refine ⟨hrun, ?_⟩
  rcases Option.isSome_iff_exists.mp hrun with ⟨s, hs⟩
  exact (probesBalanced_iff _ s hs).mpr (along_of_checkAlong _ _ (by decide +kernel))

/-- **Each part fails**: a probe without memory keeps its region, a second client's probe faults on
the error pointer of its class, and a removal leaves a live cdev in freed memory. -/
theorem not_probesBalanced :
    (¬ ProbesBalanced (ι := Bool)
      [.probe true ⟨true, { ChrOutcome.fine with mem := some ⟨-1, by decide⟩ }⟩]) ∧
    (¬ ProbesBalanced (ι := Bool) [.probe true ⟨true, .fine⟩, .probe false ⟨true, .fine⟩]) ∧
    ¬ ProbesBalanced (ι := Bool) [.probe true ⟨true, .fine⟩, .remove true] := by
  refine ⟨fun h => ?_, fun h => ?_, fun h => ?_⟩
  · exact not_balanced_probe clientsInv_start (by decide) (h.balanced [] _ [] _ rfl rfl)
  · have hrun : (run (bindStep (clients Bool)) (noClients Bool) [.probe true ⟨true, .fine⟩]).any
        (fun s => !((clients Bool).probe false ⟨true, .fine⟩ s.state).isOk) = true := by
      decide +kernel
    rcases (Option.any_eq_true _ _).mp hrun with ⟨s, hs, hfault⟩
    rcases h.balanced [.probe true ⟨true, .fine⟩] _ [] s rfl hs with ⟨ok, t, ht, -⟩
    rw [ht] at hfault
    cases hfault
  · have hrun : (run (bindStep (clients Bool)) (noClients Bool)
        [.probe true ⟨true, .fine⟩, .remove true]).any (fun s => decide
          (.cdev (.inside 2) 0 ∈ s.state.kernel.held ∧ .mem 2 ∉ s.state.kernel.held)) = true := by
      decide +kernel
    rcases (Option.any_eq_true _ _).mp hrun with ⟨s, hs, hleft⟩
    rw [decide_eq_true_eq] at hleft
    exact hleft.2 (h.memory _ [] s rfl hs 2 0 hleft.1)

end

end LinuxDrivers.Eeprom
