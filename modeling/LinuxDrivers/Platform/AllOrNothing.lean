import LinuxDrivers.Platform.Drivers

set_option autoImplicit false

/-! # All or nothing

For each of the three drivers and every sequence of probes and removals of any number of devices.
`AllOrNothing` says what is expected: no step faults, a failed probe leaves what is held as it was,
one that returns 0 has got all that it asked for, and a removal gives back what the own probe has
acquired. `allOrNothing_iff`: when this is so, for each of the drivers. -/

namespace LinuxDrivers.Platform

open Lib

section

variable {ι : Type} [DecidableEq ι]

/-- The driver has just been loaded. -/
def noDevices (ι : Type) : Bound (Platform ι) ι := Bound.start ι (Platform.start ι)

/-- A probe that returns 0 has acquired everything. -/
def Complete (d : Driver) (s : Bound (Platform ι) ι) : BindEvent ι Outcome → Prop
  | .probe i o => ∀ t, (instances d ι).probe i o s.state = .ok (true, t) → d.Succeeds o
  | .remove _ => True

/-- What is expected of a run. -/
structure AllOrNothing (d : Driver) (es : List (BindEvent ι Outcome)) : Prop where
  balanced : Along (bindStep (instances d ι)) (fun _ => Balanced (instances d ι)) (noDevices ι) es
  complete : Along (bindStep (instances d ι)) (fun _ => Complete d) (noDevices ι) es

/-- The outcomes with which the probe of the driver does what is expected. -/
def Driver.Handles (d : Driver) (o : Outcome) : Prop :=
  match d with
  | .inputPolledButton => o.kzalloc = false ∨ o.polled = false ∨
      (o.gpio.isSome = true ↔ o.registerPolled.isSome = true)
  | .dummyRegulator => o.regulator 0 = none ∧ o.regulator 1 = none
  | .fakeEth => o.kzalloc = false ∨ o.etherdev = true ∧ o.registerNetdev = none

/-- The probe handles its outcome, and it is not the regulator that is removed. -/
def Handled (d : Driver) : BindEvent ι Outcome → Prop
  | .probe _ o => d.Handles o
  | .remove _ => d ≠ .dummyRegulator

/-! ## Probe -/

/-- What a failed probe does. -/
structure Unchanged (i : ι) (s t : Platform ι) : Prop where
  frame : Frame i s t
  held : t.held = s.held

/-- What a probe that acquires the objects `os` does. -/
structure Acquires (d : Driver) (i : ι) (s t : Platform ι) (os : List (PlatObj ι)) : Prop where
  frame : Frame i s t
  held : t.held = os ++ s.held
  fresh : ∀ o ∈ os, s.next ≤ o.number
  leads : d.Leads i t os

section

variable {d : Driver} {i : ι} {o : Outcome} {s t : Platform ι}

theorem probe_of_ret {ret : Int} (h : (d.probe o i).run s = .ok (ret, t)) (hret : ret ≠ 0) :
    (instances d ι).probe i o s = .ok (false, t.unbind i) := by
  simp [instances, h, hret]

theorem probe_of_zero (h : (d.probe o i).run s = .ok (0, t)) :
    (instances d ι).probe i o s = .ok (true, t) := by
  simp [instances, h]

omit [DecidableEq ι] in
theorem Unchanged.of (hheld : t.held = s.held) (hnext : s.next ≤ t.next)
    (hdata : ∀ j, j ≠ i → t.drvdata j = s.drvdata j) (hfield : ∀ q < s.next, t.field q = s.field q) :
    Unchanged i s t :=
  ⟨⟨hnext, hdata, hfield, fun _ ho => Or.inl (hheld ▸ ho)⟩, hheld⟩

omit [DecidableEq ι] in
theorem Acquires.of {os : List (PlatObj ι)} (hheld : t.held = os ++ s.held)
    (hos : ∀ o ∈ os, s.next ≤ o.number ∧ o.number < t.next) (hnext : s.next ≤ t.next)
    (hdata : ∀ j, j ≠ i → t.drvdata j = s.drvdata j) (hfield : ∀ q < s.next, t.field q = s.field q)
    (hleads : d.Leads i t os) : Acquires d i s t os := by
  refine ⟨⟨hnext, hdata, hfield, fun o ho => ?_⟩, hheld, fun o ho => (hos o ho).1, hleads⟩
  rw [hheld, List.mem_append] at ho
  exact ho.symm.imp id (hos o)

omit [DecidableEq ι] in
/-- Older blocks are not written to. -/
theorem update_field {q : Nat} (f : Nat → Field → KPtr) (x : Field → KPtr) (hq : q < s.next) :
    Function.update f s.next x q = f q :=
  Function.update_of_ne (Nat.ne_of_lt hq) _ _

/-- The ways in which a probe does what is expected. -/
def Keeps (d : Driver) (i : ι) (o : Outcome) (s : Platform ι) : Prop :=
  (∃ t, (instances d ι).probe i o s = .ok (false, t) ∧ Unchanged i s t) ∨
    d.Succeeds o ∧ ∃ t os, (instances d ι).probe i o s = .ok (true, t) ∧ Acquires d i s t os

theorem polledBtn_keeps (hr : Ready i s) (h : Driver.inputPolledButton.Handles o) :
    Keeps .inputPolledButton i o s := by
  have hdata : ∀ (p : KPtr) (j : ι), j ≠ i → Function.update s.drvdata i p j = s.drvdata j :=
    fun p j hj => Function.update_of_ne hj _ _
  cases hmem : o.kzalloc with
  | false =>
      refine Or.inl ⟨_, probe_of_ret (polledBtnProbe_noMemory hmem) (by decide), ?_⟩
      exact Unchanged.of hr.filter_mem (Nat.le_refl _) (hdata _) (fun _ _ => rfl)
  | true =>
      cases hpolled : o.polled with
      | false =>
          refine Or.inl ⟨_, probe_of_ret (polledBtnProbe_noDevice hmem hpolled) (by decide), ?_⟩
          -- the memory is freed by the driver core
          refine Unchanged.of ?_ (Nat.le_succ _) (hdata _) (fun _ _ => rfl)
          calc (PlatObj.mem i s.next :: s.held).filter (fun o => !isMem i o)
              = s.held.filter (fun o => !isMem i o) := List.filter_cons_of_neg (by simp [isMem])
            _ = s.held := hr.filter_mem
      | true =>
          rw [Driver.Handles, hmem, hpolled, Bool.true_eq_false, false_or, false_or] at h
          cases hgpio : o.gpio with
          | none =>
              have hreg : o.registerPolled = none := by
                rw [← Option.not_isSome_iff_eq_none, ← h, hgpio]
                exact Bool.false_ne_true
              refine Or.inr ⟨⟨hmem, hpolled, hgpio, hreg⟩, _, [.input (s.next + 1),
                .gpio (s.next + 2), .polledDev (s.next + 1), .mem i s.next],
                probe_of_zero (polledBtnProbe_all hmem hpolled hgpio hreg), ?_⟩
              refine Acquires.of rfl (by simp [PlatObj.number]) (Nat.le_add_right _ _) (hdata _)
                (fun q hq => update_field _ _ hq) ?_
              refine ⟨s.next, s.next + 1, s.next + 2, Function.update_self .., ?_, ?_, rfl⟩
              · simp [buttonFields]
              · simp [buttonFields]
          | some e' =>
              obtain ⟨e, hreg⟩ : ∃ e, o.registerPolled = some e := by
                rw [← Option.isSome_iff_exists, ← h, hgpio]
                rfl
              refine Or.inl ⟨_, probe_of_ret
                (polledBtnProbe_noGpio_noInput hr hmem hpolled hgpio hreg) (ne_of_lt e.2), ?_⟩
              exact Unchanged.of hr.filter_mem (Nat.le_add_right _ _) (hdata _)
                (fun q hq => update_field _ _ hq)

theorem regulator_keeps (hr : Ready i s) (h : Driver.dummyRegulator.Handles o) :
    Keeps .dummyRegulator i o s := by
  rcases myPdrvProbe_all hr h.1 h.2 with ⟨field, hrun⟩
  refine Or.inr ⟨h, _, [.regulator (s.next + 2), .regulator (s.next + 1)], probe_of_zero hrun, ?_⟩
  refine Acquires.of rfl (by simp [PlatObj.number]) (Nat.le_add_right _ _)
    (fun j hj => Function.update_of_ne hj _ _) (fun q hq => update_field _ _ hq) ?_
  refine ⟨s.next, s.next + 1, s.next + 2, Function.update_self .., ?_, ?_, rfl⟩
  · exact Nat.lt_add_of_pos_right (by decide)
  · simpa using hr.not_mem (o := .regulator s.next) (Nat.le_refl _)

theorem fakeEth_keeps (hr : Ready i s) (h : Driver.fakeEth.Handles o) : Keeps .fakeEth i o s := by
  have hdata : ∀ (p : KPtr) (j : ι), j ≠ i → Function.update s.drvdata i p j = s.drvdata j :=
    fun p j hj => Function.update_of_ne hj _ _
  cases hmem : o.kzalloc with
  | false =>
      refine Or.inl ⟨_, probe_of_ret (fakeEthProbe_noMemory hmem) (by decide), ?_⟩
      exact Unchanged.of hr.filter_mem (Nat.le_refl _) (hdata _) (fun _ _ => rfl)
  | true =>
      rw [Driver.Handles, hmem, Bool.true_eq_false, false_or] at h
      refine Or.inr ⟨⟨hmem, h⟩, _, [.netif (s.next + 1), .netDev (s.next + 1), .mem i s.next],
        probe_of_zero (fakeEthProbe_all hmem h.1 h.2), ?_⟩
      refine Acquires.of rfl (by simp [PlatObj.number]) (Nat.le_add_right _ _) (hdata _)
        (fun q hq => update_field _ _ hq) ?_
      exact ⟨s.next, s.next + 1, Function.update_self .., by simp, rfl⟩

/-- **A probe that handles its outcome.** -/
theorem keeps_of_handles (hr : Ready i s) (h : d.Handles o) : Keeps d i o s := by
  cases d with
  | inputPolledButton => exact polledBtn_keeps hr h
  | dummyRegulator => exact regulator_keeps hr h
  | fakeEth => exact fakeEth_keeps hr h

/-- **A probe that does not** faults, or returns 0 without all that it asked for, or leaves something
behind. -/
theorem not_keeps (hr : Ready i s) (h : ¬ d.Handles o) :
    (∃ f, (instances d ι).probe i o s = .error f) ∨
      (∃ t, (instances d ι).probe i o s = .ok (true, t) ∧ ¬ d.Succeeds o) ∨
      ∃ t b, (instances d ι).probe i o s = .ok (false, t) ∧ b ∈ t.held ∧ b ∉ s.held := by
  cases d with
  | inputPolledButton =>
      rcases not_or.mp h with ⟨hmem, h⟩
      rcases not_or.mp h with ⟨hpolled, h⟩
      rw [Bool.not_eq_false] at hmem hpolled
      cases hgpio : o.gpio with
      | none =>
          cases hreg : o.registerPolled with
          | none => simp [hgpio, hreg] at h
          | some e =>
              refine Or.inr (Or.inr ⟨_, .gpio (s.next + 2), probe_of_ret
                (polledBtnProbe_noInput hr hmem hpolled hgpio hreg) (ne_of_lt e.2), ?_, ?_⟩)
              · simp [unbind, isMem]
              · exact hr.not_mem (Nat.le_add_right _ _)
      | some e' =>
          cases hreg : o.registerPolled with
          | some e => simp [hgpio, hreg] at h
          | none =>
              refine Or.inr (Or.inl ⟨_, probe_of_zero
                (polledBtnProbe_noGpio hmem hpolled hgpio hreg), fun hall => ?_⟩)
              have hnone := hall.2.2.1
              rw [hgpio] at hnone
              cases hnone
  | dummyRegulator =>
      rcases myPdrvProbe_ret (s := s) (i := i) (o := o) with ⟨t, hrun⟩
      exact Or.inr (Or.inl ⟨t, probe_of_zero hrun, h⟩)
  | fakeEth =>
      rcases not_or.mp h with ⟨hmem, h⟩
      rw [Bool.not_eq_false] at hmem
      cases hdev : o.etherdev with
      | false =>
          refine Or.inl ⟨.nullDeref, ?_⟩
          simp [instances, Driver.probe, fakeEthProbe_noDevice hmem hdev]
      | true =>
          obtain ⟨e, he⟩ := Option.ne_none_iff_exists'.mp fun hnone => h ⟨hdev, hnone⟩
          refine Or.inr (Or.inr ⟨_, .netDev (s.next + 1), probe_of_ret
            (fakeEthProbe_noNetif hmem hdev he) (ne_of_lt e.2), ?_, ?_⟩)
          · simp [unbind, isMem]
          · exact hr.not_mem (Nat.le_add_right _ _)

/-! ## Remove -/

theorem remove_of_run {ret : Int} (h : (d.remove i).run s = .ok (ret, t)) :
    (instances d ι).remove i s = .ok (t.unbind i) := by
  simp [instances, h]

/-- If the device has one block of memory, this is what the driver core frees. -/
theorem mem_unbind {q : Nat} (hmem : ∀ q', .mem i q' ∈ t.held → q' = q) (b : PlatObj ι) :
    b ∈ (t.unbind i).held ↔ b ∈ t.held ∧ b ≠ .mem i q := by
  show b ∈ t.held.filter (fun o => !isMem i o) ↔ _
  rw [List.mem_filter, Bool.not_eq_true', ← Bool.not_eq_true, isMem_iff]
  constructor
  · exact fun ⟨hb, hno⟩ => ⟨hb, fun heq => hno ⟨q, heq⟩⟩
  · rintro ⟨hb, hne⟩
    refine ⟨hb, ?_⟩
    rintro ⟨q', rfl⟩
    exact hne (by rw [hmem q' hb])

/-- A removal that writes to no block. -/
theorem Frame.of_unbind (hnext : t.next = s.next) (hfield : t.field = s.field)
    (hdata : t.drvdata = s.drvdata) (hheld : ∀ b ∈ t.held, b ∈ s.held) :
    Frame i s (t.unbind i) := by
  refine ⟨hnext.ge, fun j hj => ?_, fun q _ => congrFun hfield q, fun b hb => Or.inl ?_⟩
  · calc (t.unbind i).drvdata j = t.drvdata j := Function.update_of_ne hj _ _
      _ = s.drvdata j := congrFun hdata j
  · exact hheld b (List.mem_filter.mp hb).1

/-- **The removal of a polled button or of a network device** gives back what the data leads to. -/
theorem remove_of_leads {os : List (PlatObj ι)} (hd : d ≠ .dummyRegulator)
    (hleads : d.Leads i s os) (hlive : ∀ b ∈ os, b ∈ s.held)
    (hmem : ∀ q, .mem i q ∈ s.held → .mem i q ∈ os) :
    ∃ t, (instances d ι).remove i s = .ok t ∧ (∀ b, b ∈ t.held ↔ b ∈ s.held ∧ b ∉ os) ∧
      Frame i s t := by
  cases d with
  | dummyRegulator => exact absurd rfl hd
  | inputPolledButton =>
      rcases hleads with ⟨q, p, g, hdata, hgpio, hpoll, rfl⟩
      have hrun := polledBtnRemove_of_leads hdata hgpio hpoll hlive
      refine ⟨_, remove_of_run hrun, fun b => ?_, Frame.of_unbind rfl rfl rfl ?_⟩
      · rw [mem_unbind (q := q)]
        · simp only [List.mem_filter, Bool.not_eq_true', decide_eq_false_iff_not, List.mem_cons,
            List.not_mem_nil, or_false]
          tauto
        · intro q' hq'
          simpa using hmem q' (by simpa using hq')
      · simp +contextual
  | fakeEth =>
      rcases hleads with ⟨q, n, hdata, hndev, rfl⟩
      have hrun := fakeEthRemove_of_leads hdata hndev hlive
      refine ⟨_, remove_of_run hrun, fun b => ?_, Frame.of_unbind rfl rfl rfl ?_⟩
      · rw [mem_unbind (q := q)]
        · simp only [List.mem_filter, Bool.not_eq_true', decide_eq_false_iff_not, List.mem_cons,
            List.not_mem_nil, or_false]
          tauto
        · intro q' hq'
          simpa using hmem q' (by simpa using hq')
      · simp +contextual

theorem remove_regulator {os : List (PlatObj ι)} (hleads : Driver.dummyRegulator.Leads i s os) :
    ∃ f, (instances .dummyRegulator ι).remove i s = .error f := by
  rcases hleads with ⟨a, r₀, r₁, hdata, -, hnot, -⟩
  rcases myPdrvRemove_of_leads hdata hnot with ⟨f, hf⟩
  exact ⟨f, by simp [instances, Driver.remove, hf]⟩

/-! ## What the data leads to -/

omit [DecidableEq ι] in
/-- The memory among the objects is that of the device. -/
theorem Driver.Leads.dev {os : List (PlatObj ι)} (h : d.Leads i s os) {j : ι} {q : Nat}
    (hq : .mem j q ∈ os) : j = i := by
  cases d with
  | inputPolledButton =>
      rcases h with ⟨q', p, g, -, -, -, rfl⟩
      simp only [List.mem_cons, reduceCtorEq, false_or, List.not_mem_nil, or_false] at hq
      cases hq
      rfl
  | dummyRegulator =>
      rcases h with ⟨a, r₀, r₁, -, -, -, rfl⟩
      simp at hq
  | fakeEth =>
      rcases h with ⟨q', n, -, -, rfl⟩
      simp only [List.mem_cons, reduceCtorEq, false_or, List.not_mem_nil, or_false] at hq
      cases hq
      rfl

omit [DecidableEq ι] in
/-- A step of another device leaves it as it is. -/
theorem Driver.Leads.frame {os : List (PlatObj ι)} {j : ι} (h : d.Leads i s os)
    (hframe : Frame j s t) (hij : i ≠ j) (hfresh : ∀ b ∈ s.held, b.number < s.next)
    (hlive : ∀ b ∈ os, b ∈ s.held) : d.Leads i t os := by
  have hdata := hframe.drvdata i hij
  cases d with
  | inputPolledButton =>
      rcases h with ⟨q, p, g, hq, hgpio, hpoll, rfl⟩
      have hfield := hframe.field q (hfresh (.mem i q) (hlive _ (by simp)))
      refine ⟨q, p, g, hdata.trans hq, ?_, ?_, rfl⟩
      · rw [hfield, hgpio]
      · rw [hfield, hpoll]
  | dummyRegulator =>
      rcases h with ⟨a, r₀, r₁, ha, hlt, hnot, rfl⟩
      refine ⟨a, r₀, r₁, hdata.trans ha, Nat.lt_of_lt_of_le hlt hframe.next, fun hmem => ?_, rfl⟩
      rcases hframe.held _ hmem with hold | ⟨hnew, -⟩
      · exact hnot hold
      · exact absurd hlt (Nat.not_lt.mpr hnew)
  | fakeEth =>
      rcases h with ⟨q, n, hq, hndev, rfl⟩
      have hfield := hframe.field q (hfresh (.mem i q) (hlive _ (by simp)))
      refine ⟨q, n, hdata.trans hq, ?_, rfl⟩
      rw [hfield, hndev]

end

/-! ## Runs -/

/-- The invariant: the ledger of a balanced run, fresh numbers, and the data of each bound device,
which leads to what its probe has acquired. -/
structure PlatformInv (d : Driver) (s : Bound (Platform ι) ι) : Prop where
  ledger : Ledger (instances d ι) (Platform.start ι) s
  fresh : ∀ b ∈ s.state.held, b.number < s.state.next
  bound : ∀ i, ∀ own ∈ s.own i, ∃ os, d.Leads i s.state os ∧
    ∀ b, (instances d ι).Acquired own b ↔ b ∈ os

/-- What one step should do. -/
def GoodStep (d : Driver) (s : Bound (Platform ι) ι) (e : BindEvent ι Outcome) : Prop :=
  Balanced (instances d ι) s e ∧ Complete d s e

theorem platformInv_start (d : Driver) : PlatformInv d (noDevices ι) where
  ledger := ledger_start (instances d ι) (Platform.start ι)
  fresh b hb := by cases hb
  bound i own hown := by cases hown

section

variable {d : Driver} {i : ι} {o : Outcome} {s t : Bound (Platform ι) ι}

/-- A bound device still holds what its data leads to. -/
theorem PlatformInv.live (hinv : PlatformInv d s) {own : Platform ι × Platform ι}
    (hown : own ∈ s.own i) {os : List (PlatObj ι)}
    (hos : ∀ b, (instances d ι).Acquired own b ↔ b ∈ os) : ∀ b ∈ os, b ∈ s.state.held :=
  fun b hb => hinv.ledger.holds hown ((hos b).mpr hb)

/-- Memory of a device belongs to what its own probe has acquired. -/
theorem PlatformInv.mem (hinv : PlatformInv d s) {q : Nat} (hq : .mem i q ∈ s.state.held) :
    ∃ own ∈ s.own i, (instances d ι).Acquired own (.mem i q) := by
  rcases (hinv.ledger.held _).mp hq with hstart | ⟨j, own, hown, hacq⟩
  · cases hstart
  · rcases hinv.bound j own hown with ⟨os, hleads, hos⟩
    obtain rfl := hleads.dev ((hos _).mp hacq)
    exact ⟨own, hown, hacq⟩

theorem PlatformInv.ready (hinv : PlatformInv d s) (hi : s.own i = none) : Ready i s.state := by
  refine ⟨hinv.fresh, fun q hq => ?_⟩
  rcases hinv.mem hq with ⟨own, hown, -⟩
  rw [hi] at hown
  cases hown

/-- The other devices after a step of device `i`. -/
theorem PlatformInv.others (hinv : PlatformInv d s) {u : Platform ι} (hframe : Frame i s.state u)
    {j : ι} (hj : j ≠ i) {own : Platform ι × Platform ι} (hown : own ∈ s.own j) :
    ∃ os, d.Leads j u os ∧ ∀ b, (instances d ι).Acquired own b ↔ b ∈ os := by
  rcases hinv.bound j own hown with ⟨os, hleads, hos⟩
  exact ⟨os, hleads.frame hframe hj hinv.fresh (hinv.live hown hos), hos⟩

omit [DecidableEq ι] in
theorem fresh_of_frame {s t : Platform ι} (hfresh : ∀ b ∈ s.held, b.number < s.next)
    (hframe : Frame i s t) : ∀ b ∈ t.held, b.number < t.next := by
  intro b hb
  rcases hframe.held b hb with hold | ⟨-, hnew⟩
  · exact Nat.lt_of_lt_of_le (hfresh b hold) hframe.next
  · exact hnew

theorem goodStep_of_keeps (h : Keeps d i o s.state) : GoodStep d s (.probe i o) := by
  rcases h with ⟨t, hprobe, hun⟩ | ⟨hall, t, os, hprobe, hacq⟩
  · constructor
    · refine ⟨false, t, hprobe, fun _ b => ?_, nofun⟩
      show b ∈ t.held ↔ b ∈ s.state.held
      rw [hun.held]
    · intro u hu
      rw [hprobe] at hu
      cases hu
  · refine ⟨⟨true, t, hprobe, nofun, fun _ b hb => ?_⟩, fun _ _ => hall⟩
    show b ∈ t.held
    rw [hacq.held]
    exact List.mem_append_right _ hb

theorem goodStep_remove (hinv : PlatformInv d s) (hd : d ≠ .dummyRegulator)
    {own : Platform ι × Platform ι} (hown : own ∈ s.own i) :
    ∃ u, (instances d ι).remove i s.state = .ok u ∧ Frame i s.state u ∧
      ∀ b, b ∈ u.held ↔ b ∈ s.state.held ∧ ¬ (instances d ι).Acquired own b := by
  rcases hinv.bound i own hown with ⟨os, hleads, hos⟩
  have hmem : ∀ q, .mem i q ∈ s.state.held → .mem i q ∈ os := by
    intro q hq
    rcases hinv.mem hq with ⟨own', hown', hacq⟩
    obtain rfl : own = own' := Option.some.inj (hown.symm.trans hown')
    exact (hos _).mp hacq
  rcases remove_of_leads hd hleads (hinv.live hown hos) hmem with ⟨u, hu, hheld, hframe⟩
  refine ⟨u, hu, hframe, fun b => ?_⟩
  rw [hheld, hos]

theorem goodStep_iff {e : BindEvent ι Outcome} (hinv : PlatformInv d s)
    (hstep : bindStep (instances d ι) s e = some t) : GoodStep d s e ↔ Handled d e := by
  cases e with
  | probe i o =>
      rcases bindStep_probe hstep with ⟨-, hi, -⟩
      refine ⟨fun hgood => ?_, fun h => goodStep_of_keeps (keeps_of_handles (hinv.ready hi) h)⟩
      by_contra h
      rcases hgood with ⟨⟨ok, u, hu, hfail, -⟩, hcomplete⟩
      rcases not_keeps (hinv.ready hi) h with ⟨f, hf⟩ | ⟨v, hv, hnot⟩ | ⟨v, b, hv, hb, hnot⟩
      · rw [hf] at hu
        cases hu
      · exact hnot (hcomplete v hv)
      · rw [hv] at hu
        cases hu
        exact hnot ((hfail rfl b).mp hb)
  | remove i =>
      rcases bindStep_remove hstep with ⟨-, own, hown, -⟩
      constructor
      · rintro ⟨hbal, -⟩ rfl
        rcases hbal own hown with ⟨u, hu, -⟩
        rcases hinv.bound i own hown with ⟨os, hleads, -⟩
        rcases remove_regulator hleads with ⟨f, hf⟩
        rw [hf] at hu
        cases hu
      · intro hd
        refine ⟨fun own' hown' => ?_, trivial⟩
        rcases goodStep_remove hinv hd hown' with ⟨u, hu, -, hgive⟩
        exact ⟨u, hu, hgive⟩

theorem platformInv_step {e : BindEvent ι Outcome} (hinv : PlatformInv d s) (hc : Handled d e)
    (hstep : bindStep (instances d ι) s e = some t) : PlatformInv d t := by
  have hledger := ledger_step hinv.ledger ((goodStep_iff hinv hstep).mpr hc).1 hstep
  cases e with
  | probe i o =>
      rcases bindStep_probe hstep with ⟨hrun, hi, -⟩
      have hr := hinv.ready hi
      have hother : ∀ j own, own ∈ s.own j → j ≠ i := by
        rintro j own hown rfl
        rw [hi] at hown
        cases hown
      rcases keeps_of_handles hr hc with ⟨u, hprobe, hun⟩ | ⟨-, u, os, hprobe, hacq⟩
      · rw [bindStep_of_fail hrun hi hprobe] at hstep
        cases hstep
        refine ⟨hledger, fresh_of_frame hinv.fresh hun.frame, fun j own hown => ?_⟩
        exact hinv.others hun.frame (hother j own hown) hown
      · rw [bindStep_of_ok hrun hi hprobe] at hstep
        cases hstep
        refine ⟨hledger, fresh_of_frame hinv.fresh hacq.frame, fun j own hown => ?_⟩
        rcases mem_update.mp hown with ⟨rfl, hnew⟩ | ⟨hj, hold⟩
        · cases hnew
          refine ⟨os, hacq.leads, fun b => ?_⟩
          show b ∈ u.held ∧ b ∉ s.state.held ↔ b ∈ os
          rw [hacq.held, List.mem_append]
          exact ⟨fun hb => hb.1.resolve_right hb.2,
            fun hb => ⟨Or.inl hb, hr.not_mem (hacq.fresh b hb)⟩⟩
        · exact hinv.others hacq.frame hj hold
  | remove i =>
      rcases bindStep_remove hstep with ⟨hrun, own, hown, -⟩
      rcases goodStep_remove hinv hc hown with ⟨u, hremove, hframe, -⟩
      rw [bindStep_of_remove hrun hown hremove] at hstep
      cases hstep
      refine ⟨hledger, fresh_of_frame hinv.fresh hframe, fun j own' hown' => ?_⟩
      rcases mem_update.mp hown' with ⟨-, hnone⟩ | ⟨hj, hold⟩
      · cases hnone
      · exact hinv.others hframe hj hold

end

/-- **When the probes are all-or-nothing**: for each of the drivers, a run is as it should be if and
only if every probe of it handles its outcome, and no regulator is removed. -/
theorem allOrNothing_iff (d : Driver) (es : List (BindEvent ι Outcome)) (s : Bound (Platform ι) ι)
    (hrun : run (bindStep (instances d ι)) (noDevices ι) es = some s) :
    AllOrNothing d es ↔ ∀ e ∈ es, Handled d e := by
  have hiff : Along (bindStep (instances d ι)) (fun _ => GoodStep d) (noDevices ι) es ↔
      Along (bindStep (instances d ι)) (fun _ _ e => Handled d e) (noDevices ι) es :=
    along_iff (I := PlatformInv d) (fun _ _ _ => platformInv_step) (fun _ _ _ => goodStep_iff) es _ s
      (platformInv_start d) hrun
  rw [← along_iff_forall hrun, ← hiff]
  constructor
  · exact fun h => along_and.mpr ⟨h.balanced, h.complete⟩
  · intro h
    rcases along_and.mp h with ⟨hbal, hcomplete⟩
    exact ⟨hbal, hcomplete⟩

/-- A polled button that gets no polled device, one that loses GPIO and registration, and two that
are bound at the same time and removed one after the other. -/
theorem allOrNothing_two_buttons :
    (run (bindStep (instances .inputPolledButton Bool)) (noDevices Bool)
      [.probe true { Outcome.fine with polled := false },
        .probe true { Outcome.fine with
          gpio := some ⟨-1, by decide⟩, registerPolled := some ⟨-1, by decide⟩ },
        .probe true .fine, .probe false .fine, .remove true, .remove false]).isSome = true ∧
    AllOrNothing (ι := Bool) .inputPolledButton
      [.probe true { Outcome.fine with polled := false },
        .probe true { Outcome.fine with
          gpio := some ⟨-1, by decide⟩, registerPolled := some ⟨-1, by decide⟩ },
        .probe true .fine, .probe false .fine, .remove true, .remove false] := by
  have hrun : (run (bindStep (instances .inputPolledButton Bool)) (noDevices Bool)
      [.probe true { Outcome.fine with polled := false },
        .probe true { Outcome.fine with
          gpio := some ⟨-1, by decide⟩, registerPolled := some ⟨-1, by decide⟩ },
        .probe true .fine, .probe false .fine, .remove true, .remove false]).isSome = true := by
    decide +kernel
  refine ⟨hrun, ?_⟩
  rcases Option.isSome_iff_exists.mp hrun with ⟨s, hs⟩
  refine (allOrNothing_iff .inputPolledButton _ s hs).mpr ?_
  simp [Handled, Driver.Handles, Outcome.fine]

/-- **Each driver fails**: a polled button keeps its GPIO when it cannot be registered, a regulator
cannot be removed, and a network device without memory writes to NULL. -/
theorem not_allOrNothing :
    (¬ AllOrNothing (ι := Bool) .inputPolledButton
      [.probe true { Outcome.fine with registerPolled := some ⟨-1, by decide⟩ }]) ∧
    (¬ AllOrNothing (ι := Bool) .dummyRegulator [.probe true .fine, .remove true]) ∧
    ¬ AllOrNothing (ι := Bool) .fakeEth [.probe true { Outcome.fine with etherdev := false }] := by
  have hprobe : ∀ (d : Driver) (o : Outcome), ¬ d.Handles o →
      (∃ t, bindStep (instances d Bool) (noDevices Bool) (.probe true o) = some t) →
      ¬ AllOrNothing (ι := Bool) d [.probe true o] := by
    rintro d o ho ⟨t, ht⟩ h
    exact ho ((goodStep_iff (platformInv_start d) ht).mp
      ⟨h.balanced [] _ [] _ rfl rfl, h.complete [] _ [] _ rfl rfl⟩)
  refine ⟨hprobe _ _ ?_ ⟨_, rfl⟩, fun h => ?_, hprobe _ _ ?_ ⟨_, rfl⟩⟩
  · simp [Driver.Handles, Outcome.fine]
  · have hrun : (run (bindStep (instances .dummyRegulator Bool)) (noDevices Bool)
        [.probe true .fine]).any (fun s => (s.own true).isSome &&
          !((instances .dummyRegulator Bool).remove true s.state).isOk) = true := by
      decide +kernel
    rcases (Option.any_eq_true _ _).mp hrun with ⟨s, hs, hfault⟩
    rw [Bool.and_eq_true, Option.isSome_iff_exists] at hfault
    rcases hfault with ⟨⟨own, hown⟩, hfault⟩
    rcases h.balanced [.probe true .fine] (.remove true) [] s rfl hs own hown with ⟨t, ht, -⟩
    rw [ht] at hfault
    cases hfault
  · simp [Driver.Handles, Outcome.fine]

end

end LinuxDrivers.Platform
