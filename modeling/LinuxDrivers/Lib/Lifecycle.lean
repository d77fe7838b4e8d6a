import LinuxDrivers.Lib.Run
import Mathlib.Logic.Function.Basic

set_option autoImplicit false

/-! # Instances that acquire and release resources

Any number of instances are probed and removed on a shared state `σ`, in any order. A probe says
whether it has succeeded; what is held in a state is a set of resources `β`. Only an instance
that is bound, by a probe that succeeded, is removed.

A step is `Balanced` if it does not fault, a failed probe leaves the held resources as they were, a
successful one takes nothing away, and a removal gives back exactly what the instance's own probe
acquired. `held_iff` is what a run of balanced steps comes to: what is held is what was held at the
start and what the bound instances acquired, each resource by one of them. `Sole` is the shape of an
invariant for drivers that manage only one instance at a time. -/

namespace LinuxDrivers.Lib

structure Lifecycle (σ ι ω φ β : Type) where
  probe : ι → ω → σ → Except φ (Bool × σ)
  remove : ι → σ → Except φ σ
  Held : σ → β → Prop

/-- The shared state, and for each bound instance the states before and after its own probe. -/
structure Bound (σ ι : Type) where
  state : σ
  own : ι → Option (σ × σ)
  stopped : Bool

/-- Nobody is bound. -/
def Bound.start {σ : Type} (ι : Type) (s : σ) : Bound σ ι := ⟨s, fun _ => none, false⟩

/-- `o` is what the environment decides about the probe. -/
inductive BindEvent (ι ω : Type) where
  | probe (i : ι) (o : ω)
  | remove (i : ι)

section

variable {σ ι ω φ β : Type} [DecidableEq ι] (L : Lifecycle σ ι ω φ β)

/-- A fault leaves no further steps. -/
def bindStep (s : Bound σ ι) : BindEvent ι ω → Option (Bound σ ι)
  | .probe i o =>
      if s.stopped = true ∨ (s.own i).isSome = true then none
      else
        match L.probe i o s.state with
        | .error _ => some { s with stopped := true }
        | .ok (false, t) => some { s with state := t }
        | .ok (true, t) =>
            some { s with state := t, own := Function.update s.own i (some (s.state, t)) }
  | .remove i =>
      if s.stopped = true ∨ (s.own i).isNone = true then none
      else
        match L.remove i s.state with
        | .error _ => some { s with stopped := true }
        | .ok t => some { s with state := t, own := Function.update s.own i none }

/-- The resource is one that this probe acquired. -/
def Lifecycle.Acquired (own : σ × σ) (b : β) : Prop := L.Held own.2 b ∧ ¬ L.Held own.1 b

/-- What a step does to the held resources. -/
def Balanced (s : Bound σ ι) : BindEvent ι ω → Prop
  | .probe i o => ∃ ok t, L.probe i o s.state = .ok (ok, t) ∧
      (ok = false → ∀ b, L.Held t b ↔ L.Held s.state b) ∧
      (ok = true → ∀ b, L.Held s.state b → L.Held t b)
  | .remove i => ∀ own ∈ s.own i, ∃ t, L.remove i s.state = .ok t ∧
      ∀ b, L.Held t b ↔ L.Held s.state b ∧ ¬ L.Acquired own b

/-! ## The steps -/

section

variable {L} {s t : Bound σ ι}

/-- What a probe does, in full. -/
theorem bindStep_probe {i : ι} {o : ω} (h : bindStep L s (.probe i o) = some t) :
    s.stopped = false ∧ s.own i = none ∧
      ((∃ f, L.probe i o s.state = .error f ∧ t = { s with stopped := true }) ∨
        (∃ u, L.probe i o s.state = .ok (false, u) ∧ t = { s with state := u }) ∨
        ∃ u, L.probe i o s.state = .ok (true, u) ∧
          t = { s with state := u, own := Function.update s.own i (some (s.state, u)) }) := by
  simp only [bindStep] at h
  split_ifs at h with hpre
  rw [not_or, Bool.not_eq_true, Bool.not_eq_true, Option.isSome_eq_false_iff,
    Option.isNone_iff_eq_none] at hpre
  refine ⟨hpre.1, hpre.2, ?_⟩
  rcases hprobe : L.probe i o s.state with f | ⟨ok, u⟩
  · simp only [hprobe] at h
    cases h
    exact Or.inl ⟨f, rfl, rfl⟩
  · cases ok with
    | false =>
        simp only [hprobe] at h
        cases h
        exact Or.inr (Or.inl ⟨u, rfl, rfl⟩)
    | true =>
        simp only [hprobe] at h
        cases h
        exact Or.inr (Or.inr ⟨u, rfl, rfl⟩)

/-- What a removal does, in full. -/
theorem bindStep_remove {i : ι} (h : bindStep L s (.remove i) = some t) :
    s.stopped = false ∧ ∃ own, s.own i = some own ∧
      ((∃ f, L.remove i s.state = .error f ∧ t = { s with stopped := true }) ∨
        ∃ u, L.remove i s.state = .ok u ∧
          t = { s with state := u, own := Function.update s.own i none }) := by
  simp only [bindStep] at h
  split_ifs at h with hpre
  rw [not_or, Bool.not_eq_true, Bool.not_eq_true, Option.isNone_eq_false_iff,
    Option.isSome_iff_exists] at hpre
  rcases hpre with ⟨hrun, own, hown⟩
  refine ⟨hrun, own, hown, ?_⟩
  cases hremove : L.remove i s.state with
  | error f =>
      simp only [hremove] at h
      cases h
      exact Or.inl ⟨f, rfl, rfl⟩
  | ok u =>
      simp only [hremove] at h
      cases h
      exact Or.inr ⟨u, rfl, rfl⟩

/-- The steps of a probe and of a removal that do not fault. -/
theorem bindStep_of_fail {i : ι} {o : ω} {u : σ} (hrun : s.stopped = false) (hi : s.own i = none)
    (h : L.probe i o s.state = .ok (false, u)) :
    bindStep L s (.probe i o) = some { s with state := u } := by
  simp [bindStep, hrun, hi, h]

theorem bindStep_of_ok {i : ι} {o : ω} {u : σ} (hrun : s.stopped = false) (hi : s.own i = none)
    (h : L.probe i o s.state = .ok (true, u)) :
    bindStep L s (.probe i o) =
      some { s with state := u, own := Function.update s.own i (some (s.state, u)) } := by
  simp [bindStep, hrun, hi, h]

theorem bindStep_of_remove {i : ι} {u : σ} {own : σ × σ} (hrun : s.stopped = false)
    (hi : s.own i = some own) (h : L.remove i s.state = .ok u) :
    bindStep L s (.remove i) =
      some { s with state := u, own := Function.update s.own i none } := by
  simp [bindStep, hrun, hi, h]

end

/-! ## The ledger -/

/-- The invariant of balanced runs: the held resources are those of the start and those of the bound
instances, and none of them belongs to two. -/
structure Ledger (s₀ : σ) (s : Bound σ ι) : Prop where
  held : ∀ b, L.Held s.state b ↔ L.Held s₀ b ∨ ∃ i, ∃ own ∈ s.own i, L.Acquired own b
  fresh : ∀ i, ∀ own ∈ s.own i, ∀ b, L.Acquired own b → ¬ L.Held s₀ b
  disjoint : ∀ i j, i ≠ j → ∀ own ∈ s.own i, ∀ own' ∈ s.own j, ∀ b, L.Acquired own b →
    ¬ L.Acquired own' b

omit [DecidableEq ι] in
theorem ledger_start (s₀ : σ) : Ledger L s₀ (Bound.start ι s₀) where
  held b := by simp [Bound.start]
  fresh i own hown := by cases hown
  disjoint i j _ own hown := by cases hown

section

variable {L} {s₀ : σ} {s t : Bound σ ι}

/-- Who is bound after an update. -/
theorem mem_update {α : Type} {f : ι → Option α} {i j : ι} {x : Option α} {a : α} :
    a ∈ Function.update f i x j ↔ j = i ∧ a ∈ x ∨ j ≠ i ∧ a ∈ f j := by
  by_cases hj : j = i
  · subst hj
    simp
  · rw [Function.update_of_ne hj]
    simp [hj]

omit [DecidableEq ι] in
theorem Ledger.of_state (h : Ledger L s₀ s) (hown : t.own = s.own)
    (hheld : ∀ b, L.Held t.state b ↔ L.Held s.state b) : Ledger L s₀ t := by
  refine ⟨fun b => ?_, ?_, ?_⟩
  · rw [hheld, hown]
    exact h.held b
  · rw [hown]
    exact h.fresh
  · rw [hown]
    exact h.disjoint

omit [DecidableEq ι] in
/-- A bound instance still holds what it acquired. -/
theorem Ledger.holds (h : Ledger L s₀ s) {i : ι} {own : σ × σ} (hown : own ∈ s.own i) {b : β}
    (hb : L.Acquired own b) : L.Held s.state b :=
  (h.held b).mpr (Or.inr ⟨i, own, hown, hb⟩)

theorem Ledger.bind {i : ι} {u : σ} (h : Ledger L s₀ s) (hi : s.own i = none)
    (hkeep : ∀ b, L.Held s.state b → L.Held u b) :
    Ledger L s₀ { s with state := u, own := Function.update s.own i (some (s.state, u)) } := by
  refine ⟨fun b => ?_, fun j own hown b hb => ?_, fun j k hjk own hown own' hown' b hb hb' => ?_⟩
  · constructor
    · intro hb
      by_cases hold : L.Held s.state b
      · rcases (h.held b).mp hold with h₀ | ⟨j, own, hown, hacq⟩
        · exact Or.inl h₀
        · have hj : j ≠ i := by
            rintro rfl
            rw [hi] at hown
            cases hown
          exact Or.inr ⟨j, own, mem_update.mpr (Or.inr ⟨hj, hown⟩), hacq⟩
      · exact Or.inr ⟨i, (s.state, u), mem_update.mpr (Or.inl ⟨rfl, rfl⟩), hb, hold⟩
    · rintro (h₀ | ⟨j, own, hown, hacq⟩)
      · exact hkeep b ((h.held b).mpr (Or.inl h₀))
      · rcases mem_update.mp hown with ⟨-, hnew⟩ | ⟨-, hold⟩
        · cases hnew
          exact hacq.1
        · exact hkeep b (h.holds hold hacq)
  · rcases mem_update.mp hown with ⟨-, hnew⟩ | ⟨-, hold⟩
    · cases hnew
      exact fun h₀ => hb.2 ((h.held b).mpr (Or.inl h₀))
    · exact h.fresh j own hold b hb
  · -- what the new instance acquired was not held before, what the others acquired was
    rcases mem_update.mp hown with ⟨rfl, hnew⟩ | ⟨-, hold⟩
    · cases hnew
      rcases mem_update.mp hown' with ⟨hk, -⟩ | ⟨-, hold'⟩
      · exact hjk hk.symm
      · exact hb.2 (h.holds hold' hb')
    · rcases mem_update.mp hown' with ⟨-, hnew'⟩ | ⟨-, hold'⟩
      · cases hnew'
        exact hb'.2 (h.holds hold hb)
      · exact h.disjoint j k hjk own hold own' hold' b hb hb'

theorem Ledger.unbind {i : ι} {u : σ} {own : σ × σ} (h : Ledger L s₀ s) (hi : s.own i = some own)
    (hgive : ∀ b, L.Held u b ↔ L.Held s.state b ∧ ¬ L.Acquired own b) :
    Ledger L s₀ { s with state := u, own := Function.update s.own i none } := by
  have hother : ∀ j own', own' ∈ Function.update s.own i none j → j ≠ i ∧ own' ∈ s.own j := by
    intro j own' hown'
    rcases mem_update.mp hown' with ⟨-, hnone⟩ | hold
    · cases hnone
    · exact hold
  refine ⟨fun b => ?_, fun j own' hown' => ?_, fun j k hjk own' hown' own'' hown'' => ?_⟩
  · rw [hgive, h.held]
    constructor
    · rintro ⟨h₀ | ⟨j, own', hown', hacq⟩, hnot⟩
      · exact Or.inl h₀
      · have hj : j ≠ i := by
          rintro rfl
          obtain rfl : own = own' := Option.some.inj (hi.symm.trans hown')
          exact hnot hacq
        exact Or.inr ⟨j, own', mem_update.mpr (Or.inr ⟨hj, hown'⟩), hacq⟩
    · rintro (h₀ | ⟨j, own', hown', hacq⟩)
      · exact ⟨Or.inl h₀, fun hacq => h.fresh i own hi b hacq h₀⟩
      · rcases hother j own' hown' with ⟨hj, hown'⟩
        exact ⟨Or.inr ⟨j, own', hown', hacq⟩, h.disjoint j i hj own' hown' own hi b hacq⟩
  · exact h.fresh j own' (hother j own' hown').2
  · exact h.disjoint j k hjk own' (hother j own' hown').2 own'' (hother k own'' hown'').2

/-- A balanced step. -/
theorem ledger_step {e : BindEvent ι ω} (h : Ledger L s₀ s) (hb : Balanced L s e)
    (hstep : bindStep L s e = some t) : Ledger L s₀ t := by
  cases e with
  | probe i o =>
      rcases hb with ⟨ok, u, hprobe, hfail, hkeep⟩
      rcases bindStep_probe hstep with ⟨-, hi, hcases⟩
      rcases hcases with ⟨f, hf, -⟩ | ⟨v, hv, rfl⟩ | ⟨v, hv, rfl⟩
      · rw [hprobe] at hf
        cases hf
      · rw [hprobe] at hv
        cases hv
        exact h.of_state rfl (hfail rfl)
      · rw [hprobe] at hv
        cases hv
        exact h.bind hi (hkeep rfl)
  | remove i =>
      rcases bindStep_remove hstep with ⟨-, own, hown, hcases⟩
      rcases hb own hown with ⟨u, hremove, hgive⟩
      rcases hcases with ⟨f, hf, -⟩ | ⟨v, hv, rfl⟩
      · rw [hremove] at hf
        cases hf
      · rw [hremove] at hv
        cases hv
        exact h.unbind hown hgive

/-- **What a balanced run holds**: what was held at the start and what the bound instances
acquired. -/
theorem ledger_of_balanced {es : List (BindEvent ι ω)}
    (hb : Along (bindStep L) (fun _ => Balanced L) (Bound.start ι s₀) es) :
    Always (bindStep L) (Ledger L s₀) (Bound.start ι s₀) es :=
  always_of_along (ledger_start L s₀) (fun _ _ _ _ h hbal hstep => ledger_step h hbal hstep) hb

omit [DecidableEq ι] in
/-- When nobody is bound, nothing more is held than at the start. -/
theorem Ledger.held_of_unbound (h : Ledger L s₀ s) (hnone : ∀ i, s.own i = none) (b : β) :
    L.Held s.state b ↔ L.Held s₀ b := by
  rw [h.held b]
  constructor
  · rintro (h₀ | ⟨i, own, hown, -⟩)
    · exact h₀
    · rw [hnone i] at hown
      cases hown
  · exact Or.inl

end

end

/-! ## One instance at a time -/

section

variable {σ ι : Type} {Idle : σ → Prop} {Busy : ι → σ × σ → σ → Prop} {s : Bound σ ι} {i : ι}

/-- At most one instance is bound. `Idle` is known of the state when there is none, and `Busy` when
there is one. -/
structure Sole (Idle : σ → Prop) (Busy : ι → σ × σ → σ → Prop) (s : Bound σ ι) : Prop where
  idle : (∀ i, s.own i = none) → Idle s.state
  busy : ∀ i, ∀ own ∈ s.own i, (∀ j, j ≠ i → s.own j = none) ∧ Busy i own s.state

theorem exists_own (h : ¬ ∀ j, s.own j = none) : ∃ j own, own ∈ s.own j := by
  rcases not_forall.mp h with ⟨j, hj⟩
  exact ⟨j, Option.ne_none_iff_exists'.mp hj⟩

theorem sole_start {s₀ : σ} (h : Idle s₀) : Sole Idle Busy (Bound.start ι s₀) where
  idle _ := h
  busy i own hown := by cases hown

/-- A failed probe changes nothing, or happens with nobody bound. -/
theorem Sole.fail (h : Sole Idle Busy s) {u : σ}
    (hu : u = s.state ∨ (∀ j, s.own j = none) ∧ Idle u) :
    Sole Idle Busy { s with state := u } := by
  rcases hu with rfl | ⟨hnone, hidle⟩
  · exact ⟨h.idle, h.busy⟩
  · refine ⟨fun _ => hidle, fun i own hown => ?_⟩
    change own ∈ s.own i at hown
    rw [hnone i] at hown
    cases hown

variable [DecidableEq ι]

theorem Sole.bind (hnone : ∀ j, s.own j = none) {u : σ} (hbusy : Busy i (s.state, u) u) :
    Sole Idle Busy { s with state := u, own := Function.update s.own i (some (s.state, u)) } := by
  refine ⟨fun hno => ?_, fun j own hown => ?_⟩
  · have hnew : Function.update s.own i (some _) i = none := hno i
    rw [Function.update_self] at hnew
    cases hnew
  · rcases mem_update.mp hown with ⟨rfl, hnew⟩ | ⟨-, hold⟩
    · cases hnew
      refine ⟨fun k hk => ?_, hbusy⟩
      calc Function.update s.own j _ k = s.own k := Function.update_of_ne hk _ _
        _ = none := hnone k
    · rw [hnone j] at hold
      cases hold

theorem Sole.unbind (h : Sole Idle Busy s) {own : σ × σ} (hown : own ∈ s.own i) {u : σ}
    (hidle : Idle u) :
    Sole Idle Busy { s with state := u, own := Function.update s.own i none } := by
  refine ⟨fun _ => hidle, fun j own' hown' => ?_⟩
  rcases mem_update.mp hown' with ⟨-, hnone⟩ | ⟨hj, hold⟩
  · cases hnone
  · rw [(h.busy i own hown).1 j hj] at hold
    cases hold

end

end LinuxDrivers.Lib
