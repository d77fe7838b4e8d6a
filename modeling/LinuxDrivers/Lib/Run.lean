import Mathlib.Data.List.Induction

set_option autoImplicit false

/-! # Runs of a machine

A machine is a partial step function `step : σ → ε → Option σ`: `none` means that the event
cannot happen in that state. `run` folds it over a list of events. Properties of runs are
proved with `run_induct`, whose invariant may speak about the events so far and whose step
may use a condition `G` that the run meets at every event (`Along`).
-/

namespace LinuxDrivers.Lib

section

variable {σ ε : Type}

/-- The state after the events `es`, if all of them can happen. -/
def run (step : σ → ε → Option σ) : σ → List ε → Option σ
  | s, [] => some s
  | s, e :: es => (step s e).bind (fun t => run step t es)

/-- The condition `G` holds at every event of the run: of the events before it, the state it
happens in, and the event itself. -/
def Along (step : σ → ε → Option σ) (G : List ε → σ → ε → Prop) (s₀ : σ) (es : List ε) : Prop :=
  ∀ pre e post s, es = pre ++ e :: post → run step s₀ pre = some s → G pre s e

/-- `P` holds of every state the run comes through. -/
def Always (step : σ → ε → Option σ) (P : σ → Prop) (s₀ : σ) (es : List ε) : Prop :=
  ∀ pre post s, es = pre ++ post → run step s₀ pre = some s → P s

variable {step : σ → ε → Option σ} {G : List ε → σ → ε → Prop} {s₀ : σ}

@[simp] theorem run_nil (s : σ) : run step s [] = some s := rfl

@[simp] theorem run_cons (s : σ) (e : ε) (es : List ε) :
    run step s (e :: es) = (step s e).bind (fun t => run step t es) := rfl

theorem run_append (s : σ) (es fs : List ε) :
    run step s (es ++ fs) = (run step s es).bind (fun t => run step t fs) := by
  induction es generalizing s with
  | nil => rfl
  | cons e es ih =>
      rw [List.cons_append, run_cons, run_cons, Option.bind_assoc]
      cases step s e with
      | none => rfl
      | some t => exact ih t

/-- The last event of a run, split off. -/
theorem run_concat {s t : σ} {es : List ε} {e : ε} :
    run step s (es ++ [e]) = some t ↔ ∃ u, run step s es = some u ∧ step u e = some t := by
  rw [run_append, Option.bind_eq_some_iff]
  simp

theorem along_nil : Along step G s₀ [] := by
  intro pre e post s h
  exact absurd h (by simp)

/-- Where an event of a longer run stands: before the last one, or it is the last one. -/
theorem concat_eq_append_cons {es pre post : List ε} {d e : ε} :
    es ++ [e] = pre ++ d :: post ↔
      (∃ post', post = post' ++ [e] ∧ es = pre ++ d :: post') ∨ (post = [] ∧ d = e ∧ pre = es) := by
  constructor
  · intro h
    rcases List.eq_nil_or_concat post with rfl | ⟨post', f, rfl⟩
    · rcases List.append_inj' h rfl with ⟨hpre, hd⟩
      exact Or.inr ⟨rfl, by simpa using hd.symm, hpre.symm⟩
    · have hsplit : es ++ [e] = (pre ++ d :: post') ++ [f] := by simpa using h
      rcases List.append_inj' hsplit rfl with ⟨hes, hf⟩
      obtain rfl : e = f := by simpa using hf
      exact Or.inl ⟨post', List.concat_eq_append, hes⟩
  · rintro (⟨post', rfl, rfl⟩ | ⟨rfl, rfl, rfl⟩)
    · simp
    · rfl

theorem along_concat {es : List ε} {e : ε} :
    Along step G s₀ (es ++ [e]) ↔
      Along step G s₀ es ∧ ∀ s, run step s₀ es = some s → G es s e := by
  constructor
  · intro h
    refine ⟨fun pre d post s hes => h pre d (post ++ [e]) s (by simp [hes]), ?_⟩
    intro s hs
    exact h es e [] s rfl hs
  · rintro ⟨h, hlast⟩ pre d post s hes hs
    -- the event is one of the shorter run, or the last one
    rcases concat_eq_append_cons.mp hes with ⟨post', -, hpre⟩ | ⟨-, rfl, rfl⟩
    · exact h pre d post' s hpre hs
    · exact hlast s hs

/-- A condition on the state and the event alone, split off at the first event. -/
theorem along_cons {G : σ → ε → Prop} {s : σ} {e : ε} {es : List ε} :
    Along step (fun _ => G) s (e :: es) ↔
      G s e ∧ ∀ t, step s e = some t → Along step (fun _ => G) t es := by
  constructor
  · intro h
    refine ⟨h [] e es s rfl rfl, fun t ht pre d post u hes hu => ?_⟩
    apply h (e :: pre) d post u (by rw [hes]; rfl)
    rw [run_cons, ht]
    exact hu
  · rintro ⟨hfirst, hrest⟩ pre d post u hes hu
    cases pre with
    | nil =>
        rcases List.cons_eq_cons.mp hes with ⟨rfl, -⟩
        obtain rfl : s = u := by simpa using hu
        exact hfirst
    | cons c pre =>
        rcases List.cons_eq_cons.mp hes with ⟨rfl, hes'⟩
        rw [run_cons, Option.bind_eq_some_iff] at hu
        rcases hu with ⟨t, ht, hu'⟩
        exact hrest t ht pre d post u hes' hu'

theorem Along.left {es fs : List ε} (h : Along step G s₀ (es ++ fs)) : Along step G s₀ es := by
  intro pre e post s hes hs
  exact h pre e (post ++ fs) s (by rw [hes, List.append_assoc]; rfl) hs

/-- The second part of a run is a run of its own. -/
theorem Along.right {G : σ → ε → Prop} {es fs : List ε} {s : σ}
    (h : Along step (fun _ => G) s₀ (es ++ fs)) (hs : run step s₀ es = some s) :
    Along step (fun _ => G) s fs := by
  intro pre e post u hes hu
  apply h (es ++ pre) e post u (by rw [hes, List.append_assoc])
  rw [run_append, hs]
  exact hu

/-- Two conditions that agree wherever a run takes a step. -/
theorem along_congr {G' : List ε → σ → ε → Prop} {es : List ε} {u : σ}
    (hrun : run step s₀ es = some u)
    (h : ∀ pre e s t, run step s₀ pre = some s → step s e = some t → (G pre s e ↔ G' pre s e)) :
    Along step G s₀ es ↔ Along step G' s₀ es := by
  have hstep : ∀ pre e post s, es = pre ++ e :: post → run step s₀ pre = some s →
      (G pre s e ↔ G' pre s e) := by
    intro pre e post s hes hs
    rw [hes, run_append, hs, Option.bind_some, run_cons, Option.bind_eq_some_iff] at hrun
    rcases hrun with ⟨t, ht, -⟩
    exact h pre e s t hs ht
  constructor
  · intro hG pre e post s hes hs
    exact (hstep pre e post s hes hs).mp (hG pre e post s hes hs)
  · intro hG pre e post s hes hs
    exact (hstep pre e post s hes hs).mpr (hG pre e post s hes hs)

/-- A condition on the events alone. -/
theorem along_iff_forall {P : ε → Prop} {es : List ε} {u : σ} (hrun : run step s₀ es = some u) :
    Along step (fun _ _ e => P e) s₀ es ↔ ∀ e ∈ es, P e := by
  induction es generalizing s₀ with
  | nil => exact ⟨fun _ => nofun, fun _ => along_nil⟩
  | cons e es ih =>
      rw [run_cons, Option.bind_eq_some_iff] at hrun
      rcases hrun with ⟨t, ht, hrest⟩
      rw [along_cons, List.forall_mem_cons, ← ih hrest]
      refine and_congr_right fun _ => ⟨fun h => h t ht, fun h t' ht' => ?_⟩
      obtain rfl : t = t' := Option.some.inj (ht.symm.trans ht')
      exact h

/-- A decidable condition, evaluated along a run. -/
def checkAlong (step : σ → ε → Option σ) (G : σ → ε → Prop) [∀ s e, Decidable (G s e)] :
    σ → List ε → Bool
  | _, [] => true
  | s, e :: es => decide (G s e) && (step s e).all (fun t => checkAlong step G t es)

theorem along_of_checkAlong {G : σ → ε → Prop} [∀ s e, Decidable (G s e)] (s : σ) (es : List ε)
    (h : checkAlong step G s es = true) : Along step (fun _ => G) s es := by
  induction es generalizing s with
  | nil => exact along_nil
  | cons e es ih =>
      rw [checkAlong, Bool.and_eq_true, decide_eq_true_eq] at h
      refine along_cons.mpr ⟨h.1, fun t ht => ih t ?_⟩
      have hrest := h.2
      rw [ht] at hrest
      exact hrest

/-- **The invariant rule.** What holds at the start and is preserved by every step that meets
`G` holds of every state reached by a run that meets `G` all along. -/
theorem run_induct {I : List ε → σ → Prop} (h₀ : I [] s₀)
    (hstep : ∀ es s e t, run step s₀ es = some s → I es s → G es s e → step s e = some t →
      I (es ++ [e]) t) :
    ∀ es t, Along step G s₀ es → run step s₀ es = some t → I es t := by
  intro es
  induction es using List.reverseRecOn with
  | nil =>
      intro t _ hrun
      obtain rfl : s₀ = t := by simpa using hrun
      exact h₀
  | append_singleton es e ih =>
      intro t hG hrun
      rcases run_concat.mp hrun with ⟨u, hu, hstep'⟩
      rcases along_concat.mp hG with ⟨hG', hlast⟩
      exact hstep es u e t hu (ih u hG' hu) (hlast u hu) hstep'

theorem along_and {G' : List ε → σ → ε → Prop} {es : List ε} :
    Along step (fun pre s e => G pre s e ∧ G' pre s e) s₀ es ↔
      Along step G s₀ es ∧ Along step G' s₀ es := by
  constructor
  · intro h
    constructor
    · exact fun pre e post s hes hs => (h pre e post s hes hs).1
    · exact fun pre e post s hes hs => (h pre e post s hes hs).2
  · rintro ⟨h, h'⟩ pre e post s hes hs
    exact ⟨h pre e post s hes hs, h' pre e post s hes hs⟩

/-- All states of a run are the first one and those after its events. -/
theorem always_iff {P : σ → Prop} {es : List ε} :
    Always step P s₀ es ↔
      P s₀ ∧ Along step (fun _ s e => ∀ t, step s e = some t → P t) s₀ es := by
  constructor
  · intro h
    refine ⟨h [] es s₀ rfl rfl, fun pre e post s hes hs t ht => ?_⟩
    apply h (pre ++ [e]) post t
    · rw [hes, List.append_assoc]
      rfl
    · exact run_concat.mpr ⟨s, hs, ht⟩
  · rintro ⟨h₀, h⟩ pre post s hes hs
    rcases List.eq_nil_or_concat pre with rfl | ⟨pre', e, rfl⟩
    · obtain rfl : s₀ = s := by simpa using hs
      exact h₀
    · rw [List.concat_eq_append] at hes hs
      rcases run_concat.mp hs with ⟨u, hu, hstep⟩
      exact h pre' e post u (by rw [hes, List.append_assoc]; rfl) hu s hstep

/-- The invariant rule for all states of a run at once. -/
theorem always_of_along {I : σ → Prop} {es : List ε} (h₀ : I s₀)
    (hstep : ∀ pre s e t, I s → G pre s e → step s e = some t → I t)
    (hG : Along step G s₀ es) : Always step I s₀ es := by
  intro pre post s hes hs
  refine run_induct (I := fun _ => I) h₀ ?_ pre s (hes ▸ hG).left hs
  intro pre s e t _ hI hGe ht
  exact hstep pre s e t hI hGe ht

/-- **The equivalence rule.** If an invariant is kept by the steps that meet `C`, and wherever it
holds a step meets `G` if and only if it meets `C`, then a run meets `G` all along if and only if
it meets `C` all along. -/
theorem along_iff {G C : σ → ε → Prop} {I : σ → Prop}
    (hkeep : ∀ s e t, I s → C s e → step s e = some t → I t)
    (hiff : ∀ s e t, I s → step s e = some t → (G s e ↔ C s e)) :
    ∀ (es : List ε) (s u : σ), I s → run step s es = some u →
      (Along step (fun _ => G) s es ↔ Along step (fun _ => C) s es) := by
  intro es
  induction es with
  | nil =>
      intro s u _ _
      exact ⟨fun _ => along_nil, fun _ => along_nil⟩
  | cons e es ih =>
      intro s u hI hrun
      rw [run_cons, Option.bind_eq_some_iff] at hrun
      rcases hrun with ⟨t, ht, hrest⟩
      rw [along_cons, along_cons, hiff s e t hI ht]
      constructor
      · rintro ⟨hC, hG⟩
        refine ⟨hC, fun t' ht' => ?_⟩
        obtain rfl : t = t' := Option.some.inj (ht.symm.trans ht')
        exact (ih t u (hkeep s e t hI hC ht) hrest).mp (hG t ht)
      · rintro ⟨hC, hC'⟩
        refine ⟨hC, fun t' ht' => ?_⟩
        obtain rfl : t = t' := Option.some.inj (ht.symm.trans ht')
        exact (ih t u (hkeep s e t hI hC ht) hrest).mpr (hC' t ht)

/-- The invariant rule without a condition on the events. -/
theorem run_induct_all {I : List ε → σ → Prop} (h₀ : I [] s₀)
    (hstep : ∀ es s e t, run step s₀ es = some s → I es s → step s e = some t →
      I (es ++ [e]) t) :
    ∀ es t, run step s₀ es = some t → I es t := by
  intro es t hrun
  exact run_induct (G := fun _ _ _ => True) h₀
    (fun es s e t hs hI _ hst => hstep es s e t hs hI hst) es t
    (fun _ _ _ _ _ _ => trivial) hrun

end

end LinuxDrivers.Lib
