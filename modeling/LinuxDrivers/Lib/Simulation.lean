import LinuxDrivers.Lib.Run

set_option autoImplicit false

/-! # Machines that answer alike

A `Machine` takes steps and gives an answer to every event. `Refines` relates the states of two
machines over the same events: from related states they can take the same steps, give the same
answers and come to related states, as long as the first machine meets a condition `G`.

From that, two runs of the same events end in related states (`Refines.run_rel`) and are given
the same answers (`Refines.answers_eq`). Both are equations or relations that can be put one
after the other, so a development may go down in several stages. -/

namespace LinuxDrivers.Lib

structure Machine (σ ε ω : Type) where
  step : σ → ε → Option σ
  answer : σ → ε → ω

section

variable {σ τ ε ω : Type}

/-- The answers to the events `es`, if all of them can happen. -/
def Machine.answers (M : Machine σ ε ω) : σ → List ε → Option (List ω)
  | _, [] => some []
  | s, e :: es => (M.step s e).bind (fun t => (M.answers t es).map (M.answer s e :: ·))

theorem Machine.answers_cons {M : Machine σ ε ω} {s t : σ} {e : ε} {es : List ε}
    (h : M.step s e = some t) :
    M.answers s (e :: es) = (M.answers t es).map (M.answer s e :: ·) := by
  rw [Machine.answers, h, Option.bind_some]

theorem Machine.answers_concat {M : Machine σ ε ω} {s t u : σ} {e : ε} {es : List ε}
    (hrun : run M.step s es = some t) (hstep : M.step t e = some u) :
    M.answers s (es ++ [e]) = (M.answers s es).map (· ++ [M.answer t e]) := by
  induction es generalizing s with
  | nil =>
      obtain rfl := Option.some.inj hrun
      rw [List.nil_append, Machine.answers_cons hstep]
      rfl
  | cons f es ih =>
      rw [run_cons, Option.bind_eq_some_iff] at hrun
      rcases hrun with ⟨s', hs', hrest⟩
      rw [List.cons_append, Machine.answers_cons hs', Machine.answers_cons hs', ih hrest,
        Option.map_map, Option.map_map]
      rfl

/-- From related states the machines do the same, where `M` meets `G`. -/
structure Machine.Refines (M : Machine σ ε ω) (N : Machine τ ε ω) (G : σ → ε → Prop)
    (R : σ → τ → Prop) : Prop where
  stuck : ∀ s u e, R s u → G s e → M.step s e = none → N.step u e = none
  moves : ∀ s u e t, R s u → G s e → M.step s e = some t →
    ∃ v, N.step u e = some v ∧ M.answer s e = N.answer u e ∧ R t v

section

variable {M : Machine σ ε ω} {N : Machine τ ε ω} {G : σ → ε → Prop}
  {R : σ → τ → Prop} {s t : σ} {u : τ} {es : List ε}

/-- Runs of the same events end in related states. -/
theorem Machine.Refines.run_rel (h : M.Refines N G R) (hR : R s u)
    (hG : Along M.step (fun _ => G) s es) (hrun : run M.step s es = some t) :
    ∃ v, run N.step u es = some v ∧ R t v := by
  induction es generalizing s u with
  | nil =>
      cases hrun
      exact ⟨u, rfl, hR⟩
  | cons e es ih =>
      rw [run_cons, Option.bind_eq_some_iff] at hrun
      rcases hrun with ⟨s', hs', hrest⟩
      rcases along_cons.mp hG with ⟨hGe, hGs⟩
      rcases h.moves s u e s' hR hGe hs' with ⟨u', hu', -, hR'⟩
      rw [run_cons, hu', Option.bind_some]
      exact ih hR' (hGs s' hs') hrest

/-- **Runs of the same events are given the same answers.** -/
theorem Machine.Refines.answers_eq (h : M.Refines N G R) (hR : R s u)
    (hG : Along M.step (fun _ => G) s es) : M.answers s es = N.answers u es := by
  induction es generalizing s u with
  | nil => rfl
  | cons e es ih =>
      rcases along_cons.mp hG with ⟨hGe, hGs⟩
      cases hs : M.step s e with
      | none =>
          rw [Machine.answers, Machine.answers, hs, h.stuck s u e hR hGe hs]
          rfl
      | some s' =>
          rcases h.moves s u e s' hR hGe hs with ⟨u', hu', hans, hR'⟩
          rw [Machine.answers_cons hs, Machine.answers_cons hu', hans, ih hR' (hGs s' hs)]

end

end

end LinuxDrivers.Lib
