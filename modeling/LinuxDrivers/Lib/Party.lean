import LinuxDrivers.Lib.Prog
import Mathlib.Logic.Function.Basic

set_option autoImplicit false

/-! # Parties that share a device

Any number of parties, each running a `Prog` of its own, send their requests to one shared
device in any order. A request may block (`serve` has no result), and the device may also
change by events of its own.

For proofs the rest of a party's program is named by a control point. `party_induct` is the
rule: an invariant of the device and the control points of all parties that every step and every
event keeps holds in every state reached. Parties that share nothing need no invariant: what each of
them does alone it does in every run (`party_passes`). -/

namespace LinuxDrivers.Lib

/-- The shared device and what each party still has to do. -/
structure Parties (σ ι Op Ans α : Type) where
  dev : σ
  prog : ι → Prog Op Ans α

/-- Party `i` has its next request served, or the device changes by itself. -/
inductive PartyEvent (ι Env : Type) where
  | step (i : ι)
  | env (e : Env)

section

variable {σ ι Env Op Ans α : Type} [DecidableEq ι]
  (serve : σ → ι → Op → Option (σ × Ans)) (env : σ → Env → Option σ)

def partyStep (w : Parties σ ι Op Ans α) : PartyEvent ι Env → Option (Parties σ ι Op Ans α)
  | .step i =>
      match w.prog i with
      | .ret _ => none
      | .call op k =>
          (serve w.dev i op).map (fun r => ⟨r.1, Function.update w.prog i (k r.2)⟩)
  | .env e => (env w.dev e).map (fun s => { w with dev := s })

variable {serve env}

/-- What a party's step does, in full. -/
theorem partyStep_step {w v : Parties σ ι Op Ans α} {i : ι} :
    partyStep serve env w (.step i) = some v ↔
      ∃ op k s a, w.prog i = .call op k ∧ serve w.dev i op = some (s, a) ∧
        v = ⟨s, Function.update w.prog i (k a)⟩ := by
  cases hp : w.prog i with
  | ret a => simp [partyStep, hp]
  | call op k =>
      simp only [partyStep, hp, Option.map_eq_some_iff, Prod.exists, Prog.call.injEq]
      constructor
      · rintro ⟨s, a, hs, rfl⟩
        exact ⟨op, k, s, a, ⟨rfl, rfl⟩, hs, rfl⟩
      · rintro ⟨_, _, s, a, ⟨rfl, rfl⟩, hs, rfl⟩
        exact ⟨s, a, hs, rfl⟩

theorem partyStep_env {w v : Parties σ ι Op Ans α} {e : Env} :
    partyStep serve env w (.env e) = some v ↔
      ∃ s, env w.dev e = some s ∧ v = { w with dev := s } := by
  simp only [partyStep, Option.map_eq_some_iff]
  constructor
  · rintro ⟨s, hs, rfl⟩
    exact ⟨s, hs, rfl⟩
  · rintro ⟨s, hs, rfl⟩
    exact ⟨s, hs, rfl⟩

variable {C : Type} (code : ι → C → Prog Op Ans α)

/-- The parties are at the control points `pc`. -/
def Parties.At (w : Parties σ ι Op Ans α) (pc : ι → C) : Prop := ∀ i, w.prog i = code i (pc i)

/-- **The rule for parties.** `I s pc` is the invariant for a device in state `s` and parties
at the control points `pc`; `G` is a condition on the steps taken. A step of a party has to lead
to another control point of it. -/
theorem party_induct {I : σ → (ι → C) → Prop}
    {G : Parties σ ι Op Ans α → PartyEvent ι Env → Prop} {w₀ : Parties σ ι Op Ans α} {pc₀ : ι → C}
    (hat₀ : w₀.At code pc₀) (h₀ : I w₀.dev pc₀)
    (hstep : ∀ w pc i op k s a, w.At code pc → I w.dev pc → G w (.step i) →
      code i (pc i) = .call op k → serve w.dev i op = some (s, a) →
      ∃ c, k a = code i c ∧ I s (Function.update pc i c))
    (henv : ∀ w pc e s, w.At code pc → I w.dev pc → G w (.env e) → env w.dev e = some s →
      I s pc) :
    ∀ es w, Along (partyStep serve env) (fun _ => G) w₀ es →
      run (partyStep serve env) w₀ es = some w → ∃ pc, w.At code pc ∧ I w.dev pc := by
  refine run_induct (I := fun _ (w : Parties σ ι Op Ans α) => ∃ pc, w.At code pc ∧ I w.dev pc)
    ⟨pc₀, hat₀, h₀⟩ ?_
  rintro _ w e v _ ⟨pc, hat, hI⟩ hG hst
  cases e with
  | step i =>
      rcases partyStep_step.mp hst with ⟨op, k, s, a, hp, hs, rfl⟩
      rcases hstep w pc i op k s a hat hI hG ((hat i).symm.trans hp) hs with ⟨c, hc, hI'⟩
      refine ⟨Function.update pc i c, fun j => ?_, hI'⟩
      -- only the control point of `i` has moved
      by_cases hij : j = i
      · subst hij
        simpa using hc
      · simpa [Function.update_of_ne hij] using hat j
  | env e =>
      rcases partyStep_env.mp hst with ⟨s, hs, rfl⟩
      exact ⟨pc, hat, henv w pc e s hat hI hG hs⟩

/-- The rule with the events so far, for invariants that count them. -/
theorem party_induct_events {I : List (PartyEvent ι Env) → σ → (ι → C) → Prop}
    {G : Parties σ ι Op Ans α → PartyEvent ι Env → Prop} {w₀ : Parties σ ι Op Ans α} {pc₀ : ι → C}
    (hat₀ : w₀.At code pc₀) (h₀ : I [] w₀.dev pc₀)
    (hstep : ∀ es w pc i op k s a, w.At code pc → I es w.dev pc → G w (.step i) →
      code i (pc i) = .call op k → serve w.dev i op = some (s, a) →
      ∃ c, k a = code i c ∧ I (es ++ [.step i]) s (Function.update pc i c))
    (henv : ∀ es w pc e s, w.At code pc → I es w.dev pc → G w (.env e) → env w.dev e = some s →
      I (es ++ [.env e]) s pc) :
    ∀ es w, Along (partyStep serve env) (fun _ => G) w₀ es →
      run (partyStep serve env) w₀ es = some w → ∃ pc, w.At code pc ∧ I es w.dev pc := by
  refine run_induct
    (I := fun es (w : Parties σ ι Op Ans α) => ∃ pc, w.At code pc ∧ I es w.dev pc)
    ⟨pc₀, hat₀, h₀⟩ ?_
  rintro es w e v _ ⟨pc, hat, hI⟩ hG hst
  cases e with
  | step i =>
      rcases partyStep_step.mp hst with ⟨op, k, s, a, hp, hs, rfl⟩
      rcases hstep es w pc i op k s a hat hI hG ((hat i).symm.trans hp) hs with ⟨c, hc, hI'⟩
      refine ⟨Function.update pc i c, fun j => ?_, hI'⟩
      by_cases hij : j = i
      · subst hij
        simpa using hc
      · simpa [Function.update_of_ne hij] using hat j
  | env e =>
      rcases partyStep_env.mp hst with ⟨s, hs, rfl⟩
      exact ⟨pc, hat, henv es w pc e s hat hI hG hs⟩

end

/-! ## Parties with states of their own -/

section

variable {τ ι Env Op Ans α : Type} [DecidableEq ι]

/-- A request works on the state of its party alone. -/
def ownServe (serve : ι → τ → Op → τ × Ans) (s : ι → τ) (i : ι) (op : Op) :
    Option ((ι → τ) × Ans) :=
  some (Function.update s i (serve i (s i) op).1, (serve i (s i) op).2)

variable {serve : ι → τ → Op → τ × Ans} {env : (ι → τ) → Env → Option (ι → τ)}
  {w₀ w : Parties (ι → τ) ι Op Ans α} {es : List (PartyEvent ι Env)} {i : ι}

/-- A party that has not taken a step is as it was. -/
theorem party_idle (henv : ∀ s e t, env s e = some t → t = s) (hi : .step i ∉ es)
    (hrun : run (partyStep (ownServe serve) env) w₀ es = some w) :
    w.dev i = w₀.dev i ∧ w.prog i = w₀.prog i := by
  induction es generalizing w₀ with
  | nil =>
      cases hrun
      exact ⟨rfl, rfl⟩
  | cons e es ih =>
      rw [List.mem_cons, not_or] at hi
      rcases hi with ⟨hne, hrest⟩
      rw [run_cons, Option.bind_eq_some_iff] at hrun
      rcases hrun with ⟨v, hv, hrun⟩
      rcases ih hrest hrun with ⟨hdev, hprog⟩
      rw [hdev, hprog]
      cases e with
      | step j =>
          have hij : i ≠ j := fun heq => hne (by rw [heq])
          rcases partyStep_step.mp hv with ⟨op, k, s, a, -, hs, rfl⟩
          cases hs
          exact ⟨Function.update_of_ne hij _ _, Function.update_of_ne hij _ _⟩
      | env e =>
          rcases partyStep_env.mp hv with ⟨s, hs, rfl⟩
          cases henv _ _ _ hs
          exact ⟨rfl, rfl⟩

/-- **What a party does alone it does in every run.** -/
theorem party_passes {I : τ → Prop} {Q : α → τ → Prop}
    (henv : ∀ s e t, env s e = some t → t = s)
    (h₀ : (w₀.prog i).Passes (serve i) I Q (w₀.dev i))
    (hrun : run (partyStep (ownServe serve) env) w₀ es = some w) :
    (w.prog i).Passes (serve i) I Q (w.dev i) := by
  induction es generalizing w₀ with
  | nil =>
      cases hrun
      exact h₀
  | cons e es ih =>
      rw [run_cons, Option.bind_eq_some_iff] at hrun
      rcases hrun with ⟨v, hv, hrun⟩
      apply ih _ hrun
      cases e with
      | step j =>
          rcases partyStep_step.mp hv with ⟨op, k, s, a, hp, hs, rfl⟩
          cases hs
          by_cases hij : i = j
          · subst hij
            rw [hp] at h₀
            simpa using h₀.2
          · simpa [Function.update_of_ne hij] using h₀
      | env e =>
          rcases partyStep_env.mp hv with ⟨s, hs, rfl⟩
          cases henv _ _ _ hs
          exact h₀

end

end LinuxDrivers.Lib
