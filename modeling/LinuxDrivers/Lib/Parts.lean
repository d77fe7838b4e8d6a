import LinuxDrivers.Lib.Party

set_option autoImplicit false

/-! # A shared device in parts

The device of some parties is made up of parts, `part s k` is its part `k`. Every request is about
one part, `about op`, works on that part alone and is answered from it; so do the events of the
device. Every party makes requests about one part only, `home i`.

Then the parts do not notice each other: a list of events is a run of the whole exactly if its
events of each part are a run of that part alone, and both leave the same behind
(`parts_run_iff`, `parts_agree`). -/

namespace LinuxDrivers.Lib

variable {σ τ ι κ Env Op Ans α β : Type}

/-- All requests of the program are about the part `k`. -/
def Prog.Within (about : Op → κ) (k : κ) : Prog Op Ans α → Prop
  | .ret _ => True
  | .call op f => about op = k ∧ ∀ x, Within about k (f x)

theorem Prog.Within.bind {about : Op → κ} {k : κ} {p : Prog Op Ans α} {f : α → Prog Op Ans β}
    (h : p.Within about k) (hf : ∀ a, (f a).Within about k) : (p >>= f).Within about k := by
  induction p with
  | ret a => exact hf a
  | call op g ih => exact ⟨h.1, fun x => ih x (h.2 x)⟩

/-- The laws of a device in parts. -/
structure Parted (part : σ → κ → τ) (about : Op → κ) (aboutEnv : Env → κ)
    (serve : σ → ι → Op → Option (σ × Ans)) (env : σ → Env → Option σ)
    (serveIn : κ → τ → ι → Op → Option (τ × Ans)) (envIn : κ → τ → Env → Option τ) : Prop where
  served : ∀ s i op, (serve s i op).map (fun r => (part r.1 (about op), r.2))
    = serveIn (about op) (part s (about op)) i op
  elsewhere : ∀ s i op t x k, serve s i op = some (t, x) → k ≠ about op → part t k = part s k
  changed : ∀ s e, (env s e).map (fun t => part t (aboutEnv e))
    = envIn (aboutEnv e) (part s (aboutEnv e)) e
  unchanged : ∀ s e t k, env s e = some t → k ≠ aboutEnv e → part t k = part s k

section

variable [DecidableEq ι] [DecidableEq κ] {part : σ → κ → τ} {about : Op → κ} {aboutEnv : Env → κ}
  {serve : σ → ι → Op → Option (σ × Ans)} {env : σ → Env → Option σ}
  {serveIn : κ → τ → ι → Op → Option (τ × Ans)} {envIn : κ → τ → Env → Option τ} (home : ι → κ)

/-- Whether an event is one of the part `k`. -/
def eventOf (aboutEnv : Env → κ) (k : κ) : PartyEvent ι Env → Bool
  | .step i => decide (home i = k)
  | .env e => decide (aboutEnv e = k)

/-- The parties of a part find there what they find in the whole device, and have the same still to
do. -/
structure AgreesOn (part : σ → κ → τ) (k : κ) (w : Parties σ ι Op Ans α)
    (v : Parties τ ι Op Ans α) : Prop where
  dev : v.dev = part w.dev k
  prog : ∀ i, home i = k → v.prog i = w.prog i

/-- Every party keeps to its part. -/
def AtHome (about : Op → κ) (w : Parties σ ι Op Ans α) : Prop :=
  ∀ i, (w.prog i).Within about (home i)

variable {home} {w w' : Parties σ ι Op Ans α} {k : κ} {v : Parties τ ι Op Ans α}
  {e : PartyEvent ι Env}

omit [DecidableEq κ] in
theorem AtHome.step (h : AtHome home about w) (hstep : partyStep serve env w e = some w') :
    AtHome home about w' := by
  cases e with
  | step i =>
      rcases partyStep_step.mp hstep with ⟨op, f, s, a, hp, -, rfl⟩
      intro j
      by_cases hj : j = i
      · subst hj
        have hwithin := h j
        rw [hp] at hwithin
        simpa using hwithin.2 a
      · simpa [Function.update_of_ne hj] using h j
  | env e =>
      rcases partyStep_env.mp hstep with ⟨s, -, rfl⟩
      exact h

/-- A step of another part. -/
theorem AgreesOn.other (hd : Parted part about aboutEnv serve env serveIn envIn)
    (hhome : AtHome home about w) (h : AgreesOn home part k w v)
    (he : eventOf home aboutEnv k e = false) (hstep : partyStep serve env w e = some w') :
    AgreesOn home part k w' v := by
  cases e with
  | step i =>
      have hik : home i ≠ k := by simpa [eventOf] using he
      rcases partyStep_step.mp hstep with ⟨op, f, s, a, hp, hs, rfl⟩
      have hop : about op = home i := by
        have hwithin := hhome i
        rw [hp] at hwithin
        exact hwithin.1
      refine ⟨?_, fun j hj => ?_⟩
      · rw [h.dev]
        exact (hd.elsewhere w.dev i op s a k hs (fun hk => hik (hop.symm.trans hk.symm))).symm
      · have hji : j ≠ i := fun hji => hik (hji ▸ hj)
        rw [h.prog j hj]
        exact (Function.update_of_ne hji _ _).symm
  | env e =>
      have hek : aboutEnv e ≠ k := by simpa [eventOf] using he
      rcases partyStep_env.mp hstep with ⟨s, hs, rfl⟩
      exact ⟨h.dev.trans (hd.unchanged w.dev e s k hs (Ne.symm hek)).symm, h.prog⟩

/-- A step of the part itself can be taken in both, or in neither. -/
theorem AgreesOn.own (hd : Parted part about aboutEnv serve env serveIn envIn)
    (hhome : AtHome home about w) (h : AgreesOn home part k w v)
    (he : eventOf home aboutEnv k e = true) :
    (∀ w', partyStep serve env w e = some w' →
      ∃ v', partyStep (serveIn k) (envIn k) v e = some v' ∧ AgreesOn home part k w' v') ∧
    (∀ v', partyStep (serveIn k) (envIn k) v e = some v' →
      ∃ w', partyStep serve env w e = some w') := by
  cases e with
  | step i =>
      obtain rfl : home i = k := by simpa [eventOf] using he
      have hprog := h.prog i rfl
      have hwithin := hhome i
      constructor
      · intro w' hstep
        rcases partyStep_step.mp hstep with ⟨op, f, s, a, hp, hs, rfl⟩
        rw [hp] at hwithin hprog
        have hserved := hd.served w.dev i op
        rw [hs, hwithin.1] at hserved
        refine ⟨⟨part s (home i), Function.update v.prog i (f a)⟩, ?_, rfl, fun j hj => ?_⟩
        · exact partyStep_step.mpr ⟨op, f, _, a, hprog, by rw [h.dev]; exact hserved.symm, rfl⟩
        · by_cases hji : j = i
          · subst hji
            simp
          · simpa [Function.update_of_ne hji] using h.prog j hj
      · intro v' hstep
        rcases partyStep_step.mp hstep with ⟨op, f, t, a, hp, hs, rfl⟩
        rw [hprog] at hp
        rw [hp] at hwithin
        have hserved := hd.served w.dev i op
        rw [hwithin.1, ← h.dev, hs, Option.map_eq_some_iff] at hserved
        rcases hserved with ⟨⟨s, x⟩, hserve, -⟩
        exact ⟨_, partyStep_step.mpr ⟨op, f, s, x, hp, hserve, rfl⟩⟩
  | env e =>
      obtain rfl : aboutEnv e = k := by simpa [eventOf] using he
      have hchanged := hd.changed w.dev e
      constructor
      · intro w' hstep
        rcases partyStep_env.mp hstep with ⟨s, hs, rfl⟩
        rw [hs] at hchanged
        refine ⟨⟨part s (aboutEnv e), v.prog⟩, ?_, rfl, h.prog⟩
        exact partyStep_env.mpr ⟨_, by rw [h.dev]; exact hchanged.symm, rfl⟩
      · intro v' hstep
        rcases partyStep_env.mp hstep with ⟨t, ht, rfl⟩
        rw [← h.dev, ht, Option.map_eq_some_iff] at hchanged
        rcases hchanged with ⟨s, hs, -⟩
        exact ⟨_, partyStep_env.mpr ⟨s, hs, rfl⟩⟩

omit [DecidableEq ι] in
/-- Every event is one of some part. -/
theorem exists_eventOf (home : ι → κ) (aboutEnv : Env → κ) (e : PartyEvent ι Env) :
    ∃ k, eventOf home aboutEnv k e = true := by
  cases e with
  | step i => exact ⟨home i, decide_eq_true rfl⟩
  | env e => exact ⟨aboutEnv e, decide_eq_true rfl⟩

/-- A run of the whole is a run of each part. -/
theorem parts_agree (hd : Parted part about aboutEnv serve env serveIn envIn)
    {es : List (PartyEvent ι Env)} (hhome : AtHome home about w) (h : AgreesOn home part k w v)
    (hrun : run (partyStep serve env) w es = some w') :
    ∃ v', run (partyStep (serveIn k) (envIn k)) v (es.filter (eventOf home aboutEnv k)) = some v' ∧
      AgreesOn home part k w' v' := by
  induction es generalizing w v with
  | nil =>
      cases hrun
      exact ⟨v, rfl, h⟩
  | cons e es ih =>
      rw [run_cons, Option.bind_eq_some_iff] at hrun
      rcases hrun with ⟨u, hu, hrest⟩
      have hhome' := hhome.step hu
      cases he : eventOf home aboutEnv k e with
      | false =>
          rw [List.filter_cons_of_neg (by simp [he])]
          exact ih hhome' (h.other hd hhome he hu) hrest
      | true =>
          rcases (h.own hd hhome he).1 u hu with ⟨u', hu', h'⟩
          rcases ih hhome' h' hrest with ⟨v', hv', hagree⟩
          rw [List.filter_cons_of_pos he, run_cons, hu', Option.bind_some]
          exact ⟨v', hv', hagree⟩

/-- **The parts are independent**: the events can happen exactly if those of each part can happen
in that part alone. -/
theorem parts_run_iff (hd : Parted part about aboutEnv serve env serveIn envIn)
    {es : List (PartyEvent ι Env)} (hhome : AtHome home about w) {v : κ → Parties τ ι Op Ans α}
    (h : ∀ k, AgreesOn home part k w (v k)) :
    (∃ w', run (partyStep serve env) w es = some w') ↔
      ∀ k, ∃ v', run (partyStep (serveIn k) (envIn k)) (v k)
        (es.filter (eventOf home aboutEnv k)) = some v' := by
  constructor
  · rintro ⟨w', hrun⟩ k
    rcases parts_agree hd hhome (h k) hrun with ⟨v', hv', -⟩
    exact ⟨v', hv'⟩
  · intro hparts
    induction es generalizing w v with
    | nil => exact ⟨w, rfl⟩
    | cons e es ih =>
        rcases exists_eventOf home aboutEnv e with ⟨k, hk⟩
        rcases hparts k with ⟨v', hv'⟩
        rw [List.filter_cons_of_pos hk, run_cons, Option.bind_eq_some_iff] at hv'
        rcases hv' with ⟨u', hu', -⟩
        rcases ((h k).own hd hhome hk).2 u' hu' with ⟨u, hu⟩
        -- the other parts stay, and each part that has a step takes it
        have hnext : ∀ j, ∃ v'', AgreesOn home part j u v'' ∧
            ∃ v', run (partyStep (serveIn j) (envIn j)) v''
              (es.filter (eventOf home aboutEnv j)) = some v' := by
          intro j
          rcases hparts j with ⟨v', hv'⟩
          cases hj : eventOf home aboutEnv j e with
          | false =>
              rw [List.filter_cons_of_neg (by simp [hj])] at hv'
              exact ⟨v j, (h j).other hd hhome hj hu, v', hv'⟩
          | true =>
              rcases ((h j).own hd hhome hj).1 u hu with ⟨v'', hv'', hagree⟩
              rw [List.filter_cons_of_pos hj, run_cons, hv'', Option.bind_some] at hv'
              exact ⟨v'', hagree, v', hv'⟩
        choose v'' hagree hrest using hnext
        rcases ih (hhome.step hu) hagree hrest with ⟨w', hw'⟩
        exact ⟨w', by rw [run_cons, hu, Option.bind_some]; exact hw'⟩

end

end LinuxDrivers.Lib
