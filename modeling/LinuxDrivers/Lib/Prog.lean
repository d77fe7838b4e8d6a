import LinuxDrivers.Lib.Run

set_option autoImplicit false

/-! # Programs that talk to a device

A `Prog` is a tree of requests: it either returns, or sends one request and continues with
the answer. A device answers a request with `serve : σ → Op → σ × Ans`. Between two requests
the device may change by itself; `rely` bounds these changes.

* `Prog.Meets Q p s`: whatever happens between the requests, `p` started in `s` ends in a
  state and with a value that meet `Q`. `Meets.mono`, `Meets.stable`, `Meets.always`,
  `Meets.outcome`, `Meets.and`, `Meets.bind`, `Meets.lift` and `Meets.discard` are its rules.
* `exec`: the program alone with a device that may fail; `requests` are the requests it makes.
* `Prog.Passes I Q p s`: alone, `p` comes only through states that meet `I` and ends with `Q`.
* `User`: one user who makes calls one after the other, the device changing at any moment.
  `user_induct` lifts a specification of each call, given as `Meets`, to all runs.
-/

namespace LinuxDrivers.Lib

/-- A program: return, or send a request and continue with the answer. -/
inductive Prog (Op Ans : Type) (α : Type) : Type where
  | ret (a : α)
  | call (op : Op) (k : Ans → Prog Op Ans α)

namespace Prog

variable {Op Ans α β : Type}

def bind : Prog Op Ans α → (α → Prog Op Ans β) → Prog Op Ans β
  | .ret a, f => f a
  | .call op k, f => .call op (fun x => (k x).bind f)

/-- Send one request and return the answer. -/
def send (op : Op) : Prog Op Ans Ans := .call op .ret

instance : Monad (Prog Op Ans) where
  pure := .ret
  bind := bind

@[simp] theorem pure_eq (a : α) : (pure a : Prog Op Ans α) = .ret a := rfl

@[simp] theorem ret_bind (a : α) (f : α → Prog Op Ans β) : (.ret a >>= f) = f a := rfl

@[simp] theorem call_bind (op : Op) (k : Ans → Prog Op Ans α) (f : α → Prog Op Ans β) :
    (Prog.call op k >>= f) = .call op (fun x => k x >>= f) := rfl

@[simp] theorem send_bind (op : Op) (f : Ans → Prog Op Ans β) :
    (send op >>= f) = .call op f := rfl

theorem bind_assoc {γ : Type} (f : α → Prog Op Ans β) (g : β → Prog Op Ans γ) :
    ∀ p : Prog Op Ans α, ((p >>= f) >>= g) = (p >>= fun a => f a >>= g)
  | .ret _ => rfl
  | .call op k => congrArg (Prog.call op) (funext fun x => bind_assoc f g (k x))

/-! ## Alone with the device -/

section

variable {σ ε : Type} (serve : σ → Op → Except ε (σ × Ans))

/-- Run a program to its end, or to the first request that fails. -/
def exec : Prog Op Ans α → σ → Except ε (α × σ)
  | .ret a, s => .ok (a, s)
  | .call op k, s =>
      match serve s op with
      | .error f => .error f
      | .ok (t, x) => (k x).exec t

/-- The requests that a program makes alone, up to the one that fails. -/
def requests : Prog Op Ans α → σ → List Op
  | .ret _, _ => []
  | .call op k, s =>
      op ::
        match serve s op with
        | .error _ => []
        | .ok (t, x) => (k x).requests t

variable {serve} {s t : σ}

@[simp] theorem exec_ret (a : α) : exec serve (.ret a) s = .ok (a, s) := rfl

theorem exec_call {op : Op} {k : Ans → Prog Op Ans α} {x : Ans} (h : serve s op = .ok (t, x)) :
    exec serve (.call op k) s = exec serve (k x) t := by
  rw [exec, h]

theorem exec_bind {p : Prog Op Ans α} {a : α} (f : α → Prog Op Ans β)
    (h : exec serve p s = .ok (a, t)) : exec serve (p >>= f) s = exec serve (f a) t := by
  induction p generalizing s with
  | ret b =>
      rcases Prod.mk.inj (Except.ok.inj h) with ⟨rfl, rfl⟩
      rfl
  | call op k ih =>
      rw [exec] at h
      rw [call_bind, exec]
      cases hs : serve s op with
      | error e =>
          rw [hs] at h
          cases h
      | ok r =>
          rw [hs] at h
          exact ih r.2 h

end

/-! ## On a state of its own -/

section

variable {σ : Type} (serve : σ → Op → σ × Ans)

/-- Alone, the program comes only through states that meet `I`, and ends with a value and in a state
that meet `Q`. -/
def Passes (I : σ → Prop) (Q : α → σ → Prop) : Prog Op Ans α → σ → Prop
  | .ret a, s => I s ∧ Q a s
  | .call op k, s => I s ∧ Passes I Q (k (serve s op).2) (serve s op).1

variable {serve} {I : σ → Prop} {Q : α → σ → Prop}

theorem Passes.here {p : Prog Op Ans α} {s : σ} (h : Passes serve I Q p s) : I s := by
  cases p with
  | ret a => exact h.1
  | call op k => exact h.1

end

/-! ## Specifications under interference -/

section

variable {σ : Type} (serve : σ → Op → σ × Ans) (rely : σ → σ → Prop)

/-- However the device changes before each request, as far as `rely` allows, the program ends
with a value and in a state that meet `Q`. -/
def Meets (Q : α → σ → Prop) : Prog Op Ans α → σ → Prop
  | .ret a, s => Q a s
  | .call op k, s => ∀ t, rely s t → Meets Q (k (serve t op).2) (serve t op).1

variable {serve rely} {Q Q' : α → σ → Prop}

theorem Meets.mono (h : ∀ a s, Q a s → Q' a s) :
    ∀ {p : Prog Op Ans α} {s : σ}, Meets serve rely Q p s → Meets serve rely Q' p s
  | .ret _, _, hp => h _ _ hp
  | .call _ _, _, hp => fun t ht => (hp t ht).mono h

/-- A change of the device before the next request is harmless. -/
theorem Meets.stable (htrans : ∀ s t u, rely s t → rely t u → rely s u)
    {p : Prog Op Ans α} {s t : σ} (hne : ∀ a, p ≠ .ret a) (hp : Meets serve rely Q p s)
    (hst : rely s t) : Meets serve rely Q p t := by
  cases p with
  | ret a => exact absurd rfl (hne a)
  | call op k => exact fun u hu => hp u (htrans _ _ _ hst hu)

/-- What every request and every change of the device keeps, every program keeps. -/
theorem Meets.always {I : σ → Prop} (hserve : ∀ s op, I s → I (serve s op).1)
    (hrely : ∀ s t, I s → rely s t → I t) :
    ∀ (p : Prog Op Ans α) {s : σ}, I s → Meets serve rely (fun _ => I) p s
  | .ret _, _, hs => hs
  | .call op k, s, hs => fun t ht => Meets.always hserve hrely (k _) (hserve t op (hrely s t hs ht))

/-- A program is finite, so it has an outcome. -/
theorem Meets.outcome (hrefl : ∀ s, rely s s) :
    ∀ {p : Prog Op Ans α} {s : σ}, Meets serve rely Q p s → ∃ a t, Q a t
  | .ret a, s, hp => ⟨a, s, hp⟩
  | .call _ _, s, hp => (hp s (hrefl s)).outcome hrefl

/-- Two specifications of one program. -/
theorem Meets.and : ∀ {p : Prog Op Ans α} {s : σ}, Meets serve rely Q p s →
    Meets serve rely Q' p s → Meets serve rely (fun a s => Q a s ∧ Q' a s) p s
  | .ret _, _, hp, hp' => ⟨hp, hp'⟩
  | .call _ _, _, hp, hp' => fun t ht => (hp t ht).and (hp' t ht)

/-- A second program after the first. -/
theorem Meets.bind {R : β → σ → Prop} {f : α → Prog Op Ans β} : ∀ {p : Prog Op Ans α} {s : σ},
    Meets serve rely (fun a s => Meets serve rely R (f a) s) p s → Meets serve rely R (p >>= f) s
  | .ret _, _, hp => hp
  | .call _ _, _, hp => fun t ht => (hp t ht).bind

/-- A device with more to it than `serve` knows, `view` being what it knows. -/
theorem Meets.lift {τ : Type} {serve' : τ → Op → τ × Ans} {rely' : τ → τ → Prop} (view : τ → σ)
    (hserve : ∀ s op, serve (view s) op = (view (serve' s op).1, (serve' s op).2))
    (hrely : ∀ s t, rely' s t → rely (view s) (view t)) :
    ∀ {p : Prog Op Ans α} {s : τ}, Meets serve rely Q p (view s) →
      Meets serve' rely' (fun a s => Q a (view s)) p s
  | .ret _, _, hp => hp
  | .call op _, s, hp => fun t ht => by
      have hnext := hp (view t) (hrely s t ht)
      rw [hserve] at hnext
      exact hnext.lift view hserve hrely

/-- The value returned may be replaced by another one. -/
theorem Meets.discard {R : σ → Prop} (f : α → β) :
    ∀ {p : Prog Op Ans α} {s : σ}, Meets serve rely (fun _ => R) p s →
      Meets serve rely (fun _ => R) (p >>= fun a => .ret (f a)) s
  | .ret _, _, hp => hp
  | .call _ _, _, hp => fun t ht => (hp t ht).discard f

end

/-! ## Invariants under a guard -/

section

variable {σ : Type} (serve : σ → Op → σ × Ans) (rely : σ → σ → Prop) (G : σ → Op → Prop)
  (I : σ → Prop)

/-- However the device changes before each request, as long as every request finds it in a
state that meets `G`, the program comes only through states that meet `I`. -/
def Keeps : Prog Op Ans α → σ → Prop
  | .ret _, s => I s
  | .call op k, s => I s ∧ ∀ t, rely s t → G t op → Keeps (k (serve t op).2) (serve t op).1

variable {serve rely G I}

theorem Keeps.here {p : Prog Op Ans α} {s : σ} (h : Keeps serve rely G I p s) : I s := by
  cases p with
  | ret a => exact h
  | call op k => exact h.1

theorem Keeps.stable (htrans : ∀ s t u, rely s t → rely t u → rely s u)
    (hI : ∀ s t, I s → rely s t → I t) {p : Prog Op Ans α} {s t : σ}
    (hp : Keeps serve rely G I p s) (hst : rely s t) : Keeps serve rely G I p t := by
  cases p with
  | ret a => exact hI s t hp hst
  | call op k => exact ⟨hI s t hp.1 hst, fun u hu => hp.2 u (htrans _ _ _ hst hu)⟩

/-- A second program after the first, if it keeps `I` wherever the first one ends. -/
theorem Keeps.bind (f : α → Prog Op Ans β) (hf : ∀ a s, I s → Keeps serve rely G I (f a) s) :
    ∀ {p : Prog Op Ans α} {s : σ}, Keeps serve rely G I p s → Keeps serve rely G I (p >>= f) s
  | .ret a, s, hp => hf a s hp
  | .call _ _, _, hp => ⟨hp.1, fun t ht hG => (hp.2 t ht hG).bind f hf⟩

end

end Prog

/-! ## One user, one call at a time -/

/-- The device, the call in progress with the rest of its program, and the finished calls with
what each returned and the state the device was in at its last request. -/
structure User (σ Call Op Ans α : Type) where
  dev : σ
  cur : Option (Call × Prog Op Ans α)
  done : List (Call × α × σ)

/-- What can happen next: the user starts a call, the device changes, or the next request of
the current call is served. -/
inductive UserEvent (Call Env : Type) where
  | call (c : Call)
  | env (e : Env)
  | serve

section

variable {σ Call Env Op Ans α : Type}

/-- Continue a call: keep it as the current one, or record it once it has returned. -/
def User.settle (u : User σ Call Op Ans α) (c : Call) : Prog Op Ans α → User σ Call Op Ans α
  | .ret a => { u with cur := none, done := u.done ++ [(c, a, u.dev)] }
  | .call op k => { u with cur := some (c, .call op k) }

/-- The user before the first call. -/
def User.start (s : σ) : User σ Call Op Ans α := ⟨s, none, []⟩

/-- The calls that have returned, oldest first. -/
def User.calls (u : User σ Call Op Ans α) : List Call := u.done.map (·.1)

variable (serve : σ → Op → σ × Ans) (env : σ → Env → σ) (prog : Call → Prog Op Ans α)

def userStep (u : User σ Call Op Ans α) : UserEvent Call Env → Option (User σ Call Op Ans α)
  | .call c =>
      match u.cur with
      | none => some (u.settle c (prog c))
      | some _ => none
  | .env e => some { u with dev := env u.dev e }
  | .serve =>
      match u.cur with
      | some (c, .call op k) =>
          some (User.settle { u with dev := (serve u.dev op).1 } c (k (serve u.dev op).2))
      | _ => none

variable {serve env prog} {rely : σ → σ → Prop}
  {J : List (Call × α × σ) → σ → Prop}

/-- The invariant of a user whose calls keep `J` of the finished calls and the device. -/
def UserInv (serve : σ → Op → σ × Ans) (rely : σ → σ → Prop)
    (J : List (Call × α × σ) → σ → Prop) (u : User σ Call Op Ans α) : Prop :=
  match u.cur with
  | none => J u.done u.dev
  | some (c, p) =>
      (∀ a, p ≠ .ret a) ∧ p.Meets serve rely (fun a s => J (u.done ++ [(c, a, s)]) s) u.dev

theorem userInv_settle {u : User σ Call Op Ans α} {c : Call}
    {p : Prog Op Ans α}
    (hp : p.Meets serve rely (fun a s => J (u.done ++ [(c, a, s)]) s) u.dev) :
    UserInv serve rely J (u.settle c p) := by
  cases p with
  | ret a => exact hp
  | call op k => exact ⟨by simp, hp⟩

theorem userInv_step (hrefl : ∀ s, rely s s)
    (htrans : ∀ s t u, rely s t → rely t u → rely s u)
    (henv : ∀ s e, rely s (env s e))
    (hJ : ∀ d s e, J d s → J d (env s e))
    (hprog : ∀ d s c, J d s → (prog c).Meets serve rely (fun a t => J (d ++ [(c, a, t)]) t) s)
    {u v : User σ Call Op Ans α} {e : UserEvent Call Env}
    (hu : UserInv serve rely J u) (hstep : userStep serve env prog u e = some v) :
    UserInv serve rely J v := by
  rcases u with ⟨dev, cur, done⟩
  cases e with
  | call c =>
      cases cur with
      | some _ => simp [userStep] at hstep
      | none =>
          obtain rfl := Option.some.inj hstep
          exact userInv_settle (hprog done dev c hu)
  | env e =>
      obtain rfl := Option.some.inj hstep
      cases cur with
      | none => exact hJ _ _ e hu
      | some cp =>
          -- a change before the next request, which `rely` lets through
          rcases hu with ⟨hne, hmeets⟩
          exact ⟨hne, hmeets.stable htrans hne (henv dev e)⟩
  | serve =>
      match cur, hu with
      | none, _ => simp [userStep] at hstep
      | some (c, .ret a), hu => exact absurd rfl (hu.1 a)
      | some (c, .call op k), hu =>
          -- the device has already changed as far as it will before this request
          obtain rfl := Option.some.inj hstep
          exact userInv_settle (hu.2 dev (hrefl dev))

/-- **The rule for one user.** If every call, started in a state that meets `J`, ends in one
that meets `J` of the calls including this one, then `J` holds after every call of every run,
whatever the device does in between. -/
theorem user_induct (hrefl : ∀ s, rely s s)
    (htrans : ∀ s t u, rely s t → rely t u → rely s u)
    (henv : ∀ s e, rely s (env s e))
    (hJ : ∀ d s e, J d s → J d (env s e))
    (hprog : ∀ d s c, J d s → (prog c).Meets serve rely (fun a t => J (d ++ [(c, a, t)]) t) s)
    {s₀ : σ} (h₀ : J [] s₀) {es : List (UserEvent Call Env)} {u : User σ Call Op Ans α}
    (hrun : run (userStep serve env prog) (User.start s₀) es = some u) :
    UserInv serve rely J u := by
  have hstart : UserInv serve rely J (User.start s₀ : User σ Call Op Ans α) := h₀
  refine run_induct_all (I := fun _ u => UserInv serve rely J u) hstart ?_ es u hrun
  intro _ v e w _ hv hstep
  exact userInv_step hrefl htrans henv hJ hprog hv hstep

/-- The next request of the current call. -/
def User.request (u : User σ Call Op Ans α) : Option Op :=
  match u.cur with
  | some (_, .call op _) => some op
  | _ => none

/-- If the event serves a request, the request finds a device that meets `G`. -/
def RequestMeets (G : σ → Op → Prop) (u : User σ Call Op Ans α) : UserEvent Call Env → Prop
  | .serve => ∀ op ∈ u.request, G u.dev op
  | _ => True

instance (G : σ → Op → Prop) [∀ s op, Decidable (G s op)] (u : User σ Call Op Ans α) :
    ∀ e : UserEvent Call Env, Decidable (RequestMeets G u e)
  | .serve => inferInstanceAs (Decidable (∀ op ∈ u.request, G u.dev op))
  | .call _ | .env _ => inferInstanceAs (Decidable True)

/-- The rest of the current call keeps `I`. -/
def UserKeeps (serve : σ → Op → σ × Ans) (rely : σ → σ → Prop) (G : σ → Op → Prop) (I : σ → Prop)
    (u : User σ Call Op Ans α) : Prop :=
  match u.cur with
  | none => I u.dev
  | some (_, p) => p.Keeps serve rely G I u.dev

variable {G : σ → Op → Prop} {I : σ → Prop} {C : Call → Prop}

theorem UserKeeps.here {u : User σ Call Op Ans α} (h : UserKeeps serve rely G I u) : I u.dev := by
  rcases u with ⟨dev, cur, done⟩
  cases cur with
  | none => exact h
  | some cp => exact Prog.Keeps.here h

theorem userKeeps_settle {u : User σ Call Op Ans α} {c : Call} {p : Prog Op Ans α}
    (hp : p.Keeps serve rely G I u.dev) : UserKeeps serve rely G I (u.settle c p) := by
  cases p with
  | ret a => exact hp
  | call op k => exact hp

theorem userKeeps_step (hrefl : ∀ s, rely s s)
    (htrans : ∀ s t u, rely s t → rely t u → rely s u) (henv : ∀ s e, rely s (env s e))
    (hI : ∀ s t, I s → rely s t → I t)
    (hprog : ∀ s c, C c → I s → (prog c).Keeps serve rely G I s)
    {u v : User σ Call Op Ans α} {e : UserEvent Call Env} (hu : UserKeeps serve rely G I u)
    (hcall : ∀ c, e = .call c → C c) (hG : RequestMeets G u e)
    (hstep : userStep serve env prog u e = some v) : UserKeeps serve rely G I v := by
  rcases u with ⟨dev, cur, done⟩
  cases e with
  | call c =>
      cases cur with
      | some _ => simp [userStep] at hstep
      | none =>
          obtain rfl := Option.some.inj hstep
          exact userKeeps_settle (hprog dev c (hcall c rfl) hu)
  | env e =>
      obtain rfl := Option.some.inj hstep
      cases cur with
      | none => exact hI dev _ hu (henv dev e)
      | some cp => exact Prog.Keeps.stable htrans hI hu (henv dev e)
  | serve =>
      match cur, hu, hG with
      | none, _, _ => simp [userStep] at hstep
      | some (c, .ret a), _, _ => simp [userStep] at hstep
      | some (c, .call op k), hu, hG =>
          obtain rfl := Option.some.inj hstep
          exact userKeeps_settle (hu.2 dev (hrefl dev) (hG op rfl))

/-- **The guarded rule for one user.** If the calls keep `I` as long as every request meets `G`,
then `I` holds in every state of a run whose requests do. -/
theorem user_keeps (hrefl : ∀ s, rely s s) (htrans : ∀ s t u, rely s t → rely t u → rely s u)
    (henv : ∀ s e, rely s (env s e)) (hI : ∀ s t, I s → rely s t → I t)
    (hprog : ∀ s c, C c → I s → (prog c).Keeps serve rely G I s)
    {u₀ : User σ Call Op Ans α} (h₀ : UserKeeps serve rely G I u₀)
    {es : List (UserEvent Call Env)} {u : User σ Call Op Ans α}
    (hcalls : ∀ c, .call c ∈ es → C c)
    (hG : Along (userStep serve env prog) (fun _ => RequestMeets G) u₀ es)
    (hrun : run (userStep serve env prog) u₀ es = some u) : UserKeeps serve rely G I u := by
  have hcall : Along (userStep serve env prog) (fun _ _ e => ∀ c, e = .call c → C c) u₀ es := by
    intro pre e post v hes _ c he
    exact hcalls c (by rw [hes, he]; simp)
  refine run_induct (I := fun _ u => UserKeeps serve rely G I u) h₀ ?_ es u
    (along_and.mpr ⟨hcall, hG⟩) hrun
  intro _ v e w _ hv hboth hstep
  exact userKeeps_step hrefl htrans henv hI hprog hv hboth.1 hboth.2 hstep

end

end LinuxDrivers.Lib
