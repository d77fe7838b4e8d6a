import LinuxDrivers.Lib.Lock
import Mathlib.Order.Monotone.Basic

set_option autoImplicit false

/-! # Calls under a lock come one after the other

Every party makes the calls of a list. A call takes the lock, does what its `body` does on the data,
request after request, and gives the lock back.

In whatever order the parties take their steps, the calls are as good as made at once, in the order
in which they get the lock (`serialized_run`): a party that is through with its calls has the
answers that it gets in that order, and whenever nobody has the lock the data is what the calls
leave. -/

namespace LinuxDrivers.Lib

variable {τ ι Call Env Op Ans α β : Type}

namespace Prog

/-- Run a program alone to its end. -/
def alone (serve : τ → Op → τ × Ans) : Prog Op Ans α → τ → α × τ
  | .ret a, s => (a, s)
  | .call op k, s => (k (serve s op).2).alone serve (serve s op).1

/-- The same requests, by a party that has the lock. -/
def inLock (f : α → Prog (LockOp Op) Ans β) : Prog Op Ans α → Prog (LockOp Op) Ans β
  | .ret a => f a
  | .call op k => .call (.op op) (fun x => (k x).inLock f)

/-- What a program meets alone is what it does alone. -/
theorem Meets.alone_eq {serve : τ → Op → τ × Ans} {Q : α → τ → Prop} :
    ∀ {p : Prog Op Ans α} {s : τ}, Meets serve Eq Q p s →
      Q (p.alone serve s).1 (p.alone serve s).2
  | .ret _, _, h => h
  | .call _ _, s, h => (h s rfl).alone_eq

theorem alone_bind (serve : τ → Op → τ × Ans) (f : α → Prog Op Ans β) :
    ∀ (p : Prog Op Ans α) (s : τ),
      (p >>= f).alone serve s = (f (p.alone serve s).1).alone serve (p.alone serve s).2
  | .ret _, _ => rfl
  | .call _ k, _ => alone_bind serve f (k _) _

/-- The first request alone. -/
theorem alone_send {serve : τ → Op → τ × Ans} {s t : τ} {op : Op} {a : Ans}
    (h : serve s op = (t, a)) (f : Ans → Prog Op Ans β) :
    (send op >>= f).alone serve s = (f a).alone serve t := by
  change (f (serve s op).2).alone serve (serve s op).1 = _
  rw [h]

end Prog

section

variable (serve : τ → Op → τ × Ans) (ack : Ans) (body : Call → Prog Op Ans α)

/-- The end of a call, and the calls that are left. -/
def callsInLock : List Call → List α → Prog (LockOp Op) Ans (List α)
  | [], answers => .ret answers
  | c :: cs, answers =>
      .call .lock fun _ =>
        (body c).inLock fun a => .call .unlock fun _ => callsInLock cs (answers ++ [a])

/-- The calls, made at once one after the other: their answers, and the data. -/
def serial (s : τ) (order : List (ι × Call)) : List (ι × α) × τ :=
  order.foldl (fun r c => (r.1 ++ [(c.1, ((body c.2).alone serve r.2).1)],
    ((body c.2).alone serve r.2).2)) ([], s)

end

section

variable [DecidableEq ι]

/-- What is of party `i`. -/
def ofParty (i : ι) (l : List (ι × β)) : List β := (l.filter fun x => decide (x.1 = i)).map (·.2)

theorem ofParty_concat_self (i : ι) (l : List (ι × β)) (b : β) :
    ofParty i (l ++ [(i, b)]) = ofParty i l ++ [b] := by
  simp [ofParty]

theorem ofParty_concat_ne {i j : ι} (h : j ≠ i) (l : List (ι × β)) (b : β) :
    ofParty i (l ++ [(j, b)]) = ofParty i l := by
  simp [ofParty, h]

theorem mem_ofParty {i : ι} {b : β} {l : List (ι × β)} (h : (i, b) ∈ l) : b ∈ ofParty i l :=
  List.mem_map.mpr ⟨(i, b), List.mem_filter.mpr ⟨h, decide_eq_true rfl⟩, rfl⟩

variable {serve : τ → Op → τ × Ans} {ack : Ans} {body : Call → Prog Op Ans α} {s₀ : τ}
  {calls : ι → List Call} {order : List (ι × Call)}
  {w v : Parties (Locked τ ι) ι (LockOp Op) Ans (List α)}

omit [DecidableEq ι] in
theorem serial_concat (s : τ) (order : List (ι × Call)) (i : ι) (c : Call) :
    serial serve body s (order ++ [(i, c)]) =
      ((serial serve body s order).1 ++
        [(i, ((body c).alone serve (serial serve body s order).2).1)],
        ((body c).alone serve (serial serve body s order).2).2) := by
  simp [serial]

omit [DecidableEq ι] in
/-- Every call has its answer. -/
theorem serial_parties (s : τ) (order : List (ι × Call)) :
    (serial serve body s order).1.map Prod.fst = order.map Prod.fst := by
  induction order using List.reverseRecOn with
  | nil => rfl
  | append_singleton order x ih =>
      rcases x with ⟨i, c⟩
      rw [serial_concat, List.map_append, List.map_append, ih]
      rfl

/-- Every party before its first call. -/
def serialStart (body : Call → Prog Op Ans α) (s₀ : τ) (calls : ι → List Call) :
    Parties (Locked τ ι) ι (LockOp Op) Ans (List α) :=
  ⟨⟨s₀, none⟩, fun i => callsInLock body (calls i) []⟩

/-- Party `i` has not got the lock: it is between two of its calls. -/
def Between (serve : τ → Op → τ × Ans) (body : Call → Prog Op Ans α) (s₀ : τ)
    (calls : ι → List Call) (order : List (ι × Call))
    (w : Parties (Locked τ ι) ι (LockOp Op) Ans (List α)) (i : ι) : Prop :=
  ∃ cs, calls i = ofParty i order ++ cs ∧
    w.prog i = callsInLock body cs (ofParty i (serial serve body s₀ order).1)

/-- Party `i` has the lock: it is in the last call of the order, and what is left of this call does
what the whole call does on the data that the calls before have left. -/
def Inside (serve : τ → Op → τ × Ans) (body : Call → Prog Op Ans α) (s₀ : τ)
    (calls : ι → List Call) (order : List (ι × Call))
    (w : Parties (Locked τ ι) ι (LockOp Op) Ans (List α)) (i : ι) : Prop :=
  ∃ before c cs p, order = before ++ [(i, c)] ∧ calls i = ofParty i order ++ cs ∧
    w.prog i = Prog.inLock (fun a => .call .unlock fun _ =>
      callsInLock body cs (ofParty i (serial serve body s₀ before).1 ++ [a])) p ∧
    p.alone serve w.dev.data = (body c).alone serve (serial serve body s₀ before).2

/-- The calls of `order` have got the lock, in this order. -/
structure Serialized (serve : τ → Op → τ × Ans) (body : Call → Prog Op Ans α) (s₀ : τ)
    (calls : ι → List Call) (order : List (ι × Call))
    (w : Parties (Locked τ ι) ι (LockOp Op) Ans (List α)) : Prop where
  free : w.dev.holder = none → w.dev.data = (serial serve body s₀ order).2
  between : ∀ i, w.dev.holder ≠ some i → Between serve body s₀ calls order w i
  inside : ∀ i, w.dev.holder = some i → Inside serve body s₀ calls order w i

/-- The calls that are not in the order are still to be made. -/
theorem Serialized.remaining (h : Serialized serve body s₀ calls order w) (i : ι) :
    ∃ cs, calls i = ofParty i order ++ cs := by
  by_cases hheld : w.dev.holder = some i
  · rcases h.inside i hheld with ⟨_, _, cs, _, _, hcalls, _⟩
    exact ⟨cs, hcalls⟩
  · rcases h.between i hheld with ⟨cs, hcalls, _⟩
    exact ⟨cs, hcalls⟩

/-- The order has only calls of the parties. -/
theorem Serialized.mem_calls (h : Serialized serve body s₀ calls order w) {i : ι} {c : Call}
    (hmem : (i, c) ∈ order) : c ∈ calls i := by
  rcases h.remaining i with ⟨cs, hcs⟩
  rw [hcs]
  exact List.mem_append_left _ (mem_ofParty hmem)

theorem serialized_start : Serialized serve body s₀ calls [] (serialStart body s₀ calls) where
  free _ := rfl
  between i _ := ⟨calls i, rfl, rfl⟩
  inside i h := by cases h

/-- A call of another party changes nothing between two calls. -/
theorem Between.concat {i j : ι} {c : Call} (hij : j ≠ i)
    (h : Between serve body s₀ calls order w i) (hprog : v.prog i = w.prog i) :
    Between serve body s₀ calls (order ++ [(j, c)]) v i := by
  rcases h with ⟨cs, hcalls, hp⟩
  refine ⟨cs, by rw [ofParty_concat_ne hij, hcalls], ?_⟩
  rw [hprog, hp, serial_concat, ofParty_concat_ne hij]

theorem Between.congr {i : ι} (h : Between serve body s₀ calls order w i)
    (hprog : v.prog i = w.prog i) : Between serve body s₀ calls order v i := by
  rcases h with ⟨cs, hcalls, hp⟩
  exact ⟨cs, hcalls, hprog.trans hp⟩

/-- A step of any party, the device having no events of its own. -/
def serialStep (serve : τ → Op → τ × Ans) (ack : Ans) :
    Parties (Locked τ ι) ι (LockOp Op) Ans α → PartyEvent ι Empty →
      Option (Parties (Locked τ ι) ι (LockOp Op) Ans α) :=
  partyStep (lockServe (fun _ => serve) ack) (fun _ e => e.elim)

/-- The next call gets the lock. -/
theorem Serialized.lock (h : Serialized serve body s₀ calls order w) {i : ι} {c : Call}
    {cs : List Call} (hfree : w.dev.holder = none) (hcalls : calls i = ofParty i order ++ c :: cs) :
    Serialized serve body s₀ calls (order ++ [(i, c)])
      ⟨⟨w.dev.data, some i⟩, Function.update w.prog i (Prog.inLock (fun a => .call .unlock fun _ =>
        callsInLock body cs (ofParty i (serial serve body s₀ order).1 ++ [a])) (body c))⟩ := by
  refine ⟨nofun, fun j hj => ?_, fun j hj => ?_⟩
  · have hij : i ≠ j := fun heq => hj (by rw [heq])
    have hnot : w.dev.holder ≠ some j := by
      rw [hfree]
      exact nofun
    exact (h.between j hnot).concat hij (Function.update_of_ne hij.symm _ _)
  · obtain rfl : i = j := Option.some.inj hj
    refine ⟨order, c, cs, body c, rfl, ?_, Function.update_self _ _ _, ?_⟩
    · rw [ofParty_concat_self, hcalls, List.append_assoc]
      rfl
    · rw [← h.free hfree]

/-- A request of the call that has the lock. -/
theorem Serialized.request (h : Serialized serve body s₀ calls order w) {i : ι}
    (hheld : w.dev.holder = some i) {before : List (ι × Call)} {c : Call} {cs : List Call} {op : Op}
    {k : Ans → Prog Op Ans α} (horder : order = before ++ [(i, c)])
    (hcalls : calls i = ofParty i order ++ cs)
    (halone : (Prog.call op k).alone serve w.dev.data
      = (body c).alone serve (serial serve body s₀ before).2) :
    Serialized serve body s₀ calls order
      ⟨⟨(serve w.dev.data op).1, w.dev.holder⟩, Function.update w.prog i
        ((k (serve w.dev.data op).2).inLock (fun a => .call .unlock fun _ =>
          callsInLock body cs (ofParty i (serial serve body s₀ before).1 ++ [a])))⟩ := by
  refine ⟨fun hfree => ?_, fun j hj => ?_, fun j hj => ?_⟩
  · change w.dev.holder = none at hfree
    rw [hheld] at hfree
    cases hfree
  · have hij : i ≠ j := by
      rintro rfl
      exact hj hheld
    exact (h.between j hj).congr (Function.update_of_ne hij.symm _ _)
  · obtain rfl : i = j := Option.some.inj (hheld.symm.trans hj)
    exact ⟨before, c, cs, _, horder, hcalls, Function.update_self _ _ _, halone⟩

/-- The call is over. -/
theorem Serialized.unlock (h : Serialized serve body s₀ calls order w) {i : ι}
    (hheld : w.dev.holder = some i) {before : List (ι × Call)} {c : Call} {cs : List Call} {a : α}
    (horder : order = before ++ [(i, c)]) (hcalls : calls i = ofParty i order ++ cs)
    (halone : (Prog.ret a).alone serve w.dev.data
      = (body c).alone serve (serial serve body s₀ before).2) :
    Serialized serve body s₀ calls order
      ⟨⟨w.dev.data, none⟩, Function.update w.prog i
        (callsInLock body cs (ofParty i (serial serve body s₀ before).1 ++ [a]))⟩ := by
  have hserial : serial serve body s₀ order
      = ((serial serve body s₀ before).1 ++ [(i, a)], w.dev.data) := by
    rw [horder, serial_concat, ← halone]
    rfl
  refine ⟨fun _ => by rw [hserial], fun j _ => ?_, nofun⟩
  by_cases hij : j = i
  · subst hij
    refine ⟨cs, hcalls, ?_⟩
    rw [hserial, ofParty_concat_self]
    exact Function.update_self _ _ _
  · have hnot : w.dev.holder ≠ some j := fun heq => hij (Option.some.inj (heq.symm.trans hheld))
    exact (h.between j hnot).congr (Function.update_of_ne hij _ _)

theorem Serialized.step (h : Serialized serve body s₀ calls order w) {e : PartyEvent ι Empty}
    (hstep : serialStep serve ack w e = some v) :
    ∃ tail, Serialized serve body s₀ calls (order ++ tail) v := by
  cases e with
  | env e => exact e.elim
  | step i =>
      rcases partyStep_step.mp hstep with ⟨op, k, s, x, hp, hs, rfl⟩
      by_cases hheld : w.dev.holder = some i
      · refine ⟨[], ?_⟩
        rw [List.append_nil]
        rcases h.inside i hheld with ⟨before, c, cs, p, horder, hcalls, hprog, halone⟩
        rw [hprog] at hp
        cases p with
        | ret a =>
            cases hp
            cases hs
            exact h.unlock hheld horder hcalls halone
        | call op' k' =>
            cases hp
            cases hs
            exact h.request hheld horder hcalls halone
      · rcases h.between i hheld with ⟨cs, hcalls, hprog⟩
        rw [hprog] at hp
        cases cs with
        | nil => cases hp
        | cons c cs =>
            cases hp
            cases hfree : w.dev.holder with
            | some j =>
                simp only [lockServe, hfree] at hs
                cases hs
            | none =>
                simp only [lockServe, hfree] at hs
                cases hs
                exact ⟨[(i, c)], h.lock hfree hcalls⟩

/-- One order for the run so far, and how many of its calls have got the lock after each number of
events. -/
structure OrderFor (serve : τ → Op → τ × Ans) (ack : Ans) (body : Call → Prog Op Ans α) (s₀ : τ)
    (calls : ι → List Call) (es : List (PartyEvent ι Empty)) (order : List (ι × Call))
    (n : Nat → Nat) : Prop where
  mono : Monotone n
  le : ∀ m, n m ≤ order.length
  last : n es.length = order.length
  serialized : ∀ pre post v, es = pre ++ post →
    run (serialStep serve ack) (serialStart body s₀ calls) pre = some v →
    Serialized serve body s₀ calls (order.take (n pre.length)) v

/-- The counts after one more event. -/
def countsThen (n : Nat → Nat) (len total m : Nat) : Nat := if m ≤ len then n m else total

theorem OrderFor.step {es : List (PartyEvent ι Empty)} {e : PartyEvent ι Empty} {n : Nat → Nat}
    (h : OrderFor serve ack body s₀ calls es order n)
    (hrun : run (serialStep serve ack) (serialStart body s₀ calls) es = some w)
    (hstep : serialStep serve ack w e = some v) :
    ∃ order' n', OrderFor serve ack body s₀ calls (es ++ [e]) order' n' := by
  have hlast := h.serialized es [] w (List.append_nil es).symm hrun
  rw [h.last, List.take_length] at hlast
  rcases hlast.step hstep with ⟨tail, htail⟩
  refine ⟨order ++ tail, countsThen n es.length (order ++ tail).length, ?_, ?_, ?_, ?_⟩
  · intro a b hab
    have hle := h.le a
    have hmono := h.mono hab
    unfold countsThen
    rw [List.length_append]
    split_ifs <;> omega
  · intro m
    have hle := h.le m
    unfold countsThen
    rw [List.length_append]
    split_ifs <;> omega
  · rw [countsThen, if_neg (by simp)]
  · intro pre post u hes hu
    rcases List.eq_nil_or_concat post with rfl | ⟨post', f, rfl⟩
    · rw [List.append_nil] at hes
      rw [← hes, run_concat] at hu
      rcases hu with ⟨w', hw', hstep'⟩
      obtain rfl : w = w' := Option.some.inj (hrun.symm.trans hw')
      obtain rfl : v = u := Option.some.inj (hstep.symm.trans hstep')
      rw [← hes, countsThen, if_neg (by simp), List.take_length]
      exact htail
    · rw [List.concat_eq_append, ← List.append_assoc] at hes
      rcases List.append_inj' hes rfl with ⟨hes', -⟩
      have hle : pre.length ≤ es.length := by
        rw [hes', List.length_append]
        omega
      rw [countsThen, if_pos hle, List.take_append_of_le_length (h.le _)]
      exact h.serialized pre post' u hes' hu

/-- **Every run is as good as one call after the other.** There is one order for the whole run: at
each moment the calls that have got the lock are the first `n` of it, as many as have got it in the
events so far. -/
theorem serialized_run {es : List (PartyEvent ι Empty)}
    (hrun : run (serialStep serve ack) (serialStart body s₀ calls) es = some w) :
    ∃ (order : List (ι × Call)) (n : Nat → Nat), Monotone n ∧
      ∀ pre post v, es = pre ++ post →
        run (serialStep serve ack) (serialStart body s₀ calls) pre = some v →
        Serialized serve body s₀ calls (order.take (n pre.length)) v := by
  have hstart : OrderFor serve ack body s₀ calls [] [] (fun _ => 0) := by
    refine ⟨monotone_const, fun _ => le_rfl, rfl, fun pre post v hes hv => ?_⟩
    obtain ⟨rfl, -⟩ := List.append_eq_nil_iff.mp hes.symm
    obtain rfl := Option.some.inj hv
    exact serialized_start
  have hall : ∃ order n, OrderFor serve ack body s₀ calls es order n := by
    refine run_induct_all (I := fun es _ => ∃ order n, OrderFor serve ack body s₀ calls es order n)
      ⟨[], _, hstart⟩ ?_ es w hrun
    rintro es u e v hu ⟨order, n, h⟩ hstep
    exact h.step hu hstep
  rcases hall with ⟨order, n, h⟩
  exact ⟨order, n, h.mono, h.serialized⟩

end

end LinuxDrivers.Lib
