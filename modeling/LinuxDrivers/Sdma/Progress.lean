import LinuxDrivers.Sdma.Completion
import Mathlib.Data.Fintype.BigOperators

set_option autoImplicit false

/-! # Concurrent writers come to an end

`Completion` is about who is woken by which transfer. Whoever it is, nobody waits for ever: as long
as the device is not opened again and descriptors can be had, a writer that is not finished can go
on or the engine has a descriptor to finish (`LiveInv.enabled`), and there is an end to it
(`writers_finish`).

The invariant counts, as the one of `Completion` does, but without asking that waits return in turn:
the counter and the waits that have returned make up the descriptors that have been finished, and
who has issued its descriptor finds it among the issued ones. -/

namespace LinuxDrivers.Sdma

open Lib

variable {ι : Type} [DecidableEq ι]

/-- A writer or the engine does something. -/
def Quiet : PartyEvent ι DmaEvent → Prop
  | .step _ => True
  | .env .finish => True
  | .env _ => False

instance : ∀ e : PartyEvent ι DmaEvent, Decidable (Quiet e)
  | .step _ | .env .finish => inferInstanceAs (Decidable True)
  | .env .opening | .env (.descriptors _) => inferInstanceAs (Decidable False)

/-- The descriptor has been issued. -/
def Point.Issued : Point → Prop
  | .waitForCompletion | .unmapW | .unmapR | .finished => True
  | _ => False

/-- There is a descriptor for the callback. -/
def Point.Described : Point → Prop
  | .setCallback desc => desc = true
  | _ => True

theorem Point.Passed.issued {pt : Point} (h : pt.Passed) : pt.Issued := by
  cases pt with
  | unmapW | unmapR | finished => trivial
  | _ => exact h.elim

/-- What holds of the engine and the writers in every quiet run. -/
structure LiveInv (e : Engine ι) (pc : ι → Point) : Prop where
  nodup : e.submitted.Nodup
  submitted : ∀ i, i ∈ e.submitted ↔ (pc i).Submitted
  once : e.passed.Nodup
  passed : ∀ i, i ∈ e.passed ↔ (pc i).Passed
  issued : e.issued ≤ e.submitted.length
  finished : e.finished ≤ e.issued
  own : ∀ i, (pc i).Issued → i ∈ e.submitted.take e.issued
  count : e.done + e.passed.length = e.finished
  hasDescriptor : e.hasDescriptor = true
  described : ∀ i, (pc i).Described

variable {e e' : Engine ι} {pc : ι → Point} {i : ι} {pt : Point}

theorem forall_update {P : ι → Point → Prop} (h : ∀ j, P j (pc j)) (hpt : P i pt) :
    ∀ j, P j (Function.update pc i pt j) := by
  intro j
  by_cases hj : j = i
  · subst hj
    rw [Function.update_self]
    exact hpt
  · rw [Function.update_of_ne hj]
    exact h j

/-- A request that neither submits nor issues nor waits. -/
theorem LiveInv.move (h : LiveInv e pc) (hsub : pt.Submitted ↔ (pc i).Submitted)
    (hpass : pt.Passed ↔ (pc i).Passed) (hiss : pt.Issued → (pc i).Issued)
    (hdesc : pt.Described) : LiveInv e (Function.update pc i pt) :=
  { h with
    submitted := iff_update h.submitted hsub
    passed := iff_update h.passed hpass
    own := forall_update (P := fun j pt => pt.Issued → j ∈ e.submitted.take e.issued) h.own
      fun hpt => h.own i (hiss hpt)
    described := forall_update (P := fun _ pt => pt.Described) h.described hdesc }

theorem LiveInv.submit (h : LiveInv e pc) (hi : pc i = .submit) :
    LiveInv { e with submitted := e.submitted ++ [i] }
      (Function.update pc i .issuePending) := by
  have hnot : i ∉ e.submitted := by
    rw [h.submitted i, hi]
    exact id
  refine ⟨?_, iff_update_concat h.submitted trivial, h.once,
    iff_update h.passed (by rw [hi]; rfl), ?_, h.finished, ?_, h.count, h.hasDescriptor, ?_⟩
  · exact List.concat_eq_append ▸ h.nodup.concat hnot
  · show e.issued ≤ (e.submitted ++ [i]).length
    rw [List.length_append]
    exact h.issued.trans (Nat.le_add_right _ _)
  · show ∀ j, (Function.update pc i .issuePending j).Issued → j ∈ (e.submitted ++ [i]).take e.issued
    rw [List.take_append_of_le_length h.issued]
    exact forall_update (P := fun j pt => pt.Issued → j ∈ e.submitted.take e.issued) h.own False.elim
  · exact forall_update (P := fun _ pt => pt.Described) h.described trivial

theorem LiveInv.issuePending (h : LiveInv e pc) (hi : pc i = .issuePending) :
    LiveInv { e with issued := e.submitted.length }
      (Function.update pc i .waitForCompletion) := by
  have hmem : i ∈ e.submitted := by
    rw [h.submitted i, hi]
    trivial
  refine ⟨h.nodup, iff_update h.submitted (by rw [hi]; rfl), h.once,
    iff_update h.passed (by rw [hi]; rfl), Nat.le_refl _, h.finished.trans h.issued, ?_, h.count,
    h.hasDescriptor, ?_⟩
  · show ∀ j, (Function.update pc i .waitForCompletion j).Issued →
      j ∈ e.submitted.take e.submitted.length
    rw [List.take_length]
    exact forall_update (P := fun j pt => pt.Issued → j ∈ e.submitted)
      (fun j hj => List.mem_of_mem_take (h.own j hj)) fun _ => hmem
  · exact forall_update (P := fun _ pt => pt.Described) h.described trivial

/-- Whoever is woken takes one completion away. -/
theorem LiveInv.waitForCompletion (h : LiveInv e pc) (hi : pc i = .waitForCompletion)
    (hdone : e.done ≠ 0) :
    LiveInv { e with done := e.done - 1, passed := e.passed ++ [i] }
      (Function.update pc i .unmapW) := by
  have hnot : i ∉ e.passed := by
    rw [h.passed i, hi]
    exact id
  refine ⟨h.nodup, iff_update h.submitted (by rw [hi]; rfl), ?_,
    iff_update_concat h.passed trivial, h.issued, h.finished, ?_, ?_, h.hasDescriptor, ?_⟩
  · exact List.concat_eq_append ▸ h.once.concat hnot
  · exact forall_update (P := fun j pt => pt.Issued → j ∈ e.submitted.take e.issued) h.own
      fun _ => h.own i (by rw [hi]; trivial)
  · show e.done - 1 + (e.passed ++ [i]).length = e.finished
    have hcount := h.count
    rw [List.length_append, List.length_singleton]
    omega
  · exact forall_update (P := fun _ pt => pt.Described) h.described trivial

omit [DecidableEq ι] in
theorem LiveInv.finish (h : LiveInv e pc) (hlt : e.finished < e.issued) :
    LiveInv (dmaM2mCallback { e with finished := e.finished + 1 }) pc := by
  refine ⟨h.nodup, h.submitted, h.once, h.passed, h.issued, hlt, h.own, ?_, h.hasDescriptor,
    h.described⟩
  show e.done + 1 + e.passed.length = e.finished + 1
  have hcount := h.count
  omega

/-- The request of one writer. -/
theorem LiveInv.request {op : DmaOp} {a : Bool} (h : LiveInv e pc) (hop : (pc i).op = some op)
    (hserve : serveDma e i op = some (e', a)) :
    LiveInv e' (Function.update pc i ((pc i).next a)) ∧ e'.finished = e.finished := by
  cases hi : pc i with
  | fill n ps =>
      rw [hi] at hop
      cases ps with
      | nil =>
          obtain rfl := Option.some.inj hop
          obtain rfl := (Prod.mk.inj (Option.some.inj hserve)).1
          exact ⟨h.move (by rw [hi]; rfl) (by rw [hi]; rfl) False.elim trivial, rfl⟩
      | cons p ps =>
          obtain rfl := Option.some.inj hop
          obtain rfl := (Prod.mk.inj (Option.some.inj hserve)).1
          exact ⟨h.move (by rw [hi]; rfl) (by rw [hi]; rfl) False.elim trivial, rfl⟩
  | prep =>
      rw [hi] at hop
      obtain rfl := Option.some.inj hop
      obtain ⟨rfl, rfl⟩ := Prod.mk.inj (Option.some.inj hserve)
      exact ⟨h.move (by rw [hi]; rfl) (by rw [hi]; rfl) False.elim h.hasDescriptor, rfl⟩
  | setCallback desc =>
      rw [hi] at hop
      obtain rfl := Option.some.inj hop
      have hdesc := h.described i
      rw [hi] at hdesc
      obtain rfl : desc = true := hdesc
      obtain rfl := (Prod.mk.inj (Option.some.inj hserve)).1
      exact ⟨h.move (by rw [hi]; rfl) (by rw [hi]; rfl) False.elim trivial, rfl⟩
  | submit =>
      rw [hi] at hop
      obtain rfl := Option.some.inj hop
      obtain rfl := (Prod.mk.inj (Option.some.inj hserve)).1
      exact ⟨h.submit hi, rfl⟩
  | issuePending =>
      rw [hi] at hop
      obtain rfl := Option.some.inj hop
      obtain rfl := (Prod.mk.inj (Option.some.inj hserve)).1
      exact ⟨h.issuePending hi, rfl⟩
  | waitForCompletion =>
      rw [hi] at hop
      obtain rfl := Option.some.inj hop
      rw [serveDma] at hserve
      split_ifs at hserve with hdone
      obtain rfl := (Prod.mk.inj (Option.some.inj hserve)).1
      exact ⟨h.waitForCompletion hi hdone, rfl⟩
  | finished =>
      rw [hi] at hop
      exact absurd hop (by simp [Point.op])
  | mapW | mapR =>
      rw [hi] at hop
      obtain rfl := Option.some.inj hop
      obtain rfl := (Prod.mk.inj (Option.some.inj hserve)).1
      exact ⟨h.move (by rw [hi]; rfl) (by rw [hi]; rfl) False.elim trivial, rfl⟩
  | unmapW | unmapR =>
      rw [hi] at hop
      obtain rfl := Option.some.inj hop
      obtain rfl := (Prod.mk.inj (Option.some.inj hserve)).1
      exact ⟨h.move (by rw [hi]; rfl) (by rw [hi]; rfl) (by rw [hi]; exact id) trivial,
        rfl⟩

/-! ## Nobody waits for ever -/

omit [DecidableEq ι] in
/-- A writer that is not finished can go on, or the engine has a descriptor to finish. -/
theorem LiveInv.enabled (h : LiveInv e pc) (hi : pc i ≠ .finished) :
    (∃ op e' a, (pc i).op = some op ∧ serveDma e i op = some (e', a)) ∨ e.finished < e.issued := by
  cases hpt : pc i with
  | finished => exact absurd hpt hi
  | fill n ps => cases ps <;> exact Or.inl ⟨_, _, _, rfl, rfl⟩
  | setCallback desc =>
      have hdesc := h.described i
      rw [hpt] at hdesc
      obtain rfl : desc = true := hdesc
      exact Or.inl ⟨_, _, _, rfl, rfl⟩
  | waitForCompletion =>
      by_cases hdone : e.done = 0
      · -- the waits that have returned and this one are of issued descriptors
        have hnot : i ∉ e.passed := by
          rw [h.passed i, hpt]
          exact id
        have hsub : i :: e.passed ⊆ e.submitted.take e.issued := by
          refine List.cons_subset.mpr ⟨h.own i (by rw [hpt]; trivial), fun j hj => h.own j ?_⟩
          exact ((h.passed j).mp hj).issued
        have hlen := ((List.nodup_cons.mpr ⟨hnot, h.once⟩).subperm hsub).length_le
        have hcount := h.count
        rw [List.length_cons, List.length_take_of_le h.issued] at hlen
        exact Or.inr (by omega)
      · exact Or.inl ⟨_, _, _, rfl, if_neg hdone⟩
  | _ => exact Or.inl ⟨_, _, _, rfl, rfl⟩

section

variable [Fintype ι] {d : Driver} {count : ι → Nat} {w : Parties (Engine ι) ι DmaOp Bool Nat}
  {es : List (PartyEvent ι DmaEvent)}

/-- The requests that a writer makes in all. -/
def Driver.requests (d : Driver) : Nat := d.pairs.length + 10

/-- A request leaves fewer requests to be made. -/
theorem sum_rank_lt {op : DmaOp} (hop : (pc i).op = some op) (a : Bool) :
    ∑ j, (Function.update pc i ((pc i).next a) j).rank < ∑ j, (pc j).rank := by
  apply Finset.sum_lt_sum
  · intro j _
    exact forall_update (P := fun j pt => pt.rank ≤ (pc j).rank) (fun j => Nat.le_refl _)
      (Nat.le_of_lt (Point.rank_next hop a)) j
  · refine ⟨i, Finset.mem_univ i, ?_⟩
    rw [Function.update_self]
    exact Point.rank_next hop a

/-- The requests made and those left are the requests of all writers. -/
theorem inv_of_quiet (hquiet : ∀ e ∈ es, Quiet e)
    (hrun : run writersStep (writers d count) es = some w) :
    ∃ pc, w.At (code count) pc ∧ LiveInv w.dev pc ∧
      es.length + ∑ i, (pc i).rank ≤ Fintype.card ι * d.requests + w.dev.finished := by
  have hat : (writers d count).At (code count) (fun _ => .fill 0 d.pairs) :=
    fun i => sdmaWrite_eq_prog d (count i)
  have h₀ : LiveInv (writers d count).dev (fun _ => .fill 0 d.pairs) := by
    refine ⟨List.nodup_nil, ?_, List.nodup_nil, ?_, Nat.le_refl 0, Nat.le_refl 0, ?_, rfl, rfl, ?_⟩
    · exact fun i => iff_of_false List.not_mem_nil id
    · exact fun i => iff_of_false List.not_mem_nil id
    · exact fun i hi => hi.elim
    · exact fun i => trivial
  have hsum : ([] : List (PartyEvent ι DmaEvent)).length
      + ∑ _i : ι, (Point.fill 0 d.pairs).rank ≤ Fintype.card ι * d.requests + 0 := by
    rw [Finset.sum_const, Finset.card_univ, smul_eq_mul]
    show 0 + Fintype.card ι * (10 + d.pairs.length) ≤ _
    rw [Driver.requests, Nat.add_comm 10, Nat.zero_add]
    exact Nat.le_add_right _ 0
  refine party_induct_events (code count) (I := fun es e pc => LiveInv e pc ∧
    es.length + ∑ i, (pc i).rank ≤ Fintype.card ι * d.requests + e.finished) hat ⟨h₀, hsum⟩ ?_ ?_
    es w ((along_iff_forall hrun).mpr hquiet) hrun
  · rintro es w pc i op k e a hat ⟨h, hlen⟩ _ hcode hserve
    cases hop : (pc i).op with
    | none =>
        have hnext : nextOp (code count i (pc i)) = none := (nextOp_prog _ _).trans hop
        rw [hcode] at hnext
        cases hnext
    | some op' =>
        rw [code, Point.prog_of_op hop] at hcode
        injection hcode with hop' hk
        subst hop' hk
        rcases h.request hop hserve with ⟨h', hfin⟩
        have hlt := sum_rank_lt hop a
        refine ⟨(pc i).next a, rfl, h', ?_⟩
        rw [List.length_append, List.length_singleton, hfin]
        omega
  · rintro es w pc event e _ ⟨h, hlen⟩ hquiet hchange
    cases event with
    | finish =>
        rw [changeDma] at hchange
        split_ifs at hchange with hlt
        obtain rfl := Option.some.inj hchange
        refine ⟨h.finish hlt, ?_⟩
        show (es ++ [_]).length + _ ≤ _ + (w.dev.finished + 1)
        rw [List.length_append, List.length_singleton]
        omega
    | opening => exact hquiet.elim
    | descriptors b => exact hquiet.elim

end

/-- **All writers finish**, as long as descriptors can be had. However the requests of the writers
and the engine's work interleave, and whoever is woken by a completion, a run without opens is no
longer than all requests and one completion for each writer; and where nothing can happen any more,
every writer has returned what it was asked to write. -/
theorem writers_finish {ι : Type} [DecidableEq ι] [Fintype ι] (d : Driver) (count : ι → Nat)
    (es : List (PartyEvent ι DmaEvent)) (w : Parties (Engine ι) ι DmaOp Bool Nat)
    (hquiet : ∀ e ∈ es, Quiet e) (hrun : run writersStep (writers d count) es = some w) :
    es.length ≤ Fintype.card ι * (d.requests + 1) ∧
      ((∀ e, Quiet e → writersStep w e = none) → ∀ i, w.prog i = .ret (count i)) := by
  rcases inv_of_quiet hquiet hrun with ⟨pc, hat, h, hlen⟩
  constructor
  · have hcard := h.nodup.length_le_card
    have hissued := h.issued
    have hfinished := h.finished
    rw [Nat.mul_succ]
    omega
  · intro hstuck i
    have hi : pc i = .finished := by
      by_contra hne
      rcases h.enabled hne with ⟨op, e', a, hop, hserve⟩ | hlt
      · have hprog : w.prog i = .call op fun a => ((pc i).next a).prog (count i) :=
          (hat i).trans (Point.prog_of_op hop)
        have hstep : writersStep w (.step i) = some _ :=
          partyStep_step.mpr ⟨op, _, e', a, hprog, hserve, rfl⟩
        rw [hstuck (.step i) trivial] at hstep
        cases hstep
      · have hchange : changeDma w.dev .finish
            = some (dmaM2mCallback { w.dev with finished := w.dev.finished + 1 }) := if_pos hlt
        have hstep : writersStep w (.env .finish) = some _ :=
          partyStep_env.mpr ⟨_, hchange, rfl⟩
        rw [hstuck (.env .finish) trivial] at hstep
        cases hstep
    rw [hat i, hi]
    exact Point.prog_finished (count i)

/-- Two writers of which the second one takes the completion of the first. -/
theorem writers_finish_two :
    ∃ w, run writersStep (writers .single (fun i : Fin 2 => i.val))
        (List.replicate 8 (.step 0) ++ List.replicate 8 (.step 1) ++
          [.env .finish, .step 1, .env .finish, .step 0, .step 0, .step 0, .step 1, .step 1])
          = some w ∧
      ((∀ e, Quiet e → writersStep w e = none) → ∀ i, w.prog i = .ret i.val) := by
  have hrun : (run writersStep (writers .single (fun i : Fin 2 => i.val))
      (List.replicate 8 (.step 0) ++ List.replicate 8 (.step 1) ++
        [.env .finish, .step 1, .env .finish, .step 0, .step 0, .step 0, .step 1, .step 1])).isSome
          = true := by
    decide +kernel
  rcases Option.isSome_iff_exists.mp hrun with ⟨w, hw⟩
  exact ⟨w, hw, (writers_finish .single _ _ w (by decide) hw).2⟩

end LinuxDrivers.Sdma
