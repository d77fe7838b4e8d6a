import LinuxDrivers.Lib.Run
import LinuxDrivers.SysfsPoll.Driver

set_option autoImplicit false

/-! # Waiting for a change with select

`main` of `sysfs-select-user.c` next to any number of writers. The program opens both
attributes, reads both, waits in `select` and reports. Every step of it and every `store` of a
writer is one event of a run, in any order that the program allows.

A read of an attribute records its event count. `select` can succeed when some count has moved
on since, and leaves the attributes with a new count in the set. It can also fail at any time
and then leaves the set as it is; the program only prints an error in this case and goes on to
report what is in the set.

`notifies_iff` says exactly in which runs the reports are right. -/

namespace LinuxDrivers.SysfsPoll

open Lib

/-- The steps of `main`: the next one to be taken. -/
inductive Pc where
  | opening (attr : DAttr)
  | reading (attr : DAttr)
  | selecting
  | reporting (attr : DAttr)
  | closed
  deriving DecidableEq

/-- The module and the program. `recorded` is the event count sysfs keeps with each open file,
`printed` the changes reported so far. -/
structure Poll where
  sysfs : Sysfs
  pc : Pc
  recorded : DAttr → Nat
  read_fds : DAttr → Bool
  attrData : List Char
  printed : List DAttr

/-- A writer stores a text, or the program takes a step: it opens or reads an attribute, `select`
returns with success or with an error, it reports on an attribute. -/
inductive PollEvent where
  | store (attr : DAttr) (buf : List Char)
  | opened (attr : DAttr) (ok : Bool)
  | read (attr : DAttr)
  | select (ok : Bool)
  | report (attr : DAttr)
  deriving DecidableEq

/-- `FD_ZERO`, and no file is open. -/
def Poll.start (sysfs : Sysfs) : Poll :=
  ⟨sysfs, .opening .notify, fun _ => 0, fun _ => false, [], []⟩

/-- The event counts have moved on since the read. -/
def Poll.differs (s : Poll) (attr : DAttr) : Bool := s.recorded attr ≠ s.sysfs.event attr

/-- What follows the step on `notify`, and the step on `trigger`. -/
def Pc.after (step : DAttr → Pc) (next : Pc) : DAttr → Pc
  | .notify => step .trigger
  | .trigger => next

def pollStep (s : Poll) : PollEvent → Option Poll
  | .store attr buf => some { s with sysfs := (store s.sysfs attr buf).2 }
  | .opened attr ok =>
      if s.pc = .opening attr then
        if ok then
          -- `FD_SET` of both files once the second one is open
          some { s with
            pc := Pc.after .opening (.reading .notify) attr
            read_fds := fun _ => decide (attr = .trigger) }
        else some { s with pc := .closed }
      else none
  | .read attr =>
      if s.pc = .reading attr then
        some { s with
          pc := Pc.after .reading .selecting attr
          recorded := Function.update s.recorded attr (s.sysfs.event attr)
          attrData := (showAttr s.sysfs attr).take 100 }
      else none
  | .select ok =>
      if s.pc = .selecting then
        if ok then
          if s.differs .notify ∨ s.differs .trigger then
            some { s with pc := .reporting .notify, read_fds := s.differs }
          else none
        else some { s with pc := .reporting .notify }
      else none
  | .report attr =>
      if s.pc = .reporting attr then
        some { s with
          pc := Pc.after .reporting .closed attr
          printed := if s.read_fds attr then s.printed ++ [attr] else s.printed }
      else none

/-! ## What the reports should say -/

/-- A store to the attribute comes after the program's read of it. -/
def StoredAfterRead (es : List PollEvent) (attr : DAttr) : Prop :=
  ∃ pre post, es = pre ++ .read attr :: post ∧ ∃ buf, .store attr buf ∈ post

/-- A store to the attribute comes between the program's read of it and the return of
`select`, which succeeds. -/
def StoredBeforeSelect (es : List PollEvent) (attr : DAttr) : Prop :=
  ∃ pre post, es = pre ++ .select true :: post ∧ StoredAfterRead pre attr

/-- Only real changes are reported, and after a successful `select` all of them are. -/
structure Notifies (sysfs : Sysfs) (es : List PollEvent) (s : Poll) : Prop where
  sound : Along pollStep (fun pre s e => ∀ attr, e = .report attr → s.read_fds attr = true →
    StoredAfterRead pre attr) (Poll.start sysfs) es
  complete : s.pc = .closed → ∀ attr, StoredBeforeSelect es attr → attr ∈ s.printed

/-- If `select` has failed, an attribute is stored to after its read before the program gets to
report on it. -/
def FailureCovered (es : List PollEvent) : Prop :=
  ∀ pre attr post, es = pre ++ .report attr :: post → .select false ∈ pre →
    StoredAfterRead pre attr

section

variable {es : List PollEvent} {e : PollEvent} {attr : DAttr}

theorem storedAfterRead_concat :
    StoredAfterRead (es ++ [e]) attr ↔
      StoredAfterRead es attr ∨ (.read attr ∈ es ∧ ∃ buf, e = .store attr buf) := by
  constructor
  · rintro ⟨pre, post, hes, buf, hbuf⟩
    rcases concat_eq_append_cons.mp hes with ⟨post', rfl, rfl⟩ | ⟨rfl, -, -⟩
    · rcases List.mem_append.mp hbuf with hbuf | hbuf
      · exact Or.inl ⟨pre, post', rfl, buf, hbuf⟩
      · exact Or.inr ⟨by simp, buf, (List.mem_singleton.mp hbuf).symm⟩
    · exact absurd hbuf List.not_mem_nil
  · rintro (⟨pre, post, rfl, buf, hbuf⟩ | ⟨hread, buf, rfl⟩)
    · exact ⟨pre, post ++ [e], by simp, buf, List.mem_append_left _ hbuf⟩
    · rcases List.append_of_mem hread with ⟨pre, post, rfl⟩
      exact ⟨pre, post ++ [.store attr buf], by simp, buf, by simp⟩

theorem storedBeforeSelect_concat :
    StoredBeforeSelect (es ++ [e]) attr ↔
      StoredBeforeSelect es attr ∨ (e = .select true ∧ StoredAfterRead es attr) := by
  constructor
  · rintro ⟨pre, post, hes, hpre⟩
    rcases concat_eq_append_cons.mp hes with ⟨post', -, rfl⟩ | ⟨-, rfl, rfl⟩
    · exact Or.inl ⟨pre, post', rfl, hpre⟩
    · exact Or.inr ⟨rfl, hpre⟩
  · rintro (⟨pre, post, rfl, hpre⟩ | ⟨rfl, hes⟩)
    · exact ⟨pre, post ++ [e], by simp, hpre⟩
    · exact ⟨es, [], rfl, hes⟩

/-- Only `select` itself can come after a store and make it one before `select`. -/
theorem storedBeforeSelect_concat_of_ne (h : ∀ ok, e ≠ .select ok) :
    StoredBeforeSelect (es ++ [e]) attr ↔ StoredBeforeSelect es attr := by
  rw [storedBeforeSelect_concat]
  exact or_iff_left fun hselect => h true hselect.1

theorem StoredBeforeSelect.afterRead (h : StoredBeforeSelect es attr) :
    StoredAfterRead es attr := by
  rcases h with ⟨pre, post, rfl, pre', post', rfl, buf, hbuf⟩
  exact ⟨pre', post' ++ .select true :: post, by simp, buf, List.mem_append_left _ hbuf⟩

theorem StoredAfterRead.read_mem (h : StoredAfterRead es attr) : .read attr ∈ es := by
  rcases h with ⟨pre, post, rfl, -⟩
  simp

end

/-! ## The invariant -/

/-- `select` has returned: with the changed attributes in the set, or with all of them. -/
def Selected (es : List PollEvent) (s : Poll) : Prop :=
  (.select true ∈ es ∧ .select false ∉ es ∧
      ∀ attr, s.read_fds attr = true ↔ StoredBeforeSelect es attr) ∨
    (.select false ∈ es ∧ .select true ∉ es ∧ ∀ attr, s.read_fds attr = true)

/-- What has happened by each step of the program. -/
def PcInv (es : List PollEvent) (s : Poll) : Prop :=
  match s.pc with
  | .opening _ => (∀ attr, .read attr ∉ es) ∧ ∀ ok, .select ok ∉ es
  | .reading attr =>
      (∀ b, s.read_fds b = true) ∧ .read attr ∉ es ∧
        (attr = .notify → .read .trigger ∉ es) ∧
        (attr = .trigger → .read .notify ∈ es) ∧ ∀ ok, .select ok ∉ es
  | .selecting => (∀ b, s.read_fds b = true) ∧ (∀ attr, .read attr ∈ es) ∧ ∀ ok, .select ok ∉ es
  | .reporting attr =>
      Selected es s ∧ (attr = .trigger → s.read_fds .notify = true → .notify ∈ s.printed)
  | .closed =>
      .select true ∈ es → (∀ attr, s.read_fds attr = true ↔ StoredBeforeSelect es attr) ∧
        ∀ attr, s.read_fds attr = true → attr ∈ s.printed

/-- The count of an attribute has moved on since the read exactly if there was a store. -/
def CountInv (es : List PollEvent) (s : Poll) : Prop :=
  ∀ attr, .read attr ∈ es → s.recorded attr ≤ s.sysfs.event attr ∧
    (s.recorded attr < s.sysfs.event attr ↔ StoredAfterRead es attr)

theorem CountInv.differs_iff {es : List PollEvent} {s : Poll} (h : CountInv es s) {attr : DAttr}
    (hread : .read attr ∈ es) : s.differs attr = true ↔ StoredAfterRead es attr := by
  rcases h attr hread with ⟨hle, hiff⟩
  rw [← hiff, Poll.differs, decide_eq_true_eq]
  omega

section

variable {es : List PollEvent} {s t : Poll} {attr : DAttr}

theorem countInv_store {buf : List Char} (h : CountInv es s) :
    CountInv (es ++ [.store attr buf]) { s with sysfs := (store s.sysfs attr buf).2 } := by
  intro b hread
  have hread' : .read b ∈ es := by simpa using hread
  rcases h b hread' with ⟨hle, hiff⟩
  show s.recorded b ≤ (store s.sysfs attr buf).2.event b ∧
    (s.recorded b < (store s.sysfs attr buf).2.event b ↔ _)
  rw [store_event, storedAfterRead_concat]
  by_cases hb : b = attr
  · subst hb
    rw [Function.update_self]
    exact ⟨by omega, fun _ => Or.inr ⟨hread', buf, rfl⟩, fun _ => by omega⟩
  · rw [Function.update_of_ne hb, hiff]
    refine ⟨hle, Or.inl, fun hor => hor.resolve_right ?_⟩
    rintro ⟨-, buf', heq⟩
    injection heq with heq
    exact hb heq.symm

theorem countInv_read (h : CountInv es s) (hnew : .read attr ∉ es)
    (hsysfs : t.sysfs = s.sysfs)
    (hrec : t.recorded = Function.update s.recorded attr (s.sysfs.event attr)) :
    CountInv (es ++ [.read attr]) t := by
  intro b hread
  rw [hsysfs, hrec, storedAfterRead_concat]
  have hstore : ¬ (.read b ∈ es ∧ ∃ buf, PollEvent.read attr = .store b buf) := by
    rintro ⟨-, buf, heq⟩
    exact PollEvent.noConfusion heq
  rw [or_iff_left hstore]
  by_cases hb : b = attr
  · subst hb
    rw [Function.update_self]
    exact ⟨le_refl _, fun hlt => absurd hlt (lt_irrefl _),
      fun hstored => absurd hstored.read_mem hnew⟩
  · rw [Function.update_of_ne hb]
    exact h b (by simpa [hb] using hread)

/-- Any other step of the program. -/
theorem countInv_other {e : PollEvent} (h : CountInv es s) (hread : ∀ b, e ≠ .read b)
    (hstore : ∀ b buf, e ≠ .store b buf) (hsysfs : t.sysfs = s.sysfs)
    (hrec : t.recorded = s.recorded) : CountInv (es ++ [e]) t := by
  intro b hb
  have hb' : .read b ∈ es := by
    rcases List.mem_append.mp hb with hb | hb
    · exact hb
    · exact absurd (List.mem_singleton.mp hb).symm (hread b)
  rw [hsysfs, hrec, storedAfterRead_concat, or_iff_left]
  · exact h b hb'
  · rintro ⟨-, buf, heq⟩
    exact hstore b buf heq

/-- A store happens beside the program. -/
theorem pcInv_store {buf : List Char} (h : PcInv es s) :
    PcInv (es ++ [.store attr buf]) { s with sysfs := (store s.sysfs attr buf).2 } := by
  have hbefore : ∀ b, StoredBeforeSelect (es ++ [.store attr buf]) b ↔ StoredBeforeSelect es b :=
    fun b => storedBeforeSelect_concat_of_ne (by simp)
  unfold PcInv Selected at *
  simp only [hbefore, List.mem_append, List.mem_singleton, reduceCtorEq, or_false]
  exact h

/-- The steps of the program. -/
theorem pcInv_opened {ok : Bool} (h : PcInv es s)
    (hstep : pollStep s (.opened attr ok) = some t) :
    PcInv (es ++ [.opened attr ok]) t ∧ t.sysfs = s.sysfs ∧ t.recorded = s.recorded := by
  simp only [pollStep] at hstep
  split_ifs at hstep with hpc hok
  · obtain rfl := Option.some.inj hstep
    refine ⟨?_, rfl, rfl⟩
    unfold PcInv at h
    rw [hpc] at h
    cases attr with
    | notify =>
        show (∀ b, _) ∧ _
        simpa using h
    | trigger =>
        exact ⟨fun _ => rfl, by simpa using h.1 .notify, fun _ => by simpa using h.1 .trigger,
          (fun heq => by cases heq), fun ok' => by simpa using h.2 ok'⟩
  · obtain rfl := Option.some.inj hstep
    refine ⟨?_, rfl, rfl⟩
    unfold PcInv at h
    rw [hpc] at h
    intro hselect
    exact absurd hselect (by simpa using h.2 true)

theorem pcInv_read (h : PcInv es s) (hstep : pollStep s (.read attr) = some t) :
    PcInv (es ++ [.read attr]) t ∧ .read attr ∉ es ∧ t.sysfs = s.sysfs ∧
      t.recorded = Function.update s.recorded attr (s.sysfs.event attr) := by
  simp only [pollStep] at hstep
  split_ifs at hstep with hpc
  obtain rfl := Option.some.inj hstep
  unfold PcInv at h
  rw [hpc] at h
  rcases h with ⟨hfds, hnew, htrigger, hnotify, hselect⟩
  refine ⟨?_, hnew, rfl, rfl⟩
  cases attr with
  | notify =>
      exact ⟨hfds, by simpa using htrigger rfl, (fun heq => by cases heq), fun _ => by simp,
        fun ok => by simpa using hselect ok⟩
  | trigger =>
      refine ⟨hfds, fun b => ?_, fun ok => by simpa using hselect ok⟩
      cases b with
      | notify => exact List.mem_append_left _ (hnotify rfl)
      | trigger => exact List.mem_append_right _ (List.mem_singleton.mpr rfl)

theorem pcInv_select {ok : Bool} (h : PcInv es s) (hcount : CountInv es s)
    (hstep : pollStep s (.select ok) = some t) :
    PcInv (es ++ [.select ok]) t ∧ t.sysfs = s.sysfs ∧ t.recorded = s.recorded := by
  simp only [pollStep] at hstep
  split_ifs at hstep with hpc hok hdiff
  · -- success: the set becomes that of the attributes whose count has moved on
    obtain rfl := Option.some.inj hstep
    unfold PcInv at h
    rw [hpc] at h
    rcases h with ⟨-, hread, hselect⟩
    refine ⟨⟨Or.inl ⟨by simp [hok], by simpa [hok] using hselect false, fun b => ?_⟩,
      fun heq => by cases heq⟩, rfl, rfl⟩
    have hbefore : ¬ StoredBeforeSelect es b := by
      rintro ⟨pre, post, rfl, -⟩
      exact hselect true (by simp)
    rw [storedBeforeSelect_concat, hok]
    show s.differs b = true ↔ _
    rw [hcount.differs_iff (hread b)]
    exact ⟨fun hb => Or.inr ⟨rfl, hb⟩, fun hb => (hb.resolve_left hbefore).2⟩
  · -- failure: the set stays as it was passed in
    obtain rfl := Option.some.inj hstep
    unfold PcInv at h
    rw [hpc] at h
    rcases h with ⟨hfds, -, hselect⟩
    have hok' : ok = false := by simpa using hok
    exact ⟨⟨Or.inr ⟨by simp [hok'], by simpa [hok'] using hselect true, hfds⟩,
      fun heq => by cases heq⟩, rfl, rfl⟩

theorem pcInv_report (h : PcInv es s) (hstep : pollStep s (.report attr) = some t) :
    PcInv (es ++ [.report attr]) t ∧ Selected es s ∧ t.sysfs = s.sysfs ∧
      t.recorded = s.recorded := by
  have hpc : s.pc = .reporting attr := by
    by_contra hpc
    rw [pollStep, if_neg hpc] at hstep
    exact absurd hstep (by simp)
  rw [pollStep, if_pos hpc] at hstep
  obtain rfl := Option.some.inj hstep
  unfold PcInv at h
  rw [hpc] at h
  rcases h with ⟨hsel, hprinted⟩
  refine ⟨?_, hsel, rfl, rfl⟩
  have hbefore : ∀ b, StoredBeforeSelect (es ++ [.report attr]) b ↔ StoredBeforeSelect es b :=
    fun b => storedBeforeSelect_concat_of_ne (by simp)
  have hnow : ∀ b, b = attr → s.read_fds b = true →
      b ∈ (if s.read_fds attr then s.printed ++ [attr] else s.printed) := by
    rintro b rfl hb
    rw [if_pos hb]
    simp
  have hold : ∀ b, b ∈ s.printed →
      b ∈ (if s.read_fds attr then s.printed ++ [attr] else s.printed) := by
    intro b hb
    split_ifs
    · exact List.mem_append_left _ hb
    · exact hb
  cases attr with
  | notify =>
      refine ⟨?_, fun _ hfd => hnow .notify rfl hfd⟩
      unfold Selected at *
      simpa [hbefore] using hsel
  | trigger =>
      intro hselect
      have hselect' : .select true ∈ es := by simpa using hselect
      refine ⟨fun b => ?_, fun b hfd => ?_⟩
      · rw [hbefore]
        rcases hsel with ⟨-, -, hfds⟩ | ⟨-, hnone, -⟩
        · exact hfds b
        · exact absurd hselect' hnone
      · cases b with
        | notify => exact hold .notify (hprinted rfl hfd)
        | trigger => exact hnow .trigger rfl hfd

theorem pollInv_step {e : PollEvent} (h : PcInv es s) (hcount : CountInv es s)
    (hstep : pollStep s e = some t) : PcInv (es ++ [e]) t ∧ CountInv (es ++ [e]) t := by
  cases e with
  | store attr buf =>
      obtain rfl := Option.some.inj hstep
      exact ⟨pcInv_store h, countInv_store hcount⟩
  | opened attr ok =>
      rcases pcInv_opened h hstep with ⟨hpc, hsysfs, hrec⟩
      exact ⟨hpc, countInv_other hcount (by simp) (by simp) hsysfs hrec⟩
  | read attr =>
      rcases pcInv_read h hstep with ⟨hpc, hnew, hsysfs, hrec⟩
      exact ⟨hpc, countInv_read hcount hnew hsysfs hrec⟩
  | select ok =>
      rcases pcInv_select h hcount hstep with ⟨hpc, hsysfs, hrec⟩
      exact ⟨hpc, countInv_other hcount (by simp) (by simp) hsysfs hrec⟩
  | report attr =>
      rcases pcInv_report h hstep with ⟨hpc, -, hsysfs, hrec⟩
      exact ⟨hpc, countInv_other hcount (by simp) (by simp) hsysfs hrec⟩

end

theorem pollInv_run (sysfs : Sysfs) :
    ∀ es s, run pollStep (Poll.start sysfs) es = some s → PcInv es s ∧ CountInv es s := by
  refine run_induct_all (I := fun es s => PcInv es s ∧ CountInv es s) ⟨?_, ?_⟩ ?_
  · exact ⟨fun _ => List.not_mem_nil, fun _ => List.not_mem_nil⟩
  · intro attr hread
    exact absurd hread List.not_mem_nil
  · rintro es s e t - ⟨h, hcount⟩ hstep
    exact pollInv_step h hcount hstep

/-- **When the reports are right.** In every run only real changes are reported, and after a
successful `select` all of them, exactly if a failed `select` is covered by stores: each
attribute is stored to between its read and the report on it. -/
theorem notifies_iff (sysfs : Sysfs) (es : List PollEvent) (s : Poll)
    (hrun : run pollStep (Poll.start sysfs) es = some s) :
    Notifies sysfs es s ↔ FailureCovered es := by
  -- the state in which a report is made
  have hreport : ∀ {pre attr post}, es = pre ++ .report attr :: post →
      ∃ u, run pollStep (Poll.start sysfs) pre = some u ∧ Selected pre u := by
    rintro pre attr post rfl
    rw [run_append, Option.bind_eq_some_iff] at hrun
    rcases hrun with ⟨u, hu, hrest⟩
    rw [run_cons, Option.bind_eq_some_iff] at hrest
    rcases hrest with ⟨v, hv, -⟩
    exact ⟨u, hu, (pcInv_report (pollInv_run sysfs pre u hu).1 hv).2.1⟩
  constructor
  · intro h pre attr post hes hfail
    rcases hreport hes with ⟨u, hu, hsel⟩
    -- both files are in the set after a failure, so both changes are reported
    rcases hsel with ⟨-, hnofail, -⟩ | ⟨-, -, hfds⟩
    · exact absurd hfail hnofail
    · exact h.sound pre (.report attr) post u hes hu attr rfl (hfds attr)
  · intro hcovered
    refine ⟨?_, ?_⟩
    · rintro pre e post u hes hu attr rfl hfd
      rcases hreport hes with ⟨u', hu', hsel⟩
      obtain rfl := Option.some.inj (hu.symm.trans hu')
      rcases hsel with ⟨-, -, hfds⟩ | ⟨hfail, -, -⟩
      · exact ((hfds attr).mp hfd).afterRead
      · exact hcovered pre attr post hes hfail
    · intro hclosed attr hstored
      have hpc := (pollInv_run sysfs es s hrun).1
      unfold PcInv at hpc
      rw [hclosed] at hpc
      have hselect : .select true ∈ es := by
        rcases hstored with ⟨pre, post, rfl, -⟩
        simp
      rcases hpc hselect with ⟨hfds, hprinted⟩
      exact hprinted attr ((hfds attr).mpr hstored)

/-- A writer stores to `trigger` while the program waits. -/
theorem notifies_trigger :
    ∃ s, run pollStep (Poll.start loaded)
        [.opened .notify true, .opened .trigger true, .read .notify, .read .trigger,
          .store .trigger ['1', '\n'], .select true, .report .notify, .report .trigger] = some s ∧
      Notifies loaded
        [.opened .notify true, .opened .trigger true, .read .notify, .read .trigger,
          .store .trigger ['1', '\n'], .select true, .report .notify, .report .trigger] s := by
  have hrun : (run pollStep (Poll.start loaded)
      [.opened .notify true, .opened .trigger true, .read .notify, .read .trigger,
        .store .trigger ['1', '\n'], .select true, .report .notify,
        .report .trigger]).isSome = true := by
    decide +kernel
  rcases Option.isSome_iff_exists.mp hrun with ⟨s, hs⟩
  refine ⟨s, hs, (notifies_iff loaded _ s hs).mpr fun pre attr post hes hfail => ?_⟩
  have hmem : PollEvent.select false ∈ _ := List.mem_append_left (.report attr :: post) hfail
  rw [← hes] at hmem
  exact absurd hmem (by decide)

/-- **An interrupted `select` invents two changes**: the set still holds both files. -/
theorem not_notifies_failure :
    ∃ s, run pollStep (Poll.start loaded)
        [.opened .notify true, .opened .trigger true, .read .notify, .read .trigger,
          .select false, .report .notify, .report .trigger] = some s ∧
      ¬ Notifies loaded
        [.opened .notify true, .opened .trigger true, .read .notify, .read .trigger,
          .select false, .report .notify, .report .trigger] s := by
  have hrun : (run pollStep (Poll.start loaded)
      [.opened .notify true, .opened .trigger true, .read .notify, .read .trigger,
        .select false, .report .notify, .report .trigger]).isSome = true := by
    decide +kernel
  have hset : (run pollStep (Poll.start loaded)
      [.opened .notify true, .opened .trigger true, .read .notify, .read .trigger,
        .select false]).any (fun s => s.read_fds .notify) = true := by
    decide +kernel
  rcases Option.isSome_iff_exists.mp hrun with ⟨s, hs⟩
  rcases (Option.any_eq_true _ _).mp hset with ⟨u, hu, hfd⟩
  refine ⟨s, hs, fun h => ?_⟩
  obtain ⟨pre, post, hes, buf, hbuf⟩ :=
    h.sound _ (.report .notify) [.report .trigger] u rfl hu .notify rfl hfd
  have hmem : PollEvent.store .notify buf ∈ _ :=
    List.mem_append_right pre (List.mem_cons_of_mem (.read .notify) hbuf)
  rw [← hes] at hmem
  simp at hmem

end LinuxDrivers.SysfsPoll
