import LinuxDrivers.Eeprom.Accesses
import LinuxDrivers.Eeprom.Tape

set_option autoImplicit false

/-! # Calls of several processes

Each process makes a list of calls through its file, access by access, with the accesses of the
others in between. `eep_read` and `eep_write` hold the mutex of the device from beginning to end.

So there is one order of all the calls in which the tape gives every process the answers that it has
got (`calls_linear`), as long as no file is opened or released meanwhile. A call that is killed
while it waits for the mutex returns at once and touches nothing; such calls are left out. -/

namespace LinuxDrivers.Eeprom

open Lib

/-! ## The calls -/

def callProg : SessionCall → DevProg (Int × List U8)
  | .read c => eepReadProg .lp64 c
  | .write c => do
      let retval ← eepWriteProg .lp64 c
      return (retval, [])

/-- The call gets the mutex, and its count is a value of `size_t`. -/
def SessionCall.Runs : SessionCall → Prop
  | .read c => c.killed = false ∧ c.count < 2 ^ 64
  | .write c => c.killed = false ∧ c.count < 2 ^ 64

/-- The same call, made whole through the file `f`. -/
def SessionCall.through (f : Nat) : SessionCall → FilesEvent
  | .read c => .read f c
  | .write c => .write f c

/-- There is a buffer, and the processes have their files open. -/
structure Tape.Serves {ι : Type} (t : Tape) (file : ι → Nat) : Prop where
  going : t.stopped = false
  buffer : t.buf.isSome = true
  opened : ∀ i, file i ∈ t.opened

/-! ## One call alone -/

section

variable {ι : Type} {s : Files} {t : Tape} {file : ι → Nat} {c : SessionCall} {f : Nat}

theorem SessionCall.Runs.inRange (hc : c.Runs) : (c.through f).InRange := by
  cases c with
  | read c => exact hc.2
  | write c => exact hc.2

theorem Tape.Serves.takes (ht : t.Serves file) (i : ι) : t.Takes (c.through (file i)) := by
  cases c with
  | read c => exact ⟨ht.going, ht.opened i⟩
  | write c => exact ⟨ht.going, ht.opened i⟩

theorem Tape.Serves.read (ht : t.Serves file) (c : ReadCall) :
    ∃ ret, (t.read c).2 = .ok ret ∧ (t.read c).1.Serves file := by
  rcases Option.isSome_iff_exists.mp ht.buffer with ⟨buf, hbuf⟩
  unfold Tape.read
  simp only [hbuf]
  split_ifs
  · exact ⟨_, rfl, ht⟩
  · exact ⟨_, rfl, ht⟩
  · exact ⟨_, rfl, ht.going, rfl, ht.opened⟩
  · exact ⟨_, rfl, ht.going, rfl, ht.opened⟩

theorem Tape.Serves.write (ht : t.Serves file) (c : WriteCall) :
    ∃ ret, (t.write c).2 = .ok (ret, []) ∧ (t.write c).1.Serves file := by
  rcases Option.isSome_iff_exists.mp ht.buffer with ⟨buf, hbuf⟩
  unfold Tape.write Tape.send
  simp only [hbuf]
  split_ifs
  · exact ⟨_, rfl, ht⟩
  · exact ⟨_, rfl, ht⟩
  · exact ⟨_, rfl, ht.going, rfl, ht.opened⟩
  · cases firstRefused c.ack (pagesOf t.pos (sentLen t.pos (writeLen .lp64 t.pos c.count))) with
    | none => exact ⟨_, rfl, ht.going, rfl, ht.opened⟩
    | some j => exact ⟨_, rfl, ht.going, rfl, ht.opened⟩

/-- **Alone, a call does what the tape does.** -/
theorem callProg_alone (h : Represents s t) (ht : t.Serves file) (hc : c.Runs) (i : ι) :
    ∃ ret kern, (callProg c).alone Shared.serve ⟨s.kern, none⟩ = (ret, ⟨kern, none⟩) ∧
      (t.call (c.through (file i))).2 = .ok ret ∧
      Represents { s with kern := kern } (t.call (c.through (file i))).1 ∧
      (t.call (c.through (file i))).1.Serves file := by
  rcases follows_call h (ht.takes i) (hc.inRange (f := file i)) with ⟨s', hstep, hanswer, hrep⟩
  have hready := h.ready ⟨ht.going, ht.opened i⟩
  cases c with
  | read c =>
      rcases ht.read c with ⟨ret, hret, hserves⟩
      change filesAnswer .lp64 s (.read (file i) c) = (t.read c).2 at hanswer
      rw [hret, filesAnswer] at hanswer
      cases hread : eepRead .lp64 s.kern c with
      | error f =>
          rw [hread] at hanswer
          cases hanswer
      | ok out =>
          rw [hread] at hanswer
          obtain rfl := Except.ok.inj hanswer
          change filesStep .lp64 s (.read (file i) c) = some s' at hstep
          rw [filesStep, if_neg hready] at hstep
          simp only [hread] at hstep
          obtain rfl := Option.some.inj hstep
          exact ⟨_, _, eepRead_alone hc.1 hread, hret, hrep, hserves⟩
  | write c =>
      rcases ht.write c with ⟨ret, hret, hserves⟩
      change filesAnswer .lp64 s (.write (file i) c) = (t.write c).2 at hanswer
      rw [hret, filesAnswer] at hanswer
      cases hwrite : (eepWrite .lp64 s.kern c).ret with
      | error f =>
          rw [hwrite] at hanswer
          cases hanswer
      | ok r =>
          rw [hwrite] at hanswer
          obtain rfl := (Prod.mk.inj (Except.ok.inj hanswer)).1
          change filesStep .lp64 s (.write (file i) c) = some s' at hstep
          rw [filesStep, if_neg hready] at hstep
          obtain rfl := Option.some.inj hstep
          refine ⟨_, _, ?_, hret, ⟨hrep.opened, ?_, hrep.cell, hrep.pos, hrep.buffer,
            hrep.noBuffer⟩, hserves⟩
          · rw [callProg, Prog.alone_bind, eepWrite_alone hc.1 hwrite]
            rfl
          · exact (h.stopped.trans ht.going).trans hserves.going.symm

/-- A fault stays. -/
theorem alone_of_fault {α : Type} : ∀ (prog : DevProg α) {u : Shared}, u.fault.isSome = true →
    (prog.alone Shared.serve u).2 = u
  | .ret _, _, _ => rfl
  | .call op k, u, hf => by
      change ((k (u.serve op).2).alone Shared.serve (u.serve op).1).2 = u
      rw [serve_of_fault hf]
      exact alone_of_fault (k _) hf

end

/-! ## All calls in one order -/

section

variable {ι : Type} [DecidableEq ι] {s : Files} {t t' : Tape} {file : ι → Nat}
  {calls : ι → List SessionCall} {order : List (ι × SessionCall)}
  {answers : List (ι × Int × List U8)}
  {v w : Parties (Locked Shared ι) ι (LockOp DevOp) DevAns (List (Int × List U8))}

/-- The calls of `order`, as calls of the tape. -/
def onTape (file : ι → Nat) (order : List (ι × SessionCall)) : List FilesEvent :=
  order.map fun x => x.2.through (file x.1)

/-- The calls of `order`, made one after the other on the tape, are given `answers` and leave `t'`;
and this is what the processes have got. -/
structure Linear (s : Files) (t : Tape) (file : ι → Nat) (calls : ι → List SessionCall)
    (order : List (ι × SessionCall)) (answers : List (ι × Int × List U8)) (t' : Tape)
    (v : Parties (Locked Shared ι) ι (LockOp DevOp) DevAns (List (Int × List U8))) : Prop where
  parties : answers.map Prod.fst = order.map Prod.fst
  answered : tapeMachine.answers t (onTape file order) = some (answers.map fun x => .ok x.2)
  reached : run tapeMachine.step t (onTape file order) = some t'
  free : v.dev.holder = none → Represents { s with kern := v.dev.data.kern } t'
  noFault : v.dev.data.fault = none
  between : ∀ i, v.dev.holder ≠ some i → ∃ cs, calls i = ofParty i order ++ cs ∧
    v.prog i = callsInLock callProg cs (ofParty i answers)
  inside : ∀ i, v.dev.holder = some i →
    ∃ before c cs, order = before ++ [(i, c)] ∧ calls i = ofParty i order ++ cs

omit [DecidableEq ι] in
/-- Calls that are made at once, one after the other. -/
theorem serial_onTape (h : Represents s t) (ht : t.Serves file)
    (horder : ∀ x ∈ order, x.2.Runs) :
    ∃ t' kern, (serial Shared.serve callProg ⟨s.kern, none⟩ order).2 = ⟨kern, none⟩ ∧
      tapeMachine.answers t (onTape file order) = some
        ((serial Shared.serve callProg ⟨s.kern, none⟩ order).1.map fun x => .ok x.2) ∧
      run tapeMachine.step t (onTape file order) = some t' ∧
      Represents { s with kern := kern } t' ∧ t'.Serves file := by
  induction order using List.reverseRecOn with
  | nil => exact ⟨t, s.kern, rfl, rfl, rfl, h, ht⟩
  | append_singleton order x ih =>
      rcases x with ⟨i, c⟩
      rcases ih (fun x hx => horder x (List.mem_append_left _ hx)) with
        ⟨t', kern, hdata, hanswers, hrun, hrep, hserves⟩
      have hc : c.Runs := horder (i, c) (List.mem_append_right _ (List.mem_singleton_self _))
      rcases callProg_alone hrep hserves hc i with ⟨ret, kern', halone, hret, hrep', hserves'⟩
      have hstep : tapeMachine.step t' (c.through (file i))
          = some (t'.call (c.through (file i))).1 := if_pos (hserves.takes i)
      have hevents : onTape file (order ++ [(i, c)])
          = onTape file order ++ [c.through (file i)] := List.map_append
      change (callProg c).alone Shared.serve ⟨kern, none⟩ = _ at halone
      refine ⟨_, kern', ?_, ?_, ?_, hrep', hserves'⟩
      · rw [serial_concat, hdata, halone]
      · rw [hevents, Machine.answers_concat hrun hstep, hanswers, serial_concat, hdata, halone]
        change some (_ ++ [(t'.call (c.through (file i))).2]) = _
        rw [hret, List.map_append]
        rfl
      · rw [hevents, run_concat]
        exact ⟨t', hrun, hstep⟩

theorem linear_of_serialized (h : Represents s t) (ht : t.Serves file)
    (hcalls : ∀ i, ∀ c ∈ calls i, c.Runs)
    (hv : Serialized Shared.serve callProg ⟨s.kern, none⟩ calls order v) :
    ∃ answers t', Linear s t file calls order answers t' v := by
  have horder : ∀ x ∈ order, x.2.Runs := fun x hx => hcalls x.1 x.2 (hv.mem_calls hx)
  rcases serial_onTape h ht horder with ⟨t', kern, hdata, hanswers, hrun, hrep, -⟩
  refine ⟨_, t', serial_parties _ _, hanswers, hrun, ?_, ?_, hv.between, ?_⟩
  · intro hfree
    rw [hv.free hfree, hdata]
    exact hrep
  · cases hholder : v.dev.holder with
    | none => rw [hv.free hholder, hdata]
    | some i =>
        -- the call goes on to its end, and there is no fault at the end
        rcases hv.inside i hholder with ⟨before, c, cs, p, hord, -, -, halone⟩
        have hend : (p.alone Shared.serve v.dev.data).2 = ⟨kern, none⟩ := by
          rw [halone, ← hdata, hord, serial_concat]
        cases hfault : v.dev.data.fault with
        | none => rfl
        | some f =>
            rw [alone_of_fault p (by rw [hfault, Option.isSome_some])] at hend
            rw [hend] at hfault
            cases hfault
  · intro i hi
    rcases hv.inside i hi with ⟨before, c, cs, -, hord, hcs, -⟩
    exact ⟨before, c, cs, hord, hcs⟩

/-- **The calls of all processes come in one order**, if `size_t` has 64 bits and no signal comes
while they wait for the mutex. However the processes run, there is one order of their calls, in
which more and more of them have got the mutex as the run goes on. At every moment the tape gives
these calls, made whole one after the other, the answers that the processes have; the driver has not
faulted; and while nobody has the mutex, the device is what the tape has become. -/
theorem calls_linear {es : List (PartyEvent ι Empty)} (h : Represents s t) (ht : t.Serves file)
    (hcalls : ∀ i, ∀ c ∈ calls i, c.Runs)
    (hrun : run (serialStep Shared.serve .none) (serialStart callProg ⟨s.kern, none⟩ calls) es
      = some w) :
    ∃ (order : List (ι × SessionCall)) (n : Nat → Nat), Monotone n ∧
      ∀ pre post v, es = pre ++ post →
        run (serialStep Shared.serve .none) (serialStart callProg ⟨s.kern, none⟩ calls) pre
          = some v →
        ∃ answers t', Linear s t file calls (order.take (n pre.length)) answers t' v := by
  rcases serialized_run hrun with ⟨order, n, hmono, hall⟩
  refine ⟨order, n, hmono, fun pre post v hes hpre => ?_⟩
  exact linear_of_serialized h ht hcalls (hall pre post v hes hpre)

end

/-! ## Two processes -/

/-- The file `0` of a blank chip is open. -/
def openFile : Files := ⟨(eepOpen true ⟨⟨none, 0⟩, Heap.empty, blankChip⟩).2, {0}, false, false⟩

def openTape : Tape := ((Tape.start blankChip.cell).opening 0 true).1

/-- One process writes a byte, the other one reads one byte after the other. -/
def byteCalls (i : Bool) : List SessionCall :=
  if i then [.read (readCall 1), .read (readCall 1)] else [.write (writeCall [7])]

theorem byteCalls_runs (i : Bool) : ∀ c ∈ byteCalls i, c.Runs := by
  cases i with
  | true => simp [byteCalls, SessionCall.Runs, readCall]
  | false => simp [byteCalls, SessionCall.Runs, writeCall]

theorem represents_openTape : Represents openFile openTape where
  opened := rfl
  stopped := rfl
  cell := rfl
  pos := rfl
  buffer f hf := by
    obtain rfl := Option.some.inj hf
    exact ⟨0, rfl, Heap.alloc_cell_self _ _⟩
  noBuffer h := by cases h

/-- The write gets the mutex first. -/
def byteRun : List (PartyEvent Bool Empty) :=
  List.replicate 13 (.step false) ++ List.replicate 22 (.step true)

theorem calls_linear_bytes :
    ∃ v order answers t', run (serialStep Shared.serve .none)
        (serialStart callProg ⟨openFile.kern, none⟩ byteCalls) byteRun = some v ∧
      v.dev.holder = none ∧ v.dev.data.kern.chip.cell 0 = 7 ∧
      Linear openFile openTape (fun _ => 0) byteCalls order answers t' v := by
  have hrun : (run (serialStep Shared.serve .none)
      (serialStart callProg ⟨openFile.kern, none⟩ byteCalls) byteRun).any
        (fun v => decide (v.dev.holder = none ∧ v.dev.data.kern.chip.cell 0 = 7)) = true := by
    decide +kernel
  rcases (Option.any_eq_true _ _).mp hrun with ⟨v, hv, hstate⟩
  rcases of_decide_eq_true hstate with ⟨hfree, hcell⟩
  have hserves : openTape.Serves fun _ : Bool => 0 :=
    ⟨rfl, rfl, fun _ => Finset.mem_singleton_self 0⟩
  rcases calls_linear represents_openTape hserves byteCalls_runs hv with ⟨order, n, -, hall⟩
  rcases hall byteRun [] v (List.append_nil _).symm hv with ⟨answers, t', hlinear⟩
  exact ⟨v, _, answers, t', hv, hfree, hcell, hlinear⟩

end LinuxDrivers.Eeprom
