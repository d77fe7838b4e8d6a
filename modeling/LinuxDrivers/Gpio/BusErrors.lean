import LinuxDrivers.Gpio.Commands

set_option autoImplicit false

/-! # Failing transfers

Each transfer of a call may fail with a negative code, and then leaves the chip as it is.
`ReportsFailures` is what `mcp23016_direction_input`, `mcp23016_direction_output` and
`mcp23016_set` should do: return the code of the first transfer that failed, 0 if none did,
and write no register once a read has failed.

`mcp23016_set` does so. `mcp23016_direction` does not check its two transfers of IODIR: it
writes back an error code as if it were the register, and as an input it returns the register
instead of 0. `reportsFailures_iff` says for which failures the three do what they should. -/

namespace LinuxDrivers.Gpio

open Lib

/-- What a transfer that fails answers with. -/
abbrev SmbusError := { e : S32 // e.toInt < 0 }

/-- A transfer that has been made: the answer, and the chip after it. -/
structure Transfer where
  op : Smbus
  answer : S32
  chip : Chip

/-- The chip and the transfers made so far. -/
structure Bus where
  chip : Chip
  log : List Transfer

/-- The transfer number `n` fails if `fails n` is an error. -/
def Bus.serve (fails : Nat → Option SmbusError) (b : Bus) (op : Smbus) : Bus × S32 :=
  match fails b.log.length with
  | none =>
      let (c, x) := b.chip.serve op
      (⟨c, b.log ++ [⟨op, x, c⟩]⟩, x)
  | some e => (⟨b.chip, b.log ++ [⟨op, e.val, b.chip⟩]⟩, e.val)

def Bus.change (b : Bus) (e : InputChange) : Bus := ⟨b.chip.change e, b.log⟩

/-- A call that returns a status. -/
inductive StatusCall where
  | directionInput (pin : Pin)
  | directionOutput (pin : Pin) (val : Int)
  | set (pin : Pin) (val : Int)

def StatusCall.prog : StatusCall → SmbusProg S32
  | .directionInput pin => mcp23016DirectionInput pin.val
  | .directionOutput pin val => mcp23016DirectionOutput pin.val val
  | .set pin val => mcp23016Set pin.val val

/-! ## What a call should do -/

/-- The code of the first transfer that failed, 0 if all succeeded. -/
def firstError : List Transfer → S32
  | [] => 0
  | x :: xs => if x.answer.toInt < 0 then x.answer else firstError xs

/-- A read that failed. -/
def Transfer.FailedRead (x : Transfer) : Prop :=
  x.answer.toInt < 0 ∧ ∃ command, x.op = .readByteData command

/-- A write that succeeded. -/
def Transfer.Written (x : Transfer) : Prop :=
  0 ≤ x.answer.toInt ∧ ∃ command value, x.op = .writeByteData command value

/-- The call returns the code of the first failure. Once a read has failed, no register is
written any more, and latches and directions stay as they were then. -/
structure ReportsFailures (ret : S32) (b : Bus) : Prop where
  code : ret = firstError b.log
  unwritten : b.log.Pairwise fun x y => x.FailedRead → ¬ y.Written
  kept : ∀ x ∈ b.log, x.FailedRead → SameRegs x.chip b.chip

/-- The failures that a call reports. `mcp23016_direction_input`: both transfers fail, and the
code of the read has the bit of the pin. `mcp23016_direction_output`: the transfers of IODIR
succeed; or the write fails, and the update of the port that follows fails with the code of the
first failure. `mcp23016_set`: all. -/
def StatusCall.Reported (fails : Nat → Option SmbusError) : StatusCall → Prop
  | .directionInput pin =>
      ∃ e, fails 0 = some e ∧ (fails 1).isSome ∧ e.val.getLsbD pin.bit = true
  | .directionOutput _ _ =>
      (fails 0 = none ∧ fails 1 = none) ∨
        ∃ e, fails 1 = some e ∧ (fails 2).or (fails 3) = some ((fails 0).getD e)
  | .set _ _ => True

/-- 0 means that every transfer has succeeded. -/
theorem firstError_eq_zero_iff (log : List Transfer) :
    firstError log = 0 ↔ ∀ x ∈ log, 0 ≤ x.answer.toInt := by
  induction log with
  | nil => simp [firstError]
  | cons x xs ih =>
      rw [firstError, List.forall_mem_cons]
      split_ifs with hneg
      · refine iff_of_false (fun h => ?_) (fun h => by omega)
        rw [h] at hneg
        exact absurd hneg (by decide)
      · rw [ih]
        exact ⟨fun h => ⟨by omega, h⟩, fun h => h.2⟩

theorem firstError_append (xs ys : List Transfer) (h : ∀ x ∈ xs, 0 ≤ x.answer.toInt) :
    firstError (xs ++ ys) = firstError ys := by
  induction xs with
  | nil => rfl
  | cons x xs ih =>
      rw [List.forall_mem_cons] at h
      rw [List.cons_append, firstError, if_neg (by omega), ih h.2]

/-! ## Single transfers -/

section

variable {fails : Nat → Option SmbusError} {b t : Bus} {op : Smbus}

theorem Bus.serve_ok (h : fails b.log.length = none) :
    b.serve fails op = (⟨(b.chip.serve op).1,
      b.log ++ [⟨op, (b.chip.serve op).2, (b.chip.serve op).1⟩]⟩, (b.chip.serve op).2) := by
  rw [Bus.serve, h]

theorem Bus.serve_fail {e : SmbusError} (h : fails b.log.length = some e) :
    b.serve fails op = (⟨b.chip, b.log ++ [⟨op, e.val, b.chip⟩]⟩, e.val) := by
  rw [Bus.serve, h]

/-- What may happen between two transfers. -/
def SameBus (b t : Bus) : Prop := t.log = b.log ∧ SameRegs b.chip t.chip

theorem SameBus.refl (b : Bus) : SameBus b b := ⟨rfl, SameRegs.refl b.chip⟩

theorem SameBus.trans (b t u : Bus) (h : SameBus b t) (h' : SameBus t u) : SameBus b u :=
  ⟨h'.1.trans h.1, SameRegs.trans _ _ _ h.2 h'.2⟩

theorem sameBus_change (b : Bus) (e : InputChange) : SameBus b (b.change e) :=
  ⟨rfl, sameRegs_change b.chip e⟩

end

/-! ## The update of a port -/

/-- What the update of a port adds to the log of `b`, and what it returns. -/
structure Updates (fails : Nat → Option SmbusError) (b t : Bus) (ret : S32)
    (new : List Transfer) : Prop where
  log : t.log = b.log ++ new
  ret : ret = firstError new
  code : firstError new
    = (((fails b.log.length).or (fails (b.log.length + 1))).map Subtype.val).getD 0
  unwritten : new.Pairwise fun x y => x.FailedRead → ¬ y.Written
  kept : ∀ x ∈ new, x.FailedRead → SameRegs x.chip t.chip
  nothing : ((fails b.log.length).or (fails (b.log.length + 1))).isSome →
    (∀ x ∈ new, ¬ x.Written) ∧ SameRegs b.chip t.chip

section

variable {fails : Nat → Option SmbusError} {b t : Bus}

/-- A list of transfers of which only the last one fails. -/
theorem Updates.of_error (pre : List Transfer) (op : Smbus) {e : SmbusError} {c : Chip}
    (herr : (fails b.log.length).or (fails (b.log.length + 1)) = some e)
    (hlog : t.log = b.log ++ (pre ++ [⟨op, e.val, c⟩]))
    (hpre : ∀ x ∈ pre, 0 ≤ x.answer.toInt ∧ ¬ x.Written) (hc : SameRegs c t.chip)
    (hsame : SameRegs b.chip t.chip) : Updates fails b t e.val (pre ++ [⟨op, e.val, c⟩]) := by
  have hlast : firstError (pre ++ [⟨op, e.val, c⟩]) = e.val := by
    rw [firstError_append _ _ fun x hx => (hpre x hx).1, firstError, if_pos e.property]
  have hnone : ∀ x ∈ pre ++ [⟨op, e.val, c⟩], ¬ x.Written := by
    intro x hx hw
    rcases List.mem_append.mp hx with hx | hx
    · exact (hpre x hx).2 hw
    · rw [List.mem_singleton.mp hx] at hw
      exact absurd hw.1 (not_le.mpr e.property)
  refine ⟨hlog, hlast.symm, by rw [hlast, herr]; rfl, ?_, ?_, fun _ => ⟨hnone, hsame⟩⟩
  · exact List.pairwise_of_forall_mem_list fun x _ y hy _ => hnone y hy
  · intro x hx hf
    rcases List.mem_append.mp hx with hx | hx
    · exact absurd hf.1 (not_lt.mpr (hpre x hx).1)
    · rw [List.mem_singleton.mp hx]
      exact hc

/-- A list of transfers that all succeed. -/
theorem Updates.of_success {new : List Transfer}
    (herr : (fails b.log.length).or (fails (b.log.length + 1)) = none)
    (hlog : t.log = b.log ++ new) (hnew : ∀ x ∈ new, 0 ≤ x.answer.toInt) :
    Updates fails b t 0 new := by
  have hzero : firstError new = 0 := (firstError_eq_zero_iff new).mpr hnew
  refine ⟨hlog, hzero.symm, by rw [hzero, herr]; rfl, ?_, ?_, fun h => ?_⟩
  · exact List.pairwise_of_forall_mem_list fun x hx y _ hf => absurd hf.1 (not_lt.mpr (hnew x hx))
  · exact fun x hx hf => absurd hf.1 (not_lt.mpr (hnew x hx))
  · rw [herr] at h
    exact absurd h (by decide)

end

theorem set_updates (fails : Nat → Option SmbusError) (pin : Pin) (val : Int) (b : Bus) :
    (mcp23016Set pin.val val).Meets (Bus.serve fails) SameBus
      (fun ret t => ∃ new, Updates fails b t ret new) b := by
  unfold mcp23016Set i2cSmbusReadByteData
  rw [Prog.send_bind]
  -- `t` is the bus at the read, `t'` the bus at the write
  intro t ht
  have hlen : t.log.length = b.log.length := by rw [ht.1]
  cases hread : fails b.log.length with
  | some e =>
      rw [Bus.serve_fail (hlen ▸ hread)]
      show Prog.Meets _ _ _ (setRead _ _ _ e.val) _
      rw [setRead, if_neg (not_le.mpr e.property)]
      refine ⟨_, Updates.of_error [] (.readByteData (regGpio (pin.val / 8))) (by rw [hread]; rfl)
        ?_ (fun x hx => ?_) (SameRegs.refl t.chip) ht.2⟩
      · rw [← ht.1]
        rfl
      · cases hx
  | none =>
      rw [Bus.serve_ok (hlen ▸ hread), serve_readGpio]
      show Prog.Meets _ _ _ (setRead _ _ _ _) _
      rw [setRead, if_pos (toInt_answer _)]
      intro t' ht'
      set r : Transfer := ⟨.readByteData (regGpio (pin.val / 8)),
        (t.chip.bank pin.bank).level.setWidth 32, t.chip⟩ with hr
      have hlog : t'.log = b.log ++ [r] := by rw [ht'.1, ← ht.1]
      have hlen' : t'.log.length = b.log.length + 1 := by rw [hlog]; simp
      let w : Smbus := .writeByteData (regGpio (pin.val / 8))
        (updated (t.chip.bank pin.bank).level pin (val ≠ 0))
      have hok : 0 ≤ r.answer.toInt ∧ ¬ r.Written := by
        refine ⟨toInt_answer _, fun hw => ?_⟩
        rcases hw.2 with ⟨command, value, hop⟩
        cases hop
      cases hwrite : fails (b.log.length + 1) with
      | some e =>
          rw [Bus.serve_fail (hlen' ▸ hwrite)]
          refine ⟨_, Updates.of_error [r] w
            (by rw [hread, hwrite]; rfl) ?_ (fun x hx => ?_) (SameRegs.refl t'.chip)
            (SameRegs.trans _ _ _ ht.2 ht'.2)⟩
          · rw [← List.append_assoc, ← hlog]
            rfl
          · rw [List.mem_singleton.mp hx]
            exact hok
      | none =>
          rw [Bus.serve_ok (hlen' ▸ hwrite), serve_writeGpio]
          refine ⟨[r] ++ [⟨w, 0, t'.chip.withOlat pin.bank
            (updated (t.chip.bank pin.bank).level pin (val ≠ 0))⟩],
            Updates.of_success (by rw [hread, hwrite]; rfl) ?_ (fun x hx => ?_)⟩
          · rw [← List.append_assoc, ← hlog]
            rfl
          · rcases List.mem_cons.mp hx with rfl | hx
            · exact hok.1
            · rw [List.mem_singleton.mp hx]
              show 0 ≤ (0 : S32).toInt
              decide

/-- An update that follows on transfers that have succeeded reports its failures. -/
theorem Updates.reports {fails : Nat → Option SmbusError} {b t : Bus} {ret : S32}
    {new : List Transfer} (h : Updates fails b t ret new)
    (hok : ∀ x ∈ b.log, 0 ≤ x.answer.toInt) : ReportsFailures ret t := by
  constructor
  · rw [h.log, firstError_append _ _ hok]
    exact h.ret
  · rw [h.log, List.pairwise_append]
    exact ⟨List.pairwise_of_forall_mem_list fun x hx y _ hf => absurd hf.1 (not_lt.mpr (hok x hx)),
      h.unwritten, fun x hx y _ hf => absurd hf.1 (not_lt.mpr (hok x hx))⟩
  · intro x hx hf
    rw [h.log] at hx
    rcases List.mem_append.mp hx with hx | hx
    · exact absurd hf.1 (not_lt.mpr (hok x hx))
    · exact h.kept x hx hf

/-! ## The update of a direction -/

/-- The two transfers of IODIR that follow on `b`, `r` and `w`, and the value `v` that
`mcp23016_direction` has computed in between. -/
structure IodirWritten (fails : Nat → Option SmbusError) (pin : Pin) (set : Bool) (b t : Bus)
    (r w : Transfer) (v : S32) : Prop where
  log : t.log = b.log ++ [r, w]
  read : ∃ command, r.op = .readByteData command
  write : ∃ command value, w.op = .writeByteData command value
  value : v = assignBit r.answer pin.bit set
  readOk : fails b.log.length = none → ∃ x : U8, r.answer = x.setWidth 32
  readFails : ∀ e, fails b.log.length = some e → r.answer = e.val
  writeOk : fails (b.log.length + 1) = none → w.answer = 0
  writeFails : ∀ e, fails (b.log.length + 1) = some e →
    w.answer = e.val ∧ SameRegs r.chip t.chip

theorem direction_iodir {Q : S32 → Bus → Prop} (fails : Nat → Option SmbusError) (pin : Pin)
    (direction : Nat) (val : Int) (b : Bus)
    (hrest : ∀ t r w v, IodirWritten fails pin (direction ≠ 0) b t r w v →
      (directionWritten pin.val direction val v).Meets (Bus.serve fails) SameBus Q t) :
    (mcp23016Direction pin.val direction val).Meets (Bus.serve fails) SameBus Q b := by
  unfold mcp23016Direction i2cSmbusReadByteData i2cSmbusWriteByteData
  rw [Prog.send_bind]
  intro t ht
  have hlen : t.log.length = b.log.length := by rw [ht.1]
  -- the read, whether or not it succeeds: the chip stays, and it is logged
  obtain ⟨x, hserve, hok, hfails⟩ : ∃ x : S32,
      t.serve fails (.readByteData (regIodir (pin.val / 8)))
        = (⟨t.chip, t.log ++ [⟨.readByteData (regIodir (pin.val / 8)), x, t.chip⟩]⟩, x) ∧
      (fails b.log.length = none → ∃ y : U8, x = y.setWidth 32) ∧
      (∀ e, fails b.log.length = some e → x = e.val) := by
    cases hread : fails b.log.length with
    | none =>
        refine ⟨_, by rw [Bus.serve_ok (hlen ▸ hread), serve_readIodir], fun _ => ⟨_, rfl⟩, ?_⟩
        intro e he
        cases he
    | some e =>
        refine ⟨e.val, Bus.serve_fail (hlen ▸ hread), fun h => absurd h (by simp), ?_⟩
        intro e' he
        rw [Option.some.inj he]
  rw [hserve]
  show Prog.Meets _ _ _ (Prog.call _ _) _
  intro t' ht'
  have hlog : t'.log = b.log ++ [⟨.readByteData (regIodir (pin.val / 8)), x, t.chip⟩] := by
    rw [ht'.1, ← ht.1]
  have hlen' : t'.log.length = b.log.length + 1 := by rw [hlog]; simp
  have happend : ∀ w : Transfer, t'.log ++ [w]
      = b.log ++ [⟨.readByteData (regIodir (pin.val / 8)), x, t.chip⟩, w] := by
    intro w
    rw [hlog, List.append_assoc]
    rfl
  cases hwrite : fails (b.log.length + 1) with
  | none =>
      rw [Bus.serve_ok (hlen' ▸ hwrite), serve_writeIodir]
      exact hrest _ ⟨_, x, t.chip⟩ ⟨_, 0, _⟩ _
        ⟨happend _, ⟨_, rfl⟩, ⟨_, _, rfl⟩, rfl, hok, hfails, fun _ => rfl,
          fun e he => absurd (hwrite.symm.trans he) (by simp)⟩
  | some e =>
      rw [Bus.serve_fail (hlen' ▸ hwrite)]
      refine hrest _ ⟨_, x, t.chip⟩ ⟨_, e.val, _⟩ _
        ⟨happend _, ⟨_, rfl⟩, ⟨_, _, rfl⟩, rfl, hok, hfails,
          fun h => absurd (hwrite.symm.trans h) (by simp), fun e' he' => ?_⟩
      obtain rfl : e = e' := Option.some.inj (hwrite.symm.trans he')
      exact ⟨rfl, ht'.2⟩

section

variable {fails : Nat → Option SmbusError} {pin : Pin} {set : Bool} {b t : Bus} {r w : Transfer}
  {v : S32}

theorem IodirWritten.not_written (h : IodirWritten fails pin set b t r w v) : ¬ r.Written := by
  rintro ⟨-, command', value', hop'⟩
  rcases h.read with ⟨command, hop⟩
  rw [hop] at hop'
  cases hop'

theorem IodirWritten.not_failedRead (h : IodirWritten fails pin set b t r w v) :
    ¬ w.FailedRead := by
  rintro ⟨-, command', hop'⟩
  rcases h.write with ⟨command, value, hop⟩
  rw [hop] at hop'
  cases hop'

/-- If the write of IODIR has failed, nothing is written, and the first error is the one of the
read if it has failed too. -/
theorem IodirWritten.write_failed (h : IodirWritten fails pin set b t r w v) (hb : b.log = [])
    {e : SmbusError} (hwrite : fails 1 = some e) (new : List Transfer) :
    ¬ w.Written ∧ SameRegs r.chip t.chip ∧
      firstError (r :: w :: new) = ((fails 0).getD e).val := by
  have hn : b.log.length = 0 := by rw [hb]; rfl
  rcases h.writeFails e (by rw [hn]; exact hwrite) with ⟨hw, hsame⟩
  have hneg : w.answer.toInt < 0 := by rw [hw]; exact e.property
  refine ⟨fun hwritten => absurd hwritten.1 (not_le.mpr hneg), hsame, ?_⟩
  cases hread : fails 0 with
  | none =>
      rcases h.readOk (by rw [hn]; exact hread) with ⟨x, hx⟩
      rw [firstError, if_neg (by rw [hx]; exact not_lt.mpr (toInt_answer x)), firstError,
        if_pos hneg, hw]
      rfl
  | some e' =>
      have hr := h.readFails e' (by rw [hn]; exact hread)
      rw [firstError, if_pos (by rw [hr]; exact e'.property), hr]
      rfl

/-- A failed read of IODIR that is followed by a write: the byte written is that of an error
code. -/
theorem IodirWritten.not_reports (h : IodirWritten fails pin set b t r w v) (hb : b.log = [])
    (hread : (fails 0).isSome) (hwrite : fails 1 = none) {ret : S32} {u : Bus}
    {new : List Transfer} (hlog : u.log = t.log ++ new) : ¬ ReportsFailures ret u := by
  intro hreports
  rcases Option.isSome_iff_exists.mp hread with ⟨e, he⟩
  have hn : b.log.length = 0 := by rw [hb]; rfl
  have hr := h.readFails e (by rw [hn]; exact he)
  have hw := h.writeOk (by rw [hn]; exact hwrite)
  have hpair := hreports.unwritten
  rw [hlog, h.log, hb] at hpair
  refine (List.pairwise_cons.mp hpair).1 w (by simp) ⟨?_, h.read⟩ ⟨?_, h.write⟩
  · rw [hr]
    exact e.property
  · rw [hw]
    decide

/-- A register byte with the bit of an input set is positive. -/
theorem assignBit_pos (x : U8) {bit : Nat} (hbit : bit < 8) :
    0 < (assignBit (x.setWidth 32) bit true).toInt := by
  revert x
  interval_cases bit <;> decide

theorem assignBit_eq_self_iff (e : S32) {bit : Nat} (hbit : bit < 32) :
    assignBit e bit true = e ↔ e.getLsbD bit = true := by
  have hone : ∀ i, (1#32 <<< bit).getLsbD i = decide (i = bit) := by
    intro i
    rw [← BitVec.twoPow_eq, BitVec.getLsbD_twoPow]
    by_cases h : i = bit
    · simp [h, hbit]
    · simp [h, Ne.symm h]
  rw [assignBit, if_pos rfl]
  constructor
  · intro h
    rw [← h, BitVec.getLsbD_or, hone]
    simp
  · intro h
    apply BitVec.eq_of_getLsbD_eq
    intro i hi
    rw [BitVec.getLsbD_or, hone]
    by_cases hib : i = bit
    · rw [hib, h]
      rfl
    · simp [hib]

end

/-! ## The three calls -/

section

variable (fails : Nat → Option SmbusError) (pin : Pin) (val : Int) {b : Bus}

theorem directionInput_reports (hb : b.log = []) :
    (mcp23016DirectionInput pin.val).Meets (Bus.serve fails) SameBus
      (fun ret t => ReportsFailures ret t ↔ (StatusCall.directionInput pin).Reported fails) b := by
  refine direction_iodir fails pin INPUT 0 b fun t r w v h => ?_
  have hlog : t.log = [r, w] := by rw [h.log, hb]; rfl
  have hn : b.log.length = 0 := by rw [hb]; rfl
  have hv : v = assignBit r.answer pin.bit true := h.value
  show ReportsFailures v t ↔ _
  cases hread : fails 0 with
  | none =>
      -- the value returned is that of the register, which is never 0 with the bit of an input
      rcases h.readOk (by rw [hn]; exact hread) with ⟨x, hx⟩
      refine iff_of_false (fun hreports => ?_) ?_
      · have hpos := assignBit_pos x pin.bit_lt
        have hcode := hreports.code
        rw [hv, hx, hlog, firstError, if_neg (by rw [hx]; exact not_lt.mpr (toInt_answer x)),
          firstError] at hcode
        rw [hcode] at hpos
        split_ifs at hpos with hw
        · omega
        · exact absurd hpos (by decide)
      · rintro ⟨e, he, -⟩
        exact absurd (hread.symm.trans he) (by simp)
  | some e =>
      have hr : r.answer = e.val := h.readFails e (by rw [hn]; exact hread)
      cases hwrite : fails 1 with
      | none =>
          refine iff_of_false ?_ ?_
          · exact h.not_reports hb (by rw [hread]; rfl) hwrite (List.append_nil _).symm
          · rintro ⟨-, -, hsome, -⟩
            rw [hwrite] at hsome
            cases hsome
      | some e' =>
          rcases h.write_failed hb hwrite [] with ⟨hwritten, hsame, hfirst⟩
          rw [← hlog, hread] at hfirst
          have hbit := assignBit_eq_self_iff e.val (show pin.bit < 32 by have := pin.bit_lt; omega)
          rw [hr] at hv
          constructor
          · intro hreports
            refine ⟨e, hread, by rw [hwrite]; rfl, hbit.mp ?_⟩
            rw [← hv, hreports.code, hfirst]
            rfl
          · rintro ⟨e₁, he₁, -, hset⟩
            obtain rfl : e = e₁ := Option.some.inj (hread.symm.trans he₁)
            constructor
            · rw [hfirst, hv, hbit.mpr hset]
              rfl
            · rw [hlog, List.pairwise_pair]
              exact fun _ => hwritten
            · rw [hlog, List.forall_mem_cons, List.forall_mem_singleton]
              exact ⟨fun _ => hsame, fun hf => absurd hf h.not_failedRead⟩

/-- The write of IODIR has failed, and an update of the port follows all the same: its code has
to be that of the first failure. -/
theorem IodirWritten.reports_iff {set : Bool} {t u : Bus} {r w : Transfer} {v ret : S32}
    {new : List Transfer} (h : IodirWritten fails pin set b t r w v) (hb : b.log = [])
    {e : SmbusError} (hwrite : fails 1 = some e) (hnew : Updates fails t u ret new) :
    ReportsFailures ret u ↔ (fails 2).or (fails 3) = some ((fails 0).getD e) := by
  have hlog : t.log = [r, w] := by rw [h.log, hb]; rfl
  have hulog : u.log = r :: w :: new := by rw [hnew.log, hlog]; rfl
  rcases h.write_failed hb hwrite new with ⟨hwritten, hsame, hfirst⟩
  have hcode := hnew.code
  have hnothing := hnew.nothing
  rw [hlog] at hcode hnothing
  change firstError new = (((fails 2).or (fails 3)).map Subtype.val).getD 0 at hcode
  change ((fails 2).or (fails 3)).isSome → _ at hnothing
  constructor
  · intro hreports
    have hret : firstError new = ((fails 0).getD e).val := by
      rw [← hnew.ret, hreports.code, hulog, hfirst]
    rw [hcode] at hret
    cases hset : (fails 2).or (fails 3) with
    | none =>
        -- the code of the first failure is not 0
        have hneg := ((fails 0).getD e).property
        rw [← hret, hset] at hneg
        exact absurd hneg (by decide)
    | some e' =>
        rw [hset] at hret
        rw [Subtype.ext hret]
  · intro hset
    rcases hnothing (by rw [hset]; rfl) with ⟨hnone, hkept⟩
    constructor
    · rw [hulog, hfirst, hnew.ret, hcode, hset]
      rfl
    · rw [hulog]
      refine List.pairwise_of_forall_mem_list fun x _ y hy _ => ?_
      rcases List.mem_cons.mp hy with rfl | hy
      · exact h.not_written
      rcases List.mem_cons.mp hy with rfl | hy
      · exact hwritten
      · exact hnone y hy
    · intro x hx hf
      rw [hulog] at hx
      rcases List.mem_cons.mp hx with rfl | hx
      · exact SameRegs.trans _ _ _ hsame hkept
      rcases List.mem_cons.mp hx with rfl | hx
      · exact absurd hf h.not_failedRead
      · exact hnew.kept x hx hf

theorem directionOutput_reports (hb : b.log = []) :
    (mcp23016DirectionOutput pin.val val).Meets (Bus.serve fails) SameBus
      (fun ret t => ReportsFailures ret t ↔ (StatusCall.directionOutput pin val).Reported fails)
      b := by
  refine direction_iodir fails pin OUTPUT val b fun t r w v h => ?_
  have hn : b.log.length = 0 := by rw [hb]; rfl
  show Prog.Meets _ _ _ (mcp23016Set pin.val val) t
  apply (set_updates fails pin val t).mono
  rintro ret u ⟨new, hnew⟩
  cases hwrite : fails 1 with
  | none =>
      cases hread : fails 0 with
      | none =>
          rcases h.readOk (by rw [hn]; exact hread) with ⟨x, hx⟩
          refine iff_of_true (hnew.reports ?_) (Or.inl ⟨hread, hwrite⟩)
          rw [h.log, hb, List.nil_append, List.forall_mem_cons, List.forall_mem_singleton, hx,
            h.writeOk (by rw [hn]; exact hwrite)]
          exact ⟨toInt_answer x, by decide⟩
      | some e =>
          refine iff_of_false (h.not_reports hb (by rw [hread]; rfl) hwrite hnew.log) ?_
          rintro (⟨hnone, -⟩ | ⟨e', he', -⟩)
          · exact absurd (hread.symm.trans hnone) (by simp)
          · exact absurd (hwrite.symm.trans he') (by simp)
  | some e =>
      rw [h.reports_iff fails pin hb hwrite hnew]
      constructor
      · exact fun hset => Or.inr ⟨e, hwrite, hset⟩
      · rintro (⟨-, hnone⟩ | ⟨e', he', hset⟩)
        · exact absurd (hwrite.symm.trans hnone) (by simp)
        · obtain rfl : e = e' := Option.some.inj (hwrite.symm.trans he')
          exact hset

theorem set_reports (hb : b.log = []) :
    (mcp23016Set pin.val val).Meets (Bus.serve fails) SameBus
      (fun ret t => ReportsFailures ret t ↔ (StatusCall.set pin val).Reported fails) b := by
  apply (set_updates fails pin val b).mono
  rintro ret t ⟨new, hnew⟩
  refine iff_of_true (hnew.reports fun x hx => ?_) trivial
  rw [hb] at hx
  cases hx

theorem prog_reports (call : StatusCall) (hb : b.log = []) :
    call.prog.Meets (Bus.serve fails) SameBus
      (fun ret t => ReportsFailures ret t ↔ call.Reported fails) b := by
  cases call with
  | directionInput pin => exact directionInput_reports fails pin hb
  | directionOutput pin val => exact directionOutput_reports fails pin val hb
  | set pin val => exact set_reports fails pin val hb

end

/-! ## Runs -/

abbrev statusStep (fails : Nat → Option SmbusError) :=
  userStep (Bus.serve fails) Bus.change StatusCall.prog

/-- **Which failures a call reports.** The registers before the call may be any, any of its
transfers may fail, with any code, and the levels outside change at any moment. -/
theorem reportsFailures_iff (fails : Nat → Option SmbusError) (chip : Chip) (call : StatusCall)
    (es : List (UserEvent StatusCall InputChange)) (u : User Bus StatusCall Smbus S32 S32)
    (ret : S32) (b : Bus) (hrun : run (statusStep fails) (User.start ⟨chip, []⟩) es = some u)
    (hidle : u.cur = none) (hdone : u.done = [(call, ret, b)]) :
    ReportsFailures ret b ↔ call.Reported fails := by
  -- only of the first call it is said that it starts with an empty log
  have hinv : UserInv (Bus.serve fails) SameBus
      (fun done t => (done = [] → t.log = []) ∧
        ∀ call ret b, done = [(call, ret, b)] → (ReportsFailures ret b ↔ call.Reported fails)) u := by
    refine user_induct SameBus.refl SameBus.trans sameBus_change ?_ ?_ ⟨fun _ => rfl, ?_⟩ hrun
    · exact fun done t e ht => ht
    · intro done t call ht
      cases done with
      | nil =>
          apply (prog_reports fails call (ht.1 rfl)).mono
          intro ret b hiff
          refine ⟨fun h => absurd h (by simp), ?_⟩
          intro call' ret' b' heq
          obtain ⟨rfl, rfl, rfl⟩ : call = call' ∧ ret = ret' ∧ b = b' := by simpa using heq
          exact hiff
      | cons d ds =>
          have htrivial : call.prog.Meets (Bus.serve fails) SameBus (fun _ _ => True) t :=
            Prog.Meets.always (fun _ _ _ => trivial) (fun _ _ _ _ => trivial) call.prog trivial
          apply htrivial.mono
          exact fun ret b _ => ⟨fun h => absurd h (by simp), fun _ _ _ h => absurd h (by simp)⟩
    · exact fun _ _ _ h => absurd h (by simp)
  unfold UserInv at hinv
  rw [hidle] at hinv
  exact hinv.2 call ret b hdone

/-- Only the transfer number `n` fails, with -EIO. -/
def failsAt (n : Nat) : Nat → Option SmbusError :=
  fun k => if k = n then some ⟨- EIO, by decide⟩ else none

/-- A set whose read succeeds and whose write fails. -/
theorem reportsFailures_set :
    ∃ (u : User Bus StatusCall Smbus S32 S32) (ret : S32) (b : Bus),
      run (statusStep (failsAt 1)) (User.start ⟨idleChip, []⟩) [.call (.set 4 1), .serve, .serve]
        = some u ∧ u.cur = none ∧ u.done = [(.set 4 1, ret, b)] ∧
      (ReportsFailures ret b ↔ (StatusCall.set 4 1).Reported (failsAt 1)) :=
  ⟨_, _, _, rfl, rfl, rfl, reportsFailures_iff (failsAt 1) idleChip (.set 4 1)
    [.call (.set 4 1), .serve, .serve] _ _ _ rfl rfl rfl⟩

/-- **A failed read of IODIR** when pin 4 is made an output: the low byte of the error code, with
bit 4 cleared, becomes the directions of the bank. Pin 2, which was an input, is driven, and the
call returns 0. -/
theorem iodir_overwritten :
    ∃ (u : User Bus StatusCall Smbus S32 S32) (ret : S32) (b : Bus),
      run (statusStep (failsAt 0)) (User.start ⟨idleChip, []⟩)
        [.call (.directionOutput 4 0), .serve, .serve, .serve, .serve] = some u ∧
      u.cur = none ∧ u.done = [(.directionOutput 4 0, ret, b)] ∧
      ¬ ReportsFailures ret b ∧ ret = 0 ∧ b.chip.isInput 2 ≠ idleChip.isInput 2 := by
  refine ⟨_, _, _, rfl, rfl, rfl, fun h => ?_, ?_, ?_⟩
  · exact absurd h.code (by decide)
  · decide
  · decide

end LinuxDrivers.Gpio
