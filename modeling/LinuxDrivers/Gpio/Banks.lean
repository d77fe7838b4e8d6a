import LinuxDrivers.Gpio.Clients
import LinuxDrivers.Gpio.OtherPins
import LinuxDrivers.Lib.Parts

set_option autoImplicit false

/-! # The two banks

The registers of the expander come in two banks, and every call of the driver keeps to the bank of
its pin. So clients on different banks do not notice each other, although the driver has no lock and
their transfers interleave in any order.

* `banks_independent`: the runs of the whole expander are those of two expanders with one bank, put
  side by side, and every call returns what it returns there.
* `driven_of_one_per_bank`: with one client for each bank no update is lost. -/

namespace LinuxDrivers.Gpio

open Lib

/-! ## One bank -/

def Smbus.command : Smbus → U8
  | .readByteData command => command
  | .writeByteData command _ => command

/-- The bank that a transfer is about. -/
def Smbus.bank (op : Smbus) : Fin 2 := registerBank op.command

def Bank.serve (b : Bank) : Smbus → Bank × S32
  | .readByteData command => (b, (b.read (command.toNat / 2)).setWidth 32)
  | .writeByteData command value => (b.write (command.toNat / 2) value, 0)

/-- What a client does: calls one after the other. It keeps what they return. -/
def callsProg : List GpioCall → SmbusProg (List S32)
  | [] => return []
  | call :: calls => do
      let ret ← call.prog
      let rets ← callsProg calls
      return ret :: rets

section

variable {ι : Type} [DecidableEq ι]

def serveChip (c : Chip) (_ : ι) (op : Smbus) : Option (Chip × S32) := some (c.serve op)

def serveBank (_ : Fin 2) (b : Bank) (_ : ι) (op : Smbus) : Option (Bank × S32) := some (b.serve op)

def changeBank (_ : Fin 2) (b : Bank) (e : InputChange) : Option Bank := some (b.change e.ext)

/-- The expander with its clients, and a bank with them. -/
abbrev chipStep : Parties Chip ι Smbus S32 (List S32) → PartyEvent ι InputChange →
    Option (Parties Chip ι Smbus S32 (List S32)) :=
  partyStep serveChip changeInput

abbrev bankStep (k : Fin 2) : Parties Bank ι Smbus S32 (List S32) → PartyEvent ι InputChange →
    Option (Parties Bank ι Smbus S32 (List S32)) :=
  partyStep (serveBank k) (changeBank k)

/-! ## The calls keep to their bank -/

theorem within_read {k : Fin 2} {command : U8} (h : registerBank command = k) :
    (i2cSmbusReadByteData command).Within Smbus.bank k := ⟨h, fun _ => trivial⟩

theorem within_write {k : Fin 2} {command : U8} (value : S32) (h : registerBank command = k) :
    (i2cSmbusWriteByteData command value).Within Smbus.bank k := ⟨h, fun _ => trivial⟩

theorem within_set (pin : Pin) (val : Int) :
    (mcp23016Set pin.val val).Within Smbus.bank pin.bank := by
  refine (within_read (registerBank_eq pin).1).bind fun value => ?_
  unfold setRead
  split
  · exact within_write _ (registerBank_eq pin).1
  · trivial

theorem within_direction (pin : Pin) (direction : Nat) (val : Int) :
    (mcp23016Direction pin.val direction val).Within Smbus.bank pin.bank := by
  refine (within_read (registerBank_eq pin).2.1).bind fun iodirval => ?_
  refine (within_write _ (registerBank_eq pin).2.1).bind fun _ => ?_
  unfold directionWritten
  split
  · trivial
  · exact within_set pin val

theorem within_call (call : GpioCall) : call.prog.Within Smbus.bank call.pin.bank := by
  cases call with
  | directionInput pin => exact within_direction pin INPUT 0
  | directionOutput pin val => exact within_direction pin OUTPUT val
  | setValue pin val =>
      refine Prog.Within.bind ?_ fun _ => trivial
      exact (within_set pin val).bind fun _ => trivial
  | getValue pin => exact (within_read (registerBank_eq pin).2.2).bind fun _ => trivial

theorem within_calls {k : Fin 2} {calls : List GpioCall} (h : ∀ call ∈ calls, call.pin.bank = k) :
    (callsProg calls).Within Smbus.bank k := by
  induction calls with
  | nil => trivial
  | cons call calls ih =>
      rcases List.forall_mem_cons.mp h with ⟨hcall, hcalls⟩
      refine Prog.Within.bind ?_ fun ret => (ih hcalls).bind fun rets => trivial
      rw [← hcall]
      exact within_call call

omit [DecidableEq ι] in
/-- The expander is made up of its banks. -/
theorem parted_chip : Parted (ι := ι) Chip.bank Smbus.bank InputChange.bank serveChip changeInput
    serveBank changeBank where
  served s i op := by
    cases op with
    | readByteData command => rfl
    | writeByteData command value => simp [serveChip, serveBank, Chip.serve, Bank.serve, Smbus.bank,
        Smbus.command]
  elsewhere s i op t x k h hk := by
    cases op with
    | readByteData command =>
        obtain ⟨rfl, -⟩ := Prod.mk.inj (Option.some.inj h)
        rfl
    | writeByteData command value =>
        obtain ⟨rfl, -⟩ := Prod.mk.inj (Option.some.inj h)
        exact Function.update_of_ne hk _ _
  changed s e := by simp [changeInput, changeBank, Chip.change]
  unchanged s e t k h hk := by
    obtain rfl := Option.some.inj h
    exact Function.update_of_ne hk _ _

/-- **The banks are independent.** Any number of clients make any calls, each on the pins of one
bank. Events can happen exactly if those of each bank can happen on that bank alone, and then each
bank has the registers, and each of its clients the rest of its program with what its calls have
returned, that they have there. -/
theorem banks_independent (c : Chip) (calls : ι → List GpioCall) (bank : ι → Fin 2)
    (hbank : ∀ i, ∀ call ∈ calls i, call.pin.bank = bank i)
    (es : List (PartyEvent ι InputChange)) :
    ((∃ w, run chipStep ⟨c, fun i => callsProg (calls i)⟩ es = some w) ↔
      ∀ k, ∃ v, run (bankStep k) ⟨c.bank k, fun i => callsProg (calls i)⟩
        (es.filter (eventOf bank InputChange.bank k)) = some v) ∧
    ∀ w, run chipStep ⟨c, fun i => callsProg (calls i)⟩ es = some w →
      ∀ k, ∃ v, run (bankStep k) ⟨c.bank k, fun i => callsProg (calls i)⟩
          (es.filter (eventOf bank InputChange.bank k)) = some v ∧
        v.dev = w.dev.bank k ∧ ∀ i, bank i = k → v.prog i = w.prog i := by
  have hhome : AtHome bank Smbus.bank
      (⟨c, fun i => callsProg (calls i)⟩ : Parties Chip ι Smbus S32 (List S32)) :=
    fun i => within_calls (hbank i)
  have hagree : ∀ k, AgreesOn bank Chip.bank k
      (⟨c, fun i => callsProg (calls i)⟩ : Parties Chip ι Smbus S32 (List S32))
      ⟨c.bank k, fun i => callsProg (calls i)⟩ := fun k => ⟨rfl, fun i _ => rfl⟩
  constructor
  · exact parts_run_iff parted_chip hhome hagree
  · intro w hrun k
    rcases parts_agree parted_chip hhome (hagree k) hrun with ⟨v, hv, hdev, hprog⟩
    exact ⟨v, hv, hdev, hprog⟩

end

/-- A client on pin 3 and a client on pin 12: each of them updates its port while the other one is
in the middle of an update. -/
theorem banks_independent_two :
    ∃ w, run chipStep ⟨idleChip, fun i : Fin 2 => callsProg [.directionOutput (![3, 12] i) 1]⟩
        [.step 0, .step 1, .step 0, .step 0, .step 1, .env ⟨1, 0xFF⟩, .step 1, .step 1, .step 0]
          = some w ∧
      ∀ k, ∃ v, run (bankStep k) ⟨idleChip.bank k,
            fun i : Fin 2 => callsProg [.directionOutput (![3, 12] i) 1]⟩
          ([.step 0, .step 1, .step 0, .step 0, .step 1, .env ⟨1, 0xFF⟩, .step 1, .step 1,
            .step 0].filter (eventOf (fun i : Fin 2 => i) InputChange.bank k)) = some v ∧
        v.dev = w.dev.bank k ∧ ∀ i, i = k → v.prog i = w.prog i := by
  have hrun : (run chipStep
      ⟨idleChip, fun i : Fin 2 => callsProg [.directionOutput (![3, 12] i) 1]⟩
      [.step 0, .step 1, .step 0, .step 0, .step 1, .env ⟨1, 0xFF⟩, .step 1, .step 1,
        .step 0]).isSome = true := by
    decide +kernel
  have hbank : ∀ i : Fin 2, ∀ call ∈ [GpioCall.directionOutput (![3, 12] i) 1],
      call.pin.bank = i := by
    intro i call hcall
    rw [List.mem_singleton] at hcall
    subst hcall
    revert i
    decide
  rcases Option.isSome_iff_exists.mp hrun with ⟨w, hw⟩
  exact ⟨w, hw, (banks_independent idleChip _ (fun i => i) hbank _).2 w hw⟩

/-! ## One client for each bank -/

/-- The register a client is about to write is one of its bank. -/
theorem bank_of_pendingWrite {pin : Pin} {p : Point} {command : U8}
    (h : pendingWrite (pointProg pin p) = some command) :
    registerBank command = pin.bank ∧ p ≠ .absent := by
  cases p with
  | absent => cases h
  | finished val => cases h
  | readDir val rest => cases h
  | readPort before val rest => cases h
  | writeDir read val rest =>
      obtain rfl := Option.some.inj h
      exact ⟨(registerBank_eq pin).2.1, fun hp => by cases hp⟩
  | writePort before read val rest =>
      obtain rfl := Option.some.inj h
      exact ⟨(registerBank_eq pin).1, fun hp => by cases hp⟩

/-- Without a second client on the bank nothing overlaps. -/
theorem noOverlap_of_sole {scripts : Pin → Option Script} {w : Parties Chip Pin Smbus S32 Unit}
    {pc : Pin → Point} (hat : w.At pointProg pc) (h : ClientsInv scripts w.dev pc)
    (hsole : ∀ i j, scripts i ≠ none → scripts j ≠ none → i.bank = j.bank → i = j) (i : Pin) :
    NoOverlap w (.step i) := by
  have hscript : ∀ j, pc j ≠ .absent → scripts j ≠ none := by
    intro j hj hnone
    have hlast := h.last j
    rw [hnone] at hlast
    cases hp : pc j with
    | absent => exact hj hp
    | _ =>
        rw [hp] at hlast
        cases hlast
  intro j hji
  cases hi : pendingWrite (w.prog i) with
  | none => exact Or.inl rfl
  | some command =>
      refine Or.inr fun hj => hji ?_
      rw [hat i] at hi
      rw [hat j] at hj
      rcases bank_of_pendingWrite hi with ⟨hbank, hpi⟩
      rcases bank_of_pendingWrite hj with ⟨hbank', hpj⟩
      exact hsole j i (hscript j hpj) (hscript i hpi) (hbank'.symm.trans hbank)

/-- **One client for each bank.** In every run, whatever the order of the transfers, a client that
has finished finds its pin an output, driven at the value of its last call. -/
theorem driven_of_one_per_bank (c : Chip) (scripts : Pin → Option Script)
    (hsole : ∀ i j, scripts i ≠ none → scripts j ≠ none → i.bank = j.bank → i = j)
    (es : List (PartyEvent Pin InputChange)) (w : Parties Chip Pin Smbus S32 Unit)
    (hrun : run clientStep (clients c scripts) es = some w) :
    ∀ i s, scripts i = some s → w.prog i = .ret () →
      w.dev.isInput i = false ∧ w.dev.level i = decide (s.last ≠ 0) := by
  obtain ⟨pc, hat, h⟩ : ∃ pc, w.At pointProg pc ∧ ClientsInv scripts w.dev pc := by
    refine party_induct pointProg (I := ClientsInv scripts) (G := fun _ _ => True)
      (clients_at c scripts) (inv_start c scripts) ?_ ?_ es w (fun _ _ _ _ _ _ => trivial) hrun
    · intro w pc i op k s a hat h _ hk hs
      obtain ⟨rfl, rfl⟩ : (w.dev.serve op).1 = s ∧ (w.dev.serve op).2 = a :=
        Prod.ext_iff.mp (Option.some.inj hs)
      exact inv_transfer hat h (noOverlap_of_sole hat h hsole i) hk
    · intro w pc e s _ h _ hs
      obtain rfl := Option.some.inj hs
      exact inv_change h e
  intro i s hs hret
  have hlast := h.last i
  have hprog := hat i
  rw [hs] at hlast
  rw [hret] at hprog
  rcases point_of_ret hprog.symm with hi | ⟨val, hi⟩
  · rw [hi] at hlast
    exact absurd hlast (by simp [Point.last])
  · have hval : (pc i).value = some s.last := by
      rw [hi] at hlast ⊢
      exact hlast
    exact ⟨h.output i (Point.isOutput_of_value hval), h.level hval⟩

/-- A client on pin 0, which sets it and clears it again, and a client on pin 9, which sets it. -/
def bankScripts : Pin → Option Script
  | ⟨0, _⟩ => some ⟨1, [0]⟩
  | ⟨9, _⟩ => some ⟨1, []⟩
  | _ => none

/-- The order of the transfers in which two clients on one bank lose a value. -/
theorem driven_of_one_per_bank_run :
    ∃ w, run clientStep (clients idleChip bankScripts)
        [.step 0, .step 0, .step 9, .step 9, .step 0, .step 0, .step 0, .step 9, .step 9,
          .step 0] = some w ∧
      ∀ i s, bankScripts i = some s → w.prog i = .ret () →
        w.dev.isInput i = false ∧ w.dev.level i = decide (s.last ≠ 0) := by
  have hrun : (run clientStep (clients idleChip bankScripts)
      [.step 0, .step 0, .step 9, .step 9, .step 0, .step 0, .step 0, .step 9, .step 9,
        .step 0]).isSome = true := by
    decide +kernel
  have hsole : ∀ i j : Pin, (bankScripts i).isSome = true → (bankScripts j).isSome = true →
      i.bank = j.bank → i = j := by decide +kernel
  rcases Option.isSome_iff_exists.mp hrun with ⟨w, hw⟩
  refine ⟨w, hw, driven_of_one_per_bank _ _ (fun i j hi hj => ?_) _ w hw⟩
  exact hsole i j (Option.isSome_iff_ne_none.mpr hi) (Option.isSome_iff_ne_none.mpr hj)

end LinuxDrivers.Gpio
