import LinuxDrivers.Gpio.Commands
import LinuxDrivers.Lib.Party

set_option autoImplicit false

/-! # Clients that share the expander

Any number of clients, each on its own pin, run `mcp23016_direction_output` followed by calls of
`mcp23016_set_value`. Their transfers interleave in any order: the driver has no lock, so an
update of a register can fall between the read and the write of another update.

`driven_of_noOverlap`: if that never happens for one and the same register (`NoOverlap`), a
client that has finished finds its pin an output at its last value. `lost_update` is a run of two
clients in which it happens, and one of them loses its value.

The invariant compares the bytes that are about to be written with the registers. A client with
a byte for IODIR has a 0 there for every pin that is an output by now. A client with a byte for
GPx has there, for every pin that has been given its first value by now, that value. -/

namespace LinuxDrivers.Gpio

open Lib

/-- What a client does: the value of `mcp23016_direction_output`, then those of
`mcp23016_set_value`. -/
structure Script where
  first : Int
  rest : List Int

def Script.last (s : Script) : Int := s.rest.getLastD s.first

def setValues (pin : Pin) : List Int → SmbusProg Unit
  | [] => return ()
  | val :: vals => do
      mcp23016SetValue pin.val val
      setValues pin vals

def Script.prog (pin : Pin) (s : Script) : SmbusProg Unit := do
  let _ ← mcp23016DirectionOutput pin.val s.first
  setValues pin s.rest

/-- The program of the client of a pin, if there is one. -/
def clientProg (scripts : Pin → Option Script) (pin : Pin) : SmbusProg Unit :=
  match scripts pin with
  | none => return ()
  | some s => s.prog pin

/-- The expander and its clients, before the first transfer. -/
def clients (c : Chip) (scripts : Pin → Option Script) : Parties Chip Pin Smbus S32 Unit :=
  ⟨c, clientProg scripts⟩

/-- Every transfer succeeds. -/
def serveClient (c : Chip) (_ : Pin) (op : Smbus) : Option (Chip × S32) := some (c.serve op)

def changeInput (c : Chip) (e : InputChange) : Option Chip := some (c.change e)

abbrev clientStep := partyStep (α := Unit) serveClient changeInput

/-- The register that the next transfer of a client writes, if it is a write. -/
def pendingWrite : SmbusProg Unit → Option U8
  | .call (.writeByteData command _) _ => some command
  | _ => none

/-- When a register is written, no other client is between its read and its write of the same
register. -/
def NoOverlap (w : Parties Chip Pin Smbus S32 Unit) : PartyEvent Pin InputChange → Prop
  | .step i => ∀ j, j ≠ i →
      pendingWrite (w.prog i) = none ∨ pendingWrite (w.prog j) ≠ pendingWrite (w.prog i)
  | .env _ => True

instance (w : Parties Chip Pin Smbus S32 Unit) : ∀ e, Decidable (NoOverlap w e)
  | .step i => inferInstanceAs (Decidable (∀ j, j ≠ i →
      pendingWrite (w.prog i) = none ∨ pendingWrite (w.prog j) ≠ pendingWrite (w.prog i)))
  | .env _ => inferInstanceAs (Decidable True)

/-! ## Control points -/

/-- Where a client is. `before` is the value its pin was given last, `rest` are the values to
come after the current one. -/
inductive Point where
  | absent
  | readDir (val : Int) (rest : List Int)
  | writeDir (read : U8) (val : Int) (rest : List Int)
  | readPort (before : Option Int) (val : Int) (rest : List Int)
  | writePort (before : Option Int) (read : U8) (val : Int) (rest : List Int)
  | finished (val : Int)

/-- The update of the port, the one after `read` if given, and the calls after it. -/
def pointProg (pin : Pin) : Point → SmbusProg Unit
  | .absent => .ret ()
  | .readDir val rest => Script.prog pin ⟨val, rest⟩
  | .writeDir read val rest =>
      .call (.writeByteData (regIodir (pin.val / 8)) (updated read pin false))
        (fun _ => mcp23016Set pin.val val >>= fun _ => setValues pin rest)
  | .readPort _ val rest => mcp23016Set pin.val val >>= fun _ => setValues pin rest
  | .writePort _ read val rest =>
      .call (.writeByteData (regGpio (pin.val / 8)) (updated read pin (val ≠ 0)))
        (fun _ => setValues pin rest)
  | .finished _ => .ret ()

/-- IODIR has been written for the pin. -/
def Point.IsOutput : Point → Prop
  | .readPort .. | .writePort .. | .finished _ => True
  | _ => False

/-- The value that GPx was given last for the pin. -/
def Point.value : Point → Option Int
  | .readPort before .. | .writePort before .. => before
  | .finished val => some val
  | _ => none

/-- The last value of the client, as far as it can be told at the point. -/
def Point.last : Point → Option Int
  | .absent => none
  | .readDir val rest | .writeDir _ val rest | .readPort _ val rest | .writePort _ _ val rest =>
      some (rest.getLastD val)
  | .finished val => some val

/-- The point after the values `rest` remain to be set, `val` being the one set last. -/
def Point.next (val : Int) : List Int → Point
  | [] => .finished val
  | val' :: rest => .readPort (some val) val' rest

theorem pointProg_next (pin : Pin) (val : Int) (rest : List Int) :
    pointProg pin (.next val rest) = setValues pin rest := by
  cases rest with
  | nil => rfl
  | cons val' rest =>
      show (mcp23016Set pin.val val' >>= fun _ => setValues pin rest)
        = (mcp23016Set pin.val val' >>= fun _ => Prog.ret ()) >>= fun _ => setValues pin rest
      rw [Prog.bind_assoc]
      rfl

/-- The read transfers of the two updates, with the points before and after them. -/
theorem transfer_readDir (c : Chip) (pin : Pin) (val : Int) (rest : List Int) :
    ∃ k, pointProg pin (.readDir val rest)
        = .call (.readByteData (regIodir (pin.val / 8))) k ∧
      k ((c.bank pin.bank).iodir.setWidth 32)
        = pointProg pin (.writeDir (c.bank pin.bank).iodir val rest) :=
  ⟨_, rfl, rfl⟩

theorem transfer_readPort (c : Chip) (pin : Pin) (before : Option Int) (val : Int)
    (rest : List Int) :
    ∃ k, pointProg pin (.readPort before val rest)
        = .call (.readByteData (regGpio (pin.val / 8))) k ∧
      k ((c.bank pin.bank).level.setWidth 32)
        = pointProg pin (.writePort before (c.bank pin.bank).level val rest) := by
  refine ⟨_, rfl, ?_⟩
  show (setRead _ _ _ _ >>= _) = _
  rw [setRead, if_pos (toInt_answer _)]
  rfl

/-- A client without transfers left has not started or has finished. -/
theorem point_of_ret {pin : Pin} {p : Point} (h : pointProg pin p = .ret ()) :
    p = .absent ∨ ∃ val, p = .finished val := by
  cases p with
  | absent => exact Or.inl rfl
  | finished val => exact Or.inr ⟨val, rfl⟩
  | readDir val rest => cases h
  | writeDir read val rest => cases h
  | readPort before val rest => cases h
  | writePort before read val rest => cases h

/-! ## The invariant -/

structure ClientsInv (scripts : Pin → Option Script) (c : Chip) (pc : Pin → Point) : Prop where
  last : ∀ i, (pc i).last = (scripts i).map Script.last
  output : ∀ i, (pc i).IsOutput → c.isInput i = false
  value : ∀ i v, (pc i).value = some v → c.latch i = decide (v ≠ 0)
  dir : ∀ i read val rest, pc i = .writeDir read val rest →
    ∀ j, j.bank = i.bank → (pc j).IsOutput → read.getLsbD j.bit = false
  port : ∀ i before read val rest, pc i = .writePort before read val rest →
    ∀ j v, j.bank = i.bank → (pc j).value = some v → read.getLsbD j.bit = decide (v ≠ 0)

theorem Point.isOutput_of_value {p : Point} {v : Int} (h : p.value = some v) : p.IsOutput := by
  cases p <;> simp_all [Point.value, Point.IsOutput]

/-- An output whose value has been set is driven at it. -/
theorem ClientsInv.level {scripts : Pin → Option Script} {c : Chip} {pc : Pin → Point}
    (h : ClientsInv scripts c pc) {i : Pin} {v : Int} (hv : (pc i).value = some v) :
    c.level i = decide (v ≠ 0) := by
  rw [Chip.level_of_output (h.output i (Point.isOutput_of_value hv))]
  exact h.value i v hv

section

variable {scripts : Pin → Option Script} {c : Chip} {pc : Pin → Point} {i : Pin} {p : Point}

theorem last_update (h : ClientsInv scripts c pc) (hp : p.last = (pc i).last) (j : Pin) :
    (Function.update pc i p j).last = (scripts j).map Script.last := by
  by_cases hji : j = i
  · subst hji
    rw [Function.update_self, hp, h.last j]
  · rw [Function.update_of_ne hji, h.last j]

theorem isOutput_update (hp : p.IsOutput → (pc i).IsOutput) {j : Pin}
    (hj : (Function.update pc i p j).IsOutput) : (pc j).IsOutput := by
  by_cases hji : j = i
  · subst hji
    rw [Function.update_self] at hj
    exact hp hj
  · rwa [Function.update_of_ne hji] at hj

theorem value_update (hp : ∀ v, p.value = some v → (pc i).value = some v) {j : Pin} {v : Int}
    (hj : (Function.update pc i p j).value = some v) : (pc j).value = some v := by
  by_cases hji : j = i
  · subst hji
    rw [Function.update_self] at hj
    exact hp v hj
  · rwa [Function.update_of_ne hji] at hj

/-- A read: the byte to be written is what has just been read. -/
theorem inv_read (h : ClientsInv scripts c pc) (hlast : p.last = (pc i).last)
    (hout : p.IsOutput → (pc i).IsOutput) (hval : ∀ v, p.value = some v → (pc i).value = some v)
    (hdir : ∀ read val rest, p = .writeDir read val rest → read = (c.bank i.bank).iodir)
    (hport : ∀ before read val rest, p = .writePort before read val rest →
      read = (c.bank i.bank).level) :
    ClientsInv scripts c (Function.update pc i p) where
  last := last_update h hlast
  output j hj := h.output j (isOutput_update hout hj)
  value j v hj := h.value j v (value_update hval hj)
  dir := by
    intro j read val rest hj q hq hqo
    by_cases hji : j = i
    · subst hji
      rw [Function.update_self] at hj
      rw [hdir read val rest hj, ← hq]
      exact h.output q (isOutput_update hout hqo)
    · rw [Function.update_of_ne hji] at hj
      exact h.dir j read val rest hj q hq (isOutput_update hout hqo)
  port := by
    intro j before read val rest hj q v hq hqv
    by_cases hji : j = i
    · subst hji
      rw [Function.update_self] at hj
      rw [hport before read val rest hj, ← hq]
      exact h.level (value_update hval hqv)
    · rw [Function.update_of_ne hji] at hj
      exact h.port j before read val rest hj q v hq (value_update hval hqv)

/-- IODIR is written: the pin becomes an output, and no other output changes back. Bytes read
from IODIR before would now be out of date, but there are none. -/
theorem inv_writeDir {read : U8} {val : Int} {rest : List Int} (h : ClientsInv scripts c pc)
    (hi : pc i = .writeDir read val rest)
    (hsole : ∀ j, j ≠ i → j.bank = i.bank → ∀ read' val' rest',
      pc j ≠ .writeDir read' val' rest') :
    ClientsInv scripts (c.withIodir i.bank (updated read i false))
      (Function.update pc i (.readPort none val rest)) where
  last := last_update h (by rw [hi]; rfl)
  output := by
    intro j hj
    rw [withIodir_isInput, getLsbD_updated]
    by_cases hji : j = i
    · subst hji
      rw [if_pos rfl, if_pos rfl]
    · rw [Function.update_of_ne hji] at hj
      by_cases hbank : j.bank = i.bank
      · rw [if_pos hbank, if_neg (fun hbit => hji (Pin.ext hbank hbit))]
        exact h.dir i read val rest hi j hbank hj
      · rw [if_neg hbank]
        exact h.output j hj
  value j v hj := by
    rw [withIodir_latch]
    exact h.value j v (value_update (fun v hv => by simp [Point.value] at hv) hj)
  dir := by
    intro j read' val' rest' hj q hq hqo
    by_cases hji : j = i
    · subst hji
      rw [Function.update_self] at hj
      exact Point.noConfusion hj
    · rw [Function.update_of_ne hji] at hj
      by_cases hbank : j.bank = i.bank
      · exact absurd hj (hsole j hji hbank read' val' rest')
      · -- the pin that has become an output is in another bank
        have hqi : q ≠ i := fun hqi => hbank (by rw [← hq, hqi])
        rw [Function.update_of_ne hqi] at hqo
        exact h.dir j read' val' rest' hj q hq hqo
  port := by
    intro j before read' val' rest' hj q v hq hqv
    have hji : j ≠ i := by
      rintro rfl
      rw [Function.update_self] at hj
      exact Point.noConfusion hj
    rw [Function.update_of_ne hji] at hj
    exact h.port j before read' val' rest' hj q v hq
      (value_update (fun v hv => by simp [Point.value] at hv) hqv)

/-- GPx is written: the pin has its value, and no other output loses its own. -/
theorem inv_writePort {before : Option Int} {read : U8} {val : Int} {rest : List Int}
    (h : ClientsInv scripts c pc) (hi : pc i = .writePort before read val rest)
    (hsole : ∀ j, j ≠ i → j.bank = i.bank → ∀ before' read' val' rest',
      pc j ≠ .writePort before' read' val' rest') :
    ClientsInv scripts (c.withOlat i.bank (updated read i (val ≠ 0)))
      (Function.update pc i (.next val rest)) := by
  have hnextval : (Point.next val rest).value = some val := by cases rest <;> rfl
  have hnextlast : (Point.next val rest).last = (pc i).last := by
    rw [hi]
    cases rest with
    | nil => rfl
    | cons val' rest => exact congrArg some (List.getLastD_cons ..).symm
  have hout : (Point.next val rest).IsOutput → (pc i).IsOutput := by
    rw [hi]
    exact fun _ => trivial
  refine ⟨last_update h hnextlast, ?_, ?_, ?_, ?_⟩
  · intro j hj
    rw [withOlat_isInput]
    exact h.output j (isOutput_update hout hj)
  · intro j v hj
    rw [withOlat_latch, getLsbD_updated]
    by_cases hji : j = i
    · subst hji
      rw [Function.update_self, hnextval] at hj
      rw [if_pos rfl, if_pos rfl, Option.some.inj hj]
    · rw [Function.update_of_ne hji] at hj
      by_cases hbank : j.bank = i.bank
      · rw [if_pos hbank, if_neg (fun hbit => hji (Pin.ext hbank hbit))]
        exact h.port i before read val rest hi j v hbank hj
      · rw [if_neg hbank]
        exact h.value j v hj
  · intro j read' val' rest' hj q hq hqo
    have hji : j ≠ i := by
      rintro rfl
      rw [Function.update_self] at hj
      cases rest <;> exact Point.noConfusion hj
    rw [Function.update_of_ne hji] at hj
    exact h.dir j read' val' rest' hj q hq (isOutput_update hout hqo)
  · intro j before' read' val' rest' hj q v hq hqv
    have hji : j ≠ i := by
      rintro rfl
      rw [Function.update_self] at hj
      cases rest <;> exact Point.noConfusion hj
    rw [Function.update_of_ne hji] at hj
    by_cases hbank : j.bank = i.bank
    · exact absurd hj (hsole j hji hbank before' read' val' rest')
    · -- the pin that has got its value is in another bank
      have hqi : q ≠ i := fun hqi => hbank (by rw [← hq, hqi])
      rw [Function.update_of_ne hqi] at hqv
      exact h.port j before' read' val' rest' hj q v hq hqv

/-- A change from outside. -/
theorem inv_change (h : ClientsInv scripts c pc) (e : InputChange) :
    ClientsInv scripts (c.change e) pc := by
  have hsame := sameRegs_change c e
  refine ⟨h.last, fun j hj => ?_, fun j v hj => ?_, h.dir, h.port⟩
  · have hin := h.output j hj
    unfold Chip.isInput at hin ⊢
    rw [(hsame j.bank).2]
    exact hin
  · have hlatch := h.value j v hj
    unfold Chip.latch at hlatch ⊢
    rw [(hsame j.bank).1]
    exact hlatch

end

/-! ## Runs -/

/-- Where a client starts. -/
def startPoint (scripts : Pin → Option Script) (i : Pin) : Point :=
  match scripts i with
  | none => .absent
  | some s => .readDir s.first s.rest

theorem clients_at (c : Chip) (scripts : Pin → Option Script) :
    (clients c scripts).At pointProg (startPoint scripts) := by
  intro i
  show clientProg scripts i = pointProg i (startPoint scripts i)
  unfold clientProg startPoint
  cases scripts i <;> rfl

theorem inv_start (c : Chip) (scripts : Pin → Option Script) :
    ClientsInv scripts c (startPoint scripts) := by
  have hstart : ∀ i, startPoint scripts i = .absent ∨
      ∃ s, scripts i = some s ∧ startPoint scripts i = .readDir s.first s.rest := by
    intro i
    unfold startPoint
    cases scripts i with
    | none => exact Or.inl rfl
    | some s => exact Or.inr ⟨s, rfl, rfl⟩
  refine ⟨?_, ?_, ?_, ?_, ?_⟩
  · intro i
    unfold startPoint
    cases scripts i <;> rfl
  · intro i hi
    rcases hstart i with h | ⟨s, -, h⟩ <;> exact absurd hi (by simp [h, Point.IsOutput])
  · intro i v hi
    rcases hstart i with h | ⟨s, -, h⟩ <;> exact absurd hi (by simp [h, Point.value])
  · intro i read val rest hi
    rcases hstart i with h | ⟨s, -, h⟩ <;> exact absurd hi (by simp [h])
  · intro i before read val rest hi
    rcases hstart i with h | ⟨s, -, h⟩ <;> exact absurd hi (by simp [h])

/-- A transfer of a client leads to another point and keeps the invariant. -/
theorem inv_transfer {scripts : Pin → Option Script} {w : Parties Chip Pin Smbus S32 Unit}
    {pc : Pin → Point} {i : Pin} {op : Smbus} {k : S32 → SmbusProg Unit}
    (hat : w.At pointProg pc) (h : ClientsInv scripts w.dev pc) (hfree : NoOverlap w (.step i))
    (hk : pointProg i (pc i) = .call op k) :
    ∃ p, k (w.dev.serve op).2 = pointProg i p ∧
      ClientsInv scripts (w.dev.serve op).1 (Function.update pc i p) := by
  have hregister : ∀ j : Pin, j.bank = i.bank → j.val / 8 = i.val / 8 :=
    fun j hj => congrArg Fin.val hj
  cases hi : pc i with
  | absent => rw [hi] at hk; cases hk
  | finished val => rw [hi] at hk; cases hk
  | readDir val rest =>
      rcases transfer_readDir w.dev i val rest with ⟨k', hprog, hnext⟩
      rw [hi, hprog] at hk
      injection hk with hop hk
      subst hop hk
      rw [serve_readIodir]
      refine ⟨_, hnext, inv_read h (by rw [hi]; rfl) False.elim (by simp [Point.value]) ?_ ?_⟩
      · intro read val' rest' hp
        injection hp with hp
        exact hp.symm
      · intro before read val' rest' hp
        exact Point.noConfusion hp
  | readPort before val rest =>
      rcases transfer_readPort w.dev i before val rest with ⟨k', hprog, hnext⟩
      rw [hi, hprog] at hk
      injection hk with hop hk
      subst hop hk
      rw [serve_readGpio]
      refine ⟨_, hnext, inv_read h (by rw [hi]; rfl) (fun _ => by rw [hi]; trivial)
        (fun v hv => by rw [hi]; exact hv) ?_ ?_⟩
      · intro read val' rest' hp
        exact Point.noConfusion hp
      · intro before' read val' rest' hp
        injection hp with _ hp
        exact hp.symm
  | writeDir read val rest =>
      have hprog := hat i
      rw [hi] at hk hprog
      injection hk with hop hk
      subst hop hk
      rw [serve_writeIodir]
      -- a second client about to write this register would overlap
      refine ⟨_, rfl, inv_writeDir h hi fun j hji hbank read' val' rest' hj => ?_⟩
      have hj' := hat j
      rw [hj, pointProg, hregister j hbank] at hj'
      have hcases := hfree j hji
      rw [hprog, hj'] at hcases
      exact hcases.elim (by simp [pendingWrite, pointProg]) (fun hne => hne rfl)
  | writePort before read val rest =>
      have hprog := hat i
      rw [hi] at hk hprog
      injection hk with hop hk
      subst hop hk
      rw [serve_writeGpio]
      refine ⟨_, (pointProg_next i val rest).symm,
        inv_writePort h hi fun j hji hbank before' read' val' rest' hj => ?_⟩
      have hj' := hat j
      rw [hj, pointProg, hregister j hbank] at hj'
      have hcases := hfree j hji
      rw [hprog, hj'] at hcases
      exact hcases.elim (by simp [pendingWrite, pointProg]) (fun hne => hne rfl)

/-- **Clients whose updates do not overlap.** In every run in which no write of a register falls
between another client's read and write of it, a client that has finished finds its pin an
output, driven at the value of its last call. -/
theorem driven_of_noOverlap (c : Chip) (scripts : Pin → Option Script)
    (es : List (PartyEvent Pin InputChange)) (w : Parties Chip Pin Smbus S32 Unit)
    (hfree : Along clientStep (fun _ => NoOverlap) (clients c scripts) es)
    (hrun : run clientStep (clients c scripts) es = some w) :
    ∀ i s, scripts i = some s → w.prog i = .ret () →
      w.dev.isInput i = false ∧ w.dev.level i = decide (s.last ≠ 0) := by
  obtain ⟨pc, hat, h⟩ : ∃ pc, w.At pointProg pc ∧ ClientsInv scripts w.dev pc := by
    refine party_induct pointProg (I := ClientsInv scripts) (clients_at c scripts)
      (inv_start c scripts) ?_ ?_ es w hfree hrun
    · intro w pc i op k s a hat h hfree hk hs
      obtain ⟨rfl, rfl⟩ : (w.dev.serve op).1 = s ∧ (w.dev.serve op).2 = a :=
        Prod.ext_iff.mp (Option.some.inj hs)
      exact inv_transfer hat h hfree hk
    · intro w pc e s _ h _ hs
      obtain rfl := Option.some.inj hs
      exact inv_change h e
  intro i s hs hret
  have hlast := h.last i
  have hprog := hat i
  rw [hs] at hlast
  rw [hret] at hprog
  rcases point_of_ret hprog.symm with hi | ⟨val, hi⟩
  · rw [hi] at hlast
    exact absurd hlast (by simp [Point.last])
  · have hval : (pc i).value = some s.last := by
      rw [hi] at hlast ⊢
      exact hlast
    exact ⟨h.output i (Point.isOutput_of_value hval), h.level hval⟩

/-- A client on pin 0, which sets it and clears it again, and a client on pin 1, which sets
it. -/
def twoScripts : Pin → Option Script
  | ⟨0, _⟩ => some ⟨1, [0]⟩
  | ⟨1, _⟩ => some ⟨1, []⟩
  | _ => none

theorem driven_of_noOverlap_run :
    ∃ w, run clientStep (clients idleChip twoScripts)
        [.step 0, .step 0, .step 1, .step 1, .step 0, .step 0, .step 1, .step 1, .step 0,
          .step 0] = some w ∧
      ∀ i s, twoScripts i = some s → w.prog i = .ret () →
        w.dev.isInput i = false ∧ w.dev.level i = decide (s.last ≠ 0) := by
  have hrun : (run clientStep (clients idleChip twoScripts)
      [.step 0, .step 0, .step 1, .step 1, .step 0, .step 0, .step 1, .step 1, .step 0,
        .step 0]).isSome = true := by
    decide +kernel
  have hcheck : checkAlong clientStep NoOverlap (clients idleChip twoScripts)
      [.step 0, .step 0, .step 1, .step 1, .step 0, .step 0, .step 1, .step 1, .step 0,
        .step 0] = true := by
    decide +kernel
  rcases Option.isSome_iff_exists.mp hrun with ⟨w, hw⟩
  exact ⟨w, hw, driven_of_noOverlap _ _ _ w (along_of_checkAlong _ _ hcheck) hw⟩

/-- A client has no transfer left. -/
def finished : SmbusProg Unit → Bool
  | .ret _ => true
  | .call .. => false

/-- **Two clients, one lost value.** Both read the port before either writes it, so that the
write of pin 0 takes the new value of pin 1 back. -/
theorem lost_update :
    ∃ w, run clientStep (clients idleChip twoScripts)
        [.step 0, .step 0, .step 1, .step 1, .step 0, .step 0, .step 0, .step 1, .step 1,
          .step 0] = some w ∧
      (∀ i, w.prog i = .ret ()) ∧
      ¬ ∀ i s, twoScripts i = some s →
        w.dev.isInput i = false ∧ w.dev.level i = decide (s.last ≠ 0) := by
  have hrun : (run clientStep (clients idleChip twoScripts)
      [.step 0, .step 0, .step 1, .step 1, .step 0, .step 0, .step 0, .step 1, .step 1,
        .step 0]).any (fun w => decide (∀ i, finished (w.prog i) = true) &&
          !w.dev.level 1) = true := by
    decide +kernel
  rcases (Option.any_eq_true _ _).mp hrun with ⟨w, hw, hlost⟩
  rw [Bool.and_eq_true, decide_eq_true_eq, Bool.not_eq_true'] at hlost
  refine ⟨w, hw, fun i => ?_, fun hdriven => ?_⟩
  · have hi := hlost.1 i
    cases hp : w.prog i with
    | ret a => rfl
    | call op k =>
        rw [hp] at hi
        exact Bool.noConfusion hi
  · have hlevel := (hdriven 1 ⟨1, []⟩ rfl).2
    rw [hlost.2] at hlevel
    exact Bool.noConfusion hlevel

end LinuxDrivers.Gpio
