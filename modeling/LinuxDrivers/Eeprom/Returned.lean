import LinuxDrivers.Eeprom.Messages
import LinuxDrivers.Eeprom.Requests

set_option autoImplicit false

/-! # What the returned value of `eep_write` tells

A caller takes a returned `r ≥ 0` as the number of its bytes that are on the chip, and a
negative value as "nothing happened" (`TellsCommitted`). The code returns -1 at the first
message that is refused, also when earlier ones have been taken and the cursor has moved, and
a request that ends inside its page returns more than was asked for. `tellsCommitted_iff` says
that these are the only two ways it goes wrong (`AllOrNothing`). -/

namespace LinuxDrivers.Eeprom

open Lib

/-- The call at `p` returns a value that tells what it has committed. -/
def TellsCommitted (a : Arch) (k : Kern) (p : Nat) (c : WriteCall) : Prop :=
  ∃ r, (eepWrite a k c).ret = .ok r ∧
    (0 ≤ r → r = ackedLen (eepWrite a k c).sent ∧ r ≤ c.count ∧
      (eepWrite a k c).kern.dev.current_pointer = p + r) ∧
    (r < 0 → ackedLen (eepWrite a k c).sent = 0 ∧
      (eepWrite a k c).kern.chip.cell = k.chip.cell ∧
      (eepWrite a k c).kern.dev.current_pointer = p)

/-- The bytes of a request that reaches the end of its page: what is left of the chip, unless
the end of the request overflows. -/
def writeLen (a : Arch) (p count : Nat) : Nat :=
  if p + count < 2 ^ a.bits then min count (EEP_SIZE - p) else EEP_SIZE

/-- The first message is refused, or the request reaches the end of its page and no message
to one of its pages is refused. -/
def AllOrNothing (a : Arch) (p : Nat) (c : WriteCall) : Prop :=
  c.ack 0 = false ∨
    remainInPage p ≤ c.count ∧
      ∀ i, EEP_PAGE_SIZE * (p / EEP_PAGE_SIZE + i) < p + writeLen a p c.count → c.ack i = true

section

variable (a : Arch) {p count : Nat}

theorem clampWrite_eq_writeLen (hp : p < EEP_SIZE) (hcount : count < 2 ^ a.bits) :
    clampWrite a p count = writeLen a p count := by
  unfold writeLen
  split_ifs with hover
  · exact clampWrite_eq a hp hover
  · exact clampWrite_of_overflow a hp hcount (by omega)

/-- A request that reaches the end of its page plans what it asks for, any other one more. -/
theorem plan_sum_le_iff (hp : p < EEP_SIZE) (hcount : count < 2 ^ a.bits) :
    (plan a p (writeLen a p count)).sum ≤ count ↔ headLen p ≤ count := by
  have h32 := a.two_pow_32_le
  have hE : EEP_SIZE = 65536 := rfl
  have hhead : headLen p < 128 := Nat.mod_lt _ (by decide)
  have hrest : headLen p ≤ EEP_SIZE - p := headLen_le hp
  unfold writeLen
  by_cases hpage : headLen p ≤ count
  · refine iff_of_true ?_ hpage
    split_ifs with hover
    · rw [plan_sum a (by omega) (by omega)]
      omega
    · rw [plan_sum a (Nat.le_refl _) (by omega)]
      omega
  · refine iff_of_false ?_ hpage
    rw [if_pos (by omega), Nat.min_eq_left (by omega)]
    have := lt_plan_sum_of_short a (n := count) (p := p) (by omega)
    omega

theorem plan_sum_writeLen (hp : p < EEP_SIZE) (hpage : headLen p ≤ count) :
    (plan a p (writeLen a p count)).sum = writeLen a p count := by
  have hE : EEP_SIZE = 65536 := rfl
  have hhead : headLen p < 128 := Nat.mod_lt _ (by decide)
  have hrest : headLen p ≤ EEP_SIZE - p := headLen_le hp
  unfold writeLen
  split_ifs with hover
  · exact plan_sum a (by omega) (by omega)
  · exact plan_sum a (Nat.le_refl _) (by omega)

/-- The messages of a request that reaches the end of its page are those to its pages. -/
theorem lt_plan_length_iff (hp : p < EEP_SIZE) (hpage : headLen p ≤ count) (i : Nat) :
    i < (plan a p (writeLen a p count)).length ↔
      EEP_PAGE_SIZE * (p / EEP_PAGE_SIZE + i) < p + writeLen a p count := by
  have hsum := plan_sum_writeLen a hp hpage
  by_cases hne : plan a p (writeLen a p count) = []
  · -- an empty request at the start of a page
    rw [hne] at hsum ⊢
    rw [List.sum_nil] at hsum
    have hzero : count = 0 := by
      unfold writeLen at hsum
      unfold EEP_SIZE at hsum hp
      split_ifs at hsum
      omega
    have hstart : headLen p = (128 - p % 128) % 128 := rfl
    show i < 0 ↔ 128 * (p / 128 + i) < _
    omega
  · rw [(onPages_plan a p _).lt_length_iff hne, hsum]
    rfl

end

/-! ## The ways a call ends -/

section

variable {a : Arch} {k : Kern} {c : WriteCall} {p : Nat}

theorem tellsCommitted_of_ok {r : Int} (hret : (eepWrite a k c).ret = .ok r) :
    TellsCommitted a k p c ↔
      (0 ≤ r → r = ackedLen (eepWrite a k c).sent ∧ r ≤ c.count ∧
        (eepWrite a k c).kern.dev.current_pointer = p + r) ∧
      (r < 0 → ackedLen (eepWrite a k c).sent = 0 ∧
        (eepWrite a k c).kern.chip.cell = k.chip.cell ∧
        (eepWrite a k c).kern.dev.current_pointer = p) := by
  constructor
  · rintro ⟨r', hr', h⟩
    obtain rfl : r = r' := Except.ok.inj (hret.symm.trans hr')
    exact h
  · exact fun h => ⟨r, hret, h⟩

/-- Every planned message is acknowledged. -/
theorem allOrNothing_of_acked (hlt : p < EEP_SIZE) (hcount : c.count < 2 ^ a.bits)
    (hacks : ∀ i, i < (plan a p (writeLen a p c.count)).length → c.ack i = true) :
    AllOrNothing a p c ↔ (plan a p (writeLen a p c.count)).sum ≤ c.count := by
  unfold AllOrNothing
  rw [remainInPage_natCast, Int.ofNat_le, plan_sum_le_iff a hlt hcount]
  constructor
  · rintro (hack | ⟨hpage, -⟩)
    · -- without a first message there is no head
      have hnone : plan a p (writeLen a p c.count) = [] := by
        by_contra hne
        rw [hacks 0 (List.length_pos_of_ne_nil hne)] at hack
        cases hack
      rw [← plan_sum_le_iff a hlt hcount, hnone]
      exact Nat.zero_le _
    · exact hpage
  · intro hpage
    exact Or.inr ⟨hpage, fun i hi => hacks i ((lt_plan_length_iff a hlt hpage i).mpr hi)⟩

/-- The first message that is refused is the one with the index `j`. -/
theorem allOrNothing_of_refused {j : Nat} (hlt : p < EEP_SIZE)
    (hj : j < (plan a p (writeLen a p c.count)).length) (hacks : ∀ i, i < j → c.ack i = true)
    (hack : c.ack j = false) : AllOrNothing a p c ↔ j = 0 := by
  unfold AllOrNothing
  rw [remainInPage_natCast, Int.ofNat_le]
  constructor
  · rintro (hfirst | ⟨hpage, hall⟩)
    · by_contra hpos
      rw [hacks 0 (by omega)] at hfirst
      cases hfirst
    · rw [hall j ((lt_plan_length_iff a hlt hpage j).mp hj)] at hack
      cases hack
  · rintro rfl
    exact Or.inl hack

/-- A message leaves `dev->data`: it is not the first one, and the request is short. -/
theorem not_allOrNothing_of_fault {j : Nat} (hlt : p < EEP_SIZE) (hcount : c.count < 2 ^ a.bits)
    (hj : j < (plan a p (writeLen a p c.count)).length) (hacks : ∀ i, i < j → c.ack i = true)
    (hfault : EEP_SIZE < ((plan a p (writeLen a p c.count)).take (j + 1)).sum) :
    ¬ AllOrNothing a p c := by
  have hE : EEP_SIZE = 65536 := rfl
  have hsum := take_sum_le (plan a p (writeLen a p c.count)) (j + 1)
  have hbounds := (onPages_plan a p (writeLen a p c.count)).bounds j hj
  have hle := clampWrite_le a p c.count
  rw [clampWrite_eq_writeLen a hlt hcount] at hle
  unfold AllOrNothing
  rw [remainInPage_natCast, Int.ofNat_le]
  rintro (hack | ⟨hpage, -⟩)
  · have hpos : 0 < j := by
      by_contra hzero
      obtain rfl : j = 0 := by omega
      simp only [List.take_zero, List.sum_nil] at hbounds
      omega
    rw [hacks 0 hpos] at hack
    cases hack
  · rw [plan_sum_writeLen a hlt hpage] at hsum
    omega

/-- A call that sends nothing returns an error. -/
theorem tellsCommitted_of_not_sends (hp : k.dev.current_pointer = p) (hk : Buffered k)
    (hsends : ¬ c.Sends a k) : TellsCommitted a k p c := by
  rcases eepWrite_of_not_sends a hk hsends with ⟨ret, heap, hneg, hrun, -, -⟩
  refine ⟨ret, by rw [hrun], fun h => by omega, fun _ => ?_⟩
  rw [hrun]
  exact ⟨rfl, rfl, hp⟩

end

/-- **When the returned value tells what was committed**: when the call leaves before it sends,
or sends all of its request, or none of it. -/
theorem tellsCommitted_iff (a : Arch) (k : Kern) (p : Nat) (c : WriteCall)
    (hp : k.dev.current_pointer = p) (hlt : p < EEP_SIZE) (hk : Buffered k)
    (hcount : c.count < 2 ^ a.bits) :
    TellsCommitted a k p c ↔ (c.Sends a k → AllOrNothing a p c) := by
  by_cases hsends : c.Sends a k
  swap
  · exact iff_of_true (tellsCommitted_of_not_sends hp hk hsends) fun h => absurd h hsends
  rw [show (c.Sends a k → AllOrNothing a p c) ↔ AllOrNothing a p c from
    ⟨fun h => h hsends, fun h _ => h⟩]
  rcases eepWrite_sending a hp hk hsends with
    ⟨heap, b, w, ms, j, hb, hsize, -, hsending, hleaves, hsent, hkern⟩
  rw [clampWrite_eq_writeLen a hlt hcount] at hsending hleaves
  have hacked : ackedLen (eepWrite a k c).sent
      = ((plan a p (writeLen a p c.count)).take j).sum := by
    rw [hsent]
    exact hsending.ackedLen
  have hcursor : (eepWrite a k c).kern.dev.current_pointer
      = (p + ((plan a p (writeLen a p c.count)).take j).sum : Nat) := by
    rw [hkern]
    show w.current_pointer = _
    rw [hsending.pos.cursor, Nat.zero_add]
  have hacks : ∀ i, i < j → c.ack i = true := hsending.acked rfl
  generalize hret : (eepWrite a k c).ret = ret at hleaves
  cases hleaves with
  | done hj hms =>
      rw [allOrNothing_of_acked hlt hcount (by rw [← hj]; exact hacks), tellsCommitted_of_ok hret,
        hacked, hcursor, hj, List.take_length]
      constructor
      · rintro ⟨h, -⟩
        have := (h (by omega)).2.1
        omega
      · intro hsum
        exact ⟨fun _ => ⟨by omega, by omega, by push_cast; omega⟩, fun h => by omega⟩
  | refused hj hms hack =>
      have hack' : c.ack j = false := by simpa using hack
      have hzero := (onPages_plan a p (writeLen a p c.count)).take_sum_eq_zero (Nat.le_of_lt hj)
      rw [allOrNothing_of_refused hlt hj hacks hack', tellsCommitted_of_ok hret, hacked, hcursor]
      constructor
      · rintro ⟨-, h⟩
        exact hzero.mp (h (by decide)).1
      · intro hj0
        refine ⟨fun h => by omega, fun _ => ⟨hzero.mpr hj0, ?_, ?_⟩⟩
        · rw [hkern]
          show w.chip.cell = _
          rw [hsending.chip hj0]
        · rw [hzero.mpr hj0, Nat.add_zero]
  | faulted f hj hms hfault =>
      rw [hsize, Nat.zero_add] at hfault
      refine iff_of_false ?_ (not_allOrNothing_of_fault hlt hcount hj hacks hfault)
      rintro ⟨r, hr, -⟩
      rw [hret] at hr
      cases hr

/-- `eep_write` of a whole buffer of which only the first `n` messages are acknowledged. -/
def cutCall (buf : List U8) (n : Nat) : WriteCall := { writeCall buf with ack := fun i => i < n }

/-- A request over two pages whose first message is refused. -/
theorem tellsCommitted_refused :
    TellsCommitted .lp64 (openedAt 127) 127 (cutCall [1, 2] 0) :=
  (tellsCommitted_iff .lp64 (openedAt 127) 127 (cutCall [1, 2] 0) rfl (by decide)
    (openedAt_buffered 127) (by decide)).mpr (fun _ => Or.inl rfl)

/-- **The same request, its second message refused**: -1 is returned, one byte is on the chip
and the cursor has moved. -/
theorem not_tellsCommitted_cut :
    Buffered (openedAt 127) ∧ ¬ TellsCommitted .lp64 (openedAt 127) 127 (cutCall [1, 2] 1) := by
  refine ⟨openedAt_buffered 127, ?_⟩
  rintro ⟨r, hr, -, hneg⟩
  have hret : (eepWrite .lp64 (openedAt 127) (cutCall [1, 2] 1)).ret.toOption = some (-1) := by
    decide +kernel
  have hcur : (eepWrite .lp64 (openedAt 127) (cutCall [1, 2] 1)).kern.dev.current_pointer = 128 := by
    decide +kernel
  rw [hr] at hret
  obtain rfl : r = -1 := Option.some.inj hret
  have := (hneg (by decide)).2.2
  rw [hcur] at this
  exact absurd this (by decide)

end LinuxDrivers.Eeprom
