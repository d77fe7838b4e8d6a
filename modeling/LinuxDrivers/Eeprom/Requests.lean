import LinuxDrivers.Eeprom.Calls

set_option autoImplicit false

/-! # One call of `eep_write`

Two properties of a single call, for every position of the cursor and every length of the
request.

* `eepWrite_inPage`: no message crosses a page, whatever the count is and whichever messages
  the chip refuses. This holds also where the unsigned difference `count - remain_in_page`
  wraps.
* `writesExactly_iff`: with every message acknowledged, the call writes exactly the request
  if and only if the request reaches the end of the page the cursor is in. A shorter request
  is written up to the end of the page and further, with bytes the user never gave. -/

namespace LinuxDrivers.Eeprom

open Lib

/-! ## Messages and pages -/

/-- The message carries between one byte and a page of bytes, for cells of one page. This is so of
the arguments and of what is put on the bus: two bytes of address, `len` bytes of data, which go to
as many cells, one after the other, in the page of the first one. -/
structure Sent.InPage (m : Sent) : Prop where
  one_le : 1 ≤ m.len
  le_page : m.len ≤ EEP_PAGE_SIZE
  reg_nonneg : 0 ≤ m.reg_addr
  in_page : m.reg_addr % EEP_PAGE_SIZE + m.len ≤ EEP_PAGE_SIZE
  wire_length : m.wire.length = 2 + m.len
  cells_eq : m.cells = List.range' (m.reg_addr.toNat % EEP_SIZE) m.len
  same_page : ∀ c ∈ m.cells,
    c / EEP_PAGE_SIZE = m.reg_addr.toNat % EEP_SIZE / EEP_PAGE_SIZE

/-- The messages of a call, wherever it ends. -/
def sentAt (r : Except Stop Wr) : List Sent := (atEnd r).2.sent

/-- `len` bytes for the cells from `reg` on. -/
structure Sent.Carries (m : Sent) (reg len : Nat) : Prop where
  reg_eq : m.reg_addr = reg
  len_eq : m.len = len
  wire_eq : ∃ bytes : List U8, bytes.length = len ∧ m.wire = regBytes reg ++ bytes

theorem Sent.Carries.inPage {m : Sent} {reg len : Nat} (h : m.Carries reg len) (hpos : 0 < len)
    (hpage : reg % 128 + len ≤ 128) : m.InPage := by
  rcases h.wire_eq with ⟨bytes, hbytes, hwire⟩
  have hreg : m.reg_addr.toNat = reg := by rw [h.reg_eq, Int.toNat_natCast]
  have hcells : m.cells = List.range' (reg % 65536) len := by
    rw [Sent.cells, hwire, wireCells_regBytes_mod bytes (by rw [hbytes]; exact hpage), hbytes]
  constructor
  · rw [h.len_eq]
    exact hpos
  · show m.len ≤ 128
    rw [h.len_eq]
    omega
  · rw [h.reg_eq]
    omega
  · show m.reg_addr % (128 : Nat) + m.len ≤ (128 : Nat)
    rw [h.reg_eq, h.len_eq]
    omega
  · rw [hwire, List.length_append, hbytes, h.len_eq]
    rfl
  · rw [hreg, h.len_eq]
    exact hcells
  · intro c hc
    rw [hcells, List.mem_range'_1] at hc
    rw [hreg]
    show c / 128 = reg % 65536 / 128
    omega

section

variable (ctx : WrCtx) {w : Wr} {p off : Nat}

theorem transacWrite_wire {chip chip' : Chip} {ack : Bool} {reg offset retval : Int} {len : Nat}
    {wire : List U8} (hlen : len ≤ 128)
    (h : transacWrite ctx chip ack reg offset len = .ok (retval, chip', wire)) :
    retval = (if ack then (len : Int) else -1) ∧
      ∃ bytes : List U8, bytes.length = len ∧ wire = regBytes reg ++ bytes := by
  unfold transacWrite at h
  cases hload : load ctx.heap ctx.data offset.toNat len with
  | error f =>
      rw [hload] at h
      cases h
  | ok bytes =>
      have hbytes : bytes.length = len := load_length hload
      have hret : toInt len = len := toInt_natCast (by omega)
      simp only [hload, take_wire reg hbytes.le hlen, hret] at h
      split_ifs at h ⊢ with hack
      all_goals
        obtain ⟨rfl, -, rfl⟩ : _ ∧ _ ∧ _ := by simpa using h
        exact ⟨rfl, bytes, hbytes, rfl⟩

/-- One message: it carries `len` bytes for the cells after `off` bytes, unless the copy into the
message faults. If the call goes on, it goes on `len` bytes further. -/
theorem writeChunk_sent (len : Nat) (hw : w.At p off) (hlen : len ≤ 128) :
    (∀ m ∈ sentAt (writeChunk ctx len w), m ∈ w.sent ∨ m.Carries (p + off) len) ∧
    ∀ w', writeChunk ctx len w = .ok w' → w'.At p (off + len) := by
  cases hsend : transacWrite ctx w.chip (ctx.ack w.sent.length) w.reg_addr w.offset len with
  | error f =>
      simp only [writeChunk, hsend]
      exact ⟨fun m hm => Or.inl hm, by simp⟩
  | ok r =>
      rcases r with ⟨retval, chip, wire⟩
      rcases transacWrite_wire ctx hlen hsend with ⟨hret, bytes, hbytes, hwire⟩
      rw [hw.reg] at hwire
      have hmem : ∀ m ∈ w.sent ++ [⟨w.reg_addr, w.current_pointer, w.offset, len, ctx.count, wire,
          ctx.ack w.sent.length⟩], m ∈ w.sent ∨ m.Carries (p + off) len := by
        intro m hm
        rcases List.mem_append.mp hm with hm | hm
        · exact Or.inl hm
        · rw [List.mem_singleton.mp hm]
          exact Or.inr ⟨hw.reg, rfl, bytes, hbytes, hwire⟩
      simp only [writeChunk, hsend]
      split_ifs with hneg
      · -- a refused message is on the bus all the same, and it is the last one
        exact ⟨hmem, by simp⟩
      · refine ⟨hmem, ?_⟩
        rintro w' hw'
        obtain rfl := Except.ok.inj hw'
        exact hw.next len _ _ _

/-- A list that keeps to the pages sends messages that do. -/
theorem sendAll_inPage (p : Nat) :
    ∀ (ls : List Nat) (off : Nat) (w : Wr), w.At p off → Planned p off ls →
      ∀ m ∈ sentAt (sendAll ctx ls w), m ∈ w.sent ∨ m.InPage := by
  intro ls
  induction ls with
  | nil =>
      intro off w _ _ m hm
      exact Or.inl hm
  | cons l ls ih =>
      intro off w hw hplan m hm
      rcases hplan with ⟨hpos, hpage, hrest⟩
      rcases writeChunk_sent ctx l hw (by omega) with ⟨hsent, hnext⟩
      have hin : ∀ x ∈ sentAt (writeChunk ctx l w), x ∈ w.sent ∨ x.InPage :=
        fun x hx => (hsent x hx).imp_right fun hcarries => hcarries.inPage hpos hpage
      rw [sendAll] at hm
      cases hc : writeChunk ctx l w with
      | error s =>
          rw [hc] at hm hin
          exact hin m hm
      | ok w₁ =>
          rw [hc] at hm hin
          rcases ih (off + l) w₁ (hnext w₁ hc) hrest m hm with hm | hm
          · exact hin m hm
          · exact Or.inr hm

end

/-- **No write message crosses a page**, for every cursor, every count and every pattern of
refused messages. -/
theorem eepWrite_inPage (a : Arch) (k : Kern) (c : WriteCall) (h0 : 0 ≤ k.dev.current_pointer) :
    ∀ m ∈ (eepWrite a k c).sent, m.InPage := by
  intro m hm
  rcases Int.eq_ofNat_of_zero_le h0 with ⟨p, hp⟩
  unfold eepWrite at hm
  split_ifs at hm with hkill heof hpos
  · cases hm
  · cases hm
  · cases hm
  cases hcopy : copyFromUser k.heap k.dev.data c.buf
      (clampWrite a k.dev.current_pointer c.count) with
  | error f =>
      simp only [hcopy] at hm
      cases hm
  | ok r =>
      rcases r with ⟨left, heap⟩
      simp only [hcopy] at hm
      split_ifs at hm with hleft
      · cases hm
      -- the messages are those of the planned list
      have hstart : (⟨p, p, 0, 0, k.chip, []⟩ : Wr).At p 0 := ⟨rfl, rfl, rfl⟩
      rw [hp] at hm
      have hsent : m ∈ sentAt (eepWriteBody a ⟨heap, k.dev.data, clampWrite a p c.count, c.ack⟩
          ⟨p, p, 0, 0, k.chip, []⟩) := hm
      unfold sentAt at hsent
      rw [atEnd_eepWriteBody] at hsent
      exact (sendAll_inPage _ p _ 0 _ hstart (planned_plan a) m hsent).resolve_left (by simp)

/-- The device that `eep_open` leaves, with the cursor moved to `p`. -/
def openedAt (p : Nat) : Kern :=
  let k := (eepOpen true ⟨⟨none, 0⟩, Heap.empty, blankChip⟩).2
  { k with dev := { k.dev with current_pointer := p } }

theorem openedAt_buffered (p : Nat) : Buffered (openedAt p) :=
  ⟨_, (eepOpen_true ⟨⟨none, 0⟩, Heap.empty, blankChip⟩).2.2.2, rfl⟩

/-- A byte in the middle of a page, where the difference wraps: two messages are sent. -/
theorem eepWrite_inPage_byte :
    (eepWrite .lp64 (openedAt 1) (writeCall [7])).sent.length = 2 ∧
      ∀ m ∈ (eepWrite .lp64 (openedAt 1) (writeCall [7])).sent, m.InPage :=
  ⟨by decide +kernel, eepWrite_inPage .lp64 _ _ (by decide)⟩

/-! ## The whole request -/

/-- `INT_MAX`. The VFS cuts the counts of read and write calls below it. -/
def INT_MAX : Nat := 2 ^ 31 - 1

/-- `eep_write` of a whole buffer at the file position `f_pos`, every message acknowledged. -/
def requestCall (buf : List U8) (f_pos : Int) : WriteCall := { writeCall buf with f_pos := f_pos }

/-- The bytes of the request that are left of the chip. -/
def requestLen (p : Nat) (buf : List U8) : Nat := min buf.length (EEP_SIZE - p)

/-- The call writes the request, as far as the chip goes, and nothing else. -/
structure WritesExactly (a : Arch) (k : Kern) (p : Nat) (buf : List U8) (f_pos : Int) : Prop where
  ret : (eepWrite a k (requestCall buf f_pos)).ret = .ok (requestLen p buf)
  cursor : (eepWrite a k (requestCall buf f_pos)).kern.dev.current_pointer
    = (p + requestLen p buf : Nat)
  written : ∀ i, i < requestLen p buf →
    buf[i]? = some ((eepWrite a k (requestCall buf f_pos)).kern.chip.cell (p + i))
  kept : ∀ i, i < p ∨ p + requestLen p buf ≤ i →
    (eepWrite a k (requestCall buf f_pos)).kern.chip.cell i = k.chip.cell i

/-- **When a request is written exactly.** With the buffer of the device live and every message
acknowledged, the call writes exactly the request if and only if the request reaches the end
of the page that the cursor is in. -/
theorem writesExactly_iff (a : Arch) (k : Kern) (p : Nat) (buf : List U8) (f_pos : Int)
    (hp : k.dev.current_pointer = p) (hlt : p < EEP_SIZE) (hk : Buffered k)
    (hcount : buf.length ≤ INT_MAX) (hpos : f_pos < EEP_SIZE) :
    WritesExactly a k p buf f_pos ↔ remainInPage p ≤ buf.length := by
  have h32 := a.two_pow_32_le
  have hE : EEP_SIZE = 65536 := rfl
  have hI : INT_MAX = 2147483647 := rfl
  have hclamp : clampWrite a p buf.length = requestLen p buf := clampWrite_eq a hlt (by omega)
  have hle : requestLen p buf ≤ buf.length := Nat.min_le_left _ _
  have hsends : (requestCall buf f_pos).Sends a k := by
    refine ⟨rfl, by rw [hp]; exact Int.ofNat_lt.mpr hlt, hpos, ?_⟩
    rw [hp]
    show clampWrite a p buf.length ≤ buf.length
    rw [hclamp]
    exact hle
  constructor
  · intro h
    by_contra hshort
    rw [remainInPage_natCast] at hshort
    refine eepWrite_of_short a hp hk hsends (fun _ => rfl) hclamp ?_ h.ret
    omega
  · intro hpage
    have hfits : (requestCall buf f_pos).Fits a k := by
      refine ⟨by rw [hp]; exact hpage, ?_⟩
      rw [hp]
      show (p : Int) + buf.length < _
      omega
    obtain ⟨ret, n, hret, hcur, -, hchip, -, hall⟩ := eepWrite_of_fits a hp hk (fun _ => hfits)
    obtain ⟨hn, hretn⟩ := hall hsends (fun _ => rfl)
    obtain rfl : n = requestLen p buf := hn
    change _ = splice k.chip.cell p (buf.take (requestLen p buf)) at hchip
    have hlen : (buf.take (requestLen p buf)).length = requestLen p buf := by
      rw [List.length_take]
      omega
    refine ⟨by rw [hret, hretn], hcur, ?_, ?_⟩
    · intro i hi
      have hi' : i < buf.length := by omega
      rw [hchip, splice, if_pos (Nat.le_add_right p i), Nat.add_sub_cancel_left,
        List.getElem?_take_of_lt hi, List.getElem?_eq_getElem hi', Option.getD_some]
    · rintro i (hi | hi)
      · rw [hchip, splice_of_lt _ _ hi]
      · rw [hchip, splice_of_ge _ _ (by rw [hlen]; exact hi)]

/-- The last byte of a page and the first two of the next one. -/
theorem writesExactly_page_end : WritesExactly .lp64 (openedAt 127) 127 [1, 2, 3] 5 :=
  (writesExactly_iff .lp64 (openedAt 127) 127 [1, 2, 3] 5 rfl (by decide) (openedAt_buffered 127)
    (by decide) (by decide)).mpr (by decide)

/-- **One byte in the middle of a page is not written exactly**: the call writes and returns 129. -/
theorem not_writesExactly_byte : Buffered (openedAt 1) ∧
    ¬ WritesExactly .lp64 (openedAt 1) 1 [7] 0 := by
  refine ⟨openedAt_buffered 1, fun h => ?_⟩
  have hret : (eepWrite .lp64 (openedAt 1) (requestCall [7] 0)).ret.toOption = some 129 := by
    decide +kernel
  rw [h.ret] at hret
  exact absurd hret (by decide)

end LinuxDrivers.Eeprom
