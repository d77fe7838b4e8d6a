import LinuxDrivers.Eeprom.Calls

set_option autoImplicit false

/-! # The messages of one call of `eep_write`

`sendAll_sending` follows the sending part wherever it ends: after the last message, at a
message the chip refuses, or at a `memcpy` that leaves `dev->data`. It bounds neither the
request nor the messages; that a message lies in one page is all it uses (`OnPages`).

`onPages_plan` says where the planned messages lie: the message with the index `i` is sent to
the page with the index `p / EEP_PAGE_SIZE + i`. -/

namespace LinuxDrivers.Eeprom

open Lib

/-! ## Messages and pages -/

/-- Lengths of messages, the first one sent to the address `q` in the page `g`, every later one
to the page after that of the one before it. -/
def OnPages : Nat → Nat → List Nat → Prop
  | _, _, [] => True
  | q, g, l :: ls => 0 < l ∧ 128 * g ≤ q ∧ q + l ≤ 128 * (g + 1) ∧ OnPages (q + l) (g + 1) ls

theorem take_sum_le (ls : List Nat) (i : Nat) : (ls.take i).sum ≤ ls.sum := by
  have := List.sum_take_add_sum_drop ls i
  omega

/-- The message `i` starts in the page `g + i` and does not leave it. -/
theorem OnPages.bounds {ls : List Nat} :
    ∀ {q g : Nat}, OnPages q g ls → ∀ i, i < ls.length →
      128 * (g + i) ≤ q + (ls.take i).sum ∧ (ls.take i).sum < (ls.take (i + 1)).sum ∧
        q + (ls.take (i + 1)).sum ≤ 128 * (g + i + 1) := by
  induction ls with
  | nil =>
      intro q g _ i hi
      exact absurd hi (Nat.not_lt_zero i)
  | cons l ls ih =>
      intro q g h i hi
      rcases h with ⟨hpos, hlo, hhi, hrest⟩
      cases i with
      | zero => simp only [List.take_zero, List.sum_nil, List.take_succ_cons, List.sum_cons]; omega
      | succ i =>
          have := ih hrest i (by simpa using hi)
          simp only [List.take_succ_cons, List.sum_cons]
          omega

/-- No message is empty. -/
theorem OnPages.take_sum_eq_zero {ls : List Nat} {q g j : Nat} (h : OnPages q g ls)
    (hj : j ≤ ls.length) : (ls.take j).sum = 0 ↔ j = 0 := by
  constructor
  · intro hsum
    by_contra hpos
    have hlast := (h.bounds (j - 1) (by omega)).2.1
    rw [Nat.sub_add_cancel (by omega)] at hlast
    omega
  · rintro rfl
    rfl

/-- The last message ends in the last page. -/
theorem OnPages.sum_le {ls : List Nat} {q g : Nat} (h : OnPages q g ls) (hne : ls ≠ []) :
    q + ls.sum ≤ 128 * (g + ls.length) := by
  have hlen : 0 < ls.length := List.length_pos_of_ne_nil hne
  have hlast := (h.bounds (ls.length - 1) (by omega)).2.2
  rw [Nat.sub_add_cancel hlen, List.take_length] at hlast
  omega

/-- There is a message `i` exactly if its page starts before the end of the last message. -/
theorem OnPages.lt_length_iff {ls : List Nat} {q g i : Nat} (h : OnPages q g ls) (hne : ls ≠ []) :
    i < ls.length ↔ 128 * (g + i) < q + ls.sum := by
  constructor
  · intro hi
    have hbounds := h.bounds i hi
    have := take_sum_le ls (i + 1)
    omega
  · intro hlt
    have := h.sum_le hne
    omega

theorem onPages_append {xs ys : List Nat} :
    ∀ {q g : Nat}, OnPages q g xs → OnPages (q + xs.sum) (g + xs.length) ys →
      OnPages q g (xs ++ ys) := by
  induction xs with
  | nil =>
      intro q g _ hy
      exact hy
  | cons x xs ih =>
      intro q g hx hy
      rcases hx with ⟨hpos, hlo, hhi, hrest⟩
      refine ⟨hpos, hlo, hhi, ih hrest ?_⟩
      have hsum : q + x + xs.sum = q + (x :: xs).sum := by rw [List.sum_cons]; omega
      have hlen : g + 1 + xs.length = g + (x :: xs).length := by rw [List.length_cons]; omega
      rw [hsum, hlen]
      exact hy

theorem onPages_part {q g len : Nat} (hlo : 128 * g ≤ q) (hhi : q + len ≤ 128 * (g + 1)) :
    OnPages q g (part len) := by
  unfold part
  split
  · exact ⟨by omega, hlo, by simpa using hhi, trivial⟩
  · trivial

theorem onPages_replicate {q g : Nat} (h : q = 128 * g) (k : Nat) :
    OnPages q g (List.replicate k 128) := by
  induction k generalizing q g with
  | zero => trivial
  | succ k ih => exact ⟨by decide, by omega, by omega, ih (by omega)⟩

/-- **The planned messages**, whatever the count: the message `i` goes to the page of index
`p / 128 + i`. -/
theorem onPages_plan (a : Arch) (p n : Nat) : OnPages p (p / 128) (plan a p n) := by
  have htail : a.sizeT ((n : Int) - headLen p) % 128 < 128 := Nat.mod_lt _ (by decide)
  simp only [plan, remainInPage_natCast, lastRemain_natCast, EEP_PAGE_SIZE]
  generalize (nbPage a n (headLen p)).toNat = k
  generalize a.sizeT ((n : Int) - headLen p) % 128 = t at htail ⊢
  by_cases hstart : p % 128 = 0
  · -- no head: the pages start here
    have hhead : headLen p = 0 := by
      unfold headLen EEP_PAGE_SIZE
      omega
    rw [hhead]
    apply onPages_append (show OnPages p (p / 128) (part (0 : Nat)) from trivial)
    show OnPages p (p / 128) _
    apply onPages_append (onPages_replicate (by omega) k)
    rw [List.sum_replicate, List.length_replicate, smul_eq_mul]
    exact onPages_part (by omega) (by omega)
  · have hhead : headLen p = 128 - p % 128 := by
      unfold headLen EEP_PAGE_SIZE
      omega
    have hlen : (part (headLen p)).length = 1 := by
      unfold part
      rw [if_pos (by omega)]
      rfl
    apply onPages_append (onPages_part (by omega) (by omega))
    rw [part_natCast_sum, hlen]
    apply onPages_append (onPages_replicate (by omega) k)
    rw [List.sum_replicate, List.length_replicate, smul_eq_mul]
    exact onPages_part (by omega) (by omega)

/-! ## Messages in step -/

/-- The data bytes of the message. -/
def Sent.payload (m : Sent) : List U8 := m.wire.drop 2

/-- The bytes that the chip took. -/
def ackedLen (ms : List Sent) : Nat := ((ms.filter Sent.ack).map Sent.len).sum

/-- The messages of a call that started at `p`, from the offset `off` on: the address, the
cursor and the offset belong together, the bytes are those of `dev->data` at the offset, every
message starts where the one before it ends, and only the last one may be refused. -/
def InStep (p : Nat) (data : Nat → U8) : Nat → List Sent → Prop
  | _, [] => True
  | off, m :: ms =>
      (m.reg_addr = (p + off : Nat) ∧ m.current_pointer = (p + off : Nat) ∧ m.offset = off) ∧
        m.wire = regBytes (p + off : Nat) ++ slice data off m.len ∧
        (m.ack = false → ms = []) ∧ InStep p data (off + m.len) ms

/-- What the sending part has done when it leaves: `ms` are the messages it has sent, the
first `j` of them and no others were acknowledged. -/
structure Sending (ctx : WrCtx) (b : Block U8) (p off : Nat) (ls : List Nat) (w w' : Wr)
    (ms : List Sent) (j : Nat) : Prop where
  sent : w'.sent = w.sent ++ ms
  inStep : InStep p b.elem off ms
  lens : ms.map Sent.len = ls.take ms.length
  acks : ∀ i, i < j → ctx.ack (w.sent.length + i) = true
  ackedLen : ackedLen ms = (ls.take j).sum
  pos : w'.At p (off + (ls.take j).sum)
  chip : j = 0 → w'.chip = w.chip

/-- How it leaves: all messages were acknowledged, the next one was refused, or the copy into
the next one faulted. -/
inductive Leaves (ctx : WrCtx) (b : Block U8) (off i : Nat) (ls : List Nat) (ms : List Sent)
    (j : Nat) : Except Fault Int → Prop where
  | done (hj : j = ls.length) (hms : ms.length = j) : Leaves ctx b off i ls ms j (.ok (off + ls.sum))
  | refused (hj : j < ls.length) (hms : ms.length = j + 1) (hack : ctx.ack (i + j) = false) :
      Leaves ctx b off i ls ms j (.ok (-1))
  | faulted (f : Fault) (hj : j < ls.length) (hms : ms.length = j)
      (hsize : b.size < off + (ls.take (j + 1)).sum) : Leaves ctx b off i ls ms j (.error f)

section

variable {ctx : WrCtx} {b : Block U8} {w : Wr} {p off len : Nat}

/-- The messages acknowledged, when these are the first ones of the call. -/
theorem Sending.acked {ls : List Nat} {w' : Wr} {ms : List Sent} {j : Nat}
    (h : Sending ctx b p off ls w w' ms j) (hw : w.sent = []) : ∀ i, i < j → ctx.ack i = true := by
  intro i hi
  have hack := h.acks i hi
  rw [hw, List.length_nil, Nat.zero_add] at hack
  exact hack

/-- Copying past the end of the block faults. -/
theorem writeChunk_faulted (hw : w.At p off) (hd : Holds ctx.heap ctx.data b) (hpos : 0 < len)
    (hb : b.size < off + len) :
    writeChunk ctx len w = .error (.fault .outOfBounds w) := by
  rcases hd.deref with ⟨q, -, hq⟩
  have hlen : ¬ len = 0 := by omega
  have hout : ¬ off + len ≤ b.size := by omega
  have hload : load ctx.heap ctx.data off len = .error .outOfBounds := by
    simp only [load, if_neg hlen, hq, if_neg hout]
  simp only [writeChunk, transacWrite, hw.offset, Int.toNat_natCast, hload]

/-- An acknowledged message in front of what the rest of the call does. -/
theorem Sending.cons {ls : List Nat} {w' : Wr} {ms : List Sent} {j : Nat} {m : Sent} {w₁ : Wr}
    (hsent : w₁.sent = w.sent ++ [m]) (hm : InStep p b.elem off [m]) (hlen : m.len = len)
    (hack : m.ack = true) (hctx : ctx.ack w.sent.length = true)
    (h : Sending ctx b p (off + len) ls w₁ w' ms j) :
    Sending ctx b p off (len :: ls) w w' (m :: ms) (j + 1) where
  sent := by rw [h.sent, hsent, List.append_assoc]; rfl
  inStep := by
    refine ⟨hm.1, hm.2.1, fun hf => ?_, ?_⟩
    · rw [hack] at hf
      cases hf
    · rw [hlen]
      exact h.inStep
  lens := by rw [List.map_cons, h.lens, hlen]; rfl
  acks := by
    intro i hi
    cases i with
    | zero => exact hctx
    | succ i =>
        have := h.acks i (by omega)
        rw [hsent, List.length_append, List.length_singleton] at this
        rw [show w.sent.length + (i + 1) = w.sent.length + 1 + i by omega]
        exact this
  ackedLen := by
    have hrest := h.ackedLen
    unfold Eeprom.ackedLen at *
    rw [List.filter_cons_of_pos hack, List.map_cons, List.sum_cons, hrest, hlen,
      List.take_succ_cons, List.sum_cons]
  pos := by
    rw [List.take_succ_cons, List.sum_cons, ← Nat.add_assoc]
    exact h.pos
  chip hj := absurd hj (Nat.succ_ne_zero j)

theorem Leaves.cons {ls : List Nat} {ms : List Sent} {j i : Nat} {m : Sent}
    {ret : Except Fault Int} (h : Leaves ctx b (off + len) (i + 1) ls ms j ret) :
    Leaves ctx b off i (len :: ls) (m :: ms) (j + 1) ret := by
  cases h with
  | done hj hms =>
      have hret : ((off + len : Nat) : Int) + (ls.sum : Nat) = off + ((len :: ls).sum : Nat) := by
        rw [List.sum_cons]
        push_cast
        ring
      rw [hret]
      exact .done (by rw [hj, List.length_cons]) (by rw [hms.symm, List.length_cons])
  | refused hj hms hack =>
      refine .refused (by rw [List.length_cons]; omega) (by rw [List.length_cons]; omega) ?_
      rw [show i + (j + 1) = i + 1 + j by omega]
      exact hack
  | faulted f hj hms hsize =>
      exact .faulted f (by rw [List.length_cons]; omega) (by rw [List.length_cons]; omega)
        (by rw [List.take_succ_cons, List.sum_cons]; omega)

end

/-- **The sending part**, for every list of messages each of which lies in one page. -/
theorem sendAll_sending (ctx : WrCtx) {b : Block U8} {p : Nat} (hd : Holds ctx.heap ctx.data b) :
    ∀ (ls : List Nat) (off g : Nat) (w : Wr), w.At p off → OnPages (p + off) g ls →
      w.retval = w.offset →
      ∃ ret w' ms j, atEnd (sendAll ctx ls w) = (ret, w') ∧
        Sending ctx b p off ls w w' ms j ∧ Leaves ctx b off w.sent.length ls ms j ret := by
  intro ls
  induction ls with
  | nil =>
      intro off g w hw _ hret
      refine ⟨.ok w.retval, w, [], 0, rfl, ⟨by simp, trivial, rfl, by simp, rfl, hw, fun _ => rfl⟩, ?_⟩
      rw [hret, hw.offset, show ((off : Nat) : Int) = off + (([] : List Nat).sum : Nat) by simp]
      exact .done rfl rfl
  | cons l ls ih =>
      intro off g w hw hpages hret
      rcases hpages with ⟨hpos, hlo, hhi, hrest⟩
      have hlen : l ≤ 128 := by omega
      have hmsg : InStep p b.elem off [w.message ctx b l] := by
        refine ⟨⟨hw.reg, hw.cursor, hw.offset⟩, ?_, fun _ => rfl, trivial⟩
        show regBytes w.reg_addr ++ slice b.elem w.offset.toNat l
          = regBytes (p + off : Nat) ++ slice b.elem off l
        rw [hw.reg, hw.offset, Int.toNat_natCast]
      by_cases hfit : off + l ≤ b.size
      swap
      · -- `memcpy` leaves the block
        have hsend := writeChunk_faulted hw hd hpos (Nat.lt_of_not_le hfit)
        refine ⟨.error .outOfBounds, w, [], 0, ?_,
          ⟨by simp, trivial, rfl, by simp, rfl, hw, fun _ => rfl⟩,
          .faulted _ (Nat.succ_pos _) rfl ?_⟩
        · rw [sendAll, hsend]
          rfl
        · rw [List.take_succ_cons, List.take_zero, List.sum_singleton]
          exact Nat.lt_of_not_le hfit
      by_cases hack : ctx.ack w.sent.length = true
      swap
      · -- the message is refused: it is the last one
        have hack' : ctx.ack w.sent.length = false := by simpa using hack
        have hsend := writeChunk_refused hw hd hfit hlen hack'
        refine ⟨.ok (-1), { w with retval := -1, sent := w.sent ++ [w.message ctx b l] },
          [w.message ctx b l], 0, ?_, ⟨rfl, hmsg, rfl, by simp, ?_,
            ⟨hw.cursor, hw.reg, hw.offset⟩, fun _ => rfl⟩, .refused (Nat.succ_pos _) rfl hack'⟩
        · rw [sendAll, hsend]
          rfl
        · unfold ackedLen
          rw [List.filter_cons_of_neg (by exact hack)]
          rfl
      · -- the message is taken: the rest is sent from a state that is `l` bytes further
        have hsend := writeChunk_acked hw hd hfit hlen hack
        rw [Nat.add_assoc] at hrest
        rcases ih (off + l) (g + 1) _ (hw.next l _ _ _) hrest rfl with ⟨ret, w', ms, j, hend, hsending, hleaves⟩
        refine ⟨ret, w', w.message ctx b l :: ms, j + 1, ?_,
          hsending.cons rfl hmsg rfl hack hack, ?_⟩
        · rw [sendAll, hsend]
          exact hend
        · rw [List.length_append, List.length_singleton] at hleaves
          exact hleaves.cons

/-! ## Reading the messages -/

theorem OnPages.take {ls : List Nat} :
    ∀ {q g : Nat}, OnPages q g ls → ∀ i, OnPages q g (ls.take i) := by
  induction ls with
  | nil => intro q g h i; rw [List.take_nil]; exact h
  | cons l ls ih =>
      intro q g h i
      rcases h with ⟨hpos, hlo, hhi, hrest⟩
      cases i with
      | zero => trivial
      | succ i => exact ⟨hpos, hlo, hhi, ih hrest i⟩

/-- The chip has no cells but its own: the two address bytes wrap. -/
theorem lt_of_mem_wireCells {wire : List U8} {c : Nat} (h : c ∈ wireCells wire) : c < 65536 := by
  have hpage : ∀ n a, a < 65536 → c ∈ pageCells a n → c < 65536 := by
    intro n
    induction n with
    | zero =>
        intro a _ hc
        cases hc
    | succ n ih =>
        intro a ha hc
        rcases List.mem_cons.mp hc with rfl | hc
        · exact ha
        · exact ih (nextInPage a) (by unfold nextInPage; omega) hc
  unfold wireCells at h
  split at h
  · rename_i hi lo ds
    have hhi := hi.isLt
    have hlo := lo.isLt
    exact hpage _ _ (by unfold address; omega) h
  · cases h

section

variable {p : Nat} {data : Nat → U8} {ms : List Sent}

theorem InStep.counters : ∀ {off : Nat}, InStep p data off ms →
    ∀ m ∈ ms, m.reg_addr = m.current_pointer ∧ m.reg_addr = p + m.offset ∧
      m.payload = slice data m.offset.toNat m.len := by
  induction ms with
  | nil => intro off _ m hm; cases hm
  | cons x ms ih =>
      intro off h m hm
      rcases h with ⟨⟨hreg, hcur, hoff⟩, hwire, -, hrest⟩
      rcases List.mem_cons.mp hm with rfl | hm
      · refine ⟨by rw [hreg, hcur], by rw [hreg, hoff]; push_cast; rfl, ?_⟩
        rw [Sent.payload, hwire, hoff, Int.toNat_natCast]
        rfl
      · exact ih hrest m hm

theorem InStep.stops : ∀ {off : Nat}, InStep p data off ms →
    ∀ pre m post, ms = pre ++ m :: post → m.ack = false → post = [] := by
  induction ms with
  | nil => intro off _ pre m post h _; simp at h
  | cons x ms ih =>
      intro off h pre m post hsplit hack
      rcases h with ⟨-, -, hlast, hrest⟩
      cases pre with
      | nil =>
          rcases List.cons_eq_cons.mp hsplit with ⟨rfl, rfl⟩
          exact hlast hack
      | cons y pre =>
          rcases List.cons_eq_cons.mp hsplit with ⟨-, hsplit'⟩
          exact ih hrest pre m post hsplit' hack

/-- Messages that end on the chip go to the cells from the first address on. -/
theorem InStep.cells : ∀ {off g : Nat}, InStep p data off ms →
    OnPages (p + off) g (ms.map Sent.len) → p + off + (ms.map Sent.len).sum ≤ 65536 →
    (ms.map Sent.cells).flatten = List.range' (p + off) (ms.map Sent.len).sum := by
  induction ms with
  | nil => intro off g _ _ _; rfl
  | cons m ms ih =>
      intro off g h hpages hfit
      rcases h with ⟨-, hwire, -, hrest⟩
      rcases hpages with ⟨hpos, hlo, hhi, hpages'⟩
      simp only [List.map_cons, List.sum_cons, List.flatten_cons] at hfit ⊢
      have hfirst : m.cells = List.range' (p + off) m.len := by
        have hlen : (slice data off m.len).length = m.len := slice_length _ _ _
        rw [Sent.cells, hwire, wireCells_regBytes _ (by omega) (by rw [hlen]; omega), hlen]
      rw [Nat.add_assoc] at hpages'
      rw [hfirst, ih hrest hpages' (by omega), ← Nat.add_assoc, List.range'_append_1]

end

/-! ## One call -/

/-- A call that sends, wherever it ends. -/
theorem eepWrite_sending (a : Arch) {k : Kern} {c : WriteCall} {p : Nat}
    (hp : k.dev.current_pointer = p) (hk : Buffered k) (hsends : c.Sends a k) :
    ∃ heap b w ms j, Holds heap k.dev.data b ∧ b.size = EEP_SIZE ∧
      (∀ n, n ≤ clampWrite a p c.count → slice b.elem 0 n = c.buf.take n) ∧
      Sending ⟨heap, k.dev.data, clampWrite a p c.count, c.ack⟩ b p 0
        (plan a p (clampWrite a p c.count)) ⟨p, p, 0, 0, k.chip, []⟩ w ms j ∧
      Leaves ⟨heap, k.dev.data, clampWrite a p c.count, c.ack⟩ b 0 0
        (plan a p (clampWrite a p c.count)) ms j (eepWrite a k c).ret ∧
      (eepWrite a k c).sent = ms ∧
      (eepWrite a k c).kern = ⟨{ k.dev with current_pointer := w.current_pointer }, heap, w.chip⟩ := by
  rcases eepWrite_of_sends a hk hsends with ⟨heap, b, hb, hsize, -, hslice, hrun⟩
  rw [hp] at hrun hslice
  rcases sendAll_sending ⟨heap, k.dev.data, clampWrite a p c.count, c.ack⟩ hb
    (plan a p (clampWrite a p c.count)) 0 (p / 128) ⟨p, p, 0, 0, k.chip, []⟩ ⟨rfl, rfl, rfl⟩
    (onPages_plan a p _) rfl with ⟨ret, w, ms, j, hend, hsending, hleaves⟩
  rw [hrun _ _ hend]
  exact ⟨heap, b, w, ms, j, hb, hsize, hslice, hsending, hleaves, hsending.sent, rfl⟩

end LinuxDrivers.Eeprom
