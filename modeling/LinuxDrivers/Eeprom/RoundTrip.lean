import LinuxDrivers.Eeprom.Calls

set_option autoImplicit false

/-! # Writing the chip and reading it back

A session opens the device, writes some buffers, releases it, opens it again and reads with
some counts, every I2C transfer being acknowledged. `RoundTrips` says that the writes return
the lengths of the buffers and that the reads return the start of the image: the buffers,
followed by what the chip held behind them.

`roundTrips_iff` says exactly when this is so. A write has to reach the end of the page it
starts in (`PagesReached`). A read must not overflow `size_t`, and a read of the whole chip
gets its bytes from the fresh buffer instead of the chip, because the length of an I2C message
has 16 bits (`ReadsClear`). -/

namespace LinuxDrivers.Eeprom

open Lib

/-! ## The session -/

/-- One `eep_write` per buffer: the returned values. -/
def writeAll (a : Arch) : Kern → List (List U8) → Except Fault (List Int × Kern)
  | k, [] => .ok ([], k)
  | k, buf :: bufs => do
      let ret ← (eepWrite a k (writeCall buf)).ret
      let (rets, k') ← writeAll a (eepWrite a k (writeCall buf)).kern bufs
      .ok (ret :: rets, k')

/-- One `eep_read` per count: the bytes the user got. -/
def readAll (a : Arch) : Kern → List Nat → Except Fault (List U8 × Kern)
  | k, [] => .ok ([], k)
  | k, count :: counts => do
      let out ← eepRead a k (readCall count)
      let (user, k') ← readAll a out.kern counts
      .ok (out.user ++ user, k')

/-- Open, write, release, open, read. -/
def session (a : Arch) (k : Kern) (bufs : List (List U8)) (counts : List Nat) :
    Except Fault (List Int × List U8) := do
  let (rets, k₁) ← writeAll a (eepOpen true k).2 bufs
  let (_, k₂) ← eepRelease k₁
  let (user, _) ← readAll a (eepOpen true k₂).2 counts
  .ok (rets, user)

/-- The buffers, followed by the rest of the chip. -/
def image (chip : Chip) (bufs : List (List U8)) : List U8 :=
  bufs.flatten ++ (slice chip.cell 0 EEP_SIZE).drop bufs.flatten.length

/-- Every write returns the length of its buffer, and the reads return the start of the
image, as much of it as they ask for. -/
def RoundTrips (a : Arch) (k : Kern) (bufs : List (List U8)) (counts : List Nat) : Prop :=
  ∃ user, session a k bufs counts = .ok (bufs.map (fun b => (b.length : Int)), user) ∧
    user <+: image k.chip bufs ∧ user.length = min counts.sum EEP_SIZE

/-! ## The condition -/

/-- Every buffer, the first one written at `p`, reaches the end of the page it starts in. -/
def PagesReached : Nat → List (List U8) → Prop
  | _, [] => True
  | p, buf :: bufs => remainInPage p ≤ buf.length ∧ PagesReached (p + buf.length) bufs

/-- No read, the first one at `q`, overflows `size_t`; one that asks for the whole chip finds
an image of zeros. -/
def ReadsClear (a : Arch) (img : List U8) : Nat → List Nat → Prop
  | _, [] => True
  | q, count :: counts =>
      (q < EEP_SIZE → q + count < 2 ^ a.bits ∧
        (q = 0 → EEP_SIZE ≤ count → ∀ x ∈ img, x = 0)) ∧
      ReadsClear a img (min (q + count) EEP_SIZE) counts

/-! ## The writes -/

section

variable (a : Arch) {k : Kern} {buf : List U8} {p : Nat}

theorem writeCall_sends (hp : k.dev.current_pointer = p) (hlt : p < EEP_SIZE)
    (hfit : p + buf.length ≤ EEP_SIZE) : (writeCall buf).Sends a k := by
  have h32 := a.two_pow_32_le
  have hE : EEP_SIZE = 65536 := rfl
  refine ⟨rfl, by rw [hp]; exact Int.ofNat_lt.mpr hlt, by show (0 : Int) < EEP_SIZE; omega, ?_⟩
  rw [hp]
  show clampWrite a p buf.length ≤ buf.length
  rw [clampWrite_eq a hlt (by omega)]
  exact Nat.min_le_left _ _

/-- A buffer that reaches the end of its page is written as asked. -/
theorem eepWrite_writeCall (hp : k.dev.current_pointer = p) (hk : Buffered k)
    (hne : buf ≠ []) (hfit : p + buf.length ≤ EEP_SIZE) (hpage : remainInPage p ≤ buf.length) :
    (eepWrite a k (writeCall buf)).ret = .ok buf.length ∧
      (eepWrite a k (writeCall buf)).kern.dev.current_pointer = (p + buf.length : Nat) ∧
      (eepWrite a k (writeCall buf)).kern.chip.cell = splice k.chip.cell p buf := by
  have h32 := a.two_pow_32_le
  have hE : EEP_SIZE = 65536 := rfl
  have hpos : 0 < buf.length := List.length_pos_of_ne_nil hne
  have hsends : (writeCall buf).Sends a k := writeCall_sends a hp (by omega) hfit
  have hfits : (writeCall buf).Fits a k := by
    refine ⟨by rw [hp]; exact hpage, ?_⟩
    rw [hp]
    show (p : Int) + buf.length < _
    omega
  obtain ⟨ret, n, hret, hcur, -, hchip, -, hall⟩ :=
    eepWrite_of_fits a (c := writeCall buf) hp hk (fun _ => hfits)
  obtain ⟨hn, hretn⟩ := hall hsends (fun _ => rfl)
  have hlen : n = buf.length := by
    rw [hn]
    exact Nat.min_eq_left (by show buf.length ≤ _; omega)
  subst hlen
  refine ⟨by rw [hret, hretn], hcur, ?_⟩
  rw [hchip]
  show splice k.chip.cell p (buf.take buf.length) = _
  rw [List.take_length]

/-- A buffer that ends inside the page it starts in is not: more than its length is
returned, if the call returns at all. -/
theorem eepWrite_writeCall_short (hp : k.dev.current_pointer = p) (hk : Buffered k)
    (hlt : p < EEP_SIZE) (hfit : p + buf.length ≤ EEP_SIZE)
    (hpage : ¬ remainInPage p ≤ buf.length) :
    (eepWrite a k (writeCall buf)).ret ≠ .ok buf.length := by
  have h32 := a.two_pow_32_le
  have hE : EEP_SIZE = 65536 := rfl
  have hsends : (writeCall buf).Sends a k := writeCall_sends a hp hlt hfit
  have hclamp : clampWrite a p (writeCall buf).count = buf.length := by
    show clampWrite a p buf.length = _
    rw [clampWrite_eq a hlt (by omega)]
    omega
  rw [remainInPage_natCast] at hpage
  exact eepWrite_of_short a hp hk hsends (fun _ => rfl) hclamp (by omega)

end

/-- The writes return the lengths exactly when every buffer reaches the end of its page, and
then the chip holds the buffers. -/
theorem writeAll_spec (a : Arch) :
    ∀ (bufs : List (List U8)) (p : Nat) (k : Kern), k.dev.current_pointer = p → Buffered k →
      (∀ b ∈ bufs, b ≠ []) → p + bufs.flatten.length ≤ EEP_SIZE →
      (PagesReached p bufs → ∃ k', writeAll a k bufs
          = .ok (bufs.map (fun b => (b.length : Int)), k') ∧ Buffered k' ∧
          k'.chip.cell = splice k.chip.cell p bufs.flatten) ∧
        (∀ k', writeAll a k bufs = .ok (bufs.map (fun b => (b.length : Int)), k') →
          PagesReached p bufs) := by
  intro bufs
  induction bufs with
  | nil =>
      intro p k _ hk _ _
      exact ⟨fun _ => ⟨k, rfl, hk, by simp⟩, fun _ _ => trivial⟩
  | cons buf bufs ih =>
      intro p k hp hk hne hfit
      rw [List.flatten_cons, List.length_append] at hfit
      have hbuf : buf ≠ [] := hne buf (List.mem_cons_self ..)
      have hpos : 0 < buf.length := List.length_pos_of_ne_nil hbuf
      have hk₁ := (eepWrite_frame a (c := writeCall buf) hk).1
      -- the rest is written from where the first buffer ends
      have hrest : remainInPage p ≤ buf.length → _ := fun hpage =>
        ih (p + buf.length) _ (eepWrite_writeCall a hp hk hbuf (by omega) hpage).2.1 hk₁
          (fun b hb => hne b (List.mem_cons_of_mem _ hb)) (by omega)
      constructor
      · rintro ⟨hpage, hpages⟩
        rcases eepWrite_writeCall a hp hk hbuf (by omega) hpage with ⟨hret, -, hchip⟩
        rcases (hrest hpage).1 hpages with ⟨k', hall, hk', hchip'⟩
        refine ⟨k', ?_, hk', ?_⟩
        · exact bind_eq_ok.mpr ⟨_, hret, bind_eq_ok.mpr ⟨_, hall, rfl⟩⟩
        · rw [hchip', hchip, List.flatten_cons, splice_append]
      · intro k' hwrites
        rcases bind_eq_ok.mp hwrites with ⟨ret, hret, hwrites⟩
        rcases bind_eq_ok.mp hwrites with ⟨⟨rets, k₁⟩, hall, hwrites⟩
        -- the first value returned and the others
        rcases Prod.mk.inj (Except.ok.inj hwrites) with ⟨hlist, rfl⟩
        rcases List.cons.inj hlist with ⟨rfl, rfl⟩
        have hpage : remainInPage p ≤ buf.length := by
          by_contra hshort
          exact eepWrite_writeCall_short a hp hk (by omega) (by omega) hshort hret
        exact ⟨hpage, (hrest hpage).2 k₁ hall⟩

/-! ## The reads -/

/-- The reads have come to `q`. Nothing has been stored in the buffer as long as `q` is zero. -/
structure AtRead (f : Nat → U8) (k : Kern) (q : Nat) : Prop where
  cursor : k.dev.current_pointer = q
  le : q ≤ EEP_SIZE
  chip : k.chip.cell = f
  buffer : ∃ b, Holds k.heap k.dev.data b ∧ b.size = EEP_SIZE ∧ (q = 0 → b.elem = fun _ => 0)

section

variable (a : Arch) {f : Nat → U8} {k : Kern} {q count : Nat}

theorem mem_slice_eq_zero (n : Nat) :
    slice (fun _ => (0 : U8)) 0 n = slice f 0 n ↔ ∀ x ∈ slice f 0 n, x = 0 := by
  rw [slice_const]
  constructor
  · intro h x hx
    rw [← h] at hx
    exact List.eq_of_mem_replicate hx
  · intro h
    exact (List.eq_replicate_iff.mpr ⟨slice_length f 0 n, h⟩).symm

/-- A read without overflow brings what is left of the chip, as much of it as asked for. It
brings the bytes of the chip unless it is a read of the whole chip. -/
theorem eepRead_readCall (hq : AtRead f k q) (hcount : q < EEP_SIZE → q + count < 2 ^ a.bits) :
    ∃ out, eepRead a k (readCall count) = .ok out ∧
      AtRead f out.kern (q + min count (EEP_SIZE - q)) ∧
      out.user.length = min count (EEP_SIZE - q) ∧
      (out.user = slice f q (min count (EEP_SIZE - q)) ↔
        (q = 0 → EEP_SIZE ≤ count → ∀ x ∈ slice f 0 EEP_SIZE, x = 0)) := by
  have hE : EEP_SIZE = 65536 := rfl
  rcases hq with ⟨hp, hle, hchip, b, hb, hsize, hzero⟩
  by_cases hlt : q < EEP_SIZE
  · have hclamp := clampRead_eq a hlt (hcount hlt)
    have hmod := Nat.mod_le (min count (EEP_SIZE - q)) (2 ^ 16)
    obtain ⟨out, hout, -, hcur, huser, hbuf, hcell⟩ := eepRead_of_ack a (c := readCall count) hp hlt
      hb hsize rfl rfl (by show (0 : Int) < EEP_SIZE; omega)
      (by show clampRead a q count ≤ count; rw [hclamp]; exact Nat.min_le_left _ _)
      (by show q + clampRead a q count % 2 ^ 16 ≤ EEP_SIZE; rw [hclamp]; omega)
    change out.user = slice (splice b.elem 0 (slice k.chip.cell q (clampRead a q count % 2 ^ 16))) 0
      (clampRead a q count) at huser
    change out.kern.dev.current_pointer = (q + clampRead a q count : Nat) at hcur
    change Holds _ _ { b with
      elem := splice b.elem 0 (slice k.chip.cell q (clampRead a q count % 2 ^ 16)) } at hbuf
    rw [hclamp] at huser hcur hbuf
    rw [hchip] at huser hbuf
    set n := min count (EEP_SIZE - q) with hn
    refine ⟨out, hout, ⟨hcur, by omega, by rw [hcell, hchip], _, hbuf, hsize, ?_⟩, ?_, ?_⟩
    · intro hz
      have hn0 : n = 0 := by omega
      show splice b.elem 0 (slice f q (n % 2 ^ 16)) = _
      rw [hn0, Nat.zero_mod, slice_zero, splice_nil]
      exact hzero (by omega)
    · rw [huser, slice_length]
    · by_cases hwhole : n = EEP_SIZE
      · -- the 16 bits of the message length are zero, so the fresh buffer is returned
        have hq0 : q = 0 := by omega
        have hmod0 : n % 2 ^ 16 = 0 := by omega
        rw [huser, hmod0, slice_zero, splice_nil, hzero hq0, hwhole, hq0, mem_slice_eq_zero]
        exact ⟨fun h _ _ => h, fun h => h rfl (by omega)⟩
      · have hmod1 : n % 2 ^ 16 = n := Nat.mod_eq_of_lt (by omega)
        rw [huser, hmod1]
        have hread := slice_splice_self b.elem 0 (slice f q n)
        rw [slice_length] at hread
        exact ⟨fun _ h0 hc => absurd (by omega) hwhole, fun _ => hread⟩
  · have hout := eepRead_of_not_reads a (k := k) (c := readCall count)
      (fun h => hlt (by have := h.2.2; omega))
    have hn : min count (EEP_SIZE - q) = 0 := by omega
    rw [hn]
    exact ⟨_, hout, ⟨hp, hle, hchip, b, hb, hsize, hzero⟩, rfl,
      fun _ h0 => absurd h0 (by omega), fun _ => rfl⟩

/-- A read that overflows brings `EEP_SIZE` bytes. -/
theorem eepRead_readCall_overflow (hq : AtRead f k q) (hlt : q < EEP_SIZE)
    (hcount : count < 2 ^ a.bits) (hover : 2 ^ a.bits ≤ q + count) :
    ∃ out, eepRead a k (readCall count) = .ok out ∧ out.user.length = EEP_SIZE := by
  have h32 := a.two_pow_32_le
  have hE : EEP_SIZE = 65536 := rfl
  rcases hq with ⟨hp, hle, hchip, b, hb, hsize, hzero⟩
  have hclamp := clampRead_of_overflow a hlt hcount hover
  have hmod : EEP_SIZE % 2 ^ 16 = 0 := rfl
  obtain ⟨out, hout, -, -, huser, -⟩ := eepRead_of_ack a (c := readCall count) hp hlt
    hb hsize rfl rfl (by show (0 : Int) < EEP_SIZE; omega)
    (by show clampRead a q count ≤ count; rw [hclamp]; omega)
    (by show q + clampRead a q count % 2 ^ 16 ≤ EEP_SIZE; rw [hclamp, hmod]; omega)
  refine ⟨out, hout, ?_⟩
  rw [huser, slice_length]
  exact hclamp

end

/-- The reads from `q` on bring what is left of the chip exactly when they are clear. -/
theorem readAll_spec (a : Arch) (f : Nat → U8) :
    ∀ (counts : List Nat) (q : Nat) (k : Kern), AtRead f k q → (∀ c ∈ counts, c < 2 ^ a.bits) →
      (ReadsClear a (slice f 0 EEP_SIZE) q counts → ∃ k', readAll a k counts
          = .ok (slice f q (min counts.sum (EEP_SIZE - q)), k')) ∧
        (∀ k', readAll a k counts = .ok (slice f q (min counts.sum (EEP_SIZE - q)), k') →
          ReadsClear a (slice f 0 EEP_SIZE) q counts) := by
  intro counts
  induction counts with
  | nil =>
      intro q k _ _
      exact ⟨fun _ => ⟨k, by simp [readAll]⟩, fun _ _ => trivial⟩
  | cons count counts ih =>
      intro q k hq hcounts
      have hE : EEP_SIZE = 65536 := rfl
      have hle := hq.le
      have hlt := hcounts count (List.mem_cons_self ..)
      have hnext : min (q + count) EEP_SIZE = q + min count (EEP_SIZE - q) := by omega
      -- the bytes asked for are those of the first read and those of the others
      have hsplit : slice f q (min (count :: counts).sum (EEP_SIZE - q))
          = slice f q (min count (EEP_SIZE - q)) ++ slice f (q + min count (EEP_SIZE - q))
              (min counts.sum (EEP_SIZE - (q + min count (EEP_SIZE - q)))) := by
        rw [← slice_add, List.sum_cons]
        congr 1
        omega
      have hrest : ∀ {k₁}, AtRead f k₁ (q + min count (EEP_SIZE - q)) → _ := fun hq₁ =>
        ih _ _ hq₁ (fun c hc => hcounts c (List.mem_cons_of_mem _ hc))
      by_cases hover : q < EEP_SIZE → q + count < 2 ^ a.bits
      · rcases eepRead_readCall a hq hover with ⟨out, hout, hq₁, hlen, huser⟩
        rw [hsplit]
        simp only [ReadsClear, hnext]
        constructor
        · rintro ⟨hclear, hclears⟩
          rcases (hrest hq₁).1 hclears with ⟨k', hall⟩
          refine ⟨k', bind_eq_ok.mpr ⟨_, hout, bind_eq_ok.mpr ⟨_, hall, ?_⟩⟩⟩
          rw [← huser.mpr (fun h0 => (hclear (by omega)).2 h0)]
        · intro k' hreads
          rcases bind_eq_ok.mp hreads with ⟨out', hout', hreads⟩
          obtain rfl := Except.ok.inj (hout.symm.trans hout')
          rcases bind_eq_ok.mp hreads with ⟨⟨user, k₁⟩, hall, hreads⟩
          rcases Prod.mk.inj (Except.ok.inj hreads) with ⟨hbytes, rfl⟩
          rcases List.append_inj hbytes (by rw [hlen, slice_length]) with ⟨hfirst, rfl⟩
          exact ⟨fun h => ⟨hover h, huser.mp hfirst⟩, (hrest hq₁).2 k₁ hall⟩
      · rcases Classical.not_imp.mp hover with ⟨hq₀, hover⟩
        refine ⟨fun hclear => absurd (hclear.1 hq₀).1 (by omega), ?_⟩
        intro k' hreads
        exfalso
        rcases eepRead_readCall_overflow a hq hq₀ hlt (by omega) with ⟨out, hout, hlen⟩
        rcases bind_eq_ok.mp hreads with ⟨out', hout', hreads⟩
        obtain rfl := Except.ok.inj (hout.symm.trans hout')
        rcases bind_eq_ok.mp hreads with ⟨⟨user, k₁⟩, -, hreads⟩
        -- the user has got more bytes than are left behind `q`
        have hlens := congrArg List.length (Prod.mk.inj (Except.ok.inj hreads)).1
        rw [List.length_append, slice_length, hlen] at hlens
        omega

/-! ## The whole session -/

theorem image_eq_slice (chip : Chip) {bufs : List (List U8)} (h : bufs.flatten.length ≤ EEP_SIZE) :
    image chip bufs = slice (splice chip.cell 0 bufs.flatten) 0 EEP_SIZE := by
  have happ := slice_splice_append chip.cell 0 bufs.flatten (EEP_SIZE - bufs.flatten.length)
  rw [Nat.add_sub_of_le h] at happ
  rw [happ, image, drop_slice _ _ h]

theorem prefix_slice_iff (f : Nat → U8) {m n : Nat} (h : m ≤ n) (xs : List U8) :
    xs <+: slice f 0 n ∧ xs.length = m ↔ xs = slice f 0 m := by
  constructor
  · rintro ⟨hpre, hlen⟩
    rw [List.prefix_iff_eq_take.mp hpre, hlen, take_slice f 0 h]
  · rintro rfl
    refine ⟨?_, slice_length f 0 m⟩
    rw [← take_slice f 0 h]
    exact List.take_prefix _ _

/-- After the release, the second `eep_open` is ready to read. -/
theorem atRead_eepOpen {k : Kern} (f : Nat → U8) (hchip : k.chip.cell = f) :
    AtRead f (eepOpen true k).2 0 := by
  rcases eepOpen_true k with ⟨-, hcur, hsame, hbuf⟩
  exact ⟨hcur, Nat.zero_le _, by rw [hsame, hchip], _, hbuf, rfl, fun _ => rfl⟩

/-- **When a round trip succeeds.** The writes return the lengths of their buffers and the
reads return the image exactly when every buffer reaches the end of the page it starts in and
every read is clear. -/
theorem roundTrips_iff (a : Arch) (k : Kern) (bufs : List (List U8)) (counts : List Nat)
    (hne : ∀ b ∈ bufs, b ≠ []) (htot : bufs.flatten.length ≤ EEP_SIZE)
    (hcounts : ∀ c ∈ counts, c < 2 ^ a.bits) :
    RoundTrips a k bufs counts ↔
      PagesReached 0 bufs ∧ ReadsClear a (image k.chip bufs) 0 counts := by
  have hopen : Buffered (eepOpen true k).2 := ⟨_, (eepOpen_true k).2.2.2, rfl⟩
  obtain ⟨hwrites, hpages⟩ := writeAll_spec a bufs 0 (eepOpen true k).2 (eepOpen_cursor true k)
    hopen hne (by omega)
  -- once the writes have succeeded, the session is what its reads are
  have hreads : ∀ k₁, Buffered k₁ → k₁.chip.cell = splice k.chip.cell 0 bufs.flatten →
      ∃ k₂, eepRelease k₁ = .ok (0, k₂) ∧
        AtRead (splice k.chip.cell 0 bufs.flatten) (eepOpen true k₂).2 0 := by
    intro k₁ hbuf hchip
    rcases eepRelease_of_buffered hbuf with ⟨h', q, -, hrel, -⟩
    exact ⟨_, hrel, atRead_eepOpen _ hchip⟩
  rw [RoundTrips, image_eq_slice k.chip htot]
  simp only [prefix_slice_iff _ (Nat.min_le_right counts.sum EEP_SIZE)]
  constructor
  · rintro ⟨user, hsession, rfl⟩
    rcases bind_eq_ok.mp hsession with ⟨⟨rets, k₁⟩, hw, hsession⟩
    rcases bind_eq_ok.mp hsession with ⟨⟨ret, k₂⟩, hrel, hsession⟩
    rcases bind_eq_ok.mp hsession with ⟨⟨user, k₃⟩, hread, hsession⟩
    rcases Prod.mk.inj (Except.ok.inj hsession) with ⟨rfl, rfl⟩
    have hreach : PagesReached 0 bufs := hpages k₁ hw
    -- the writes have succeeded, so the reads start where `hreads` says
    rcases hwrites hreach with ⟨k₁', hw', hbuf, hchip⟩
    rcases Prod.mk.inj (Except.ok.inj (hw.symm.trans hw')) with ⟨-, rfl⟩
    rcases hreads k₁ hbuf hchip with ⟨k₂', hrel', hat⟩
    rcases Prod.mk.inj (Except.ok.inj (hrel.symm.trans hrel')) with ⟨-, rfl⟩
    exact ⟨hreach, (readAll_spec a _ counts 0 _ hat hcounts).2 k₃ hread⟩
  · rintro ⟨hreach, hclear⟩
    rcases hwrites hreach with ⟨k₁, hw, hbuf, hchip⟩
    rcases hreads k₁ hbuf hchip with ⟨k₂, hrel, hat⟩
    rcases (readAll_spec a _ counts 0 _ hat hcounts).1 hclear with ⟨k₃, hread⟩
    exact ⟨_, bind_eq_ok.mpr ⟨_, hw, bind_eq_ok.mpr ⟨_, hrel, bind_eq_ok.mpr ⟨_, hread, rfl⟩⟩⟩, rfl⟩

/-- A first page that is filled, a few bytes of the next one, and reads that stop in it. -/
theorem roundTrips_pages : RoundTrips .lp64 ⟨⟨none, 0⟩, Heap.empty, blankChip⟩
    [List.replicate 128 7, [1, 2]] [100, 29] := by
  refine (roundTrips_iff .lp64 _ _ _ ?_ ?_ ?_).mpr ⟨?_, ?_⟩
  · decide +kernel
  · decide +kernel
  · decide +kernel
  · exact ⟨by decide +kernel, by decide +kernel, trivial⟩
  · exact ⟨fun _ => ⟨by decide +kernel, fun _ h => absurd h (by decide +kernel)⟩,
      fun _ => ⟨by decide +kernel, fun h => absurd h (by decide +kernel)⟩, trivial⟩

/-- **Two one-byte writes are not read back**: the second one starts inside a page and returns
something else than its length. -/
theorem not_roundTrips : ¬ RoundTrips .lp64 ⟨⟨none, 0⟩, Heap.empty, blankChip⟩ [[1], [2]] [2] := by
  rintro ⟨user, hsession, -⟩
  have hrets : (session .lp64 ⟨⟨none, 0⟩, Heap.empty, blankChip⟩ [[1], [2]] [2]).toOption.any
      (fun r => decide (r.1 = [1, 1])) = false := by
    decide +kernel
  rw [hsession] at hrets
  exact Bool.noConfusion hrets

end LinuxDrivers.Eeprom
