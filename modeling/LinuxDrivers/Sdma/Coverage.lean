import LinuxDrivers.Sdma.CopyPassed

set_option autoImplicit false

/-! # What the comparisons cover

`sdma_read` should tell the first pair of buffers that differs anywhere, and pass the pairs
before it (`ChecksExactly`). A loop that compares less than a whole buffer does not see what
follows: `checksExactly_iff_covers` says what this means for any table of pairs.

In the scatter/gather driver it is the loop of the second pair, which ends at half of the buffer
while `sdma_write` fills all of it and the scatter list hands all of it to the engine. -/

namespace LinuxDrivers.Sdma

/-- All pairs are reported as passed exactly if each agrees in all its words; else the first one
that does not is reported, and those before it have passed. -/
structure ChecksExactly (d : Driver) (f : Buf → Nat → U32) (res : Except Fault (List Message)) :
    Prop where
  passed : res = .ok (report 0 d.pairs d.pairs.length) ↔ ∀ i < d.pairs.length, Agree f i d.words
  failed : ∀ i < d.pairs.length, (∀ k < i, Agree f k d.words) → ¬ Agree f i d.words →
    res = .ok (report 0 d.pairs i)

/-- A pair that is reached and agrees where it is compared agrees as a whole. -/
def Covers (d : Driver) (f : Buf → Nat → U32) : Prop :=
  ∀ i p, d.pairs[i]? = some p → (∀ k < i, Agree f k d.words) → Agree f i p.compared →
    Agree f i d.words

section

variable {d : Driver} {f : Buf → Nat → U32} {s : Globals} {LINUX_VERSION_CODE : Nat}

theorem Agree.of_le {i m n : Nat} (h : Agree f i n) (hmn : m ≤ n) : Agree f i m :=
  fun j hj => h j (by omega)

/-- The pairs that pass agree as a whole. -/
theorem Covers.agree (hcovers : Covers d f) {n : Nat} (hn : n ≤ d.pairs.length)
    (hbefore : ∀ k < n, ∀ p, d.pairs[k]? = some p → Agree f k p.compared) :
    ∀ k < n, Agree f k d.words := by
  intro k
  induction k using Nat.strong_induction_on with
  | _ k ih =>
      intro hk
      have hp : d.pairs[k]? = some d.pairs[k] := List.getElem?_eq_getElem (by omega)
      exact hcovers k _ hp (fun l hl => ih l hl (by omega)) (hbefore k hk _ hp)

/-- **When the check is exact**, for the table of either driver. -/
theorem checksExactly_iff_covers (h : BuffersHold d f s)
    (hcompares : d.compares LINUX_VERSION_CODE = true) :
    ChecksExactly d f (sdmaRead d LINUX_VERSION_CODE s) ↔ Covers d f := by
  rcases sdmaRead_eq h hcompares with ⟨n, hn, hread, hbefore, hfirst⟩
  have hreport : ∀ m ≤ d.pairs.length,
      sdmaRead d LINUX_VERSION_CODE s = .ok (report 0 d.pairs m) ↔ n = m := by
    intro m hm
    rw [hread, Except.ok.injEq]
    exact ⟨report_inj hn hm, fun heq => by rw [heq]⟩
  constructor
  · intro hexact i p hp hbefore' hagree
    have hi : i < d.pairs.length := (List.getElem?_eq_some_iff.mp hp).1
    by_contra hdiffers
    -- the comparison would have to fail at `i`, where it finds no difference
    obtain rfl : n = i := (hreport i hi.le).mp (hexact.failed i hi hbefore' hdiffers)
    exact hfirst p hp hagree
  · intro hcovers
    have hall := hcovers.agree hn hbefore
    have hdiffers : n < d.pairs.length → ¬ Agree f n d.words := by
      intro hlt hagree
      have hp : d.pairs[n]? = some d.pairs[n] := List.getElem?_eq_getElem hlt
      exact hfirst _ hp (hagree.of_le (Driver.compared_le (List.getElem_mem hlt)))
    constructor
    · rw [hreport _ (le_refl _)]
      constructor
      · intro heq i hi
        exact hall i (by omega)
      · intro hagree
        by_contra hne
        exact hdiffers (by omega) (hagree n (by omega))
    · intro i hi hbefore' hnot
      rw [hreport i hi.le]
      rcases Nat.lt_trichotomy n i with hlt | heq | hlt
      · exact absurd (hbefore' n hlt) (hdiffers (by omega))
      · exact heq
      · exact absurd (hall i hlt) hnot

end

/-- **The check of the single driver is exact**, in the kernels that it compares in: it covers
its whole buffer. -/
theorem single_checksExactly {f : Buf → Nat → U32} {s : Globals} {LINUX_VERSION_CODE : Nat}
    (h : BuffersHold .single f s) (hversion : KERNEL_VERSION 3 0 35 ≤ LINUX_VERSION_CODE) :
    ChecksExactly .single f (sdmaRead .single LINUX_VERSION_CODE s) := by
  apply (checksExactly_iff_covers h (decide_eq_true hversion)).mpr
  intro i p hp _ hagree
  have hcompared : ∀ q ∈ Driver.single.pairs, q.compared = Driver.single.words := by decide
  rw [hcompared p (List.mem_of_getElem? hp)] at hagree
  exact hagree

/-- In the scatter/gather driver only the second pair is compared in part. -/
theorem scatterGather_covers_iff (f : Buf → Nat → U32) :
    Covers .scatterGather f ↔
      (Agree f 0 (Driver.scatterGather.SDMA_BUF_SIZE / 4) →
        Agree f 1 (Driver.scatterGather.SDMA_BUF_SIZE / 2 / 4) →
          Agree f 1 (Driver.scatterGather.SDMA_BUF_SIZE / 4)) := by
  constructor
  · intro hcovers h0 h1
    refine hcovers 1 _ rfl (fun k hk => ?_) h1
    obtain rfl : k = 0 := by omega
    exact h0
  · intro h i p hp hbefore hagree
    have hi : i < 3 := (List.getElem?_eq_some_iff.mp hp).1
    interval_cases i
    · obtain rfl := Option.some.inj hp
      exact hagree
    · obtain rfl := Option.some.inj hp
      exact h (hbefore 0 (by omega)) hagree
    · obtain rfl := Option.some.inj hp
      exact hagree

/-- **When the scatter/gather check is exact**: for all contents of the six buffers but those
whose first pair agrees and whose second pair differs in its second half only. -/
theorem scatterGather_checksExactly_iff (f : Buf → Nat → U32) (s : Globals)
    (LINUX_VERSION_CODE : Nat) (h : BuffersHold .scatterGather f s) :
    ChecksExactly .scatterGather f (sdmaRead .scatterGather LINUX_VERSION_CODE s) ↔
      (Agree f 0 (Driver.scatterGather.SDMA_BUF_SIZE / 4) →
        Agree f 1 (Driver.scatterGather.SDMA_BUF_SIZE / 2 / 4) →
          Agree f 1 (Driver.scatterGather.SDMA_BUF_SIZE / 4)) :=
  (checksExactly_iff_covers h rfl).trans (scatterGather_covers_iff f)

theorem allocate_succeeds (words : Nat) (bs : List Buf) (s : Globals) :
    ∃ t, allocate words (fun _ => true) bs s = (0, t) := by
  induction bs generalizing s with
  | nil => exact ⟨s, rfl⟩
  | cons b bs ih => exact ih _

/-- If there is a channel and memory for all buffers, the device opens. -/
theorem open_succeeds (d : Driver) (s : Globals) :
    ∃ t, sdmaOpen d true (fun _ => true) s = (0, t) ∧ BuffersHold d (fun _ _ => 0) t := by
  rcases allocate_succeeds d.words d.bufs { s with dma_m2m_chan := true } with ⟨t, ht⟩
  have hopen : sdmaOpen d true (fun _ => true) s = (0, t) := ht
  exact ⟨t, hopen, buffersHold_open hopen⟩

/-- An engine that misses one word, in the third buffer. -/
def wordOfThird : Outcome :=
  ⟨true, fun i j =>
    if i = 2 ∧ j = 5 then 0 else (Driver.scatterGather.pairs[i]?).elim 0 Pair.pattern⟩

/-- After a write, the buffers have their patterns. The word that is missed in the third one is
found. -/
theorem scatterGather_checksExactly_third :
    ∃ t u, sdmaOpen .scatterGather true (fun _ => true) Test.start.globals = (0, t) ∧
      (sdmaWrite .scatterGather 1).exec (serveAlone .scatterGather wordOfThird) t = .ok (1, u) ∧
      ¬ Agree (afterTransfer .scatterGather wordOfThird.result) 2
        (Driver.scatterGather.SDMA_BUF_SIZE / 4) ∧
      ChecksExactly .scatterGather (afterTransfer .scatterGather wordOfThird.result)
        (sdmaRead .scatterGather (KERNEL_VERSION 3 0 35) u) := by
  rcases open_succeeds .scatterGather Test.start.globals with ⟨t, hopen, hold⟩
  obtain ⟨u, hwrite, hold'⟩ := exec_sdmaWrite (o := wordOfThird) 1 hold rfl
  refine ⟨t, u, hopen, hwrite, fun hagree => absurd (hagree 5 (by decide)) (by decide), ?_⟩
  refine (scatterGather_checksExactly_iff _ u _ hold').mpr fun _ _ => ?_
  exact (agree_afterTransfer rfl).mpr fun _ _ => rfl

/-- An engine that stops in the middle of the second buffer, and copies the third one. -/
def halfOfSecond : Outcome :=
  ⟨true, fun i j =>
    if i = 1 ∧ Driver.scatterGather.SDMA_BUF_SIZE / 2 / 4 ≤ j then 0
    else (Driver.scatterGather.pairs[i]?).elim 0 Pair.pattern⟩

/-- **The second half of the second buffer is not seen**: its words have not been copied, and the
read does not tell so. -/
theorem second_half_unseen :
    ∃ t u, sdmaOpen .scatterGather true (fun _ => true) Test.start.globals = (0, t) ∧
      (sdmaWrite .scatterGather 1).exec (serveAlone .scatterGather halfOfSecond) t = .ok (1, u) ∧
      BuffersHold .scatterGather (afterTransfer .scatterGather halfOfSecond.result) u ∧
      ¬ ChecksExactly .scatterGather (afterTransfer .scatterGather halfOfSecond.result)
        (sdmaRead .scatterGather (KERNEL_VERSION 3 0 35) u) := by
  rcases open_succeeds .scatterGather Test.start.globals with ⟨t, hopen, hold⟩
  obtain ⟨u, hwrite, hold'⟩ := exec_sdmaWrite (o := halfOfSecond) 1 hold rfl
  refine ⟨t, u, hopen, hwrite, hold', fun hexact => ?_⟩
  have hcovers := (scatterGather_covers_iff _).mp ((checksExactly_iff_covers hold' rfl).mp hexact)
  have hfirst : Agree (afterTransfer .scatterGather halfOfSecond.result) 0
      (Driver.scatterGather.SDMA_BUF_SIZE / 4) :=
    (agree_afterTransfer rfl).mpr fun j _ => rfl
  have hhalf : Agree (afterTransfer .scatterGather halfOfSecond.result) 1
      (Driver.scatterGather.SDMA_BUF_SIZE / 2 / 4) :=
    (agree_afterTransfer rfl).mpr fun j hj => if_neg fun h => absurd h.2 (not_le.mpr hj)
  exact absurd (hcovers hfirst hhalf 2048 (by decide)) (by decide)

end LinuxDrivers.Sdma
