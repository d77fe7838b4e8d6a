import LinuxDrivers.Sdma.Driver

set_option autoImplicit false

/-! # One user of the SDMA drivers: what the buffers hold

`BuffersHold d f s`: the channel is there and the buffers are separate live blocks whose words
are those of `f`. A successful open gives this for zeros (`buffersHold_open`). A write with a
descriptor gives it for the patterns and whatever the engine has made of the destination buffers
(`exec_sdmaWrite`). And under it `sdma_read` compares the words of `f` (`sdmaRead_spec`). -/

namespace LinuxDrivers.Sdma

open Lib

/-! ## A write alone with the engine -/

/-- What the engine makes of a write: whether there is a descriptor for it, and the words that
the destination buffers hold after the transfer. Nothing relates these to the source buffers. -/
structure Outcome where
  hasDescriptor : Bool
  result : Nat → Nat → U32

/-- Overwrite the buffers of one side, those of the pairs `ps` from the `i`-th on. -/
def storeSide (side : Side) (words : Nat) (x : Nat → Pair → Nat → U32) :
    Nat → List Pair → Globals → Except Fault Globals
  | _, [], s => .ok s
  | i, p :: ps, s =>
      match store s.heap (s.buf (side, i)) 0 (slice (x i p) 0 words) with
      | .error f => .error f
      | .ok heap => storeSide side words x (i + 1) ps { s with heap := heap }

/-- A request of `sdma_write` when nobody else uses the device: the wait returns when the engine
has written the destination buffers. -/
def serveAlone (d : Driver) (o : Outcome) (s : Globals) : DmaOp → Except Fault (Globals × Bool)
  | .fill i pattern =>
      match store s.heap (s.buf (.w, i)) 0 (List.replicate d.words pattern) with
      | .error f => .error f
      | .ok heap => .ok ({ s with heap := heap }, true)
  | .slaveConfig => if s.dma_m2m_chan then .ok (s, true) else .error .nullDeref
  | .prep => if s.dma_m2m_chan then .ok (s, o.hasDescriptor) else .error .nullDeref
  | .setCallback desc => if desc then .ok (s, true) else .error .nullDeref
  | .waitForCompletion =>
      match storeSide .r d.words (fun i _ => o.result i) 0 d.pairs s with
      | .error f => .error f
      | .ok s => .ok (s, true)
  | .map _ | .submit | .issuePending | .unmap _ => .ok (s, true)

/-! ## The buffers -/

theorem mem_bufs {d : Driver} {side : Side} {i : Nat} :
    (side, i) ∈ d.bufs ↔ i < d.pairs.length := by
  cases side with
  | w => simp [Driver.bufs]
  | r => simp [Driver.bufs]

theorem bufs_nodup (d : Driver) : d.bufs.Nodup := by
  cases d
  · decide
  · decide

/-- The buffers are separate live blocks that hold the words of `f`. -/
structure BuffersHold (d : Driver) (f : Buf → Nat → U32) (s : Globals) : Prop where
  chan : s.dma_m2m_chan = true
  block : ∀ b ∈ d.bufs, ∃ blk, Holds s.heap (s.buf b) blk ∧ blk.size = d.words ∧
    ∀ j < d.words, blk.elem j = f b j
  separate : ∀ b ∈ d.bufs, ∀ c ∈ d.bufs, b ≠ c → s.buf b ≠ s.buf c

section

variable {d : Driver} {f : Buf → Nat → U32} {s : Globals}

theorem BuffersHold.congr {g : Buf → Nat → U32} (h : BuffersHold d f s)
    (hfg : ∀ b ∈ d.bufs, ∀ j < d.words, f b j = g b j) : BuffersHold d g s := by
  refine ⟨h.chan, fun b hb => ?_, h.separate⟩
  rcases h.block b hb with ⟨blk, hholds, hsize, helem⟩
  exact ⟨blk, hholds, hsize, fun j hj => (helem j hj).trans (hfg b hb j hj)⟩

/-- A whole buffer is overwritten. -/
theorem BuffersHold.store (h : BuffersHold d f s) {b : Buf} (hb : b ∈ d.bufs) (x : Nat → U32) :
    ∃ heap, LinuxDrivers.store s.heap (s.buf b) 0 (slice x 0 d.words) = .ok heap ∧
      BuffersHold d (Function.update f b x) { s with heap := heap } := by
  rcases h.block b hb with ⟨blk, hholds, hsize, -⟩
  obtain ⟨heap, hstore, hafter, -, hsame⟩ :=
    store_of_holds hholds 0 (slice x 0 d.words) (by simp [hsize])
  refine ⟨heap, hstore, h.chan, fun c hc => ?_, h.separate⟩
  by_cases hcb : c = b
  · subst hcb
    refine ⟨_, hafter, hsize, fun j hj => ?_⟩
    rw [Function.update_self]
    exact splice_slice blk.elem x (Nat.zero_le j) (by omega)
  · rcases h.block c hc with ⟨blk', ⟨q, hq, hlive⟩, hsize', helem'⟩
    have hne : s.buf b ≠ some q := hq ▸ h.separate b hb c hc (Ne.symm hcb)
    refine ⟨blk', ⟨q, hq, (hsame q hne).trans hlive⟩, hsize', ?_⟩
    rw [Function.update_of_ne hcb]
    exact helem'

/-- What `storeSide` leaves: the new words on its own side, from the `i`-th pair on, and the old
ones everywhere else. -/
theorem storeSide_spec (side : Side) (x : Nat → Pair → Nat → U32) (i : Nat) (ps : List Pair)
    (h : BuffersHold d f s) (hps : i + ps.length ≤ d.pairs.length) :
    ∃ g t, storeSide side d.words x i ps s = .ok t ∧ BuffersHold d g t ∧
      (∀ k p, ps[k]? = some p → g (side, i + k) = x (i + k) p) ∧
      ∀ b, (∀ k < ps.length, b ≠ (side, i + k)) → g b = f b := by
  induction ps generalizing i f s with
  | nil => exact ⟨f, s, rfl, h, fun k p hk => absurd hk (by simp), fun b _ => rfl⟩
  | cons p ps ih =>
      rw [List.length_cons] at hps
      have hb : (side, i) ∈ d.bufs := mem_bufs.mpr (by omega)
      rcases h.store hb (x i p) with ⟨heap, hstore, hafter⟩
      rcases ih (i + 1) hafter (by omega) with ⟨g, t, ht, hg, hnew, hold⟩
      refine ⟨g, t, ?_, hg, ?_, ?_⟩
      · rw [storeSide, hstore]
        exact ht
      · intro k q hk
        cases k with
        | zero =>
            -- the later stores do not touch the first buffer
            obtain rfl : p = q := by simpa using hk
            have hfirst : g (side, i) = Function.update f (side, i) (x i p) (side, i) := by
              apply hold
              intro k _ heq
              have hik : i = i + 1 + k := congrArg Prod.snd heq
              omega
            rw [Nat.add_zero, hfirst, Function.update_self]
        | succ k =>
            have hk' := hnew k q (by simpa using hk)
            rwa [Nat.add_right_comm] at hk'
      · intro b hb
        have hbi : b ≠ (side, i) := hb 0 (by simp)
        rw [hold b, Function.update_of_ne hbi]
        intro k hk
        have hne := hb (k + 1) (by simpa using hk)
        rwa [← Nat.add_assoc, Nat.add_right_comm] at hne

/-! ## Write -/

/-- The loops of `sdma_write` overwrite one side. -/
theorem exec_fillAll {o : Outcome} (i : Nat) (ps : List Pair) {t : Globals}
    (h : storeSide .w d.words (fun _ p _ => p.pattern) i ps s = .ok t) :
    (fillAll i ps).exec (serveAlone d o) s = .ok ((), t) := by
  induction ps generalizing i s with
  | nil =>
      obtain rfl := Except.ok.inj h
      rfl
  | cons p ps ih =>
      rw [storeSide, slice_const] at h
      cases hstore : LinuxDrivers.store s.heap (s.buf (.w, i)) 0
          (List.replicate d.words p.pattern) with
      | error e =>
          rw [hstore] at h
          cases h
      | ok heap =>
          rw [hstore] at h
          have hserve : serveAlone d o s (.fill i p.pattern)
              = .ok ({ s with heap := heap }, true) := by
            rw [serveAlone, hstore]
          rw [fillAll, Prog.send_bind, Prog.exec_call hserve]
          exact ih (i + 1) h

/-- The words of the buffers after a transfer that has left `x` in the destination buffers. -/
def afterTransfer (d : Driver) (x : Nat → Nat → U32) : Buf → Nat → U32
  | (.w, i) => fun _ => (d.pairs[i]?).elim 0 Pair.pattern
  | (.r, i) => x i

/-- A write with a descriptor fills the source buffers, and the destination buffers hold what
the engine has made of them. -/
theorem exec_sdmaWrite {o : Outcome} (count : Nat) (h : BuffersHold d f s)
    (ho : o.hasDescriptor = true) :
    ∃ t, (sdmaWrite d count).exec (serveAlone d o) s = .ok (count, t) ∧
      BuffersHold d (afterTransfer d o.result) t := by
  obtain ⟨g, u, hu, hg, hnew, hold⟩ :=
    storeSide_spec .w (fun _ p _ => p.pattern) 0 d.pairs h (by omega)
  obtain ⟨g', t, ht, hg', hnew', hold'⟩ :=
    storeSide_spec .r (fun i _ => o.result i) 0 d.pairs hg (by omega)
  refine ⟨t, ?_, hg'.congr ?_⟩
  · rw [sdmaWrite, Prog.exec_bind _ (exec_fillAll 0 d.pairs hu)]
    simp [transfer, Prog.exec, serveAlone, hg.chan, ho, ht]
  · rintro ⟨side, i⟩ hb j -
    have hi := mem_bufs.mp hb
    cases side with
    | w =>
        rw [hold' (.w, i) (by simp)]
        have hpair := hnew i d.pairs[i] (List.getElem?_eq_getElem hi)
        rw [Nat.zero_add] at hpair
        rw [hpair]
        simp [afterTransfer, hi]
    | r =>
        have hpair := hnew' i d.pairs[i] (List.getElem?_eq_getElem hi)
        rw [Nat.zero_add] at hpair
        rw [hpair]
        rfl

/-- Without a descriptor the callback is set through NULL. -/
theorem exec_sdmaWrite_noDescriptor {o : Outcome} (count : Nat) (h : BuffersHold d f s)
    (ho : o.hasDescriptor = false) :
    (sdmaWrite d count).exec (serveAlone d o) s = .error .nullDeref := by
  obtain ⟨g, u, hu, hg, -⟩ :=
    storeSide_spec .w (fun _ p _ => p.pattern) 0 d.pairs h (by omega)
  rw [sdmaWrite, Prog.exec_bind _ (exec_fillAll 0 d.pairs hu)]
  simp [transfer, Prog.exec, serveAlone, hg.chan, ho]

/-! ## Open -/

/-- The allocations of a successful open: fresh blocks of zeros, at addresses of their own. -/
theorem allocate_spec {words : Nat} {avail : Buf → Bool} {bs : List Buf} {t : Globals}
    (hnodup : bs.Nodup) (h : allocate words avail bs s = (0, t)) :
    t.dma_m2m_chan = s.dma_m2m_chan ∧
    (∀ q < s.heap.next, t.heap.cell q = s.heap.cell q) ∧
    (∀ b, b ∉ bs → t.buf b = s.buf b) ∧
    (∀ b ∈ bs, ∃ q, s.heap.next ≤ q ∧ t.buf b = some q ∧
      t.heap.cell q = .live ⟨words, fun _ => 0⟩) ∧
    ∀ b ∈ bs, ∀ c ∈ bs, b ≠ c → t.buf b ≠ t.buf c := by
  induction bs generalizing s with
  | nil =>
      obtain rfl := (Prod.mk.inj h).2
      refine ⟨rfl, fun _ _ => rfl, fun _ _ => rfl, ?_, ?_⟩
      · exact fun b hb => absurd hb List.not_mem_nil
      · exact fun b hb => absurd hb List.not_mem_nil
  | cons b bs ih =>
      rcases List.nodup_cons.mp hnodup with ⟨hb, hnodup⟩
      rw [allocate] at h
      cases havail : avail b with
      | false =>
          rw [havail] at h
          exact absurd (Prod.mk.inj h).1 (by decide)
      | true =>
          rw [havail] at h
          rcases ih hnodup h with ⟨hchan, hcell, hother, hfresh, hsep⟩
          change ∀ q < s.heap.next + 1, _ = (s.heap.alloc _).cell q at hcell
          change ∀ c, c ∉ bs → t.buf c = Function.update s.buf b (some s.heap.next) c at hother
          change ∀ c ∈ bs, ∃ q, s.heap.next + 1 ≤ q ∧ _ at hfresh
          have hbuf : t.buf b = some s.heap.next := by
            rw [hother b hb, Function.update_self]
          -- the addresses of the later buffers are larger
          have hne : ∀ c ∈ bs, t.buf c ≠ t.buf b := by
            intro c hc heq
            rcases hfresh c hc with ⟨q, hq, hqc, -⟩
            rw [hqc, hbuf] at heq
            obtain rfl := Option.some.inj heq
            omega
          refine ⟨hchan, ?_, ?_, ?_, ?_⟩
          · intro q hq
            rw [hcell q (by omega)]
            exact Heap.alloc_cell_ne s.heap _ (by omega)
          · intro c hc
            rw [List.mem_cons, not_or] at hc
            rw [hother c hc.2, Function.update_of_ne hc.1]
          · intro c hc
            rcases List.mem_cons.mp hc with rfl | hc
            · refine ⟨s.heap.next, Nat.le_refl _, hbuf, ?_⟩
              rw [hcell _ (by omega)]
              exact Heap.alloc_cell_self s.heap _
            · rcases hfresh c hc with ⟨q, hq, hqc, hlive⟩
              exact ⟨q, by omega, hqc, hlive⟩
          · intro c hc c' hc' hcc'
            rcases List.mem_cons.mp hc with rfl | hcs
            · rcases List.mem_cons.mp hc' with rfl | hcs'
              · exact absurd rfl hcc'
              · exact (hne c' hcs').symm
            · rcases List.mem_cons.mp hc' with rfl | hcs'
              · exact hne c hcs
              · exact hsep c hcs c' hcs' hcc'

/-- After a successful open the buffers hold zeros. -/
theorem buffersHold_open {chan : Bool} {avail : Buf → Bool} {t : Globals}
    (h : sdmaOpen d chan avail s = (0, t)) : BuffersHold d (fun _ _ => 0) t := by
  cases chan with
  | false => exact absurd (Prod.mk.inj h).1 (by decide)
  | true =>
      rcases allocate_spec (bufs_nodup d) h with ⟨hchan, -, -, hfresh, hsep⟩
      refine ⟨hchan, fun b hb => ?_, hsep⟩
      rcases hfresh b hb with ⟨q, -, hq, hlive⟩
      exact ⟨_, ⟨q, hq, hlive⟩, rfl, fun _ _ => rfl⟩

/-! ## Read -/

theorem sameWords_spec {h : Heap (Block U32)} {r w : Ptr} {br bw : Block U32}
    (hr : Holds h r br) (hw : Holds h w bw) (i n : Nat) (hbr : i + n ≤ br.size)
    (hbw : i + n ≤ bw.size) :
    ∃ b, sameWords h r w i n = .ok b ∧
      (b = true ↔ ∀ j, i ≤ j → j < i + n → br.elem j = bw.elem j) := by
  induction n generalizing i with
  | zero => exact ⟨true, rfl, iff_of_true rfl fun j hj hjn => by omega⟩
  | succ n ih =>
      rcases ih (i + 1) (by omega) (by omega) with ⟨b, hb, hiff⟩
      have hfirst : slice br.elem i 1 = slice bw.elem i 1 ↔ br.elem i = bw.elem i := by
        simp [slice]
      rw [sameWords, load_of_holds hr (by omega), load_of_holds hw (by omega)]
      by_cases heq : br.elem i = bw.elem i
      · refine ⟨b, ?_, hiff.trans ⟨fun hall j hj hjn => ?_, fun hall j hj hjn => ?_⟩⟩
        · simp only [hfirst.mpr heq, ne_eq, not_true_eq_false, if_false]
          exact hb
        · rcases Nat.eq_or_lt_of_le hj with rfl | hlt
          · exact heq
          · exact hall j hlt (by omega)
        · exact hall j (by omega) (by omega)
      · refine ⟨false, ?_, iff_of_false (by decide) fun hall => ?_⟩
        · simp only [ne_eq, hfirst.not.mpr heq, not_false_eq_true, if_true]
        · exact heq (hall i (Nat.le_refl i) (by omega))

/-- The first `n` words of the `i`-th buffers of both sides agree. -/
def Agree (f : Buf → Nat → U32) (i n : Nat) : Prop := ∀ j < n, f (.r, i) j = f (.w, i) j

theorem BuffersHold.sameWords (h : BuffersHold d f s) {i n : Nat} (hi : i < d.pairs.length)
    (hn : n ≤ d.words) :
    ∃ b, LinuxDrivers.Sdma.sameWords s.heap (s.buf (.r, i)) (s.buf (.w, i)) 0 n = .ok b ∧
      (b = true ↔ Agree f i n) := by
  rcases h.block (.r, i) (mem_bufs.mpr hi) with ⟨br, hr, hsr, her⟩
  rcases h.block (.w, i) (mem_bufs.mpr hi) with ⟨bw, hw, hsw, hew⟩
  rcases sameWords_spec hr hw 0 n (by omega) (by omega) with ⟨b, hb, hiff⟩
  refine ⟨b, hb, hiff.trans ⟨fun hall j hj => ?_, fun hall j _ hj => ?_⟩⟩
  · rw [← her j (by omega), ← hew j (by omega)]
    exact hall j (Nat.zero_le j) (by omega)
  · rw [her j (by omega), hew j (by omega)]
    exact hall j (by omega)

/-- The messages of the comparisons of `ps` if the first `n` pairs pass and the next one fails. -/
def report : Nat → List Pair → Nat → List Message
  | _, [], _ => []
  | i, p :: _, 0 => [⟨i, false, p.failed⟩]
  | i, p :: ps, n + 1 => ⟨i, true, p.passed⟩ :: report (i + 1) ps n

theorem passed_mem_report {i n : Nat} {ps : List Pair} (hn : n ≤ ps.length) (k : Nat) :
    (∃ m ∈ report i ps n, m.ok = true ∧ m.buffer = k) ↔ i ≤ k ∧ k < i + n := by
  induction ps generalizing i n with
  | nil =>
      obtain rfl : n = 0 := Nat.le_zero.mp hn
      refine iff_of_false (by simp [report]) (by omega)
  | cons p ps ih =>
      cases n with
      | zero => exact iff_of_false (by simp [report]) (by omega)
      | succ n =>
          simp only [report, List.exists_mem_cons_iff, true_and,
            ih (i := i + 1) (Nat.le_of_succ_le_succ hn)]
          omega

/-- The messages tell how many pairs have passed. -/
theorem report_inj {i m n : Nat} {ps : List Pair} (hm : m ≤ ps.length) (hn : n ≤ ps.length)
    (h : report i ps m = report i ps n) : m = n := by
  have hpassed : ∀ k, (i ≤ k ∧ k < i + m) ↔ (i ≤ k ∧ k < i + n) := by
    intro k
    rw [← passed_mem_report hm, h, passed_mem_report hn]
  have hm' := hpassed (i + m)
  have hn' := hpassed (i + n)
  omega

/-- The comparisons report the pairs as passed up to the first one that does not agree in the
words compared. -/
theorem comparePairs_eq (h : BuffersHold d f s) (i : Nat) (ps : List Pair)
    (hi : i + ps.length ≤ d.pairs.length) (hps : ∀ p ∈ ps, p.compared ≤ d.words) :
    ∃ n ≤ ps.length, comparePairs s i ps = .ok (report i ps n) ∧
      (∀ k < n, ∀ p, ps[k]? = some p → Agree f (i + k) p.compared) ∧
      ∀ p, ps[n]? = some p → ¬ Agree f (i + n) p.compared := by
  induction ps generalizing i with
  | nil => exact ⟨0, le_refl _, rfl, by simp, by simp⟩
  | cons p ps ih =>
      rw [List.length_cons] at hi
      rcases h.sameWords (i := i) (by omega) (hps p List.mem_cons_self) with ⟨b, hb, hiff⟩
      cases b with
      | false =>
          -- the first failure ends the comparison
          refine ⟨0, Nat.zero_le _, by rw [comparePairs, hb]; rfl, by simp, fun q hq hagree => ?_⟩
          obtain rfl : p = q := by simpa using hq
          exact absurd (hiff.mpr hagree) (by decide)
      | true =>
          obtain ⟨n, hn, hms, hbefore, hfirst⟩ :=
            ih (i + 1) (by omega) fun q hq => hps q (List.mem_cons_of_mem p hq)
          refine ⟨n + 1, Nat.succ_le_succ hn, by rw [comparePairs, hb]; simp only [hms]; rfl, ?_, ?_⟩
          · intro k hk q hq
            cases k with
            | zero =>
                obtain rfl : p = q := by simpa using hq
                exact hiff.mp rfl
            | succ k =>
                rw [← Nat.add_assoc, Nat.add_right_comm]
                exact hbefore k (Nat.lt_of_succ_lt_succ hk) q (by simpa using hq)
          · intro q hq
            rw [← Nat.add_assoc, Nat.add_right_comm]
            exact hfirst q (by simpa using hq)

/-- The messages of a `sdma_read` that compares. -/
theorem sdmaRead_eq {LINUX_VERSION_CODE : Nat} (h : BuffersHold d f s)
    (hcompares : d.compares LINUX_VERSION_CODE = true) :
    ∃ n ≤ d.pairs.length, sdmaRead d LINUX_VERSION_CODE s = .ok (report 0 d.pairs n) ∧
      (∀ k < n, ∀ p, d.pairs[k]? = some p → Agree f k p.compared) ∧
      ∀ p, d.pairs[n]? = some p → ¬ Agree f n p.compared := by
  obtain ⟨n, hn, hms, hbefore, hfirst⟩ :=
    comparePairs_eq h 0 d.pairs (by omega) fun p hp => Driver.compared_le hp
  simp only [Nat.zero_add] at hbefore hfirst
  exact ⟨n, hn, by rw [sdmaRead, if_pos hcompares, hms], hbefore, hfirst⟩

/-- A pair is reported as passed if and only if it and all pairs before it agree in the words
compared. -/
theorem sdmaRead_spec {LINUX_VERSION_CODE : Nat} (h : BuffersHold d f s)
    (hcompares : d.compares LINUX_VERSION_CODE = true) :
    ∃ ms, sdmaRead d LINUX_VERSION_CODE s = .ok ms ∧
      ∀ i, (∃ m ∈ ms, m.ok = true ∧ m.buffer = i) ↔
        i < d.pairs.length ∧ ∀ k ≤ i, ∀ p, d.pairs[k]? = some p → Agree f k p.compared := by
  rcases sdmaRead_eq h hcompares with ⟨n, hn, hread, hbefore, hfirst⟩
  refine ⟨_, hread, fun i => ?_⟩
  rw [passed_mem_report hn]
  constructor
  · rintro ⟨-, hi⟩
    exact ⟨by omega, fun k hk => hbefore k (by omega)⟩
  · rintro ⟨hi, hall⟩
    refine ⟨Nat.zero_le i, ?_⟩
    by_contra hin
    have hp : d.pairs[n]? = some d.pairs[n] := List.getElem?_eq_getElem (by omega)
    exact hfirst _ hp (hall n (by omega) _ hp)

end

end LinuxDrivers.Sdma
