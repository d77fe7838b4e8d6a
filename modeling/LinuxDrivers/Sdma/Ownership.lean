import LinuxDrivers.Lib.Lifecycle
import LinuxDrivers.Sdma.Buffers

set_option autoImplicit false

/-! # Who owns the SDMA channel and the buffers

Any number of files open and release the device. An open requests a channel and allocates all
buffers, and keeps them in the globals, over those of the files that are open already. A release
gives back what the globals point to.

`OwnedOnce` says what one expects of a run: nothing is released twice or through NULL, a failed open
leaves everything as it was, a release gives back what the file's own open acquired, an open file
has its channel and its buffers, and without an open file nothing is held. `ownedOnce_iff`: this is
so if and only if an open fails only at its channel, with no file open, and a file is released only
when no other one is open. -/

namespace LinuxDrivers.Sdma

open Lib

/-! ## Channels and files -/

/-- The globals, with the channel they point to and the channels of the DMA engine. -/
structure Shared where
  globals : Globals
  dma_m2m_chan : Ptr
  chans : Heap Unit

def Shared.start : Shared := ⟨⟨fun _ => none, false, Heap.empty⟩, none, Heap.empty⟩

def dmaRequestChannel (avail : Bool) (h : Heap Unit) : Ptr × Heap Unit :=
  if avail then (some h.next, h.alloc ()) else (none, h)

/-- The channel is used without a check. -/
def dmaReleaseChannel (h : Heap Unit) : Ptr → Except Fault (Heap Unit)
  | none => .error .nullDeref
  | some q =>
      match h.free? q with
      | some h' => .ok h'
      | none => .error .badFree

/-- What an open meets: whether there is a channel, and memory for each buffer. -/
structure OpenCall where
  chan : Bool
  avail : Buf → Bool

def openFile (d : Driver) (c : OpenCall) (s : Shared) : Bool × Shared :=
  let (dma_m2m_chan, chans) := dmaRequestChannel c.chan s.chans
  let (ret, globals) := sdmaOpen d c.chan c.avail s.globals
  (decide (ret = 0), ⟨globals, dma_m2m_chan, chans⟩)

def releaseFile (d : Driver) (s : Shared) : Except Fault Shared :=
  match dmaReleaseChannel s.chans s.dma_m2m_chan with
  | .error f => .error f
  | .ok chans =>
      match sdmaRelease d s.globals with
      | .error f => .error f
      | .ok (_, globals) => .ok ⟨globals, none, chans⟩

/-- A buffer or a channel, by its address. -/
inductive Resource where
  | buf (q : Nat)
  | chan (q : Nat)

def Shared.Held (s : Shared) : Resource → Prop
  | .buf q => ∃ blk, s.globals.heap.cell q = .live blk
  | .chan q => s.chans.cell q = .live ()

/-- What the globals point to. -/
def Shared.PointsTo (d : Driver) (s : Shared) : Resource → Prop
  | .buf q => ∃ b ∈ d.bufs, s.globals.buf b = some q
  | .chan q => s.dma_m2m_chan = some q

/-- The globals point to a live channel and to live buffers that are apart from each other. -/
structure HasBuffers (d : Driver) (s : Shared) : Prop where
  chan : ∃ q, s.dma_m2m_chan = some q ∧ s.chans.cell q = .live ()
  block : ∀ b ∈ d.bufs, ∃ blk, Holds s.globals.heap (s.globals.buf b) blk
  separate : ∀ b ∈ d.bufs, ∀ c ∈ d.bufs, b ≠ c → s.globals.buf b ≠ s.globals.buf c

/-- The files of the device. -/
def files (d : Driver) (ι : Type) : Lifecycle Shared ι OpenCall Fault Resource where
  probe _ c s := .ok (openFile d c s)
  remove _ s := releaseFile d s
  Held := Shared.Held

/-! ## Open -/

section

variable {d : Driver} {c : OpenCall} {s t : Shared}

theorem allocate_ret {words : Nat} {avail : Buf → Bool} (bs : List Buf) (g : Globals) :
    (allocate words avail bs g).1 = 0 ↔ ∀ b ∈ bs, avail b = true := by
  induction bs generalizing g with
  | nil => simp [allocate]
  | cons b bs ih =>
      rw [List.forall_mem_cons, allocate]
      cases havail : avail b with
      | false => simp [kzalloc]
      | true =>
          show (allocate words avail bs _).1 = 0 ↔ _
          rw [ih]
          exact ⟨fun h => ⟨rfl, h⟩, fun h => h.2⟩

/-- The allocations make no other cells live than those of the buffers. -/
theorem allocate_live {words : Nat} {avail : Buf → Bool} {bs : List Buf} {g u : Globals}
    (hnodup : bs.Nodup) (h : allocate words avail bs g = (0, u)) {q : Nat} {blk : Block U32}
    (hq : u.heap.cell q = .live blk) :
    g.heap.cell q = .live blk ∨ ∃ b ∈ bs, u.buf b = some q := by
  induction bs generalizing g with
  | nil =>
      obtain rfl := (Prod.mk.inj h).2
      exact Or.inl hq
  | cons b bs ih =>
      rcases List.nodup_cons.mp hnodup with ⟨hb, hrest⟩
      have hbuf : u.buf b = some g.heap.next := by
        have hall := (allocate_ret (b :: bs) g).mp (by rw [h])
        rw [allocate, hall b (List.mem_cons_self ..)] at h
        rcases allocate_spec hrest h with ⟨-, -, hother, -⟩
        rw [hother b hb]
        exact Function.update_self ..
      have hall := (allocate_ret (b :: bs) g).mp (by rw [h])
      rw [allocate, hall b (List.mem_cons_self ..)] at h
      rcases ih hrest h with hlive | ⟨c, hc, hcq⟩
      · by_cases hnext : q = g.heap.next
        · exact Or.inr ⟨b, List.mem_cons_self .., by rw [hbuf, hnext]⟩
        · change (g.heap.alloc _).cell q = .live blk at hlive
          rw [Heap.alloc_cell_ne _ _ hnext] at hlive
          exact Or.inl hlive
      · exact Or.inr ⟨c, List.mem_cons_of_mem _ hc, hcq⟩

/-- **An open that succeeds** acquires exactly what the globals point to afterwards. -/
theorem openFile_ok (hchan : c.chan = true) (havail : ∀ b ∈ d.bufs, c.avail b = true) :
    (openFile d c s).1 = true ∧ HasBuffers d (openFile d c s).2 ∧
      (∀ r, (openFile d c s).2.Held r ↔ s.Held r ∨ (openFile d c s).2.PointsTo d r) ∧
      ∀ r, (openFile d c s).2.PointsTo d r → ¬ s.Held r := by
  obtain ⟨u, hu⟩ : ∃ u, sdmaOpen d true c.avail s.globals = (0, u) := by
    refine ⟨(sdmaOpen d true c.avail s.globals).2, Prod.ext ?_ rfl⟩
    exact (allocate_ret d.bufs _).mpr havail
  have hopen : openFile d c s = (true, ⟨u, some s.chans.next, s.chans.alloc ()⟩) := by
    simp [openFile, hchan, hu, dmaRequestChannel]
  rcases allocate_spec (bufs_nodup d) hu with ⟨-, hcell, -, hfresh, hsep⟩
  rw [hopen]
  have hlt : ∀ {q : Nat} {blk : Block U32}, s.globals.heap.cell q = .live blk →
      q < s.globals.heap.next := fun hq => Heap.lt_next (by rw [hq]; exact nofun)
  have hltChan : ∀ {q : Nat}, s.chans.cell q = .live () → q < s.chans.next :=
    fun hq => Heap.lt_next (by rw [hq]; exact nofun)
  refine ⟨rfl, ⟨?_, ?_, hsep⟩, ?_, ?_⟩
  · exact ⟨s.chans.next, rfl, Heap.alloc_cell_self s.chans ()⟩
  · intro b hb
    rcases hfresh b hb with ⟨q, -, hq, hlive⟩
    exact ⟨_, q, hq, hlive⟩
  · rintro (q | q)
    · constructor
      · rintro ⟨blk, hq⟩
        exact (allocate_live (bufs_nodup d) hu hq).imp (fun h => ⟨blk, h⟩) id
      · rintro (⟨blk, hq⟩ | ⟨b, hb, hq⟩)
        · exact ⟨blk, (hcell q (hlt hq)).trans hq⟩
        · rcases hfresh b hb with ⟨q', -, hq', hlive⟩
          obtain rfl := Option.some.inj (hq.symm.trans hq')
          exact ⟨_, hlive⟩
    · show (s.chans.alloc ()).cell q = .live () ↔ s.chans.cell q = .live () ∨ some s.chans.next = some q
      by_cases hnext : q = s.chans.next
      · subst hnext
        simp
      · rw [Heap.alloc_cell_ne _ _ hnext, Option.some.injEq]
        exact ⟨Or.inl, fun h => h.resolve_right (fun h' => hnext h'.symm)⟩
  · rintro (q | q) hpoints
    · rintro ⟨blk, hq⟩
      rcases hpoints with ⟨b, hb, hbq⟩
      rcases hfresh b hb with ⟨q', hle, hq', -⟩
      obtain rfl := Option.some.inj (hbq.symm.trans hq')
      exact absurd (hlt hq) (by show ¬ _ < s.globals.heap.next; exact Nat.not_lt.mpr hle)
    · intro hq
      obtain rfl : s.chans.next = q := Option.some.inj hpoints
      exact absurd (hltChan hq) (Nat.lt_irrefl _)

/-- Without a channel the open fails, and the pointer to the channel is lost. -/
theorem openFile_noChannel (hchan : c.chan = false) :
    (openFile d c s).1 = false ∧ (openFile d c s).2.dma_m2m_chan = none ∧
      ∀ r, (openFile d c s).2.Held r ↔ s.Held r := by
  have hopen : openFile d c s = (false, ⟨{ s.globals with dma_m2m_chan := false }, none, s.chans⟩) := by
    simp [openFile, hchan, sdmaOpen, dmaRequestChannel, EINVAL]
  rw [hopen]
  refine ⟨rfl, rfl, ?_⟩
  rintro (q | q)
  · exact Iff.rfl
  · exact Iff.rfl

/-- Without memory the open fails, and the new channel stays. -/
theorem openFile_noMemory (hchan : c.chan = true) (havail : ¬ ∀ b ∈ d.bufs, c.avail b = true) :
    (openFile d c s).1 = false ∧
      ∃ r, (openFile d c s).2.Held r ∧ ¬ s.Held r := by
  constructor
  · have hret : ¬ (allocate d.words c.avail d.bufs { s.globals with dma_m2m_chan := true }).1 = 0 :=
      (allocate_ret _ _).not.mpr havail
    simp only [openFile, sdmaOpen, hchan, if_true]
    exact decide_eq_false hret
  · refine ⟨.chan s.chans.next, ?_, ?_⟩
    · show (dmaRequestChannel c.chan s.chans).2.cell s.chans.next = .live ()
      rw [hchan]
      exact Heap.alloc_cell_self s.chans ()
    · show ¬ s.chans.cell s.chans.next = .live ()
      rw [s.chans.beyond _ (Nat.le_refl _)]
      exact nofun

/-! ## Release -/

/-- Freeing live buffers that are apart from each other frees these and nothing else. -/
theorem freeAll_spec {bs : List Buf} {g : Globals} (hnodup : bs.Nodup)
    (hlive : ∀ b ∈ bs, ∃ blk, Holds g.heap (g.buf b) blk)
    (hsep : ∀ b ∈ bs, ∀ c ∈ bs, b ≠ c → g.buf b ≠ g.buf c) :
    ∃ u, freeAll bs g = .ok u ∧
      ∀ q blk, u.heap.cell q = .live blk ↔
        g.heap.cell q = .live blk ∧ ∀ b ∈ bs, g.buf b ≠ some q := by
  induction bs generalizing g with
  | nil => exact ⟨g, rfl, fun q blk => ⟨fun h => ⟨h, nofun⟩, fun h => h.1⟩⟩
  | cons b bs ih =>
      rcases List.nodup_cons.mp hnodup with ⟨hb, hrest⟩
      rw [List.forall_mem_cons] at hlive
      rcases hlive with ⟨⟨blk, hholds⟩, hlives⟩
      rcases kfree_of_holds hholds with ⟨heap, p, hp, hfree, -, hcell⟩
      have hother : ∀ c ∈ bs, g.buf c ≠ some p := by
        intro c hc
        rw [← hp]
        exact hsep c (List.mem_cons_of_mem _ hc) b (List.mem_cons_self ..)
          (fun heq => hb (heq ▸ hc))
      obtain ⟨u, hu, hlive'⟩ := ih (g := { g with heap := heap }) hrest
        (by
          intro c hc
          rcases hlives c hc with ⟨blk', q, hq, hcq⟩
          have hqp : q ≠ p := fun heq => hother c hc (heq ▸ hq)
          exact ⟨blk', q, hq, by show heap.cell q = _; rw [hcell, Function.update_of_ne hqp, hcq]⟩)
        (fun c hc c' hc' => hsep c (List.mem_cons_of_mem _ hc) c' (List.mem_cons_of_mem _ hc'))
      refine ⟨u, by rw [freeAll, hfree]; exact hu, fun q blk' => ?_⟩
      rw [hlive', List.forall_mem_cons]
      show heap.cell q = _ ∧ _ ↔ _
      rw [hcell]
      by_cases hqp : q = p
      · subst hqp
        rw [Function.update_self]
        exact ⟨nofun, fun h => absurd hp h.2.1⟩
      · rw [Function.update_of_ne hqp]
        have hne : g.buf b ≠ some q := by
          rw [hp]
          exact fun heq => hqp (Option.some.inj heq).symm
        exact ⟨fun h => ⟨h.1, hne, h.2⟩, fun h => ⟨h.1, h.2.2⟩⟩

/-- **A release gives back what the globals point to.** -/
theorem releaseFile_of_hasBuffers (h : HasBuffers d s) :
    ∃ t, releaseFile d s = .ok t ∧ ∀ r, t.Held r ↔ s.Held r ∧ ¬ s.PointsTo d r := by
  rcases h.chan with ⟨p, hp, hlive⟩
  rcases Heap.exists_free? hlive with ⟨chans, hfree⟩
  rcases Heap.free?_eq_some.mp hfree with ⟨-, -, -, hcell⟩
  obtain ⟨u, hu, hheap⟩ := freeAll_spec (g := { s.globals with dma_m2m_chan := false })
    (bufs_nodup d) h.block h.separate
  refine ⟨⟨u, none, chans⟩, ?_, ?_⟩
  · simp [releaseFile, dmaReleaseChannel, hp, hfree, sdmaRelease, hu]
  · rintro (q | q)
    · show (∃ blk, u.heap.cell q = .live blk) ↔
        (∃ blk, s.globals.heap.cell q = .live blk) ∧ ¬ ∃ b ∈ d.bufs, s.globals.buf b = some q
      simp only [hheap, not_exists, not_and, exists_and_right]
    · show chans.cell q = .live () ↔ s.chans.cell q = .live () ∧ ¬ s.dma_m2m_chan = some q
      rw [hcell, hp, Option.some.injEq]
      by_cases hqp : q = p
      · subst hqp
        rw [Function.update_self]
        exact ⟨nofun, fun h => absurd rfl h.2⟩
      · rw [Function.update_of_ne hqp]
        exact ⟨fun h => ⟨h, fun heq => hqp heq.symm⟩, fun h => h.1⟩

theorem releaseFile_chan (h : releaseFile d s = .ok t) : t.dma_m2m_chan = none := by
  unfold releaseFile at h
  cases hchan : dmaReleaseChannel s.chans s.dma_m2m_chan with
  | error f =>
      simp only [hchan] at h
      cases h
  | ok chans =>
      simp only [hchan] at h
      cases hrelease : sdmaRelease d s.globals with
      | error f =>
          simp only [hrelease] at h
          cases h
      | ok r =>
          simp only [hrelease] at h
          cases h
          rfl

end

/-! ## Runs -/

section

variable {ι : Type} [DecidableEq ι]

/-- The module has just been loaded. -/
def noFiles (ι : Type) : Bound Shared ι := Bound.start ι Shared.start

/-- An open file finds its channel and its buffers. -/
def OpenHasBuffers (d : Driver) (s : Bound Shared ι) : Prop :=
  (∃ i, (s.own i).isSome = true) → HasBuffers d s.state

/-- The channel and the buffers are owned exactly once in a run: no step faults, a failed open leaves
everything as it was, a release gives back what the own open acquired (`Balanced`); an open file
has its channel and buffers; and nothing is held when no file is open. -/
structure OwnedOnce (d : Driver) (es : List (BindEvent ι OpenCall)) : Prop where
  balanced : Along (bindStep (files d ι)) (fun _ => Balanced (files d ι)) (noFiles ι) es
  live : Always (bindStep (files d ι)) (OpenHasBuffers d) (noFiles ι) es
  released : Always (bindStep (files d ι))
    (fun s => (∀ i, s.own i = none) → ∀ r, ¬ s.state.Held r) (noFiles ι) es

/-- An open succeeds, or it fails at its channel with no file open; and the file that is released
is the only one that is open. -/
def OnlyFile (d : Driver) (s : Bound Shared ι) : BindEvent ι OpenCall → Prop
  | .probe _ c => c.chan = true ∧ (∀ b ∈ d.bufs, c.avail b = true) ∨
      c.chan = false ∧ ∀ j, s.own j = none
  | .remove i => ∀ j, j ≠ i → s.own j = none

/-- The invariant: the globals are live as long as a file is open, and they are what a file that is
the only one open has acquired. -/
structure FilesInv (d : Driver) (s : Bound Shared ι) : Prop where
  live : OpenHasBuffers d s
  single : ∀ i, ∀ own ∈ s.own i, (∀ j, j ≠ i → s.own j = none) →
    ∀ r, (files d ι).Acquired own r ↔ s.state.PointsTo d r

omit [DecidableEq ι] in
theorem filesInv_start (d : Driver) : FilesInv d (noFiles ι) where
  live := by
    rintro ⟨i, hi⟩
    cases hi
  single i own hown := by cases hown

/-- What one step should do, with the state it leaves. -/
def GoodStep (d : Driver) (s : Bound Shared ι) (e : BindEvent ι OpenCall) : Prop :=
  Balanced (files d ι) s e ∧ ∀ t, bindStep (files d ι) s e = some t → OpenHasBuffers d t

section

variable {d : Driver} {s t : Bound Shared ι} {i : ι} {c : OpenCall}

omit [DecidableEq ι] in
theorem none_of_not_open (h : ¬ ∃ i, (s.own i).isSome = true) (j : ι) : s.own j = none := by
  rw [← Option.not_isSome_iff_eq_none]
  exact fun hj => h ⟨j, hj⟩

theorem goodStep_probe_iff (hstep : bindStep (files d ι) s (.probe i c) = some t) :
    GoodStep d s (.probe i c) ↔ OnlyFile d s (.probe i c) := by
  rcases bindStep_probe hstep with ⟨hrun, hi, -⟩
  have hprobe : (files d ι).probe i c s.state
      = .ok ((openFile d c s.state).1, (openFile d c s.state).2) := rfl
  cases hchan : c.chan with
  | true =>
      by_cases havail : ∀ b ∈ d.bufs, c.avail b = true
      · -- all is there: the globals are those of the new file
        rcases openFile_ok (s := s.state) hchan havail with ⟨hok, hbufs, hheld, -⟩
        rw [hok] at hprobe
        refine iff_of_true ⟨⟨true, _, hprobe, nofun, fun _ r hr => ?_⟩, fun u hu _ => ?_⟩
          (Or.inl ⟨hchan, havail⟩)
        · exact (hheld r).mpr (Or.inl hr)
        · rw [bindStep_of_ok hrun hi hprobe] at hu
          cases hu
          exact hbufs
      · -- the channel has been requested and is not given back
        rcases openFile_noMemory (s := s.state) hchan havail with ⟨hok, r, hr, hnot⟩
        rw [hok] at hprobe
        refine iff_of_false ?_ ?_
        · rintro ⟨⟨ok, u, hu, hfail, -⟩, -⟩
          rw [hprobe] at hu
          cases hu
          exact hnot ((hfail rfl r).mp hr)
        · rintro (⟨-, hall⟩ | ⟨hnone, -⟩)
          · exact havail hall
          · rw [hchan] at hnone
            cases hnone
  | false =>
      rcases openFile_noChannel (d := d) (s := s.state) hchan with ⟨hok, hptr, hheld⟩
      rw [hok] at hprobe
      have hnext := bindStep_of_fail hrun hi hprobe
      have hbal : Balanced (files d ι) s (.probe i c) :=
        ⟨false, _, hprobe, fun _ => hheld, nofun⟩
      constructor
      · rintro ⟨-, hlive⟩
        refine Or.inr ⟨hchan, none_of_not_open fun hopen => ?_⟩
        -- an open file has lost its channel
        rcases (hlive _ hnext hopen).chan with ⟨q, hq, -⟩
        rw [hptr] at hq
        cases hq
      · rintro (⟨htrue, -⟩ | ⟨-, hnone⟩)
        · rw [hchan] at htrue
          cases htrue
        · refine ⟨hbal, fun u hu hopen => ?_⟩
          rw [hnext] at hu
          cases hu
          rcases hopen with ⟨j, hj⟩
          rw [hnone j] at hj
          cases hj

theorem goodStep_remove_iff (hinv : FilesInv d s)
    (hstep : bindStep (files d ι) s (.remove i) = some t) :
    GoodStep d s (.remove i) ↔ OnlyFile d s (.remove i) := by
  rcases bindStep_remove hstep with ⟨hrun, own, hown, -⟩
  constructor
  · rintro ⟨hbal, hlive⟩ j hj
    by_contra hbound
    rcases hbal own hown with ⟨u, hu, -⟩
    have hnext := bindStep_of_remove hrun hown hu
    -- the other file is still open, and there is no channel any more
    have hopen : (Function.update s.own i none j).isSome = true := by
      rw [Function.update_of_ne hj]
      exact Option.isSome_iff_ne_none.mpr hbound
    rcases (hlive _ hnext ⟨j, hopen⟩).chan with ⟨q, hq, -⟩
    rw [releaseFile_chan hu] at hq
    cases hq
  · intro honly
    have hbufs : HasBuffers d s.state := hinv.live ⟨i, by rw [hown]; rfl⟩
    rcases releaseFile_of_hasBuffers hbufs with ⟨u, hu, hheld⟩
    have hsingle := hinv.single i own hown honly
    constructor
    · intro own' hown'
      obtain rfl : own = own' := Option.some.inj (hown.symm.trans hown')
      refine ⟨u, hu, fun r => ?_⟩
      rw [hsingle r]
      exact hheld r
    · rintro v hv ⟨j, hj⟩
      have hremove : (files d ι).remove i s.state = .ok u := hu
      rw [bindStep_of_remove hrun hown hremove] at hv
      cases hv
      rcases Option.isSome_iff_exists.mp hj with ⟨own', hown'⟩
      rcases mem_update.mp hown' with ⟨-, hnone⟩ | ⟨hji, hown''⟩
      · cases hnone
      · rw [honly j hji] at hown''
        cases hown''

theorem filesInv_step {e : BindEvent ι OpenCall} (hinv : FilesInv d s) (hc : OnlyFile d s e)
    (hstep : bindStep (files d ι) s e = some t) : FilesInv d t := by
  cases e with
  | probe i c =>
      have hgood := (goodStep_probe_iff hstep).mpr hc
      refine ⟨hgood.2 t hstep, fun j own hown honly => ?_⟩
      rcases bindStep_probe hstep with ⟨hrun, hi, -⟩
      rcases hc with ⟨hchan, havail⟩ | ⟨hchan, hnone⟩
      · rcases openFile_ok (s := s.state) hchan havail with ⟨hok, -, hheld, hfresh⟩
        have hprobe : (files d ι).probe i c s.state = .ok (true, (openFile d c s.state).2) := by
          rw [← hok]
          rfl
        rw [bindStep_of_ok hrun hi hprobe] at hstep
        cases hstep
        rcases mem_update.mp hown with ⟨rfl, hnew⟩ | ⟨hj, -⟩
        · cases hnew
          intro r
          show (openFile d c s.state).2.Held r ∧ ¬ s.state.Held r ↔ _
          rw [hheld]
          exact ⟨fun h => h.1.resolve_left h.2, fun h => ⟨Or.inr h, hfresh r h⟩⟩
        · -- the new file is open too
          have hnew : Function.update s.own i (some _) i = none := honly i (Ne.symm hj)
          rw [Function.update_self] at hnew
          cases hnew
      · rcases openFile_noChannel (d := d) (s := s.state) hchan with ⟨hok, -, -⟩
        have hprobe : (files d ι).probe i c s.state = .ok (false, (openFile d c s.state).2) := by
          rw [← hok]
          rfl
        rw [bindStep_of_fail hrun hi hprobe] at hstep
        cases hstep
        rw [hnone j] at hown
        cases hown
  | remove i =>
      have hgood := (goodStep_remove_iff hinv hstep).mpr hc
      refine ⟨hgood.2 t hstep, fun j own hown honly => ?_⟩
      rcases bindStep_remove hstep with ⟨-, own', hown', hcases⟩
      rcases hcases with ⟨f, hf, -⟩ | ⟨u, -, rfl⟩
      · rcases hgood.1 own' hown' with ⟨u, hu, -⟩
        rw [hu] at hf
        cases hf
      · rcases mem_update.mp hown with ⟨-, hnone⟩ | ⟨hj, hown⟩
        · cases hnone
        · rw [hc j hj] at hown
          cases hown

end

/-- **When channel and buffers are owned exactly once**: in a run, for each of the two drivers, all
is as it should be if and only if no open fails but at its channel and with no file open, and no
file is released while another one is open. -/
theorem ownedOnce_iff (d : Driver) (es : List (BindEvent ι OpenCall)) (s : Bound Shared ι)
    (hrun : run (bindStep (files d ι)) (noFiles ι) es = some s) :
    OwnedOnce d es ↔ Along (bindStep (files d ι)) (fun _ => OnlyFile d) (noFiles ι) es := by
  have hiff : Along (bindStep (files d ι)) (fun _ => GoodStep d) (noFiles ι) es ↔
      Along (bindStep (files d ι)) (fun _ => OnlyFile d) (noFiles ι) es := by
    refine along_iff (I := FilesInv d) (fun _ _ _ => filesInv_step) ?_ es _ s (filesInv_start d) hrun
    intro s e t hinv hstep
    cases e with
    | probe i c => exact goodStep_probe_iff hstep
    | remove i => exact goodStep_remove_iff hinv hstep
  rw [← hiff]
  constructor
  · intro h
    exact along_and.mpr ⟨h.balanced, (always_iff.mp h.live).2⟩
  · intro h
    rcases along_and.mp h with ⟨hbal, hlive⟩
    refine ⟨hbal, always_iff.mpr ⟨(filesInv_start d).live, hlive⟩, ?_⟩
    intro pre post u hes hu hnone r hr
    have hledger := ledger_of_balanced hbal pre post u hes hu
    have hempty := (hledger.held_of_unbound hnone r).mp hr
    cases r with
    | buf q =>
        rcases hempty with ⟨blk, hblk⟩
        cases hblk
    | chan q => cases hempty

instance [Fintype ι] (d : Driver) (s : Bound Shared ι) : ∀ e, Decidable (OnlyFile d s e)
  | .probe _ c => inferInstanceAs (Decidable (c.chan = true ∧ (∀ b ∈ d.bufs, c.avail b = true) ∨
      c.chan = false ∧ ∀ j, (s.own j) = none))
  | .remove i => inferInstanceAs (Decidable (∀ j, j ≠ i → s.own j = none))

/-- An open that fails at its channel, and then two sessions one after the other. -/
theorem ownedOnce_sessions :
    (run (bindStep (files .scatterGather Bool)) (noFiles Bool)
      [.probe true ⟨false, fun _ => true⟩, .probe true ⟨true, fun _ => true⟩, .remove true,
        .probe false ⟨true, fun _ => true⟩, .remove false]).isSome = true ∧
    OwnedOnce (ι := Bool) .scatterGather
      [.probe true ⟨false, fun _ => true⟩, .probe true ⟨true, fun _ => true⟩, .remove true,
        .probe false ⟨true, fun _ => true⟩, .remove false] := by
  have hrun : (run (bindStep (files .scatterGather Bool)) (noFiles Bool)
      [.probe true ⟨false, fun _ => true⟩, .probe true ⟨true, fun _ => true⟩, .remove true,
        .probe false ⟨true, fun _ => true⟩, .remove false]).isSome = true := by
    decide +kernel
  refine ⟨hrun, ?_⟩
  rcases Option.isSome_iff_exists.mp hrun with ⟨s, hs⟩
  exact (ownedOnce_iff .scatterGather _ s hs).mpr (along_of_checkAlong _ _ (by decide +kernel))

/-- **Two files at once**: the release of the first one takes the channel and the buffers of the
second one, whose release then faults. -/
theorem not_ownedOnce_two_files :
    ¬ OwnedOnce (ι := Bool) .single
      [.probe true ⟨true, fun _ => true⟩, .probe false ⟨true, fun _ => true⟩, .remove true,
        .remove false] := by
  have hrun : (run (bindStep (files .single Bool)) (noFiles Bool)
      [.probe true ⟨true, fun _ => true⟩, .probe false ⟨true, fun _ => true⟩, .remove true]).any
      (fun s => decide (s.state.dma_m2m_chan = none ∧ (s.own false).isSome = true)) = true := by
    decide +kernel
  rcases (Option.any_eq_true _ _).mp hrun with ⟨s, hs, hlost⟩
  rw [decide_eq_true_eq] at hlost
  intro h
  rcases (h.live _ [.remove false] s rfl hs ⟨false, hlost.2⟩).chan with ⟨q, hq, -⟩
  rw [hlost.1] at hq
  cases hq

end

end LinuxDrivers.Sdma
