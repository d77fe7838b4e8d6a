import Mathlib.Data.List.Nodup
import Mathlib.Logic.Function.Basic

set_option autoImplicit false

/-! # Keys that one party at a time may hold

A `Registry` says who holds each key. A key is taken when nobody holds it; it is released by anyone,
and the registry remembers that it has been misused if that was not the one who held it.

Somebody asks for some keys, each of which he is granted or not, and gives all of them back later.
`Owns` is what holds in between, whatever the others do with their own keys; and from it
`giveAll_misused`: nothing is misused if and only if every key had been granted. -/

namespace LinuxDrivers.Lib

structure Registry (κ ω : Type) where
  holder : κ → Option ω
  misused : Bool

/-- One request: the key, if it was for a key at all, and whether it was granted. -/
structure Ask (κ : Type) where
  key : Option κ
  granted : Bool

namespace Registry

variable {κ ω : Type} [DecidableEq κ]

def empty : Registry κ ω := ⟨fun _ => none, false⟩

def take (who : ω) (k : κ) (r : Registry κ ω) : Registry κ ω :=
  { r with holder := Function.update r.holder k (some who) }

@[simp] theorem take_holder_self (who : ω) (k : κ) (r : Registry κ ω) :
    (r.take who k).holder k = some who := Function.update_self k _ _

theorem take_holder_ne (who : ω) {k k' : κ} (r : Registry κ ω) (h : k' ≠ k) :
    (r.take who k).holder k' = r.holder k' := Function.update_of_ne h _ _

/-- How a request may end. -/
def Asked (who : ω) (r : Registry κ ω) (a : Ask κ) (r' : Registry κ ω) : Prop :=
  (a.granted = false ∧ r' = r) ∨
    ∃ k, a.granted = true ∧ a.key = some k ∧ r.holder k = none ∧ r' = r.take who k

/-- Requests, one after the other. -/
def AskedAll (who : ω) : Registry κ ω → List (Ask κ) → Registry κ ω → Prop
  | r, [], r' => r' = r
  | r, a :: as, r' => ∃ t, Asked who r a t ∧ AskedAll who t as r'

/-- All the keys are different ones, and held. -/
def HoldsAll (who : ω) (keys : List (Option κ)) (r : Registry κ ω) : Prop :=
  keys.Nodup ∧ ∀ key ∈ keys, ∃ k, key = some k ∧ r.holder k = some who

/-- Of the keys that were asked for, exactly those that were granted are held. -/
structure Owns (who : ω) (as : List (Ask κ)) (r : Registry κ ω) : Prop where
  held : ∀ k, r.holder k = some who ↔ ∃ a ∈ as, a.granted = true ∧ a.key = some k
  all : (∀ a ∈ as, a.granted = true) ↔ HoldsAll who (as.map Ask.key) r

/-- The same keys are held as before. -/
def SameFor (who : ω) (r r' : Registry κ ω) : Prop :=
  ∀ k, r'.holder k = some who ↔ r.holder k = some who

section

variable {who w : ω} {r r' t : Registry κ ω} {as : List (Ask κ)} {a : Ask κ} {k : κ}
  {keys : List (Option κ)}

/-! ## Requests -/

theorem Asked.misused (h : Asked who r a r') : r'.misused = r.misused := by
  rcases h with ⟨-, rfl⟩ | ⟨k, -, -, -, rfl⟩
  · rfl
  · rfl

theorem AskedAll.misused (h : AskedAll who r as r') : r'.misused = r.misused := by
  induction as generalizing r with
  | nil => rw [show r' = r from h]
  | cons a as ih =>
      rcases h with ⟨t, ha, has⟩
      exact (ih has).trans ha.misused

/-- A key keeps its holder, or it was free and has been granted. -/
theorem AskedAll.holder (h : AskedAll who r as r') (k : κ) :
    r'.holder k = r.holder k ∨ (r.holder k = none ∧ r'.holder k = some who ∧
      ∃ a ∈ as, a.granted = true ∧ a.key = some k) := by
  induction as generalizing r with
  | nil =>
      rw [show r' = r from h]
      exact Or.inl rfl
  | cons a as ih =>
      rcases h with ⟨t, ha, has⟩
      rcases ha with ⟨-, rfl⟩ | ⟨k', hgranted, hkey, hfree, rfl⟩
      · rcases ih has with hsame | ⟨hnone, hheld, b, hb, hask⟩
        · exact Or.inl hsame
        · exact Or.inr ⟨hnone, hheld, b, List.mem_cons_of_mem a hb, hask⟩
      · have hrest := ih has
        by_cases hk : k = k'
        · subst hk
          rw [take_holder_self] at hrest
          have hheld : r'.holder k = some who := hrest.elim id fun h => h.2.1
          exact Or.inr ⟨hfree, hheld, a, List.mem_cons_self, hgranted, hkey⟩
        · rw [take_holder_ne who r hk] at hrest
          rcases hrest with hsame | ⟨hnone, hheld, b, hb, hask⟩
          · exact Or.inl hsame
          · exact Or.inr ⟨hnone, hheld, b, List.mem_cons_of_mem a hb, hask⟩

/-- What has been granted was free, and is held from then on. -/
theorem AskedAll.granted (h : AskedAll who r as r') (ha : a ∈ as) (hgranted : a.granted = true) :
    ∃ k, a.key = some k ∧ r.holder k ≠ some who ∧ r'.holder k = some who := by
  induction as generalizing r with
  | nil => cases ha
  | cons b as ih =>
      rcases h with ⟨t, hb, has⟩
      rcases List.mem_cons.mp ha with rfl | ha
      · rcases hb with ⟨hrefused, -⟩ | ⟨k, -, hkey, hfree, rfl⟩
        · rw [hgranted] at hrefused
          cases hrefused
        · refine ⟨k, hkey, by simp [hfree], ?_⟩
          rcases AskedAll.holder has k with hsame | ⟨-, hheld, -⟩
          · rw [hsame, take_holder_self]
          · exact hheld
      · rcases ih has ha with ⟨k, hkey, hnot, hheld⟩
        refine ⟨k, hkey, fun hwho => hnot ?_, hheld⟩
        rcases hb with ⟨-, rfl⟩ | ⟨k', -, -, hfree, rfl⟩
        · exact hwho
        · rw [take_holder_ne who r (by rintro rfl; rw [hfree] at hwho; cases hwho)]
          exact hwho

/-- No key is granted twice. -/
theorem AskedAll.nodup (h : AskedAll who r as r') (hall : ∀ a ∈ as, a.granted = true) :
    (as.map Ask.key).Nodup := by
  induction as generalizing r with
  | nil => exact List.nodup_nil
  | cons a as ih =>
      rcases h with ⟨t, ha, has⟩
      rw [List.forall_mem_cons] at hall
      rw [List.map_cons, List.nodup_cons]
      refine ⟨fun hmem => ?_, ih has hall.2⟩
      rcases List.mem_map.mp hmem with ⟨b, hb, hba⟩
      rcases ha with ⟨hrefused, -⟩ | ⟨k, -, hkey, -, rfl⟩
      · rw [hall.1] at hrefused
        cases hrefused
      · rcases AskedAll.granted has hb (hall.2 b hb) with ⟨k', hkey', hnot, -⟩
        obtain rfl : k' = k := Option.some.inj (hkey'.symm.trans (hba.trans hkey))
        exact hnot (take_holder_self who k' r)

/-- **Who asks owns**, if he held nothing before. -/
theorem AskedAll.owns (h : AskedAll who r as r') (hnone : ∀ k, r.holder k ≠ some who) :
    Owns who as r' := by
  have hheld : ∀ k, r'.holder k = some who ↔ ∃ a ∈ as, a.granted = true ∧ a.key = some k := by
    intro k
    constructor
    · intro hk
      rcases h.holder k with hsame | ⟨-, -, hask⟩
      · exact absurd (hsame.symm.trans hk) (hnone k)
      · exact hask
    · rintro ⟨a, ha, hgranted, hkey⟩
      rcases h.granted ha hgranted with ⟨k', hkey', -, hk'⟩
      obtain rfl : k' = k := Option.some.inj (hkey'.symm.trans hkey)
      exact hk'
  refine ⟨hheld, fun hall => ⟨h.nodup hall, ?_⟩, fun hholds a ha => ?_⟩
  · intro key hkey
    rcases List.mem_map.mp hkey with ⟨a, ha, rfl⟩
    rcases h.granted ha (hall a ha) with ⟨k, hk, -, hholder⟩
    exact ⟨k, hk, hholder⟩
  · -- a refused key would be held by way of another request for the same one
    rcases hholds.2 a.key (List.mem_map_of_mem ha) with ⟨k, hkey, hholder⟩
    rcases (hheld k).mp hholder with ⟨b, hb, hgranted, hkey'⟩
    obtain rfl : a = b := List.inj_on_of_nodup_map hholds.1 ha hb (hkey.trans hkey'.symm)
    exact hgranted

omit [DecidableEq κ] in
theorem HoldsAll.perm {keys' : List (Option κ)} (hperm : keys.Perm keys')
    (h : HoldsAll who keys r) : HoldsAll who keys' r :=
  ⟨hperm.nodup_iff.mp h.1, fun key hkey => h.2 key (hperm.mem_iff.mpr hkey)⟩

omit [DecidableEq κ] in
/-- The order of the requests does not matter. -/
theorem Owns.perm {bs : List (Ask κ)} (hperm : as.Perm bs) (h : Owns who as r) :
    Owns who bs r where
  held k := (h.held k).trans (exists_congr fun _ => and_congr_left fun _ => hperm.mem_iff)
  all := by
    have hkeys := hperm.map Ask.key
    refine (forall_congr' fun a => imp_congr_left hperm.mem_iff).symm.trans (h.all.trans ?_)
    exact ⟨HoldsAll.perm hkeys, HoldsAll.perm hkeys.symm⟩

/-! ## The others -/

omit [DecidableEq κ] in
theorem SameFor.refl (who : ω) (r : Registry κ ω) : SameFor who r r := fun _ => Iff.rfl

omit [DecidableEq κ] in
theorem Owns.congr (h : Owns who as r) (hsame : SameFor who r r') : Owns who as r' := by
  refine ⟨fun k => (hsame k).trans (h.held k), h.all.trans (and_congr_right fun _ => ?_)⟩
  exact forall₂_congr fun key _ => exists_congr fun k => and_congr_right fun _ => (hsame k).symm

omit [DecidableEq κ] in
theorem Owns.none (h : Owns who [] r) (k : κ) : r.holder k ≠ some who := fun hk =>
  let ⟨_, ha, _⟩ := (h.held k).mp hk
  absurd ha List.not_mem_nil

theorem AskedAll.sameFor (h : AskedAll who r as r') (hne : w ≠ who) : SameFor w r r' := by
  intro k
  rcases h.holder k with hsame | ⟨hnone, hheld, -⟩
  · rw [hsame]
  · rw [hnone, hheld]
    exact iff_of_false (fun h => hne (Option.some.inj h).symm) nofun

/-- One key, taken by somebody else. -/
theorem take_sameFor (hfree : r.holder k = none) (hne : w ≠ who) :
    SameFor w r (r.take who k) := by
  have hasked : AskedAll who r [⟨some k, true⟩] (r.take who k) :=
    ⟨_, Or.inr ⟨k, rfl, rfl, hfree, rfl⟩, rfl⟩
  exact hasked.sameFor hne

end

/-! ## Giving back -/

section

variable [DecidableEq ω]

def release (who : ω) (k : κ) (r : Registry κ ω) : Registry κ ω :=
  ⟨Function.update r.holder k none, r.misused || decide (r.holder k ≠ some who)⟩

/-- Something is given back that is no key. -/
def abuse (r : Registry κ ω) : Registry κ ω := { r with misused := true }

def giveBack (who : ω) (r : Registry κ ω) : Option κ → Registry κ ω
  | some k => r.release who k
  | none => r.abuse

def giveAll (who : ω) (keys : List (Option κ)) (r : Registry κ ω) : Registry κ ω :=
  keys.foldl (giveBack who) r

variable {who w : ω} {r : Registry κ ω} {as : List (Ask κ)} {keys : List (Option κ)}

@[simp] theorem release_holder_self (k : κ) : (r.release who k).holder k = none :=
  Function.update_self k _ _

theorem release_holder_ne {k k' : κ} (h : k' ≠ k) :
    (r.release who k).holder k' = r.holder k' := Function.update_of_ne h _ _

theorem holdsAll_cons {key : Option κ} : HoldsAll who (key :: keys) r ↔
    ∃ k, key = some k ∧ r.holder k = some who ∧ HoldsAll who keys (r.release who k) := by
  constructor
  · rintro ⟨hnodup, hall⟩
    rw [List.nodup_cons] at hnodup
    rw [List.forall_mem_cons] at hall
    rcases hall with ⟨⟨k, rfl, hk⟩, hrest⟩
    refine ⟨k, rfl, hk, hnodup.2, fun key hkey => ?_⟩
    rcases hrest key hkey with ⟨k', rfl, hk'⟩
    refine ⟨k', rfl, ?_⟩
    rw [release_holder_ne (by rintro rfl; exact hnodup.1 hkey)]
    exact hk'
  · rintro ⟨k, rfl, hk, hnodup, hall⟩
    have hother : ∀ key ∈ keys, ∃ k', key = some k' ∧ k' ≠ k ∧ r.holder k' = some who := by
      intro key hkey
      rcases hall key hkey with ⟨k', rfl, hk'⟩
      by_cases heq : k' = k
      · subst heq
        rw [release_holder_self] at hk'
        cases hk'
      · rw [release_holder_ne heq] at hk'
        exact ⟨k', rfl, heq, hk'⟩
    refine ⟨List.nodup_cons.mpr ⟨fun hmem => ?_, hnodup⟩,
      List.forall_mem_cons.mpr ⟨⟨k, rfl, hk⟩, ?_⟩⟩
    · rcases hother _ hmem with ⟨k', hkey, hne, -⟩
      exact hne (Option.some.inj hkey).symm
    · intro key hkey
      rcases hother key hkey with ⟨k', hkey', -, hk'⟩
      exact ⟨k', hkey', hk'⟩

/-- Giving back is clean for keys that are held, each given back once. -/
theorem giveAll_misused : (giveAll who keys r).misused = false ↔
    r.misused = false ∧ HoldsAll who keys r := by
  induction keys generalizing r with
  | nil => exact (and_iff_left ⟨List.nodup_nil, fun _ h => absurd h List.not_mem_nil⟩).symm
  | cons key keys ih =>
      rw [holdsAll_cons]
      change (giveAll who keys (giveBack who r key)).misused = false ↔ _
      rw [ih]
      cases key with
      | none => simp [giveBack, abuse]
      | some k => simp [giveBack, release, and_assoc]

/-- What is given back is free then, and nothing else changes. -/
theorem giveAll_holder (h : HoldsAll who keys r) (k : κ) :
    (giveAll who keys r).holder k = some w ↔ some k ∉ keys ∧ r.holder k = some w := by
  induction keys generalizing r with
  | nil => exact (and_iff_right List.not_mem_nil).symm
  | cons key keys ih =>
      rcases holdsAll_cons.mp h with ⟨k', rfl, -, hrest⟩
      refine (ih hrest).trans ?_
      by_cases hk : k = k'
      · subst hk
        simp
      · simp [release_holder_ne hk, hk]

theorem HoldsAll.sameFor (h : HoldsAll who keys r) (hne : w ≠ who) :
    SameFor w r (giveAll who keys r) := by
  intro k
  rw [giveAll_holder h]
  refine and_iff_right_of_imp fun hw hk => ?_
  rcases h.2 _ hk with ⟨k', hkey, hheld⟩
  rw [Option.some.inj hkey, hheld] at hw
  exact hne (Option.some.inj hw).symm

/-- One key, given back by somebody else. -/
theorem release_sameFor {k : κ} (hheld : r.holder k = some who) (hne : w ≠ who) :
    SameFor w r (r.release who k) := by
  have hholds : HoldsAll who [some k] r :=
    ⟨List.nodup_singleton _, fun _ hkey => ⟨k, List.mem_singleton.mp hkey, hheld⟩⟩
  exact hholds.sameFor hne

theorem release_misused {k : κ} (hheld : r.holder k = some who) :
    (r.release who k).misused = r.misused := by
  rw [release, hheld]
  simp

/-- Once all has been given back nothing is held. -/
theorem Owns.giveAll (h : Owns who as r) (hall : ∀ a ∈ as, a.granted = true) :
    Owns who [] (giveAll who (as.map Ask.key) r) := by
  refine ⟨fun k => ?_, iff_of_true nofun ⟨List.nodup_nil, fun _ h => absurd h List.not_mem_nil⟩⟩
  rw [giveAll_holder (h.all.mp hall)]
  refine iff_of_false ?_ fun ⟨_, ha, _⟩ => absurd ha List.not_mem_nil
  rintro ⟨hk, hheld⟩
  rcases (h.held k).mp hheld with ⟨a, ha, -, hkey⟩
  exact hk (hkey ▸ List.mem_map_of_mem ha)

end

end Registry

end LinuxDrivers.Lib
