import LinuxDrivers.SysfsPoll.Driver

set_option autoImplicit false

/-! # Writing a number to an attribute

A user writes the decimal text of a number and a newline with the usual loop: what `write`
accepts is taken off, and the rest is written again. Every call of `store` parses the whole text
it is given but reports `sizeof(int)` bytes, so the rest of a longer text is parsed once more as
a number of its own.

`storedWhole_iff`: the number arrives whole exactly if its text has three characters, so that
with the newline it is as long as an `int`. -/

namespace LinuxDrivers.SysfsPoll

/-! ## The writer -/

/-- The writer's loop: the calls of `store`, each with the bytes it was given and what it
returned, and the state after them. A result that is not positive ends the loop. -/
def writeAll (s : Sysfs) (attr : DAttr) (text : List Char) : List (Nat × Int) × Sysfs :=
  if text = [] then ([], s)
  else
    let (ret, s') := store s attr text
    if 0 < ret then
      let (calls, s'') := writeAll s' attr (text.drop ret.toNat)
      ((text.length, ret) :: calls, s'')
    else ([(text.length, ret)], s')
termination_by text.length
decreasing_by
  rename_i hne hpos
  have hlen : 0 < text.length := List.length_pos_of_ne_nil hne
  rw [List.length_drop]
  omega

/-- The number `v` is stored in the attribute, the other attribute keeps its value, and no call
of `store` reports more bytes than it was given. -/
def StoredWhole (s : Sysfs) (attr : DAttr) (v : Int) : Prop :=
  (writeAll s attr (decimal v ++ ['\n'])).2.value attr = v ∧
    (∀ b, b ≠ attr → (writeAll s attr (decimal v ++ ['\n'])).2.value b = s.value b) ∧
    ∀ call ∈ (writeAll s attr (decimal v ++ ['\n'])).1, call.2 ≤ call.1

theorem writeAll_nil (s : Sysfs) (attr : DAttr) : writeAll s attr [] = ([], s) := by
  rw [writeAll, if_pos rfl]

/-- Four bytes at a time. -/
theorem writeAll_of_ne_nil (s : Sysfs) (attr : DAttr) {text : List Char} (h : text ≠ []) :
    writeAll s attr text
      = ((text.length, 4) :: (writeAll (store s attr text).2 attr (text.drop 4)).1,
          (writeAll (store s attr text).2 attr (text.drop 4)).2) := by
  have hret : (store s attr text).1 = 4 := by
    rw [store_eq]
    rfl
  rw [writeAll, if_neg h]
  simp only [hret]
  rfl

/-! ## The text of a number -/

theorem isDigit_of_mem_digits {n : Nat} {c : Char} (h : c ∈ Nat.toDigits 10 n) :
    c.isDigit = true :=
  Nat.isDigit_of_mem_toDigits (by decide) (by decide) h

theorem takeWhile_digits {ds : List Char} (h : ∀ c ∈ ds, c.isDigit = true) :
    (ds ++ ['\n']).takeWhile Char.isDigit = ds := by
  rw [List.takeWhile_append_of_pos h]
  simp

theorem scanDigits_digits {ds : List Char} (hne : ds ≠ []) (h : ∀ c ∈ ds, c.isDigit = true) :
    scanDigits (ds ++ ['\n']) = some (Nat.ofDigitChars 10 ds 0) := by
  rw [scanDigits, takeWhile_digits h, if_neg hne]

/-- A text that starts with a digit is parsed as the digits it starts with. -/
theorem sscanfD_digits {ds : List Char} (hne : ds ≠ []) (h : ∀ c ∈ ds, c.isDigit = true) :
    sscanfD (ds ++ ['\n']) = some (Nat.ofDigitChars 10 ds 0 : Int) := by
  rcases List.exists_cons_of_ne_nil hne with ⟨d, ds, rfl⟩
  have hd : d.isDigit = true := h d (List.mem_cons_self ..)
  have hblank : isBlank d = false := by
    have hle : '0'.toNat ≤ d.toNat := (Char.isDigit_iff_toNat.mp hd).1
    have hspace : d ≠ ' ' := by
      rintro rfl
      exact absurd hd (by decide)
    rw [isBlank, decide_eq_false_iff_not, not_or, not_and, not_le]
    exact ⟨hspace, fun _ => lt_of_lt_of_le (by decide) hle⟩
  have hminus : d ≠ '-' := by
    rintro rfl
    exact absurd hd (by decide)
  have hplus : d ≠ '+' := by
    rintro rfl
    exact absurd hd (by decide)
  have hdrop : (d :: ds ++ ['\n']).dropWhile isBlank = d :: ds ++ ['\n'] := by
    rw [List.cons_append, List.dropWhile_cons_of_neg (by simp [hblank])]
  rw [sscanfD, hdrop, scanDigits_digits hne h]
  simp [hminus, hplus]

theorem sscanfD_minus {ds : List Char} (hne : ds ≠ []) (h : ∀ c ∈ ds, c.isDigit = true) :
    sscanfD ('-' :: ds ++ ['\n']) = some (-(Nat.ofDigitChars 10 ds 0 : Int)) := by
  have hdrop : ('-' :: ds ++ ['\n']).dropWhile isBlank = '-' :: (ds ++ ['\n']) := by
    rw [List.cons_append, List.dropWhile_cons_of_neg (by decide)]
  rw [sscanfD, hdrop]
  simp [scanDigits_digits hne h]

/-- The text of a number is parsed as this number. -/
theorem sscanfD_decimal (v : Int) : sscanfD (decimal v ++ ['\n']) = some v := by
  have hdigits : ∀ c ∈ Nat.toDigits 10 v.natAbs, c.isDigit = true :=
    fun c hc => isDigit_of_mem_digits hc
  unfold decimal
  by_cases hv : v < 0
  · rw [if_pos hv, sscanfD_minus Nat.toDigits_ne_nil hdigits, Nat.ofDigitChars_ten_toDigits]
    congr 1
    omega
  · rw [if_neg hv, sscanfD_digits Nat.toDigits_ne_nil hdigits, Nat.ofDigitChars_ten_toDigits]
    congr 1
    omega

theorem length_digits_le_iff (n : Nat) {k : Nat} (hk : 0 < k) :
    (Nat.toDigits 10 n).length ≤ k ↔ n < 10 ^ k :=
  Nat.length_toDigits_le_iff (by decide) hk

theorem decimal_ne_nil (v : Int) : decimal v ≠ [] := by
  unfold decimal
  split_ifs <;> simp

/-- Three characters are three digits, or two digits behind a sign. -/
theorem length_decimal_eq_three (v : Int) :
    (decimal v).length = 3 ↔ 100 ≤ v ∧ v ≤ 999 ∨ -99 ≤ v ∧ v ≤ -10 := by
  have h1 := length_digits_le_iff v.natAbs (k := 1) (by decide)
  have h2 := length_digits_le_iff v.natAbs (k := 2) (by decide)
  have h3 := length_digits_le_iff v.natAbs (k := 3) (by decide)
  unfold decimal
  by_cases hv : v < 0
  · rw [if_pos hv, List.length_cons]
    omega
  · rw [if_neg hv]
    omega

theorem thousand_le_of_long {v : Int} (h : 7 ≤ (decimal v).length) (hv : 0 ≤ v) : 1000 ≤ v := by
  have h3 := length_digits_le_iff v.natAbs (k := 3) (by decide)
  unfold decimal at h
  rw [if_neg (by omega)] at h
  omega

/-- Behind the first character there are only digits. -/
theorem drop_decimal (v : Int) {n : Nat} (hn : 0 < n) (hle : n ≤ (decimal v).length) :
    ∃ ds, ds.length = (decimal v).length - n ∧ (∀ c ∈ ds, c.isDigit = true) ∧
      (decimal v ++ ['\n']).drop n = ds ++ ['\n'] := by
  refine ⟨(decimal v).drop n, List.length_drop, ?_, List.drop_append_of_le_length hle⟩
  rcases Nat.exists_eq_succ_of_ne_zero hn.ne' with ⟨m, rfl⟩
  intro c hc
  unfold decimal at hc
  by_cases hv : v < 0
  · rw [if_pos hv] at hc
    exact isDigit_of_mem_digits (List.mem_of_mem_drop hc)
  · rw [if_neg hv] at hc
    exact isDigit_of_mem_digits (List.mem_of_mem_drop hc)

/-- `n` digits make less than `10 ^ n`. -/
theorem ofDigitChars_lt (ds : List Char) (h : ∀ c ∈ ds, c.isDigit = true) :
    Nat.ofDigitChars 10 ds 0 < 10 ^ ds.length := by
  induction ds with
  | nil => simp
  | cons d ds ih =>
      have hrest := ih fun c hc => h c (List.mem_cons_of_mem _ hc)
      have hd : d.toNat - '0'.toNat ≤ 9 := by
        have hle := (Char.isDigit_iff_toNat.mp (h d (List.mem_cons_self ..))).2
        have hnine : '9'.toNat = '0'.toNat + 9 := by decide
        omega
      -- the first digit counts `10 ^ ds.length` times, and there are nine of them at most
      rw [Nat.ofDigitChars_cons, Nat.ofDigitChars_eq_ofDigitChars_zero, List.length_cons, pow_succ]
      have hpow : 0 < 10 ^ ds.length := by positivity
      nlinarith

/-! ## The calls -/

/-- If no call reports more than it was given, the text is a multiple of four bytes long, and
the last call has its last four bytes. -/
theorem writeAll_last (attr : DAttr) (text : List Char) :
    ∀ s : Sysfs, text ≠ [] → (∀ call ∈ (writeAll s attr text).1, call.2 ≤ call.1) →
      text.length % 4 = 0 ∧
        ∃ s', (writeAll s attr text).2 = (store s' attr (text.drop (text.length - 4))).2 := by
  induction hn : text.length using Nat.strong_induction_on generalizing text with
  | _ n ih =>
      intro s hne hcalls
      rw [writeAll_of_ne_nil s attr hne] at hcalls ⊢
      have hfirst : (4 : Int) ≤ text.length := hcalls _ (List.mem_cons_self ..)
      have hlen : (text.drop 4).length = n - 4 := by rw [List.length_drop, hn]
      by_cases hrest : text.drop 4 = []
      · -- this was the last call
        have hfour : n = 4 := by
          rw [hrest, List.length_nil] at hlen
          omega
        subst hfour
        refine ⟨rfl, s, ?_⟩
        rw [hrest, writeAll_nil]
        rfl
      · obtain ⟨hmod, s', hs'⟩ := ih (n - 4) (by omega) (text.drop 4) hlen
          (store s attr text).2 hrest fun call hcall => hcalls call (List.mem_cons_of_mem _ hcall)
        have hpos : 0 < (text.drop 4).length := List.length_pos_of_ne_nil hrest
        refine ⟨by omega, s', ?_⟩
        rw [hs', List.drop_drop]
        congr 3
        omega

/-- **Which numbers arrive whole.** For every attribute, state and 32-bit number: the number is
stored whole exactly if its decimal text has three characters. -/
theorem storedWhole_iff (s : Sysfs) (attr : DAttr) (v : Int) (hmin : -2 ^ 31 ≤ v)
    (hmax : v < 2 ^ 31) :
    StoredWhole s attr v ↔ 100 ≤ v ∧ v ≤ 999 ∨ -99 ≤ v ∧ v ≤ -10 := by
  have hne : decimal v ++ ['\n'] ≠ [] := by simp
  have hint : toInt v = v := toInt_of_lt hmin hmax
  rw [← length_decimal_eq_three]
  constructor
  · rintro ⟨hvalue, -, hcalls⟩
    rcases writeAll_last attr _ s hne hcalls with ⟨hmod, s', hlast⟩
    rw [List.length_append, List.length_singleton] at hmod hlast
    by_contra hlen
    have hpos : 0 < (decimal v).length := List.length_pos_of_ne_nil (decimal_ne_nil v)
    have hlong : 7 ≤ (decimal v).length := by omega
    -- the last call has stored the last three digits, which are not the number
    obtain ⟨ds, hds, hdigits, hdrop⟩ := drop_decimal v (n := (decimal v).length + 1 - 4) (by omega)
      (by omega)
    have hlt := ofDigitChars_lt ds hdigits
    have hds3 : ds.length = 3 := by omega
    rw [hds3] at hlt
    have hdsne : ds ≠ [] := by
      rintro rfl
      exact absurd hds3 (by decide)
    have hv : (Nat.ofDigitChars 10 ds 0 : Int) = v := by
      have hsmall : toInt (Nat.ofDigitChars 10 ds 0 : Int) = (Nat.ofDigitChars 10 ds 0 : Int) :=
        toInt_of_lt (by omega) (by omega)
      rw [hlast, store_value, hdrop, sscanfD_digits hdsne hdigits, Function.update_self,
        Option.map_some, Option.getD_some, hsmall] at hvalue
      exact hvalue
    have hlarge := thousand_le_of_long hlong (by omega)
    omega
  · intro hlen
    have hfour : (decimal v ++ ['\n']).length = 4 := by
      rw [List.length_append, hlen]
      rfl
    have hdrop : (decimal v ++ ['\n']).drop 4 = [] := List.drop_eq_nil_of_le (le_of_eq hfour)
    unfold StoredWhole
    rw [writeAll_of_ne_nil s attr hne, hdrop, writeAll_nil, store_value, sscanfD_decimal]
    refine ⟨?_, fun b hb => Function.update_of_ne hb _ _, ?_⟩
    · rw [Function.update_self]
      exact hint
    · intro call hcall
      rw [List.mem_singleton] at hcall
      rw [hcall, hfour]
      exact le_refl _

theorem storedWhole_minus_42 : StoredWhole loaded .notify (-42) :=
  (storedWhole_iff loaded .notify (-42) (by decide) (by decide)).mpr (Or.inr (by decide))

/-- **A number of five digits is cut**: its last digit is stored instead of it. -/
theorem not_storedWhole_12345 : ¬ StoredWhole loaded .trigger 12345 := by
  rintro ⟨hvalue, -⟩
  have htext : decimal 12345 ++ ['\n'] = ['1', '2', '3', '4', '5', '\n'] := by decide
  rw [htext, writeAll_of_ne_nil _ _ (by simp)] at hvalue
  change (writeAll _ _ ['5', '\n']).2.value .trigger = 12345 at hvalue
  rw [writeAll_of_ne_nil _ _ (by simp)] at hvalue
  change (writeAll _ _ []).2.value .trigger = 12345 at hvalue
  rw [writeAll_nil, store_value, Function.update_self] at hvalue
  have hlast : ((sscanfD ['5', '\n']).map toInt) = some 5 := by decide
  rw [hlast] at hvalue
  exact absurd hvalue (by decide)

end LinuxDrivers.SysfsPoll
