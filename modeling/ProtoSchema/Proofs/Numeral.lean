import Mathlib.Algebra.Group.Int.Defs
import ProtoSchema.FieldNumber

/-!
# Numerals and their values

A numeral is an optional sign and one or more digits (`IsNumeral`), and its value is what decimal
notation says it is (`numeralValue`). Reading a field number gives the value of a numeral where that
fits into 32 bits, and nothing for any other text (`ofText_eq_ok_iff`).

The limit at which reading digits stops lies beyond the 32-bit range, so no number is lost to it.
-/

namespace ProtoSchema.FieldNumber

/-! ## Numerals -/

/-- What stands behind an optional sign. -/
def unsigned : List Char → List Char
  | '+' :: cs => cs
  | '-' :: cs => cs
  | cs => cs

/-- An optional sign and one or more digits. -/
def IsNumeral (cs : List Char) : Prop :=
  unsigned cs ≠ [] ∧ ∀ c ∈ unsigned cs, c.isDigit = true

/-- The number that digits continue to write, those before them being worth `value`. -/
def decimalFrom (value : Nat) (digits : List Char) : Nat :=
  digits.foldl (fun v c => v * 10 + (c.toNat - '0'.toNat)) value

/-- The number that a numeral writes. -/
def numeralValue (cs : List Char) : Int :=
  if cs.head? = some '-' then -(decimalFrom 0 (unsigned cs) : Int)
  else (decimalFrom 0 (unsigned cs) : Int)

theorem numeralValue_plus (digits : List Char) :
    numeralValue ('+' :: digits) = decimalFrom 0 digits := rfl

theorem numeralValue_minus (digits : List Char) :
    numeralValue ('-' :: digits) = -(decimalFrom 0 digits : Int) := rfl

/-- Without a sign, all characters count. -/
theorem numeralValue_of_unsigned {cs : List Char} (hplus : ∀ digits, cs ≠ '+' :: digits)
    (hminus : ∀ digits, cs ≠ '-' :: digits) :
    unsigned cs = cs ∧ numeralValue cs = decimalFrom 0 cs := by
  have hcs : unsigned cs = cs := by
    unfold unsigned
    split
    · exact absurd rfl (hplus _)
    · exact absurd rfl (hminus _)
    · rfl
  refine ⟨hcs, ?_⟩
  rw [numeralValue, hcs, if_neg]
  intro h
  obtain ⟨digits, rfl⟩ := List.head?_eq_some_iff.mp h
  exact hminus digits rfl

/-! ## Reading digits -/

theorem decimalFrom_cons (value : Nat) (c : Char) (cs : List Char) :
    decimalFrom value (c :: cs) = decimalFrom (value * 10 + (c.toNat - '0'.toNat)) cs :=
  List.foldl_cons ..

theorem le_decimalFrom (value : Nat) (digits : List Char) : value ≤ decimalFrom value digits := by
  induction digits generalizing value with
  | nil => exact Nat.le_refl _
  | cons c cs ih =>
    calc value ≤ value * 10 + (c.toNat - '0'.toNat) := by omega
      _ ≤ _ := ih _

/-- **Digits are read to their value, if that stays at or below the limit.** -/
theorem magnitude_eq_ok_iff {limit value n : Nat} {digits : List Char} (h : value ≤ limit) :
    magnitude limit digits value = .ok n ↔
      (∀ c ∈ digits, c.isDigit = true) ∧ decimalFrom value digits = n ∧ n ≤ limit := by
  induction digits generalizing value with
  | nil =>
    simp only [magnitude, decimalFrom, List.foldl_nil, Except.ok.injEq]
    constructor
    · rintro rfl
      exact ⟨by simp, rfl, h⟩
    · exact fun h => h.2.1
  | cons c cs ih =>
    rw [List.forall_mem_cons, magnitude]
    by_cases hc : c.isDigit = true
    · simp only [digitValue?, if_pos hc]
      by_cases hle : value * 10 + (c.toNat - '0'.toNat) ≤ limit
      · rw [if_pos hle, ih hle, decimalFrom_cons]
        simp only [hc, true_and]
      · rw [if_neg hle, decimalFrom_cons]
        constructor
        · intro h
          cases h
        · rintro ⟨-, hvalue, hn⟩
          -- further digits only add to the value, so it stays beyond the limit
          refine absurd ?_ hle
          calc value * 10 + (c.toNat - '0'.toNat)
              ≤ decimalFrom (value * 10 + (c.toNat - '0'.toNat)) cs := le_decimalFrom _ _
            _ = n := hvalue
            _ ≤ limit := hn
    · simp [digitValue?, hc]

/-! ## Reading numerals -/

/-- Digits behind a sign, read up to the limit that the 64-bit range sets for that sign. -/
theorem map_magnitude_eq_ok_iff {cs digits : List Char} {sign : Nat → Int} {limit : Nat} {n : Int}
    (hne : digits ≠ []) (hcs : unsigned cs = digits)
    (hvalue : numeralValue cs = sign (decimalFrom 0 digits))
    (hlimit : ∀ m, m ≤ limit ↔ -(maxWide + 1 : Int) ≤ sign m ∧ sign m ≤ maxWide) :
    (magnitude limit digits 0).map sign = .ok n ↔
      IsNumeral cs ∧ numeralValue cs = n ∧ -(maxWide + 1 : Int) ≤ n ∧ n ≤ maxWide := by
  rw [IsNumeral, hcs, hvalue]
  constructor
  · intro h
    cases hm : magnitude limit digits 0 with
    | error e =>
      rw [hm] at h
      cases h
    | ok m =>
      rw [hm] at h
      cases h
      obtain ⟨hdigits, rfl, hle⟩ := (magnitude_eq_ok_iff (Nat.zero_le _)).mp hm
      exact ⟨⟨hne, hdigits⟩, rfl, (hlimit _).mp hle⟩
  · rintro ⟨⟨-, hdigits⟩, rfl, hrange⟩
    have hle : decimalFrom 0 digits ≤ limit := (hlimit _).mpr hrange
    rw [(magnitude_eq_ok_iff (Nat.zero_le _)).mpr ⟨hdigits, rfl, hle⟩]
    rfl

/-- **A numeral is read to its value, if that stays in the 64-bit range.** -/
theorem signed_eq_ok_iff {cs : List Char} {n : Int} :
    signed cs = .ok n ↔
      IsNumeral cs ∧ numeralValue cs = n ∧ -(maxWide + 1 : Int) ≤ n ∧ n ≤ maxWide := by
  -- the cases are those of `signed`: nothing, a lone sign, a sign before digits, and the rest
  unfold signed
  split
  · simp [IsNumeral, unsigned]
  · simp [IsNumeral, unsigned]
  · simp [IsNumeral, unsigned]
  · next digits hne =>
    refine map_magnitude_eq_ok_iff (fun h => hne h) rfl (numeralValue_plus digits) ?_
    intro m
    rw [maxWide, Int.ofNat_eq_natCast]
    omega
  · next digits hne =>
    refine map_magnitude_eq_ok_iff (fun h => hne h) rfl (numeralValue_minus digits) ?_
    intro m
    rw [maxWide, Int.ofNat_eq_natCast]
    omega
  · next hnil _ _ hplus hminus =>
    have hplain : unsigned cs = cs ∧ numeralValue cs = decimalFrom 0 cs := by
      refine numeralValue_of_unsigned ?_ ?_
      · intro digits h
        exact hplus digits h
      · intro digits h
        exact hminus digits h
    refine map_magnitude_eq_ok_iff (fun h => hnil h) hplain.1 hplain.2 ?_
    intro m
    rw [maxWide, Int.ofNat_eq_natCast]
    omega

/-- **Reading a field number gives the value of a numeral, exactly where it fits into 32 bits.** -/
theorem ofText_eq_ok_iff {text : String} {n : Int32} :
    ofText text = .ok n ↔ IsNumeral text.toList ∧ numeralValue text.toList = n.toInt := by
  have hlow : -2147483648 ≤ n.toInt := n.le_toInt
  have hhigh : n.toInt < 2147483648 := n.toInt_lt
  constructor
  · intro h
    rw [ofText] at h
    cases hs : signed text.toList with
    | error e =>
      rw [hs] at h
      cases h
    | ok i =>
      obtain ⟨hnumeral, rfl, -⟩ := signed_eq_ok_iff.mp hs
      rw [hs] at h
      change narrow _ = _ at h
      unfold narrow at h
      split at h
      · next hrange =>
        cases h
        refine ⟨hnumeral, (Int32.toInt_ofInt_of_le ?_ ?_).symm⟩
        · exact hrange.1
        · exact Int.lt_of_le_of_lt hrange.2 (by decide)
      · cases h
  · rintro ⟨hnumeral, hvalue⟩
    have hs : signed text.toList = .ok n.toInt := by
      refine signed_eq_ok_iff.mpr ⟨hnumeral, hvalue, ?_, ?_⟩ <;>
      · rw [maxWide]
        omega
    rw [ofText, hs]
    show narrow _ = _
    rw [narrow, if_pos (by omega), Int32.ofInt_toInt]

/-! ## Texts that are refused -/

theorem unsigned_cons (c : Char) (cs : List Char) :
    unsigned (c :: cs) = if c = '+' ∨ c = '-' then cs else c :: cs := by
  unfold unsigned
  split
  · next h =>
    obtain ⟨rfl, rfl⟩ := List.cons.inj h
    simp
  · next h =>
    obtain ⟨rfl, rfl⟩ := List.cons.inj h
    simp
  · next hplus hminus =>
    rw [if_neg]
    rintro (rfl | rfl)
    · exact hplus cs rfl
    · exact hminus cs rfl

/-- The first characters of a text have its sign, and their digits are its first digits. -/
theorem unsigned_prefix {front cs : List Char} (h : front <+: cs) (hne : front ≠ []) :
    unsigned front <+: unsigned cs ∧ front.head? = cs.head? := by
  obtain ⟨c, front, rfl⟩ := List.exists_cons_of_ne_nil hne
  obtain ⟨rest, rfl⟩ := h
  rw [List.cons_append, unsigned_cons, unsigned_cons]
  refine ⟨?_, rfl⟩
  split <;> simp

/-- The first digits of a text, with its sign in front, are its first characters. -/
theorem exists_prefix_unsigned {digits cs : List Char} (h : digits <+: unsigned cs)
    (hne : digits ≠ []) (hdigits : ∀ c ∈ digits, c.isDigit = true) :
    ∃ front, front <+: cs ∧ unsigned front = digits := by
  cases cs with
  | nil => exact absurd (List.prefix_nil.mp h) hne
  | cons c cs =>
    rw [unsigned_cons] at h
    by_cases hsign : c = '+' ∨ c = '-'
    · rw [if_pos hsign] at h
      refine ⟨c :: digits, (List.prefix_cons_inj c).mpr h, ?_⟩
      rw [unsigned_cons, if_pos hsign]
    · rw [if_neg hsign] at h
      obtain ⟨d, digits, rfl⟩ := List.exists_cons_of_ne_nil hne
      refine ⟨d :: digits, h, ?_⟩
      rw [unsigned_cons, if_neg]
      rintro (rfl | rfl)
      · exact absurd (hdigits _ List.mem_cons_self) (by decide)
      · exact absurd (hdigits _ List.mem_cons_self) (by decide)

/-- **Digits are refused for their value exactly if the first of them already exceed the limit.** -/
theorem magnitude_eq_outOfRange_iff {limit value : Nat} {digits : List Char} (h : value ≤ limit) :
    magnitude limit digits value = .error .outOfRange ↔
      ∃ front, front <+: digits ∧ (∀ c ∈ front, c.isDigit = true) ∧
        limit < decimalFrom value front := by
  induction digits generalizing value with
  | nil =>
    constructor
    · intro hmagnitude
      cases hmagnitude
    · rintro ⟨front, hfront, -, hlt⟩
      rw [List.prefix_nil.mp hfront] at hlt
      exact absurd hlt (Nat.not_lt.mpr h)
  | cons c cs ih =>
    -- without a digit in front there is nothing that could exceed the limit
    have hhead : ∀ front, front <+: c :: cs → (∀ c ∈ front, c.isDigit = true) →
        limit < decimalFrom value front → ∃ digits, front = c :: digits ∧ digits <+: cs := by
      intro front hfront hdigits hlt
      cases front with
      | nil => exact absurd hlt (Nat.not_lt.mpr h)
      | cons d digits =>
        obtain ⟨rfl, hprefix⟩ := List.cons_prefix_cons.mp hfront
        exact ⟨digits, rfl, hprefix⟩
    rw [magnitude]
    by_cases hc : c.isDigit = true
    · simp only [digitValue?, if_pos hc]
      by_cases hle : value * 10 + (c.toNat - '0'.toNat) ≤ limit
      · rw [if_pos hle, ih hle]
        constructor
        · rintro ⟨front, hfront, hdigits, hlt⟩
          refine ⟨c :: front, (List.prefix_cons_inj c).mpr hfront, ?_, ?_⟩
          · exact List.forall_mem_cons.mpr ⟨hc, hdigits⟩
          · rwa [decimalFrom_cons]
        · rintro ⟨front, hfront, hdigits, hlt⟩
          obtain ⟨digits, rfl, hprefix⟩ := hhead front hfront hdigits hlt
          rw [decimalFrom_cons] at hlt
          exact ⟨digits, hprefix, fun d hd => hdigits d (List.mem_cons_of_mem _ hd), hlt⟩
      · rw [if_neg hle]
        refine iff_of_true rfl ⟨[c], by simp, by simpa using hc, ?_⟩
        rw [decimalFrom_cons]
        exact Nat.not_le.mp hle
    · simp only [digitValue?, if_neg hc]
      constructor
      · intro hmagnitude
        cases hmagnitude
      · rintro ⟨front, hfront, hdigits, hlt⟩
        obtain ⟨digits, rfl, -⟩ := hhead front hfront hdigits hlt
        exact absurd (hdigits c List.mem_cons_self) hc

/-- Digits that are not refused for their value are refused for a character that is none. -/
theorem magnitude_error {limit value : Nat} {digits : List Char} {e : Error}
    (h : magnitude limit digits value = .error e) : e = .badDigit ∨ e = .outOfRange := by
  fun_induction magnitude limit digits value with
  | case1 value => cases h
  | case2 value c rest hdigit =>
    cases h
    exact Or.inl rfl
  | case3 value c rest d hdigit hle ih => exact ih h
  | case4 value c rest d hdigit hle =>
    cases h
    exact Or.inr rfl

/-- The sign chooses the limit; what is read is what stands behind it. -/
theorem signed_eq (cs : List Char) :
    signed cs =
      if unsigned cs = [] then .error (if cs = [] then .empty else .badDigit)
      else if cs.head? = some '-' then
        (magnitude (maxWide + 1) (unsigned cs) 0).map fun n => -Int.ofNat n
      else (magnitude maxWide (unsigned cs) 0).map Int.ofNat := by
  unfold signed
  split
  · rfl
  · rfl
  · rfl
  · next digits hne =>
    have hdigits : unsigned ('+' :: digits) ≠ [] := fun h => hne h
    rw [if_neg hdigits, if_neg (by simp)]
    rfl
  · next digits hne =>
    have hdigits : unsigned ('-' :: digits) ≠ [] := fun h => hne h
    rw [if_neg hdigits, if_pos (by simp)]
    rfl
  · next hnil _ _ hplus hminus =>
    have hcs : unsigned cs = cs := by
      refine (numeralValue_of_unsigned ?_ ?_).1
      · intro digits h
        exact hplus digits h
      · intro digits h
        exact hminus digits h
    rw [hcs, if_neg (fun h => hnil h), if_neg]
    intro h
    obtain ⟨digits, rfl⟩ := List.head?_eq_some_iff.mp h
    exact hminus digits rfl

/-- The numbers of 64 bits. -/
def IsWide (n : Int) : Prop := -2 ^ 63 ≤ n ∧ n < 2 ^ 63

/-- The numbers of 32 bits. -/
def IsNarrow (n : Int) : Prop := -2 ^ 31 ≤ n ∧ n < 2 ^ 31

/-- A front part of a text that is a numeral has digits, and they are its first ones. -/
theorem prefix_unsigned_of_isNumeral {front cs : List Char} (h : front <+: cs)
    (hnumeral : IsNumeral front) : unsigned front <+: unsigned cs ∧ front.head? = cs.head? := by
  refine unsigned_prefix h ?_
  rintro rfl
  exact hnumeral.1 rfl

/-- Digits behind a sign are refused for their value at the first digit that exceeds the limit. -/
theorem map_magnitude_eq_outOfRange_iff {cs : List Char} {limit : Nat} {sign : Nat → Int} :
    (magnitude limit (unsigned cs) 0).map sign = .error .outOfRange ↔
      ∃ front, front <+: cs ∧ IsNumeral front ∧ limit < decimalFrom 0 (unsigned front) := by
  have herror : (magnitude limit (unsigned cs) 0).map sign = .error .outOfRange ↔
      magnitude limit (unsigned cs) 0 = .error .outOfRange := by
    cases magnitude limit (unsigned cs) 0 <;> simp [Except.map]
  rw [herror, magnitude_eq_outOfRange_iff (Nat.zero_le _)]
  constructor
  · rintro ⟨digits, hprefix, hdigits, hlt⟩
    have hne : digits ≠ [] := by
      rintro rfl
      exact absurd hlt (Nat.not_lt_zero _)
    obtain ⟨front, hfront, rfl⟩ := exists_prefix_unsigned hprefix hne hdigits
    exact ⟨front, hfront, ⟨hne, hdigits⟩, hlt⟩
  · rintro ⟨front, hfront, hnumeral, hlt⟩
    exact ⟨unsigned front, (prefix_unsigned_of_isNumeral hfront hnumeral).1, hnumeral.2, hlt⟩

/-- **A text is refused for its value at the first digit that leaves the 64-bit range.** -/
theorem signed_eq_outOfRange_iff {cs : List Char} :
    signed cs = .error .outOfRange ↔
      ∃ front, front <+: cs ∧ IsNumeral front ∧ ¬IsWide (numeralValue front) := by
  rw [signed_eq]
  split
  · next hnil =>
    constructor
    · intro h
      split at h <;> cases h
    · rintro ⟨front, hfront, hnumeral, -⟩
      have hprefix := (prefix_unsigned_of_isNumeral hfront hnumeral).1
      rw [hnil] at hprefix
      exact absurd (List.prefix_nil.mp hprefix) hnumeral.1
  · split
    · next hhead =>
      rw [map_magnitude_eq_outOfRange_iff]
      refine exists_congr fun front => and_congr_right fun hfront => and_congr_right fun hn => ?_
      rw [numeralValue, (prefix_unsigned_of_isNumeral hfront hn).2, if_pos hhead, IsWide, maxWide]
      omega
    · next hhead =>
      rw [map_magnitude_eq_outOfRange_iff]
      refine exists_congr fun front => and_congr_right fun hfront => and_congr_right fun hn => ?_
      rw [numeralValue, (prefix_unsigned_of_isNumeral hfront hn).2, if_neg hhead, IsWide, maxWide]
      omega

/-- What else is refused is empty, or has a character that does not belong there. -/
theorem signed_error {cs : List Char} {e : Error} (h : signed cs = .error e)
    (hne : e ≠ .outOfRange) : e = if cs = [] then .empty else .badDigit := by
  have hmap : ∀ {limit : Nat} {sign : Nat → Int},
      (magnitude limit (unsigned cs) 0).map sign = .error e → e = .badDigit := by
    intro limit sign herror
    cases hm : magnitude limit (unsigned cs) 0 with
    | ok n =>
      rw [hm] at herror
      cases herror
    | error e' =>
      rw [hm] at herror
      cases herror
      exact (magnitude_error hm).resolve_right hne
  rw [signed_eq] at h
  split at h
  · cases h
    rfl
  · next hdigits =>
    have hcs : cs ≠ [] := by
      rintro rfl
      exact hdigits rfl
    rw [if_neg hcs]
    split at h <;> exact hmap h

/-! ## Field numbers that are refused -/

theorem ofText_of_signed_error {text : String} {e : Error} (h : signed text.toList = .error e) :
    ofText text = .error e := by
  rw [ofText, h]
  rfl

theorem ofText_of_signed_ok {text : String} {n : Int} (h : signed text.toList = .ok n) :
    ofText text = narrow n := by
  rw [ofText, h]
  rfl

theorem signed_ne_ok_of_not_isNumeral {cs : List Char} (h : ¬IsNumeral cs) :
    ∃ e, signed cs = .error e := by
  cases hs : signed cs with
  | ok n => exact absurd (signed_eq_ok_iff.mp hs).1 h
  | error e => exact ⟨e, rfl⟩

/-- **A numeral beyond 32 bits is out of range, however long it is.** -/
theorem ofText_of_not_isNarrow {text : String} (h : IsNumeral text.toList)
    (hrange : ¬IsNarrow (numeralValue text.toList)) : ofText text = .error .outOfRange := by
  by_cases hwide : IsWide (numeralValue text.toList)
  · have hs : signed text.toList = .ok (numeralValue text.toList) := by
      refine signed_eq_ok_iff.mpr ⟨h, rfl, ?_⟩
      unfold IsWide at hwide
      rw [maxWide]
      omega
    rw [ofText_of_signed_ok hs, narrow, if_neg]
    unfold IsNarrow at hrange
    omega
  · exact ofText_of_signed_error (signed_eq_outOfRange_iff.mpr ⟨_, List.prefix_rfl, h, hwide⟩)

/-- **A text that is no numeral is out of range if its first digits leave the 64-bit range.** -/
theorem ofText_eq_outOfRange_iff {text : String} (h : ¬IsNumeral text.toList) :
    ofText text = .error .outOfRange ↔
      ∃ front, front <+: text.toList ∧ IsNumeral front ∧ ¬IsWide (numeralValue front) := by
  obtain ⟨e, hs⟩ := signed_ne_ok_of_not_isNumeral h
  rw [← signed_eq_outOfRange_iff, ofText_of_signed_error hs, hs, Except.error.injEq,
    Except.error.injEq]

/-- **Any other text is empty, or has a character that does not belong there.** -/
theorem ofText_of_not_isNumeral {text : String} (h : ¬IsNumeral text.toList)
    (hne : ofText text ≠ .error .outOfRange) :
    ofText text = .error (if text = "" then .empty else .badDigit) := by
  obtain ⟨e, hs⟩ := signed_ne_ok_of_not_isNumeral h
  rw [ofText_of_signed_error hs] at hne ⊢
  rw [signed_error hs (fun he => hne (congrArg Except.error he))]
  simp [String.toList_eq_nil_iff]

/-! ## Writing numerals -/

theorem decimalFrom_append (value : Nat) (digits : List Char) (c : Char) :
    decimalFrom value (digits ++ [c])
      = decimalFrom value digits * 10 + (c.toNat - '0'.toNat) := by
  rw [decimalFrom, List.foldl_append]
  exact List.foldl_cons ..

theorem exists_digit {d : Nat} (h : d < 10) :
    ∃ c : Char, c.isDigit = true ∧ c.toNat - '0'.toNat = d := by
  have hall : ∀ d : Fin 10, (Char.ofNat (48 + d)).isDigit = true ∧
      (Char.ofNat (48 + d)).toNat - '0'.toNat = d := by decide
  exact ⟨_, hall ⟨d, h⟩⟩

/-- **Every number has digits.** -/
theorem exists_decimal (n : Nat) :
    ∃ digits : List Char, digits ≠ [] ∧ (∀ c ∈ digits, c.isDigit = true) ∧
      decimalFrom 0 digits = n := by
  induction n using Nat.strongRecOn with
  | _ n ih =>
    obtain ⟨c, hc, hvalue⟩ := exists_digit (Nat.mod_lt n (by decide : 10 > 0))
    by_cases hn : n < 10
    · refine ⟨[c], List.cons_ne_nil _ _, by simpa using hc, ?_⟩
      rw [Nat.mod_eq_of_lt hn] at hvalue
      rw [decimalFrom_cons, hvalue]
      exact Nat.zero_add n
    · obtain ⟨digits, -, hdigits, hdecimal⟩ := ih (n / 10) (by omega)
      refine ⟨digits ++ [c], by simp, ?_, ?_⟩
      · intro d hd
        rcases List.mem_append.mp hd with hd | hd
        · exact hdigits d hd
        · exact List.mem_singleton.mp hd ▸ hc
      · rw [decimalFrom_append, hdecimal, hvalue]
        omega

/-- **Every number has a numeral.** -/
theorem exists_numeral (n : Int) :
    ∃ cs : List Char, IsNumeral cs ∧ numeralValue cs = n ∧
      ∀ c ∈ cs, c.isDigit = true ∨ c = '-' ∨ c = '+' := by
  obtain ⟨digits, hne, hdigits, hdecimal⟩ := exists_decimal n.natAbs
  have hall : ∀ c ∈ digits, c.isDigit = true ∨ c = '-' ∨ c = '+' := by
    intro c hc
    exact Or.inl (hdigits c hc)
  by_cases hn : 0 ≤ n
  · refine ⟨'+' :: digits, ⟨hne, hdigits⟩, ?_, ?_⟩
    · rw [numeralValue_plus, hdecimal]
      omega
    · exact List.forall_mem_cons.mpr ⟨Or.inr (Or.inr rfl), hall⟩
  · refine ⟨'-' :: digits, ⟨hne, hdigits⟩, ?_, ?_⟩
    · rw [numeralValue_minus, hdecimal]
      omega
    · exact List.forall_mem_cons.mpr ⟨Or.inr (Or.inl rfl), hall⟩

end ProtoSchema.FieldNumber
