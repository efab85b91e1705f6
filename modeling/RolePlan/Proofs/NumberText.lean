import RolePlan.Binary64
import RolePlan.Proofs.Shortest

/-!
# The text of a double

The text of a double is a decimal: however it is laid out, its sign, digits and exponent make up
the shortest decimal again. So a text stands for one double, apart from the sign of zero.
-/

namespace RolePlan.Binary64

/-! ## Reading decimals -/

def unsigned? (negative : Bool) (text : List Char) : Option (Bool × Nat × Int) :=
  let whole := text.takeWhile isDigit
  let afterWhole := text.dropWhile isDigit
  let (fraction, afterFraction) := match afterWhole with
    | '.' :: rest => (rest.takeWhile isDigit, rest.dropWhile isDigit)
    | rest => ([], rest)
  if whole.isEmpty && fraction.isEmpty then none
  else
    (exponent? afterFraction).map fun e =>
      (negative, ofDigits (whole ++ fraction), e - fraction.length)

theorem decimal?_minus (text : List Char) : decimal? ('-' :: text) = unsigned? true text := rfl

/-- A decimal that is read without a sign has none. -/
theorem decimal?_of_unsigned? {text : List Char} {result : Bool × Nat × Int}
    (h : unsigned? false text = some result) : decimal? text = some result := by
  rw [← h, decimal?]
  · rfl
  · rintro rest rfl
    cases h
  · rintro rest rfl
    cases h

/-- The text ends, or it goes on with an exponent. -/
def EndsDigits (tail : List Char) : Prop := tail = [] ∨ ∃ rest, tail = 'e' :: rest

theorem takeWhile_of_endsDigits {digits tail : List Char} (hdigits : ∀ c ∈ digits, isDigit c = true)
    (h : EndsDigits tail) : (digits ++ tail).takeWhile isDigit = digits ∧
      (digits ++ tail).dropWhile isDigit = tail := by
  rw [List.takeWhile_append_of_pos hdigits, List.dropWhile_append_of_pos hdigits]
  obtain rfl | ⟨rest, rfl⟩ := h
  · exact ⟨List.append_nil _, rfl⟩
  · exact ⟨List.append_nil _, rfl⟩

variable (negative : Bool) {whole fraction tail : List Char}

theorem unsigned?_pointed (hwhole : ∀ c ∈ whole, isDigit c = true) (hne : whole ≠ [])
    (hfraction : ∀ c ∈ fraction, isDigit c = true) (htail : EndsDigits tail) :
    unsigned? negative (whole ++ '.' :: (fraction ++ tail)) =
      (exponent? tail).map fun e : Int =>
        (negative, ofDigits (whole ++ fraction), e - fraction.length) := by
  have hempty : whole.isEmpty = false := by simpa using hne
  obtain ⟨htake, hdrop⟩ := takeWhile_of_endsDigits hfraction htail
  have hwholeTake : (whole ++ '.' :: (fraction ++ tail)).takeWhile isDigit = whole := by
    rw [List.takeWhile_append_of_pos hwhole]
    exact List.append_nil _
  have hwholeDrop : (whole ++ '.' :: (fraction ++ tail)).dropWhile isDigit =
      '.' :: (fraction ++ tail) := by
    rw [List.dropWhile_append_of_pos hwhole]
    rfl
  simp only [unsigned?, hwholeTake, hwholeDrop, htake, hdrop, hempty, Bool.false_and,
    Bool.false_eq_true, if_false]

theorem unsigned?_whole (hwhole : ∀ c ∈ whole, isDigit c = true) (hne : whole ≠ [])
    (htail : EndsDigits tail) :
    unsigned? negative (whole ++ tail) =
      (exponent? tail).map fun e : Int => (negative, ofDigits whole, e) := by
  have hempty : whole.isEmpty = false := by simpa using hne
  obtain ⟨htake, hdrop⟩ := takeWhile_of_endsDigits hwhole htail
  rw [unsigned?]
  simp only [htake, hdrop, hempty]
  obtain rfl | ⟨rest, rfl⟩ := htail
  · simp
  · simp

/-! ## Digits -/

theorem isDigit_of_mem_toDigits {n : Nat} : ∀ c ∈ Nat.toDigits 10 n, isDigit c = true :=
  fun _ h => Nat.isDigit_of_mem_toDigits (by decide) (by decide) h

theorem ofDigits_toDigits (n : Nat) : ofDigits (Nat.toDigits 10 n) = n :=
  Nat.ofDigitChars_toDigits (by decide) (by decide)

theorem isDigit_of_mem_zeros {n : Nat} : ∀ c ∈ List.replicate n '0', isDigit c = true := by
  intro c hc
  rw [List.eq_of_mem_replicate hc]
  rfl

/-- Zeros in front change nothing. -/
theorem ofDigits_zeros_append (n : Nat) (digits : List Char) :
    ofDigits (List.replicate n '0' ++ digits) = ofDigits digits := by
  have h := Nat.ofDigitChars_append (b := 10) (l := List.replicate n '0') (m := digits) 0
  rw [Nat.ofDigitChars_replicate_zero, Nat.mul_zero] at h
  exact h

/-- A zero behind the digits is a factor of ten. -/
theorem ofDigits_append_zeros (digits : List Char) (n : Nat) :
    ofDigits (digits ++ List.replicate n '0') = 10 ^ n * ofDigits digits := by
  have h := Nat.ofDigitChars_append (b := 10) (l := digits) (m := List.replicate n '0') 0
  rw [Nat.ofDigitChars_replicate_zero] at h
  exact h

/-! ## Exponents -/

/-- A format with no more than a plus sign before positive exponents. -/
def Notation.Plain (format : Notation) : Prop :=
  format.positiveExponent = "" ∨ format.positiveExponent = "+"

theorem exponent?_digits {digits : List Char} (hdigits : ∀ c ∈ digits, isDigit c = true)
    (hne : digits ≠ []) :
    exponent? ('e' :: digits) = some (ofDigits digits : Int) ∧
      exponent? ('e' :: '+' :: digits) = some (ofDigits digits : Int) ∧
      exponent? ('e' :: '-' :: digits) = some (-(ofDigits digits : Int)) := by
  have hall : digits.all isDigit = true := List.all_eq_true.mpr hdigits
  have hempty : digits.isEmpty = false := by simpa using hne
  refine ⟨?_, ?_, ?_⟩
  · cases digits with
    | nil => cases hne rfl
    | cons c rest =>
        have hc := hdigits c List.mem_cons_self
        rw [exponent?]
        · simp [hall]
        · rintro rest ⟨⟩
          cases hc
        · rintro rest ⟨⟩
          cases hc
  · simp [exponent?, hall, hempty]
  · simp [exponent?, hall, hempty]

/-- The exponent of a text, with the sign that its format gives it. -/
theorem exponent?_toString {format : Notation} (hformat : format.Plain) (e : Int) :
    exponent? ('e' :: ((if 0 ≤ e then format.positiveExponent else "-").toList ++
      (toString e.natAbs).toList)) = some e := by
  obtain ⟨hnone, hplus, hminus⟩ :=
    exponent?_digits (isDigit_of_mem_toDigits (n := e.natAbs)) Nat.toDigits_ne_nil
  rw [ofDigits_toDigits] at hnone hplus hminus
  have htext : (toString e.natAbs).toList = Nat.toDigits 10 e.natAbs := by
    rw [Nat.toString_eq_repr, Nat.toList_repr]
  rw [htext]
  split
  · next h =>
      have he : (e.natAbs : Int) = e := Int.natAbs_of_nonneg h
      rw [he] at hnone hplus
      rcases hformat with hf | hf <;> rw [hf]
      · exact hnone
      · exact hplus
  · next h =>
      have he : -(e.natAbs : Int) = e := by omega
      rw [he] at hminus
      exact hminus

/-! ## Written decimals -/

section Layouts

variable {digits : List Char}

/-- One digit before the point, if there is a point, and an exponent. -/
theorem unsigned?_scientific (hdigits : ∀ c ∈ digits, isDigit c = true) (hne : digits ≠ [])
    {e : Int} (htail : EndsDigits tail) (he : exponent? tail = some e) :
    unsigned? negative ((String.ofList (digits.take 1) ++
        (if digits.length ≤ 1 then "" else "." ++ String.ofList (digits.drop 1))).toList ++ tail) =
      some (negative, ofDigits digits, e - (digits.length - 1 : Nat)) := by
  have htake : ∀ c ∈ digits.take 1, isDigit c = true := fun c hc =>
    hdigits c (List.mem_of_mem_take hc)
  have hdrop : ∀ c ∈ digits.drop 1, isDigit c = true := fun c hc =>
    hdigits c (List.mem_of_mem_drop hc)
  have htakeNe : digits.take 1 ≠ [] := by simpa using hne
  rw [String.toList_append, String.toList_ofList]
  split
  · next hsingle =>
      have hread := unsigned?_whole negative htake htakeNe htail
      have hnone : digits.length - 1 = 0 := Nat.sub_eq_zero_of_le hsingle
      rw [List.take_of_length_le hsingle, he] at hread
      rw [List.take_of_length_le hsingle, hnone, Nat.cast_zero, sub_zero]
      simpa using hread
  · have hread := unsigned?_pointed negative htake htakeNe hdrop htail
    rw [List.take_append_drop, List.length_drop, he] at hread
    simp only [String.toList_append, String.toList_ofList, List.append_assoc]
    exact hread

/-- A zero, the point and further zeros. -/
theorem unsigned?_fraction (hdigits : ∀ c ∈ digits, isDigit c = true) (n : Nat) :
    unsigned? negative ("0." ++ zeros n ++ String.ofList digits).toList =
      some (negative, ofDigits digits, -((n + digits.length : Nat) : Int)) := by
  have hfraction : ∀ c ∈ List.replicate n '0' ++ digits, isDigit c = true :=
    List.forall_mem_append.mpr ⟨isDigit_of_mem_zeros, hdigits⟩
  have hwhole : ∀ c ∈ ['0'], isDigit c = true := isDigit_of_mem_zeros (n := 1)
  have hread := unsigned?_pointed negative hwhole (by decide) hfraction (.inl rfl)
  have hzero : ofDigits (['0'] ++ (List.replicate n '0' ++ digits)) = ofDigits digits := by
    rw [← List.append_assoc]
    exact ofDigits_zeros_append (n + 1) digits
  rw [hzero, List.length_append, List.length_replicate, List.append_nil] at hread
  rw [String.toList_append, String.toList_append, String.toList_ofList, zeros,
    String.toList_ofList, List.append_assoc]
  simpa [exponent?] using hread

/-- Zeros behind the digits, and a point in the end. -/
theorem unsigned?_integral (hdigits : ∀ c ∈ digits, isDigit c = true) (hne : digits ≠ [])
    (n : Nat) :
    unsigned? negative (String.ofList digits ++ zeros n ++ ".0").toList =
      some (negative, 10 ^ (n + 1) * ofDigits digits, -1) := by
  have hwhole : ∀ c ∈ digits ++ List.replicate n '0', isDigit c = true :=
    List.forall_mem_append.mpr ⟨hdigits, isDigit_of_mem_zeros⟩
  have hfraction : ∀ c ∈ ['0'], isDigit c = true := isDigit_of_mem_zeros (n := 1)
  have hread := unsigned?_pointed negative hwhole (by simp [hne]) hfraction (.inl rfl)
  have hzeros : digits ++ List.replicate n '0' ++ ['0'] =
      digits ++ List.replicate (n + 1) '0' := by
    rw [List.append_assoc, List.replicate_succ']
  rw [hzeros, ofDigits_append_zeros, List.append_nil] at hread
  rw [String.toList_append, String.toList_append, String.toList_ofList, zeros,
    String.toList_ofList]
  simpa [exponent?] using hread

/-- The point between two digits. -/
theorem unsigned?_mixed (hdigits : ∀ c ∈ digits, isDigit c = true) (hne : digits ≠ []) {n : Nat}
    (hn : 0 < n) :
    unsigned? negative
        (String.ofList (digits.take n) ++ "." ++ String.ofList (digits.drop n)).toList =
      some (negative, ofDigits digits, -((digits.length - n : Nat) : Int)) := by
  have htake : ∀ c ∈ digits.take n, isDigit c = true := fun c hc =>
    hdigits c (List.mem_of_mem_take hc)
  have hdrop : ∀ c ∈ digits.drop n, isDigit c = true := fun c hc =>
    hdigits c (List.mem_of_mem_drop hc)
  have hread := unsigned?_pointed negative htake
    (by simpa [hne] using hn.ne') hdrop (.inl rfl)
  rw [List.take_append_drop, List.length_drop, List.append_nil] at hread
  rw [String.toList_append, String.toList_append, String.toList_ofList, String.toList_ofList,
    List.append_assoc]
  simpa [exponent?] using hread

end Layouts

/-- However a decimal is laid out, it is read as an equal one. -/
theorem unsigned?_renderMagnitude {format : Notation} (hformat : format.Plain) (negative : Bool)
    (d : Nat) (k : Int) :
    ∃ d' k', unsigned? negative (renderMagnitude format d k).toList = some (negative, d', k') ∧
      decimal d' k' = decimal d k := by
  have hdigits := isDigit_of_mem_toDigits (n := d)
  have hne : Nat.toDigits 10 d ≠ [] := Nat.toDigits_ne_nil
  have hvalue := ofDigits_toDigits d
  rw [renderMagnitude]
  generalize Nat.toDigits 10 d = digits at hdigits hne hvalue ⊢
  have hlength : 0 < digits.length := List.length_pos_iff.mpr hne
  dsimp only
  split
  · have hread := unsigned?_scientific negative hdigits hne (.inr ⟨_, rfl⟩)
      (exponent?_toString hformat (digits.length + k - 1))
    refine ⟨d, k, ?_, rfl⟩
    have hk : (digits.length + k - 1 - (digits.length - 1 : Nat) : Int) = k := by omega
    rw [hvalue, hk] at hread
    simp only [String.toList_append] at hread ⊢
    simpa using hread
  · split
    · have hread := unsigned?_fraction negative hdigits
        (-(digits.length + k : Int)).toNat
      exact ⟨_, _, hread, congrArg₂ _ hvalue (by omega)⟩
    · split
      · next hk =>
          refine ⟨_, _, unsigned?_integral negative hdigits hne _, ?_⟩
          lift k to ℕ using hk
          rw [hvalue, Int.toNat_natCast, decimal, decimal]
          push_cast
          rw [zpow_natCast, zpow_neg_one, pow_succ]
          field_simp
      · have hread := unsigned?_mixed negative hdigits hne
          (n := (digits.length + k : Int).toNat) (by omega)
        exact ⟨_, _, hread, congrArg₂ _ hvalue (by omega)⟩

/-! ## Written doubles -/

variable {format : Notation} {x y : Binary64}

/-- The text of a double is read as its sign and its shortest decimal. -/
theorem decimal?_render (hformat : format.Plain) (x : Binary64) :
    ∃ d k, decimal? (x.render format).toList = some (x.negative, d, k) ∧
      decimal d k = if x.significand = 0 then 0 else decimal x.shortest.1 x.shortest.2 := by
  rw [render]
  dsimp only
  split
  · refine ⟨0, -1, ?_, by rw [decimal, Nat.cast_zero, zero_mul]⟩
    cases x.negative <;> rfl
  · obtain ⟨d, k, hread, hvalue⟩ :=
      unsigned?_renderMagnitude hformat x.negative x.shortest.1 x.shortest.2
    refine ⟨d, k, ?_, hvalue⟩
    generalize renderMagnitude format x.shortest.1 x.shortest.2 = text at hread
    cases hnegative : x.negative with
    | false =>
        rw [hnegative] at hread
        simpa using decimal?_of_unsigned? hread
    | true =>
        rw [hnegative] at hread
        simpa [decimal?_minus] using hread

/-- Two doubles with one text are equal. -/
theorem same_of_render (hformat : format.Plain) (hx : x.Canonical) (hy : y.Canonical)
    (h : x.render format = y.render format) : x.same y = true := by
  obtain ⟨d, k, hread, hvalue⟩ := decimal?_render hformat x
  obtain ⟨d', k', hread', hvalue'⟩ := decimal?_render hformat y
  rw [h, hread'] at hread
  obtain ⟨hnegative, rfl, rfl⟩ : y.negative = x.negative ∧ d' = d ∧ k' = k := by simpa using hread
  rw [hvalue] at hvalue'
  have hzero {z : Binary64} (hz : z.Canonical) (hpos : z.significand ≠ 0) :
      decimal z.shortest.1 z.shortest.2 ≠ 0 :=
    mul_ne_zero (Nat.cast_ne_zero.mpr (shortest_fst_ne_zero hz hpos)) (by positivity)
  by_cases hpos : x.significand = 0
  · by_cases hpos' : y.significand = 0
    · simp [same, hpos, hpos']
    · rw [if_pos hpos, if_neg hpos'] at hvalue'
      exact absurd hvalue'.symm (hzero hy hpos')
  · by_cases hpos' : y.significand = 0
    · rw [if_neg hpos, if_pos hpos'] at hvalue'
      exact absurd hvalue' (hzero hx hpos)
    · rw [if_neg hpos, if_neg hpos'] at hvalue'
      obtain ⟨hsignificand, hexponent⟩ := eq_of_shortest hx hy hpos hpos' hvalue'
      have heq : x = y := by
        cases x
        cases y
        cases hnegative
        cases hsignificand
        cases hexponent
        rfl
      rw [heq, same]
      simp

/-- The text of a double shows that it is none of an integer. -/
theorem exists_mark_render (format : Notation) (x : Binary64) :
    ∃ c ∈ (x.render format).toList, c = '.' ∨ c = 'e' := by
  have hmagnitude (d : Nat) (k : Int) :
      ∃ c ∈ (renderMagnitude format d k).toList, c = '.' ∨ c = 'e' := by
    rw [renderMagnitude]
    dsimp only
    split
    · exact ⟨'e', by simp, .inr rfl⟩
    · split
      · exact ⟨'.', by simp, .inl rfl⟩
      · split
        · exact ⟨'.', by simp, .inl rfl⟩
        · exact ⟨'.', by simp, .inl rfl⟩
  rw [render]
  dsimp only
  split
  · exact ⟨'.', by simp, .inl rfl⟩
  · obtain ⟨c, hc, hmark⟩ := hmagnitude x.shortest.1 x.shortest.2
    exact ⟨c, by simp [hc], hmark⟩

end RolePlan.Binary64
