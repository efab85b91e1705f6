import RolePlan.Proofs.Namespace
import RolePlan.Text.Lowercase

/-!
# Small letters and delimiters

No letter becomes a colon or comes from one when capital letters are made small. So of two names
that are equal but for the case, both hold the delimiter or neither does.
-/

namespace RolePlan.Text

open Letter

/-- Among the runs of capital letters outside ASCII, none leads to the colon. -/
theorem shift_ne_colon : ∀ run ∈ capitalRuns,
    ¬ ((run.first : Int) + run.shift ≤ 58 ∧ 58 ≤ (run.last : Int) + run.shift) := by
  decide +kernel

theorem eq_of_ofNat_eq_colon {n : Nat} (h : Char.ofNat n = ':') : n = 58 := by
  by_cases hn : n.isValidChar
  · have hchar : Char.ofNat n = Char.ofNatAux n hn := dif_pos hn
    exact congrArg Char.toNat (hchar.symm.trans h)
  · have hchar : Char.ofNat n = '\x00' := dif_neg hn
    exact absurd (hchar.symm.trans h) (by decide)

theorem toLower_eq_colon_iff {c : Char} (hc : c.toNat < 128) : c.toLower = ':' ↔ c = ':' := by
  have hall : ∀ n < 128, (Char.ofNat n).toLower = ':' ↔ Char.ofNat n = ':' := by decide +kernel
  simpa using hall c.toNat hc

theorem lowerChar_eq_colon_iff {c : Char} : lowerChar c = ':' ↔ c = ':' := by
  rw [lowerChar]
  by_cases hascii : c.toNat < 128
  · rw [if_pos hascii]
    exact toLower_eq_colon_iff hascii
  · have hc : c ≠ ':' := by
      rintro rfl
      exact hascii (by decide)
    rw [if_neg hascii]
    cases hfind : capitalRuns.find? (·.contains c.toNat) with
    | none => simp [hc]
    | some run =>
        simp only [hc, iff_false]
        intro hcolon
        -- The small letter is as far from the run as the capital one is.
        have hin : run.contains c.toNat = true := by simpa using List.find?_some hfind
        have hshift := shift_ne_colon run (List.mem_of_find?_eq_some hfind)
        have hcode := eq_of_ofNat_eq_colon hcolon
        simp only [CapitalRun.contains, Bool.and_eq_true, decide_eq_true_eq] at hin
        omega

/-! ## Delimiters -/

/-- What a character is made of when it is made small: a colon if it is one, and else no colon. -/
private theorem lowerFrom_cons (before : List Char) (c : Char) (rest : List Char) :
    ∃ small, lowerFrom before (c :: rest) = small ++ lowerFrom (c :: before) rest ∧
      ((c = ':' ∧ small = [':']) ∨ (c ≠ ':' ∧ small ≠ [] ∧ ':' ∉ small)) := by
  refine ⟨_, rfl, ?_⟩
  by_cases hi : c = '\u0130'
  · subst hi
    rw [if_pos rfl]
    exact .inr (by decide)
  · by_cases hsigma : c = 'Σ'
    · subst hsigma
      rw [if_neg hi, if_pos rfl]
      refine .inr ⟨by decide, ?_⟩
      split
      · decide
      · decide
    · rw [if_neg hi, if_neg hsigma]
      by_cases hc : c = ':'
      · exact .inl ⟨hc, congrArg (fun c => [c]) (lowerChar_eq_colon_iff.mpr hc)⟩
      · refine .inr ⟨hc, by simp, fun hm => hc (lowerChar_eq_colon_iff.mp ?_)⟩
        exact (List.mem_singleton.mp hm).symm

/-- A text begins with a colon exactly if it does so in small letters. -/
private theorem head?_lowerFrom (before cs : List Char) :
    (lowerFrom before cs).head? = some ':' ↔ cs.head? = some ':' := by
  cases cs with
  | nil => simp [lowerFrom]
  | cons c rest =>
      obtain ⟨small, hlower, ⟨hc, hsmall⟩ | ⟨hc, hne, hno⟩⟩ := lowerFrom_cons before c rest
      · rw [hlower, hsmall]
        simp [hc]
      · obtain ⟨x, more, rfl⟩ := List.exists_cons_of_ne_nil hne
        have hx : x ≠ ':' := fun hx => hno (by simp [hx])
        simp [hlower, hc, hx]

private theorem delimiter_infix_cons_iff {c : Char} {cs : List Char} :
    [':', ':'] <:+: c :: cs ↔ (c = ':' ∧ cs.head? = some ':') ∨ [':', ':'] <:+: cs := by
  rw [List.infix_cons_iff, List.cons_prefix_cons]
  refine or_congr_left (and_congr eq_comm ?_)
  cases cs with
  | nil => simp
  | cons d rest => simp [eq_comm]

/-- No delimiter begins within a text without colons. -/
private theorem delimiter_infix_append_iff {xs cs : List Char} (hxs : ':' ∉ xs) :
    [':', ':'] <:+: xs ++ cs ↔ [':', ':'] <:+: cs := by
  induction xs with
  | nil => rfl
  | cons x rest ih =>
      rw [List.mem_cons, not_or] at hxs
      rw [List.cons_append, delimiter_infix_cons_iff, ih hxs.2]
      exact or_iff_right fun h => hxs.1 h.1.symm

theorem delimiter_infix_lowerFrom_iff (before cs : List Char) :
    [':', ':'] <:+: lowerFrom before cs ↔ [':', ':'] <:+: cs := by
  induction cs generalizing before with
  | nil => rfl
  | cons c rest ih =>
      obtain ⟨small, hlower, ⟨hc, hsmall⟩ | ⟨hc, -, hno⟩⟩ := lowerFrom_cons before c rest
      · rw [hlower, hsmall, List.singleton_append, delimiter_infix_cons_iff, ih,
          head?_lowerFrom, delimiter_infix_cons_iff, hc]
      · rw [hlower, delimiter_infix_append_iff hno, ih, delimiter_infix_cons_iff]
        simp [hc]

theorem delimiter_infix_iff_of_sameIgnoringCase {a b : String} (h : sameIgnoringCase a b = true) :
    [':', ':'] <:+: a.toList ↔ [':', ':'] <:+: b.toList := by
  have hlower : lowerFrom [] a.toList = lowerFrom [] b.toList := by
    rw [sameIgnoringCase, beq_iff_eq] at h
    exact String.ofList_injective h
  rw [← delimiter_infix_lowerFrom_iff [] a.toList, hlower, delimiter_infix_lowerFrom_iff]

/-! ## Lengths -/

theorem length_lowerFrom (before cs : List Char) :
    (lowerFrom before cs).length = cs.length + cs.count '\u0130' := by
  induction cs generalizing before with
  | nil => rfl
  | cons c rest ih =>
      rw [lowerFrom, List.length_append, ih, List.length_cons, List.count_cons]
      by_cases hi : c = '\u0130'
      · subst hi
        rw [if_pos rfl, beq_self_eq_true, if_pos rfl, List.length_cons, List.length_singleton]
        omega
      · rw [if_neg hi, beq_eq_false_iff_ne.mpr hi, if_neg Bool.false_ne_true]
        split
        · split <;> rw [List.length_singleton] <;> omega
        · rw [List.length_singleton]
          omega

def lowerLength (text : String) : Nat := (lowercase text).toList.length

theorem lowerLength_eq_of_sameIgnoringCase {a b : String} (h : sameIgnoringCase a b = true) :
    lowerLength a = lowerLength b := by
  rw [sameIgnoringCase, beq_iff_eq] at h
  rw [lowerLength, h, lowerLength]

/-- Whatever the letters become at the seam, a longer text is longer in small letters too. -/
theorem lowerLength_lt_append (a : String) {b : String} (hb : b.toList ≠ []) :
    lowerLength a < lowerLength (a ++ b) := by
  have hpos := List.length_pos_iff.mpr hb
  simp only [lowerLength, lowercase, String.toList_ofList, length_lowerFrom, String.toList_append,
    List.length_append, List.count_append]
  omega

end RolePlan.Text
