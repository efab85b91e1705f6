import Mathlib.Data.List.Basic
import Mathlib.Data.List.Infix
import RolePlan.Placeholder

/-!
# Filling placeholders

The parts of a text are its placeholders from left to right, and the single characters between them.
Filling replaces the placeholders of known variables and keeps all else. A placeholder of a known
variable is left, or comes about, in two ways only: within the name of an unknown placeholder that
began before it, or where marks meet because what stood between them was replaced by nothing.
-/

namespace RolePlan.Placeholder

/-! ## Reading -/

/-- The text begins with a placeholder of this name, which ends at the first closing brace. -/
def Begins (text name rest : List Char) : Prop :=
  name ≠ [] ∧ '\x7d' ∉ name ∧ text = opening ++ name ++ '\x7d' :: rest

/-- The parts of a text from left to right: a placeholder wherever one begins, or else a single
character. -/
inductive Divides : List Char → List Part → Prop where
  | nil : Divides [] []
  | named {text name rest : List Char} {parts : List Part} (h : Begins text name rest)
      (hrest : Divides rest parts) : Divides text (.named name :: parts)
  | plain {c : Char} {rest : List Char} {parts : List Part}
      (h : ¬ ∃ name after, Begins (c :: rest) name after) (hrest : Divides rest parts) :
      Divides (c :: rest) (.plain c :: parts)

theorem Begins.closing_mem {text name rest : List Char} (h : Begins text name rest) :
    '\x7d' ∈ text := by
  rw [h.2.2]
  simp

theorem Begins.opening_prefix {text name rest : List Char} (h : Begins text name rest) :
    opening <+: text := by
  rw [h.2.2, List.append_assoc]
  exact List.prefix_append _ _

theorem divides_plain {text : List Char} (h : '\x7d' ∉ text) : Divides text (text.map .plain) := by
  induction text with
  | nil => exact .nil
  | cons c rest ih =>
      refine .plain ?_ (ih fun hm => h (List.mem_cons_of_mem c hm))
      rintro ⟨name, after, hbegins⟩
      exact h hbegins.closing_mem

/-- Braces without a name between them are no placeholder. -/
theorem divides_nameless {rest : List Char} {parts : List Part} (h : Divides rest parts) :
    Divides (opening ++ '\x7d' :: rest) ((opening ++ ['\x7d']).map .plain ++ parts) := by
  refine .plain ?_ (.plain ?_ (.plain ?_ h))
  · rintro ⟨name, after, hne, hname, htext⟩
    rw [List.append_assoc] at htext
    cases name with
    | nil => exact hne rfl
    | cons c name =>
        have htail := (List.cons.inj (List.cons.inj htext).2).2
        exact hname ((List.cons.inj htail).1 ▸ List.mem_cons_self)
  · rintro ⟨name, after, hbegins⟩
    simpa [opening] using hbegins.opening_prefix
  · rintro ⟨name, after, hbegins⟩
    simpa [opening] using hbegins.opening_prefix

theorem scan_unclosed (name : List Char) {text : List Char} (h : '\x7d' ∉ text) :
    scan (some name) text = (opening ++ name.reverse ++ text).map .plain := by
  induction text generalizing name with
  | nil => simp [scan]
  | cons c rest ih =>
      rw [List.mem_cons, not_or] at h
      rw [scan, if_neg (Ne.symm h.1), ih _ h.2]
      simp

theorem scan_closed (name : List Char) {more : List Char} (hne : name.reverse ++ more ≠ [])
    (h : '\x7d' ∉ more) (rest : List Char) : scan (some name) (more ++ '\x7d' :: rest) =
      .named (name.reverse ++ more) :: scan none rest := by
  induction more generalizing name with
  | nil =>
      have hname : name.isEmpty = false := by simpa using hne
      simp [scan, hname]
  | cons c more ih =>
      rw [List.mem_cons, not_or] at h
      rw [List.cons_append, scan, if_neg (Ne.symm h.1), ih _ (by simp) h.2]
      simp

theorem scan_plain {c : Char} {rest : List Char} (h : ¬ opening <+: c :: rest) :
    scan none (c :: rest) = .plain c :: scan none rest := by
  rw [scan]
  rintro after rfl rfl
  exact h (List.prefix_append opening after)

/-- The scan finds the parts of a text. -/
theorem divides_scan (text : List Char) : Divides text (scan none text) := by
  induction hlength : text.length using Nat.strong_induction_on generalizing text with
  | h n ih =>
      subst hlength
      by_cases hopening : opening <+: text
      · obtain ⟨tail, rfl⟩ := hopening
        by_cases hclosing : '\x7d' ∈ tail
        · obtain ⟨name, rest, rfl, hname⟩ := List.eq_append_cons_of_mem hclosing
          have hrest := ih rest.length (by simp [opening]; omega) rest rfl
          cases name with
          | nil => exact divides_nameless hrest
          | cons c name =>
              have hscan : scan none (opening ++ (c :: name ++ '\x7d' :: rest)) =
                  .named (c :: name) :: scan none rest :=
                scan_closed [] (by simp) hname rest
              rw [hscan]
              exact .named ⟨by simp, hname, by simp⟩ hrest
        · have hscan : scan none (opening ++ tail) = (opening ++ tail).map .plain :=
            scan_unclosed [] hclosing
          rw [hscan]
          exact divides_plain (by simpa [opening] using hclosing)
      · cases text with
        | nil => exact .nil
        | cons c rest =>
            rw [scan_plain hopening]
            refine .plain ?_ (ih rest.length (by simp) rest rfl)
            rintro ⟨name, after, hbegins⟩
            exact hopening hbegins.opening_prefix

/-- The parts of a text are written as the text. -/
theorem Divides.flatMap_written {text : List Char} {parts : List Part} (h : Divides text parts) :
    parts.flatMap Part.written = text := by
  induction h with
  | nil => rfl
  | named h _ ih => rw [List.flatMap_cons, ih, h.2.2, Part.written, List.append_assoc]; rfl
  | plain _ _ ih => rw [List.flatMap_cons, ih]; rfl

theorem divides_parts (text : String) : Divides text.toList (parts text) :=
  divides_scan text.toList

/-! ## Filling -/

def Unmarked (text : String) : Prop :=
  '$' ∉ text.toList ∧ '\x7b' ∉ text.toList ∧ '\x7d' ∉ text.toList

instance (text : String) : Decidable (Unmarked text) :=
  inferInstanceAs (Decidable ('$' ∉ text.toList ∧ '\x7b' ∉ text.toList ∧ '\x7d' ∉ text.toList))

variable {known : String → Option String} {name : List Char} {value v : String}

theorem filled_of_some (h : known (String.ofList name) = some value) :
    (Part.named name).filled known = value.toList := by
  rw [Part.filled, h]

theorem filled_of_none (h : known (String.ofList name) = none) :
    (Part.named name).filled known = (Part.named name).written := by
  rw [Part.filled, h]

/-- A text without placeholders of known variables is filled by itself. -/
theorem fill_eq_self {text : String} (h : ∀ name ∈ names text, known name = none) :
    fill known text = text := by
  have hparts : ∀ part ∈ parts text, part.filled known = part.written := by
    intro part hpart
    cases part with
    | plain c => rfl
    | named name =>
        exact filled_of_none (h _ (List.mem_filterMap.mpr ⟨.named name, hpart, rfl⟩))
  rw [fill, List.flatMap_congr hparts, (divides_parts text).flatMap_written, String.ofList_toList]

/-- A dollar sign and an opening brace have met, since all that stood between them was replaced by
nothing, and the name and a closing brace follow. -/
def Joined (known : String → Option String) (v : String) (parts : List Part) : Prop :=
  ∃ before empties middle after,
    parts = before ++ .plain '$' :: empties ++ .plain '\x7b' :: middle ++ .plain '\x7d' :: after ∧
      empties ≠ [] ∧
      (∀ part ∈ empties, ∃ name, part = .named name ∧ known (String.ofList name) = some "") ∧
      middle.flatMap (Part.filled known) = v.toList

/-- The placeholder ends another one, which began before it and whose name is not known. -/
def Swallowed (known : String → Option String) (v : String) (parts : List Part) : Prop :=
  ∃ name before, .named name ∈ parts ∧ known (String.ofList name) = none ∧
    name = before ++ opening ++ v.toList

theorem Joined.cons {parts : List Part} (h : Joined known v parts) (part : Part) :
    Joined known v (part :: parts) := by
  obtain ⟨before, empties, middle, after, rfl, h⟩ := h
  exact ⟨part :: before, empties, middle, after, rfl, h⟩

theorem Swallowed.cons {parts : List Part} (h : Swallowed known v parts) (part : Part) :
    Swallowed known v (part :: parts) := by
  obtain ⟨name, before, hname, h⟩ := h
  exact ⟨name, before, List.mem_cons_of_mem part hname, h⟩

/-! ## Where a placeholder can stand -/

/-- A placeholder that stands in another one is the other one or ends it. -/
theorem eq_or_suffix_of_infix_written {word : List Char} (hname : '\x7d' ∉ name)
    (h : (Part.named word).written <:+: (Part.named name).written) :
    name = word ∨ ∃ before, name = before ++ opening ++ word := by
  obtain ⟨before, after, h⟩ := h
  have hend : (opening ++ name) ++ '\x7d' :: [] =
      (before ++ opening ++ word) ++ '\x7d' :: after := by
    simpa [Part.written] using h.symm
  have hopening : '\x7d' ∉ opening ++ name := by simpa [opening] using hname
  rw [List.append_cons_inj_of_notMem hopening List.not_mem_nil] at hend
  match before, hend.1 with
  | [], h => exact .inl (List.append_cancel_left h)
  | [_], h => exact absurd (List.cons.inj (List.cons.inj h).2).1 (by decide)
  | _ :: _ :: before, h => exact .inr ⟨before, (List.cons.inj (List.cons.inj h).2).2⟩

/-- A word that a closing brace follows goes on behind a text without one. -/
theorem exists_more_of_prefix_append {word front later : List Char} (hfront : '\x7d' ∉ front)
    (h : word ++ ['\x7d'] <+: front ++ later) :
    ∃ more, word = front ++ more ∧ more ++ ['\x7d'] <+: later := by
  obtain ⟨after, hafter⟩ := h
  rw [List.append_assoc] at hafter
  rcases List.append_eq_append_iff.mp hafter with ⟨more, hmore, hlater⟩ | ⟨more, hmore, hlater⟩
  · cases more with
    | nil => exact ⟨[], by simpa using hmore.symm, after, hlater⟩
    | cons c more =>
        obtain ⟨rfl, -⟩ := List.cons.inj hlater
        exact absurd (by simp [hmore]) hfront
  · exact ⟨more, hmore, after, by rw [hlater, List.append_assoc]⟩

/-- A closing brace that follows a word in a filled text comes from the text. -/
theorem exists_closing (hvalues : ∀ name value, known name = some value → Unmarked value)
    {parts : List Part} {word : List Char} (hdollar : '$' ∉ word) (hclosing : '\x7d' ∉ word)
    (h : word ++ ['\x7d'] <+: parts.flatMap (Part.filled known)) :
    ∃ middle after, parts = middle ++ .plain '\x7d' :: after ∧
      middle.flatMap (Part.filled known) = word := by
  induction parts generalizing word with
  | nil => simp at h
  | cons part rest ih =>
      rw [List.flatMap_cons] at h
      -- what the part is filled with is the beginning of the word, unless it is the closing brace
      suffices hstep : (part = .plain '\x7d' ∧ word = []) ∨ ∃ more,
          word = part.filled known ++ more ∧
            more ++ ['\x7d'] <+: rest.flatMap (Part.filled known) by
        rcases hstep with ⟨rfl, rfl⟩ | ⟨more, rfl, hmore⟩
        · exact ⟨[], rest, rfl, rfl⟩
        · rw [List.mem_append, not_or] at hdollar hclosing
          obtain ⟨middle, after, rfl, rfl⟩ := ih hdollar.2 hclosing.2 hmore
          exact ⟨part :: middle, after, rfl, rfl⟩
      cases part with
      | plain c =>
          cases word with
          | nil =>
              obtain ⟨hc, -⟩ := List.cons_prefix_cons.mp h
              exact .inl ⟨by rw [hc], rfl⟩
          | cons d word =>
              obtain ⟨rfl, hword⟩ := List.cons_prefix_cons.mp h
              exact .inr ⟨word, rfl, hword⟩
      | named name =>
          cases hknown : known (String.ofList name) with
          | none =>
              rw [filled_of_none hknown] at h
              cases word with
              | nil => exact absurd (List.cons_prefix_cons.mp h).1 (by decide)
              | cons d word =>
                  obtain ⟨rfl, -⟩ := List.cons_prefix_cons.mp h
                  exact absurd List.mem_cons_self hdollar
          | some value =>
              rw [filled_of_some hknown] at h ⊢
              exact .inr (exists_more_of_prefix_append (hvalues _ _ hknown).2.2 h)

/-- An opening brace in a filled text comes from the text, and nothing but placeholders that were
replaced by nothing stands before it. -/
theorem exists_opening (hvalues : ∀ name value, known name = some value → Unmarked value)
    {parts : List Part} {more : List Char}
    (h : '\x7b' :: more <+: parts.flatMap (Part.filled known)) :
    ∃ empties after, parts = empties ++ .plain '\x7b' :: after ∧
      (∀ part ∈ empties, ∃ name, part = .named name ∧ known (String.ofList name) = some "") ∧
      more <+: after.flatMap (Part.filled known) := by
  induction parts with
  | nil => simp at h
  | cons part rest ih =>
      rw [List.flatMap_cons] at h
      cases part with
      | plain c =>
          obtain ⟨rfl, hmore⟩ := List.cons_prefix_cons.mp h
          exact ⟨[], rest, rfl, by simp, hmore⟩
      | named name =>
          cases hknown : known (String.ofList name) with
          | none =>
              rw [filled_of_none hknown] at h
              exact absurd (List.cons_prefix_cons.mp h).1 (by decide)
          | some value =>
              rw [filled_of_some hknown] at h
              cases hvalue : value.toList with
              | nil =>
                  rw [hvalue] at h
                  obtain ⟨empties, after, rfl, hempties, hmore⟩ := ih h
                  have hempty : value = "" := String.toList_injective hvalue
                  exact ⟨.named name :: empties, after, rfl,
                    List.forall_mem_cons.mpr ⟨⟨name, rfl, hempty ▸ hknown⟩, hempties⟩, hmore⟩
              | cons d _ =>
                  rw [hvalue] at h
                  obtain ⟨rfl, -⟩ := List.cons_prefix_cons.mp h
                  exact absurd (hvalue ▸ List.mem_cons_self) (hvalues _ _ hknown).2.1

/-- A dollar sign and an opening brace that are neighbours in the text begin a placeholder, if a
name and a closing brace follow. -/
theorem exists_begins {rest word : List Char} {middle after : List Part}
    (hrest : Divides rest (.plain '\x7b' :: middle ++ .plain '\x7d' :: after)) (hne : word ≠ [])
    (hclosing : '\x7d' ∉ word) (hword : middle.flatMap (Part.filled known) = word) :
    ∃ name after, Begins ('$' :: rest) name after := by
  have htext : '\x7b' :: (middle.flatMap Part.written ++
      '\x7d' :: after.flatMap Part.written) = rest := by
    simpa [Part.written] using hrest.flatMap_written
  have hmem : '\x7d' ∈ middle.flatMap Part.written ++
      '\x7d' :: after.flatMap Part.written := by simp
  obtain ⟨name, tail, hname, hnot⟩ := List.eq_append_cons_of_mem hmem
  refine ⟨name, tail, ?_, hnot, by rw [← htext, hname]; rfl⟩
  rintro rfl
  -- the word would begin with the closing brace
  cases middle with
  | nil => exact hne hword.symm
  | cons part middle =>
      cases part with
      | plain c =>
          obtain ⟨rfl, -⟩ := List.cons.inj hname
          exact hclosing (hword ▸ List.mem_cons_self)
      | named name => exact absurd (List.cons.inj hname).1 (by decide)

/-- What begins with a dollar sign does not begin in a text without one. -/
theorem infix_of_infix_append {word front later : List Char} (hdollar : '$' ∉ front)
    (h : '$' :: word <:+: front ++ later) : '$' :: word <:+: later := by
  rcases List.infix_append_iff.mp h with h | h | ⟨first, last, hsplit, hfirst, hlast⟩
  · exact absurd (h.subset List.mem_cons_self) hdollar
  · exact h
  · cases first with
    | nil => exact hsplit ▸ hlast.isInfix
    | cons c first =>
        obtain ⟨rfl, -⟩ := List.cons.inj hsplit
        exact absurd (hfirst.subset List.mem_cons_self) hdollar

/-- A placeholder that begins in another one stands in it, since it ends where the other does. -/
theorem infix_or_infix_of_infix_written_append {word later : List Char} (hword : '\x7d' ∉ word)
    (h : (Part.named word).written <:+: (Part.named name).written ++ later) :
    (Part.named word).written <:+: (Part.named name).written ∨
      (Part.named word).written <:+: later := by
  rcases List.infix_append_iff.mp h with h | h | ⟨first, last, hsplit, hfirst, hlast⟩
  · exact .inl h
  · exact .inr h
  · rcases List.suffix_concat_iff.mp hfirst with rfl | ⟨first, rfl, -⟩
    · exact .inr (hsplit ▸ hlast.isInfix)
    · have hend : (opening ++ word) ++ '\x7d' :: [] = first ++ '\x7d' :: last := by
        simpa [Part.written] using hsplit
      have hopening : '\x7d' ∉ opening ++ word := by simpa [opening] using hword
      rw [List.append_cons_inj_of_notMem hopening List.not_mem_nil] at hend
      rw [← hend.2.2, List.append_nil] at hsplit
      exact .inl (hsplit ▸ hfirst.isInfix)

/-- A placeholder in a filled text whose dollar sign begins none in the text has been joined. -/
theorem joined_of_prefix_filled (hvalues : ∀ name value, known name = some value → Unmarked value)
    (hne : v ≠ "") (hv : Unmarked v) {c : Char} {rest : List Char} {parts : List Part}
    (hno : ¬ ∃ name after, Begins (c :: rest) name after) (hrest : Divides rest parts)
    (h : (Part.named v.toList).written <+: c :: parts.flatMap (Part.filled known)) :
    Joined known v (.plain c :: parts) := by
  obtain ⟨rfl, htail⟩ := List.cons_prefix_cons.mp h
  have hbrace : '\x7b' :: (v.toList ++ ['\x7d']) <+: parts.flatMap (Part.filled known) := htail
  obtain ⟨empties, after, rfl, hempties, hword⟩ := exists_opening hvalues hbrace
  obtain ⟨middle, after, rfl, hmiddle⟩ := exists_closing hvalues hv.1 hv.2.2 hword
  refine ⟨[], empties, middle, after, by simp, ?_, hempties, hmiddle⟩
  rintro rfl
  exact hno (exists_begins hrest (by simpa using hne) hv.2.2 hmiddle)

/-- Where the placeholder of a known variable stands in a filled text. -/
theorem joined_or_swallowed (hvalues : ∀ name value, known name = some value → Unmarked value)
    (hknown : known v = some value) (hne : v ≠ "") (hv : Unmarked v) {text : List Char}
    {parts : List Part} (hdivides : Divides text parts)
    (h : (Part.named v.toList).written <:+: parts.flatMap (Part.filled known)) :
    Joined known v parts ∨ Swallowed known v parts := by
  induction hdivides with
  | nil => simp [Part.written, opening] at h
  | @named text name rest parts hbegins hrest ih =>
      have hlater (h : (Part.named v.toList).written <:+: parts.flatMap (Part.filled known)) :=
        (ih h).imp (·.cons (.named name)) (·.cons (.named name))
      rw [List.flatMap_cons] at h
      cases hname : known (String.ofList name) with
      | some replaced =>
          rw [filled_of_some hname] at h
          exact hlater (infix_of_infix_append (hvalues _ _ hname).1 h)
      | none =>
          rw [filled_of_none hname] at h
          rcases infix_or_infix_of_infix_written_append hv.2.2 h with h | h
          · rcases eq_or_suffix_of_infix_written hbegins.2.1 h with rfl | ⟨before, hbefore⟩
            · rw [String.ofList_toList, hknown] at hname
              cases hname
            · exact .inr ⟨name, before, List.mem_cons_self, hname, hbefore⟩
          · exact hlater h
  | @plain c rest parts hno hrest ih =>
      rw [List.flatMap_cons] at h
      rcases List.infix_cons_iff.mp h with h | h
      · exact .inl (joined_of_prefix_filled hvalues hne hv hno hrest h)
      · exact (ih h).imp (·.cons (.plain c)) (·.cons (.plain c))

theorem Joined.infix_filled {parts : List Part} (h : Joined known v parts) :
    (Part.named v.toList).written <:+: parts.flatMap (Part.filled known) := by
  obtain ⟨before, empties, middle, after, rfl, -, hempties, hmiddle⟩ := h
  have hnothing : empties.flatMap (Part.filled known) = [] := by
    refine List.flatMap_eq_nil_iff.mpr fun part hpart => ?_
    obtain ⟨name, rfl, hname⟩ := hempties part hpart
    exact filled_of_some hname
  refine ⟨before.flatMap (Part.filled known), after.flatMap (Part.filled known), ?_⟩
  simp [hnothing, hmiddle, Part.filled, Part.written, opening]

/-- A text is filled part by part: a placeholder of a known variable gives way to its value, and all
else stays in its place. Where no value bears a mark, the placeholder of a known variable stands in
the result only where marks of the text have met over empty values, or at the end of an unknown
placeholder. -/
theorem fill_replaces (known : String → Option String) (text : String) :
    Divides text.toList (parts text) ∧
      text.toList = (parts text).flatMap Part.written ∧
      (fill known text).toList = (parts text).flatMap (Part.filled known) ∧
      (∀ name value, .named name ∈ parts text → known (String.ofList name) = some value →
        (Part.named name).filled known = value.toList) ∧
      (∀ part ∈ parts text, (∀ name, part = .named name → known (String.ofList name) = none) →
        part.filled known = part.written) ∧
      ((∀ name ∈ names text, known name = none) → fill known text = text) ∧
      ((∀ name value, known name = some value → Unmarked value) →
        ∀ v value, known v = some value → v ≠ "" → Unmarked v →
          ((Part.named v.toList).written <:+: (fill known text).toList →
            Joined known v (parts text) ∨ Swallowed known v (parts text)) ∧
          (Joined known v (parts text) →
            (Part.named v.toList).written <:+: (fill known text).toList)) := by
  have hdivides := divides_parts text
  have hfill : (fill known text).toList = (parts text).flatMap (Part.filled known) := by
    rw [fill, String.toList_ofList]
  refine ⟨hdivides, hdivides.flatMap_written.symm, hfill, fun name value _ => filled_of_some,
    fun part _ hunknown => ?_, fill_eq_self, fun hvalues v value hknown hne hv => ?_⟩
  · cases part with
    | plain c => rfl
    | named name => exact filled_of_none (hunknown name rfl)
  · rw [hfill]
    exact ⟨joined_or_swallowed hvalues hknown hne hv hdivides, Joined.infix_filled⟩

/-- Two variables, one of them with an empty value. -/
def pairOfVariables (name : String) : Option String :=
  if name = "A" then some "" else if name = "V" then some "x" else none

theorem unmarked_pairOfVariables (name value : String) (h : pairOfVariables name = some value) :
    Unmarked value := by
  unfold pairOfVariables at h
  split_ifs at h
  · cases h
    decide
  · cases h
    decide

theorem fill_replaces_pairOfVariables :
    let text := "$$\x7bA\x7d\x7bV\x7d, $\x7bV\x7d"
    (∀ name value, pairOfVariables name = some value → Unmarked value) ∧
      pairOfVariables "V" = some "x" ∧ "V" ≠ "" ∧ Unmarked "V" ∧
      fill pairOfVariables text = "$\x7bV\x7d, x" ∧
      (Joined pairOfVariables "V" (parts text) ∨ Swallowed pairOfVariables "V" (parts text)) := by
  intro text
  have hfill : fill pairOfVariables text = "$\x7bV\x7d, x" := by decide +kernel
  have hv : Unmarked "V" := by decide
  refine ⟨unmarked_pairOfVariables, rfl, by decide, hv, hfill, ?_⟩
  obtain ⟨-, -, -, -, -, -, hleft⟩ := fill_replaces pairOfVariables text
  refine (hleft unmarked_pairOfVariables "V" "x" rfl (by decide) hv).1 ?_
  rw [hfill]
  decide +kernel

/-- No value bears a mark, but the placeholder of a known variable comes about, or is left behind an
opening mark that is not closed. -/
theorem placeholder_left_pairOfVariables :
    let joined := "$$\x7bA\x7d\x7bV\x7d"
    let unclosed := "# not closed: $\x7b\nname = $\x7bV\x7d"
    (∀ name value, pairOfVariables name = some value → Unmarked value) ∧
      pairOfVariables "V" = some "x" ∧ Unmarked "V" ∧
      (Part.named "V".toList).written <:+: (fill pairOfVariables joined).toList ∧
      (Part.named "V".toList).written <:+: (fill pairOfVariables unclosed).toList := by
  intro joined unclosed
  exact ⟨unmarked_pairOfVariables, rfl, by decide, by decide +kernel, by decide +kernel⟩

end RolePlan.Placeholder
