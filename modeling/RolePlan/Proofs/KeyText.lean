import RolePlan.Proofs.NumberText
import RolePlan.Proofs.ProperTree
import RolePlan.Yaml.Read

/-!
# The texts of keys

The keys of a YAML mapping can be texts, numbers and truth values, and all of them become texts.
Different numbers and truth values become different texts: integers are written without a point or
an `e`, the words for truth values, infinities and NaN are no decimals, and a double is known from
its decimal.
-/

namespace RolePlan.Yaml

open Binary64 (decimal?)

/-- The keys besides texts, integers and finite doubles, with their texts. -/
def wordKeys : List (String × Scalar) :=
  [("true", .bool true), ("false", .bool false), (".inf", .infinity false),
    ("-.inf", .infinity true), (".nan", .nan)]

/-- The text has a point or an `e`, as those of all numbers but integers have. -/
def Marked (text : String) : Prop := ∃ c ∈ text.toList, c = '.' ∨ c = 'e'

theorem keyText_cases {key : Tree} {name : String} (h : keyText key = .ok name) :
    key = .scalar (.string name) ∨ (∃ n : Int, key = .scalar (.int n) ∧ name = toString n) ∨
      (∃ x : Binary64, key = .scalar (.float x) ∧ name = x.render .inDocument) ∨
      ∃ s, key = .scalar s ∧ (name, s) ∈ wordKeys := by
  cases key with
  | scalar s =>
      cases s with
      | null => cases h
      | string text =>
          cases h
          exact .inl rfl
      | int n =>
          cases h
          exact .inr (.inl ⟨n, rfl, rfl⟩)
      | float x =>
          cases h
          exact .inr (.inr (.inl ⟨x, rfl, rfl⟩))
      | bool b =>
          cases h
          refine .inr (.inr (.inr ⟨_, rfl, ?_⟩))
          cases b <;> decide
      | infinity negative =>
          cases h
          refine .inr (.inr (.inr ⟨_, rfl, ?_⟩))
          cases negative <;> decide
      | nan =>
          cases h
          exact .inr (.inr (.inr ⟨_, rfl, by decide⟩))
  | _ => cases h

theorem plain_inDocument : Binary64.Notation.inDocument.Plain := .inl rfl

theorem marked_of_mem_wordKeys : ∀ word ∈ wordKeys, Marked word.1 := by
  simp [wordKeys, Marked]

theorem decimal?_of_mem_wordKeys : ∀ word ∈ wordKeys, decimal? word.1.toList = none := by
  decide

theorem eq_of_mem_wordKeys : ∀ word ∈ wordKeys, ∀ other ∈ wordKeys, word.1 = other.1 →
    word = other := by
  decide

theorem not_marked_toString (n : Int) : ¬ Marked (toString n) := by
  have hnat (m : Nat) : ¬ Marked m.repr := by
    rintro ⟨c, hc, hmark⟩
    rw [Nat.toList_repr] at hc
    have hdigit := Binary64.isDigit_of_mem_toDigits c hc
    rcases hmark with rfl | rfl <;> cases hdigit
  rintro ⟨c, hc, hmark⟩
  rw [Int.toString_eq_repr, Int.repr_eq_if] at hc
  split at hc
  · exact hnat _ ⟨c, hc, hmark⟩
  · rw [String.toList_append, List.mem_append] at hc
    rcases hc with hc | hc
    · obtain rfl := List.mem_singleton.mp hc
      rcases hmark with hmark | hmark <;> cases hmark
    · exact hnat _ ⟨c, hc, hmark⟩

/-- The text of an integer is a decimal, too. -/
theorem decimal?_toString (n : Int) :
    decimal? (toString n).toList = some (decide (n < 0), n.natAbs, 0) := by
  have hread (negative : Bool) (m : Nat) :
      Binary64.unsigned? negative m.repr.toList = some (negative, m, 0) := by
    have h := Binary64.unsigned?_whole negative
      (Binary64.isDigit_of_mem_toDigits (n := m)) Nat.toDigits_ne_nil (.inl rfl)
    rw [List.append_nil, Binary64.ofDigits_toDigits] at h
    rw [Nat.toList_repr, h]
    rfl
  rw [Int.toString_eq_repr, Int.repr_eq_if]
  split
  · next h =>
      rw [Binary64.decimal?_of_unsigned? (hread false n.toNat), show n.toNat = n.natAbs by omega,
        decide_eq_false h.not_gt]
  · next h =>
      rw [String.toList_append]
      refine (Binary64.decimal?_minus (-n).toNat.repr.toList).trans ?_
      rw [hread, show (-n).toNat = n.natAbs by omega, decide_eq_true (lt_of_not_ge h)]

theorem toString_inj {n m : Int} (h : toString n = toString m) : n = m := by
  have heq := (decimal?_toString n).symm.trans (h ▸ decimal?_toString m)
  simp only [Option.some.injEq, Prod.mk.injEq, decide_eq_decide] at heq
  omega

theorem decimal?_render_ne_none (x : Binary64) :
    decimal? (x.render .inDocument).toList ≠ none := by
  obtain ⟨d, k, hread, -⟩ := Binary64.decimal?_render plain_inDocument x
  rw [hread]
  exact Option.some_ne_none _

theorem same_scalar_self (s : Scalar) : (Tree.scalar s).same (.scalar s) = true := by
  rw [Tree.same]
  cases s <;> simp [Scalar.same, Binary64.same]

/-- Of two keys with one text, one is this text, or they are equal. -/
theorem same_of_keyText {a b : Tree} {name : String}
    (ha : a.Proper) (hb : b.Proper) (h : keyText a = .ok name) (h' : keyText b = .ok name) :
    a = .scalar (.string name) ∨ b = .scalar (.string name) ∨ a.same b = true := by
  -- Integers have no mark, and the words are no decimals. So both keys are of the same kind.
  obtain hname | ⟨n, rfl, rfl⟩ | ⟨x, rfl, rfl⟩ | ⟨s, rfl, hs⟩ := keyText_cases h
  · exact .inl hname
  · refine .inr ?_
    obtain hname | ⟨m, rfl, hm⟩ | ⟨y, rfl, hy⟩ | ⟨t, rfl, ht⟩ := keyText_cases h'
    · exact .inl hname
    · rw [toString_inj hm]
      exact .inr (same_scalar_self _)
    · exact absurd (hy ▸ y.exists_mark_render _) (not_marked_toString n)
    · exact absurd (marked_of_mem_wordKeys _ ht) (not_marked_toString n)
  · refine .inr ?_
    obtain hname | ⟨m, rfl, hm⟩ | ⟨y, rfl, hy⟩ | ⟨t, rfl, ht⟩ := keyText_cases h'
    · exact .inl hname
    · exact absurd (hm ▸ x.exists_mark_render _) (not_marked_toString m)
    · exact .inr (Binary64.same_of_render plain_inDocument (ha x rfl) (hb y rfl) hy)
    · exact absurd (decimal?_of_mem_wordKeys _ ht) (decimal?_render_ne_none x)
  · refine .inr ?_
    obtain hname | ⟨m, rfl, rfl⟩ | ⟨y, rfl, rfl⟩ | ⟨t, rfl, ht⟩ := keyText_cases h'
    · exact .inl hname
    · exact absurd (marked_of_mem_wordKeys _ hs) (not_marked_toString m)
    · exact absurd (decimal?_of_mem_wordKeys _ hs) (decimal?_render_ne_none y)
    · rw [(Prod.mk.inj (eq_of_mem_wordKeys _ hs _ ht rfl)).2]
      exact .inr (same_scalar_self t)

end RolePlan.Yaml
