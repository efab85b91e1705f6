import RolePlan.Namespace

/-!
# Names of different namespaces

A namespace owns exactly the names made by `apply`. Where no namespace holds the delimiter or ends
in a part of it, no name belongs to two of them, and just there a namespace can be stripped off its
names again; the ids and the alias of a role tell its namespace whatever it is.
-/

namespace RolePlan.Namespace

/-- The namespace neither holds the delimiter nor ends with its first half. -/
def Simple (ns : String) : Prop :=
  ¬ delimiter.toList <:+: ns.toList ∧ ns.toList.getLast? ≠ some ':'

instance (ns : String) : Decidable (Simple ns) :=
  inferInstanceAs (Decidable (¬ delimiter.toList <:+: ns.toList ∧ ns.toList.getLast? ≠ some ':'))

theorem owns_eq_true_iff {ns name : String} :
    owns ns name = true ↔ ns.toList ++ [':', ':'] <+: name.toList := by
  rw [owns, List.isPrefixOf_iff_prefix, String.toList_append]
  rfl

theorem owns_apply (ns name : String) : owns ns (apply ns name) = true := by
  rw [owns_eq_true_iff, apply, String.toList_append, String.toList_append]
  exact List.prefix_append _ _

theorem apply_inj {ns a b : String} : apply ns a = apply ns b ↔ a = b := by
  refine ⟨fun h => ?_, fun h => h ▸ rfl⟩
  have hl := congrArg String.toList h
  simp only [apply, String.toList_append, List.append_cancel_left_eq] at hl
  exact String.toList_injective hl

theorem apply_left_inj {a b name : String} : apply a name = apply b name ↔ a = b := by
  refine ⟨fun h => String.toList_injective ?_, fun h => h ▸ rfl⟩
  have hl := congrArg String.toList h
  simpa only [apply, String.toList_append, List.append_cancel_right_eq] using hl

/-- Of two simple namespaces that both begin a name, none is longer: it would hold the delimiter
behind the other one, or end within it. -/
private theorem eq_of_delimited {a b : List Char} (hb : ¬ [':', ':'] <:+: b)
    (hlast : b.getLast? ≠ some ':') (h : a ++ [':', ':'] <+: b ++ [':', ':']) : a = b := by
  obtain ⟨rest, hrest⟩ := h
  rw [List.append_assoc] at hrest
  rcases List.append_eq_append_iff.mp hrest with ⟨c, rfl, hc⟩ | ⟨c, rfl, hc⟩
  · match c, hc with
    | [], _ => simp
    | [x], hc =>
        have hx : x = ':' := by simpa using (congrArg List.head? hc).symm
        exact absurd (by simp [hx]) hlast
    | x :: y :: c, hc =>
        obtain ⟨hx, hc⟩ := List.cons.inj hc
        obtain ⟨hy, -⟩ := List.cons.inj hc
        exact absurd ⟨a, c, by simp [← hx, ← hy]⟩ hb
  · have hlen := congrArg List.length hc
    simp only [List.length_append, List.length_cons, List.length_nil] at hlen
    rw [List.eq_nil_of_length_eq_zero (by omega : c.length = 0), List.append_nil]

theorem Simple.eq_of_owns {a b name : String} (ha : Simple a) (hb : Simple b)
    (hna : owns a name = true) (hnb : owns b name = true) : a = b := by
  rw [owns_eq_true_iff] at hna hnb
  refine String.toList_injective ?_
  rcases List.prefix_or_prefix_of_prefix hna hnb with h | h
  · exact eq_of_delimited hb.1 hb.2 h
  · exact (eq_of_delimited ha.1 ha.2 h).symm

theorem Simple.owns_eq_false {a b name : String} (ha : Simple a) (hb : Simple b) (hne : a ≠ b)
    (hna : owns a name = true) : owns b name = false := by
  rw [← Bool.not_eq_true]
  exact fun hnb => hne (ha.eq_of_owns hb hna hnb)

/-! ## Delimiters -/

theorem not_infix_of_afterDelimiter? {cs : List Char} (h : afterDelimiter? cs = none) :
    ¬ [':', ':'] <:+: cs := by
  induction cs with
  | nil => simp
  | cons c rest ih =>
      rw [afterDelimiter?] at h
      split at h
      · cases h
      · next hc =>
          rw [List.infix_cons_iff, not_or]
          refine ⟨?_, ih h⟩
          rintro ⟨tail, htail⟩
          obtain ⟨hx, hrest⟩ := List.cons.inj htail
          exact hc (by simp [← hx, ← hrest])

/-- The text before the first delimiter holds none, and lends no half to one. -/
theorem exists_of_afterDelimiter? {cs rest : List Char} (h : afterDelimiter? cs = some rest) :
    ∃ before, cs = before ++ ':' :: ':' :: rest ∧
      ¬ [':', ':'] <:+: before ∧ before.getLast? ≠ some ':' := by
  induction cs with
  | nil => cases h
  | cons c tail ih =>
      rw [afterDelimiter?] at h
      split at h
      · next hc =>
          obtain ⟨hcolon, hhead⟩ := Bool.and_eq_true_iff.mp hc
          obtain rfl := of_decide_eq_true hcolon
          obtain ⟨after, rfl⟩ := List.head?_eq_some_iff.mp (of_decide_eq_true hhead)
          cases h
          exact ⟨[], rfl, by simp, by simp⟩
      · next hc =>
          obtain ⟨before, rfl, hfree, hlast⟩ := ih h
          -- The first character is no half of a delimiter: it is no colon, or none follows it.
          refine ⟨c :: before, rfl, ?_, ?_⟩
          · rw [List.infix_cons_iff, not_or]
            refine ⟨?_, hfree⟩
            rintro ⟨more, hmore⟩
            obtain ⟨hx, hmore⟩ := List.cons.inj hmore
            exact hc (by simp [← hx, ← hmore])
          · cases before with
            | nil => exact fun hx => hc (by simpa using hx)
            | cons first others => simpa [List.getLast?_cons] using hlast

/-- What holds no colon follows a text without bringing about a delimiter. -/
theorem not_infix_append {cs more : List Char} (h : ¬ [':', ':'] <:+: cs) (hmore : ':' ∉ more) :
    ¬ [':', ':'] <:+: cs ++ more := by
  rintro ⟨before, after, heq⟩
  rw [List.append_assoc] at heq
  rcases List.append_eq_append_iff.mp heq with ⟨rest, rfl, hrest⟩ | ⟨rest, -, hrest⟩
  · match rest, hrest with
    | [], hrest => exact hmore (by simp [← show _ = more from hrest])
    | [x], hrest =>
        obtain ⟨-, hrest⟩ := List.cons.inj hrest
        exact hmore (by simp [← show _ = more from hrest])
    | x :: y :: rest, hrest =>
        obtain ⟨hx, hrest⟩ := List.cons.inj hrest
        obtain ⟨hy, -⟩ := List.cons.inj hrest
        exact h ⟨before, rest, by simp [← hx, ← hy]⟩
  · exact hmore (by simp [hrest])

/-! ## Stripping -/

/-- A name with a delimiter is stripped of the simple namespace before the first one. -/
theorem exists_apply_strip {name : String} (h : delimiter.toList <:+: name.toList) :
    ∃ ns, Simple ns ∧ name = apply ns (strip name) := by
  cases hafter : afterDelimiter? name.toList with
  | none => exact absurd h (not_infix_of_afterDelimiter? hafter)
  | some rest =>
      obtain ⟨before, hname, hfree, hlast⟩ := exists_of_afterDelimiter? hafter
      refine ⟨String.ofList before, ?_, String.toList_injective ?_⟩
      · rw [Simple, String.toList_ofList]
        exact ⟨hfree, hlast⟩
      · simp only [strip, hafter, apply, String.toList_append, String.toList_ofList]
        rw [hname, List.append_assoc]
        rfl

/-- A namespace owns what is put into it, and is stripped off it again just if it is simple: a
delimiter within the namespace, or one that begins with its last character, comes before the one
that was put in. -/
theorem strip_apply_iff (ns name : String) :
    owns ns (apply ns name) = true ∧ (strip (apply ns name) = name ↔ Simple ns) := by
  refine ⟨owns_apply ns name, ?_⟩
  have hdelimiter : delimiter.toList <:+: (apply ns name).toList := by
    rw [apply, String.toList_append, String.toList_append]
    exact List.infix_append _ _ _
  obtain ⟨first, hfirst, happly⟩ := exists_apply_strip hdelimiter
  constructor
  · intro hstrip
    rw [hstrip] at happly
    have hns : ns = first := apply_left_inj.mp happly
    exact hns ▸ hfirst
  · intro hns
    have howns : owns first (apply ns name) = true := by
      rw [happly]
      exact owns_apply first _
    have hsame : first = ns := hfirst.eq_of_owns hns howns (owns_apply ns name)
    rw [hsame, apply_inj] at happly
    exact happly.symm

/-- With the colon at the end of the namespace, the delimiter is found one character early. -/
example : strip (apply "a:" "b") = ":b" := by decide +kernel

/-! ## Ids and aliases -/

theorem aliasOf_inj {a b : String} : aliasOf a = aliasOf b ↔ a = b := by
  refine ⟨fun h => String.toList_injective ?_, fun h => h ▸ rfl⟩
  have hl := congrArg String.toList h
  simpa only [aliasOf, String.toList_append, List.append_cancel_left_eq] using hl

theorem isPrefixOf_aliasOf (ns : String) :
    aliasMark.toList.isPrefixOf (aliasOf ns).toList = true := by
  rw [List.isPrefixOf_iff_prefix, aliasOf, String.toList_append]
  exact List.prefix_append _ _

@[simp] theorem ofAlias?_aliasOf (ns : String) : ofAlias? (aliasOf ns) = some ns := by
  have hl : aliasMark.length = aliasMark.toList.length := String.length_toList.symm
  rw [ofAlias?, if_pos (isPrefixOf_aliasOf ns), aliasOf, String.toList_append, hl, List.drop_left,
    String.ofList_toList]

theorem resourceId_inj {a b : String} : resourceId a = resourceId b ↔ a = b := by
  refine ⟨fun h => String.toList_injective ?_, fun h => h ▸ rfl⟩
  have hl := congrArg String.toList h
  simpa only [resourceId, String.toList_append, List.append_cancel_right_eq] using hl

theorem groupId_inj {a b : String} : groupId a = groupId b ↔ a = b := by
  refine ⟨fun h => String.toList_injective ?_, fun h => h ▸ rfl⟩
  have hl := congrArg String.toList h
  simpa only [groupId, String.toList_append, List.append_cancel_right_eq] using hl

/-- The ids of the two kinds end differently. -/
theorem resourceId_ne_groupId (a b : String) : resourceId a ≠ groupId b := by
  intro h
  have hl := congrArg (fun id : String => id.toList.getLast?) h
  simp [resourceId, groupId, String.toList_append] at hl

end RolePlan.Namespace
