import RolePlan.Proofs.Except
import RolePlan.Proofs.Nearest
import RolePlan.Yaml.Tree

/-!
# Trees that are read are proper

A mapping that is read from a text has no two equal keys, since a second one is refused, and the
numbers in the tree are doubles that there are.
-/

namespace RolePlan.Yaml

/-- A number is one of the doubles that there are. -/
def Scalar.Proper (s : Scalar) : Prop := ∀ x, s = .float x → x.Canonical

namespace Tree

mutual

/-- No mapping has a key that is equal to one before it, and the numbers are proper. -/
def Proper : Tree → Prop
  | .scalar value => value.Proper
  | .sequence items => ProperItems items
  | .mapping entries =>
      entries.Pairwise (fun a b => b.1.same a.1 = false) ∧ ProperEntries entries
  | .tagged _ content => Proper content

def ProperItems : List Tree → Prop
  | [] => True
  | tree :: rest => Proper tree ∧ ProperItems rest

def ProperEntries : List (Tree × Tree) → Prop
  | [] => True
  | (key, tree) :: rest => Proper key ∧ Proper tree ∧ ProperEntries rest

end

theorem properItems_iff {items : List Tree} :
    ProperItems items ↔ ∀ tree ∈ items, tree.Proper := by
  induction items with
  | nil => simp [ProperItems]
  | cons tree rest ih => rw [ProperItems, ih, List.forall_mem_cons]

theorem properEntries_iff {entries : List (Tree × Tree)} :
    ProperEntries entries ↔ ∀ entry ∈ entries, entry.1.Proper ∧ entry.2.Proper := by
  induction entries with
  | nil => simp [ProperEntries]
  | cons entry rest ih => rw [ProperEntries, ih, List.forall_mem_cons, and_assoc]

end Tree

/-! ## Scalars -/

namespace Scalar

theorem proper_of_float? {text : List Char} {s : Scalar} (h : float? text = some s) : s.Proper := by
  have hparsed {unsigned : String} (h : (Binary64.parse? unsigned).map .float = some s) :
      s.Proper := by
    obtain ⟨x, hx, rfl⟩ := Option.map_eq_some_iff.mp h
    rintro y ⟨⟩
    exact Binary64.canonical_of_parse? hx
  unfold float? at h
  dsimp only at h
  split_ifs at h
  on_goal 4 => exact hparsed h
  all_goals
    cases h
    rintro x ⟨⟩

theorem proper_of_ofPlain {text : String} {s : Scalar} (h : ofPlain text = .ok s) : s.Proper := by
  rw [ofPlain] at h
  split at h
  · cases h
    rintro x ⟨⟩
  · split at h
    · cases h
      rintro x ⟨⟩
    · obtain ⟨n, -, h⟩ := Proofs.bind_eq_ok h
      cases n with
      | some n =>
          cases h
          rintro x ⟨⟩
      | none =>
          dsimp only at h
          split_ifs at h
          · cases h
            rintro x ⟨⟩
          · cases h
            cases hfloat : float? text.toList with
            | none => rintro x ⟨⟩
            | some s => exact proper_of_float? hfloat

theorem proper_of_ofWanted {wanted : Wanted} {text : String} {s : Scalar}
    (h : ofWanted wanted text = .ok s) : s.Proper := by
  cases wanted with
  | bool =>
      rw [ofWanted] at h
      cases hbool : bool? text with
      | none =>
          rw [hbool] at h
          cases h
      | some b =>
          rw [hbool] at h
          cases h
          rintro x ⟨⟩
  | int =>
      obtain ⟨n, -, h⟩ := Proofs.bind_eq_ok h
      cases n with
      | none => cases h
      | some n =>
          cases h
          rintro x ⟨⟩
  | float =>
      rw [ofWanted] at h
      cases hfloat : float? text.toList with
      | none =>
          rw [hfloat] at h
          cases h
      | some found =>
          rw [hfloat] at h
          cases h
          exact proper_of_float? hfloat
  | null =>
      rw [ofWanted] at h
      split_ifs at h
      cases h
      rintro x ⟨⟩

end Scalar

/-! ## Building trees -/

namespace Tree

theorem proper_of_ofScalar {tag : Option String} {plain : Bool} {text : String} {s : Scalar}
    (h : ofScalar tag plain text = .ok s) : s.Proper := by
  unfold ofScalar at h
  split at h
  · split at h
    · exact Scalar.proper_of_ofWanted h
    · cases h
      rintro x ⟨⟩
  · split_ifs at h
    · exact Scalar.proper_of_ofPlain h
    · cases h
      rintro x ⟨⟩

/-- Whatever the steps build fulfils `P`. -/
def Yields {α : Type} (P : α → Prop) (steps : Following α) : Prop :=
  ∀ left a rest, steps.run left = .ok (a, rest) → P a

variable {α β : Type} {P : α → Prop} {Q : β → Prop}

theorem yields_pure {a : α} (ha : P a) : Yields P (pure a) := by
  intro left b rest h
  cases h
  exact ha

theorem yields_throw (e : String) : Yields P (throw e) := by
  intro left b rest h
  cases h

theorem Yields.bind {x : Following α} {f : α → Following β} (hx : Yields P x)
    (hf : ∀ a, P a → Yields Q (f a)) : Yields Q (x >>= f) := by
  intro left b rest h
  obtain ⟨⟨a, between⟩, ha, h⟩ := Proofs.bind_eq_ok h
  exact hf a (hx left a between ha) between b rest h

theorem yields_lift {x : Except String α} (h : ∀ a, x = .ok a → P a) :
    Yields P (liftM x : Following α) := by
  intro left b rest hrun
  cases x with
  | error e => cases hrun
  | ok found =>
      cases hrun
      exact h _ rfl

theorem yields_mapM {f : β → Following α} {items : List β} (h : ∀ b ∈ items, Yields P (f b)) :
    Yields (fun results => ∀ a ∈ results, P a) (items.mapM f) := by
  induction items with
  | nil => exact yields_pure (by simp)
  | cons item rest ih =>
      rw [List.forall_mem_cons] at h
      rw [List.mapM_cons]
      exact h.1.bind fun a ha => (ih h.2).bind fun more hmore =>
        yields_pure (List.forall_mem_cons.mpr ⟨ha, hmore⟩)

theorem yields_foldlM {f : α → β → Following α} {items : List β} {a : α} (ha : P a)
    (h : ∀ a b, P a → Yields P (f a b)) : Yields P (items.foldlM f a) := by
  induction items generalizing a with
  | nil => exact yields_pure ha
  | cons item rest ih =>
      rw [List.foldlM_cons]
      exact (h _ item ha).bind fun _ hb => ih hb

theorem yields_wrap {behindTag : Bool} {tag : Option String} {content : Bool → Following Tree}
    (h : ∀ inside, Yields Proper (content inside)) :
    Yields Proper (wrap behindTag tag content) := by
  rw [wrap]
  split
  · exact (h true).bind fun tree htree => yields_pure htree
  · exact h behindTag

/-- Entries of a mapping, the latest first: none has the key of one behind it. -/
def ProperDone (done : List (Tree × Tree)) : Prop :=
  done.Pairwise (fun a b => a.1.same b.1 = false) ∧
    ∀ entry ∈ done, entry.1.Proper ∧ entry.2.Proper

theorem yields_addEntry {buildKey buildValue : Node → Following Tree}
    (hkey : ∀ node, Yields Proper (buildKey node))
    (hvalue : ∀ node, Yields Proper (buildValue node))
    {done : List (Tree × Tree)} (hdone : ProperDone done) (entry : Node × Node) :
    Yields ProperDone (addEntry buildKey buildValue done entry) := by
  rw [addEntry]
  refine (hkey entry.1).bind fun key hk => ?_
  split
  · exact Yields.bind (yields_throw "duplicate entry") (P := fun _ => False) fun _ h => h.elim
  · next hnew =>
      refine (hvalue entry.2).bind fun value hv => yields_pure ⟨?_, ?_⟩
      · refine List.pairwise_cons.mpr ⟨fun other ho => ?_, hdone.1⟩
        rw [List.any_eq_true] at hnew
        exact Bool.eq_false_iff.mpr fun hsame => hnew ⟨other, ho, hsame⟩
      · exact List.forall_mem_cons.mpr ⟨⟨hk, hv⟩, hdone.2⟩

theorem proper_of_properDone {done : List (Tree × Tree)} (h : ProperDone done) :
    Proper (.mapping done.reverse) := by
  refine ⟨List.pairwise_reverse.mpr h.1, properEntries_iff.mpr fun entry he => ?_⟩
  exact h.2 entry (List.mem_reverse.mp he)

/-- A scalar is proper behind any tag. -/
theorem yields_scalar (behindTag plain : Bool) (tag : Option String) (text : String) :
    Yields Proper (wrap behindTag tag fun inside => do
      return .scalar (← ofScalar (if inside then none else tag) plain text)) :=
  yields_wrap fun _ => (yields_lift fun _ => proper_of_ofScalar).bind fun _ hs => yields_pure hs

theorem yields_build (anchors : Anchored) (depth : Nat) (behindTag : Bool) (node : Node) :
    Yields Proper (build anchors depth behindTag node) := by
  have hany (x : Following Node) : Yields (fun _ => True) x := fun _ _ _ _ => trivial
  induction depth generalizing behindTag node with
  | zero =>
      unfold build
      refine (hany _).bind fun found _ => ?_
      cases found with
      | scalar marks plain text => exact yields_scalar _ plain marks.tag text
      | _ => exact yields_throw _
  | succ depth ih =>
      unfold build
      refine (hany _).bind fun found _ => ?_
      cases found with
      | reference anchor => exact yields_throw _
      | scalar marks plain text => exact yields_scalar _ plain marks.tag text
      | sequence marks items =>
          refine yields_wrap fun inside => ?_
          refine (yields_mapM fun item _ => ih false item).bind fun trees htrees => ?_
          exact yields_pure (properItems_iff.mpr htrees)
      | mapping marks entries =>
          refine yields_wrap fun inside => ?_
          have hdone : ProperDone [] := ⟨.nil, by simp⟩
          refine (yields_foldlM hdone fun done entry h =>
            yields_addEntry (ih inside) (ih false) h entry).bind fun done h => ?_
          exact yields_pure (proper_of_properDone h)

/-- Every tree that a text is read as is proper. -/
theorem proper_of_read {text : String} {tree : Tree} (h : read text = .ok tree) : tree.Proper := by
  obtain ⟨tokens, -, h⟩ := Proofs.bind_eq_ok h
  obtain ⟨node, -, h⟩ := Proofs.bind_eq_ok h
  cases node with
  | none =>
      cases h
      rintro x ⟨⟩
  | some node =>
      obtain ⟨⟨built, left⟩, hbuilt, h⟩ := Proofs.bind_eq_ok h
      cases h
      exact yields_build _ _ _ _ _ _ _ hbuilt

end Tree

end RolePlan.Yaml
