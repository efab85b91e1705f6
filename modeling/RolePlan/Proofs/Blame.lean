import RolePlan.Proofs.Acceptance

/-!
# Texts that are refused

Where no template can be read from a text, the text is at fault. In particular no name is ever
found to be taken: a section is a table already, whose names are all different.
-/

namespace RolePlan

/-- If there is an error, the documents are at fault. -/
def Blames {α : Type} (x : Except Error α) : Prop := ∀ e, x = .error e → e.isDataError = true

namespace Blames

variable {α β : Type}

theorem ok (a : α) : Blames (.ok a : Except Error α) := fun _ h => by cases h

theorem error {e : Error} (h : e.isDataError = true) : Blames (.error e : Except Error α) :=
  fun _ he => by
    cases he
    exact h

theorem bind {x : Except Error α} {f : α → Except Error β} (hx : Blames x)
    (hf : ∀ a, x = .ok a → Blames (f a)) : Blames (x >>= f) := by
  cases x with
  | error e => exact error (hx e rfl)
  | ok a => exact hf a rfl

end Blames

/-! ## YAML -/

namespace Yaml

theorem blames_keyText (tree : Tree) : Blames (keyText tree) := by
  unfold keyText
  split
  · exact .ok _
  · exact .ok _
  · exact .error rfl
  · exact .ok _
  · exact .error rfl

theorem blames_ofScalar (value : Scalar) : Blames (ofScalar value) := by
  cases value <;> first | exact .ok _ | exact .error rfl

mutual

theorem blames_ofTree : (tree : Tree) → Blames (ofTree tree)
  | .scalar value => by
      rw [ofTree]
      exact blames_ofScalar value
  | .sequence items => by
      rw [ofTree]
      exact (blames_ofItems items).bind fun values _ => .ok _
  | .mapping entries => by
      rw [ofTree]
      exact (blames_ofEntries .empty entries).bind fun fields _ => .ok _
  | .tagged _ content => by
      rw [ofTree]
      exact blames_ofTree content

theorem blames_ofItems : (items : List Tree) → Blames (ofItems items)
  | [] => .ok []
  | tree :: rest => by
      rw [ofItems]
      exact (blames_ofTree tree).bind fun _ _ => (blames_ofItems rest).bind fun _ _ => .ok _

theorem blames_ofEntries (done : Table Value) : (entries : List (Tree × Tree)) →
    Blames (ofEntries done entries)
  | [] => .ok done
  | (key, tree) :: rest => by
      rw [ofEntries]
      exact (blames_keyText key).bind fun _ _ => (blames_ofTree tree).bind fun _ _ =>
        blames_ofEntries _ rest

end

theorem blames_read (text : String) : Blames (read text) := by
  unfold read
  split
  · exact .error rfl
  · exact blames_ofTree _

end Yaml

/-! ## Sections and fields -/

namespace Document

theorem blames_load (text : String) : Blames (load text) := by
  rw [load]
  split
  · exact .ok _
  · refine (Yaml.blames_read text).bind fun v _ => ?_
    cases v <;> first | exact .ok _ | exact .error rfl

end Document

/-! ## Faults of a document -/

namespace Grammar

/-- All of the faults lie in the documents. -/
def InDocuments (faults : List Error) : Prop := ∀ e ∈ faults, e.isDataError = true

namespace InDocuments

theorem nil : InDocuments [] := fun _ h => absurd h List.not_mem_nil

theorem singleton {e : Error} (h : e.isDataError = true) : InDocuments [e] :=
  List.forall_mem_singleton.mpr h

theorem append {first rest : List Error} (hfirst : InDocuments first) (hrest : InDocuments rest) :
    InDocuments (first ++ rest) :=
  List.forall_mem_append.mpr ⟨hfirst, hrest⟩

theorem flatten {first : List Error} {rest : List (List Error)} (hfirst : InDocuments first)
    (hrest : InDocuments rest.flatten) : InDocuments (first :: rest).flatten :=
  hfirst.append hrest

theorem last {faults : List Error} (h : InDocuments faults) : InDocuments [faults].flatten :=
  h.flatten nil

theorem flatMap {α : Type} {items : List α} {faults : α → List Error}
    (h : ∀ item, InDocuments (faults item)) : InDocuments (items.flatMap faults) := by
  intro e he
  obtain ⟨item, -, he⟩ := List.mem_flatMap.mp he
  exact h item e he

theorem unfit {fields : Table Value} {name : String} {form : Value → Bool} {fault : Kind → Error}
    (h : ∀ kind, (fault kind).isDataError = true) : InDocuments (unfit fields name form fault) := by
  rw [Grammar.unfit]
  cases given fields name with
  | none => exact nil
  | some v =>
      dsimp only
      split
      · exact nil
      · exact singleton (h v.kind)

theorem unfitText (which : Section) (entry : String) (fields : Table Value) (name : String) :
    InDocuments (unfitText which entry fields name) := unfit fun _ => rfl

theorem demandedText (which : Section) (entry : String) (fields : Table Value) (name : String) :
    InDocuments (demandedText which entry fields name) := by
  refine (unfitText which entry fields name).append ?_
  rw [absent]
  split
  · exact singleton rfl
  · exact nil

theorem record {which : Section} {name : String} {faults : Table Value → List Error}
    (h : ∀ fields, InDocuments (faults fields)) (v : Value) :
    InDocuments (recordFaults which name faults v) := by
  cases v with
  | object fields => exact h fields
  | _ => exact singleton rfl

theorem constraint (parameter : String) (v : Value) :
    InDocuments (constraintFaults parameter v) := by
  cases v with
  | object fields =>
      refine (unfit fun _ => rfl).append ?_
      split
      · exact nil
      · exact singleton rfl
  | _ => exact singleton rfl

theorem parameter (name : String) (v : Value) : InDocuments (parameterFaults name v) := by
  refine record (fun fields => flatten ?_ <| flatten (unfitText _ _ _ _) <|
    flatten (unfitText _ _ _ _) <| flatten (unfit fun _ => rfl) <|
    flatten (unfit fun _ => rfl) <| last (flatMap (constraint name))) v
  rw [typeFaults]
  split
  · exact singleton rfl
  · split
    · exact nil
    · exact singleton rfl

theorem group (name : String) (v : Value) : InDocuments (groupFaults name v) := by
  refine record (fun fields => flatten (demandedText _ _ _ _) <| flatten (unfitText _ _ _ _) <|
    flatten (unfit fun _ => rfl) <| last (flatMap fun item => ?_)) v
  rw [memberFaults]
  split
  · exact nil
  · exact singleton rfl

theorem resource (id : String) (v : Value) : InDocuments (resourceFaults id v) :=
  record (fun _ => flatten (demandedText _ _ _ _) <| last (unfit fun _ => rfl)) v

theorem output (name : String) (v : Value) : InDocuments (outputFaults name v) := by
  refine record (fun fields => flatten ?_ <| last (unfitText _ _ _ _)) v
  split
  · exact nil
  · exact singleton rfl

theorem entries {document : Table Value} {which : Section} {faults : String → Value → List Error}
    (h : ∀ name v, InDocuments (faults name v)) :
    InDocuments (sectionFaults document which faults) :=
  (unfit fun _ => rfl).append (flatMap fun entry => h entry.1 entry.2)

theorem groups (document : Table Value) : InDocuments (groupsFaults document) :=
  (unfit fun _ => rfl).append (flatMap fun item => group _ item.1)

theorem faults (document : Table Value) : InDocuments (faults document) :=
  flatten (unfitText _ _ _ _) <| flatten (entries parameter) <| flatten (groups document) <|
    flatten (entries resource) <| last (entries output)

end InDocuments

end Grammar

namespace Template

/-- Where no template can be read from a text, it is the text that is at fault. -/
theorem blames_parse (text : String) : Blames (parse text) :=
  (Document.blames_load text).bind fun document h e he => by
    rw [Grammar.ofDocument_eq (Yaml.wellFormed_of_load h), Proofs.outcome_eq_error_iff] at he
    exact Grammar.InDocuments.faults document e (List.mem_of_head? he)

end Template

end RolePlan
