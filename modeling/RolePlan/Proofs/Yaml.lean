import RolePlan.Document
import RolePlan.Proofs.Except
import RolePlan.Proofs.Value
import RolePlan.Yaml.Write

/-!
# Documents that are written and read again

A well-formed value tree is read from the YAML tree that holds it, and nothing but well-formed
trees is ever read. So a document is loaded as it was, provided that YAML gives back the tree that
was written; whether it does is a question about YAML and not about what is in the tree.
-/

namespace RolePlan.Yaml

namespace Tree

mutual

def ofValue : Value → Tree
  | .null => .scalar .null
  | .bool b => .scalar (.bool b)
  | .int n => .scalar (.int n)
  | .float x => .scalar (.float x)
  | .string text => .scalar (.string text)
  | .list items => .sequence (ofItems items)
  | .object ⟨entries⟩ => .mapping (ofEntries entries)

def ofItems : List Value → List Tree
  | [] => []
  | v :: rest => ofValue v :: ofItems rest

def ofEntries : List (String × Value) → List (Tree × Tree)
  | [] => []
  | (name, v) :: rest => (.scalar (.string name), ofValue v) :: ofEntries rest

end

mutual

def beq : Tree → Tree → Bool
  | .scalar a, .scalar b => a == b
  | .sequence xs, .sequence ys => beqItems xs ys
  | .mapping xs, .mapping ys => beqEntries xs ys
  | .tagged t a, .tagged u b => t == u && beq a b
  | _, _ => false

def beqItems : List Tree → List Tree → Bool
  | [], [] => true
  | x :: xs, y :: ys => beq x y && beqItems xs ys
  | _, _ => false

def beqEntries : List (Tree × Tree) → List (Tree × Tree) → Bool
  | [], [] => true
  | (key, x) :: xs, (other, y) :: ys => beq key other && beq x y && beqEntries xs ys
  | _, _ => false

end

mutual

theorem eq_of_beq : {a b : Tree} → beq a b = true → a = b
  | .scalar x, b, h => by
      cases b <;> simp only [beq, beq_iff_eq, reduceCtorEq] at h
      rw [h]
  | .sequence xs, b, h => by
      cases b <;> simp only [beq, reduceCtorEq] at h
      rw [eq_of_beqItems h]
  | .mapping xs, b, h => by
      cases b <;> simp only [beq, reduceCtorEq] at h
      rw [eq_of_beqEntries h]
  | .tagged t a, b, h => by
      cases b <;> simp only [beq, Bool.and_eq_true, beq_iff_eq, reduceCtorEq] at h
      rw [h.1, eq_of_beq h.2]

theorem eq_of_beqItems : {xs ys : List Tree} → beqItems xs ys = true → xs = ys
  | [], [], _ => rfl
  | x :: xs, y :: ys, h => by
      simp only [beqItems, Bool.and_eq_true] at h
      rw [eq_of_beq h.1, eq_of_beqItems h.2]

theorem eq_of_beqEntries : {xs ys : List (Tree × Tree)} → beqEntries xs ys = true → xs = ys
  | [], [], _ => rfl
  | (key, x) :: xs, (other, y) :: ys, h => by
      simp only [beqEntries, Bool.and_eq_true] at h
      rw [eq_of_beq h.1.1, eq_of_beq h.1.2, eq_of_beqEntries h.2]

end

end Tree

def readsAs (text : String) (tree : Tree) : Bool :=
  match Tree.read text with
  | .ok found => found.beq tree
  | .error _ => false

theorem read_of_readsAs {text : String} {tree : Tree} (h : readsAs text tree = true) :
    Tree.read text = .ok tree := by
  rw [readsAs] at h
  split at h
  · next hread => rw [hread, Tree.eq_of_beq h]
  · cases h

/-- Reading gives back the tree that was written, with its keys in the old order. -/
def GivesBack (fields : Table Value) : Prop :=
  Tree.read (write fields) = .ok (Tree.ofValue (.object fields))

theorem givesBack_of_write {fields : Table Value} {characters : List Char}
    (hwrite : write fields = String.ofList characters)
    (hread : readsAs (String.ofList characters) (Tree.ofValue (.object fields)) = true) :
    GivesBack fields := by
  rw [GivesBack, hwrite]
  exact read_of_readsAs hread

/-- The characters of a text that is given line by line. -/
def ofLines (lines : List String) : List Char := lines.flatMap fun line => line.toList ++ ['\n']

/-! ## From the YAML tree to the value tree -/

mutual

theorem ofTree_ofValue : {v : Value} → v.WellFormed → ofTree (Tree.ofValue v) = .ok v
  | .null, _ => rfl
  | .bool _, _ => rfl
  | .int _, _ => rfl
  | .float _, _ => rfl
  | .string _, _ => rfl
  | .list items, h => by
      rw [Tree.ofValue, ofTree, ofItems_ofItems h]
      rfl
  | .object ⟨entries⟩, h => by
      rw [Tree.ofValue, ofTree, ofEntries_ofEntries h.2 (t := .empty) h.1]
      rfl

theorem ofItems_ofItems : {items : List Value} → Value.WellFormedItems items →
    ofItems (Tree.ofItems items) = .ok items
  | [], _ => rfl
  | _ :: _, h => by
      rw [Tree.ofItems, ofItems, ofTree_ofValue h.1, ofItems_ofItems h.2]
      rfl

theorem ofEntries_ofEntries : {entries : List (String × Value)} →
    Value.WellFormedEntries entries → {t : Table Value} →
    (t.names ++ entries.map (·.1)).Nodup →
    ofEntries t (Tree.ofEntries entries) = .ok (t.extend entries)
  | [], _, _, _ => by
      rw [Table.extend_nil]
      rfl
  | (name, v) :: rest, h, t, hd => by
      obtain ⟨hnew, hrest⟩ := Table.nodup_names_extend hd v
      rw [Tree.ofEntries, ofEntries, ofTree_ofValue h.1]
      simp only [keyText, bind, Except.bind]
      rw [Table.put_of_not_mem hnew, ofEntries_ofEntries h.2 hrest, Table.extend_extend]
      rfl

end

mutual

/-- Whatever is read gives no name twice: a key that comes again takes the place of the first. -/
theorem wellFormed_of_ofTree : {tree : Tree} → {v : Value} → ofTree tree = .ok v → v.WellFormed
  | .scalar value, v, h => by
      cases value <;> simp only [ofTree, ofScalar] at h <;> cases h <;> trivial
  | .sequence items, v, h => by
      obtain ⟨values, hv, h⟩ := Proofs.bind_eq_ok h
      cases h
      exact wellFormed_of_ofItems hv
  | .mapping entries, v, h => by
      obtain ⟨fields, hf, h⟩ := Proofs.bind_eq_ok h
      cases h
      exact wellFormed_of_ofEntries (t := .empty) ⟨List.nodup_nil, trivial⟩ hf
  | .tagged _ content, v, h => by
      rw [ofTree] at h
      exact wellFormed_of_ofTree h

theorem wellFormed_of_ofItems : {items : List Tree} → {values : List Value} →
    ofItems items = .ok values → Value.WellFormedItems values
  | [], values, h => by
      cases h
      trivial
  | tree :: rest, values, h => by
      obtain ⟨v, hv, h⟩ := Proofs.bind_eq_ok h
      obtain ⟨more, hm, h⟩ := Proofs.bind_eq_ok h
      cases h
      exact ⟨wellFormed_of_ofTree hv, wellFormed_of_ofItems hm⟩

theorem wellFormed_of_ofEntries : {entries : List (Tree × Tree)} → {t fields : Table Value} →
    (Value.object t).WellFormed → ofEntries t entries = .ok fields →
    (Value.object fields).WellFormed
  | [], _, _, ht, h => by
      cases h
      exact ht
  | (key, tree) :: rest, _, _, ht, h => by
      obtain ⟨name, -, h⟩ := Proofs.bind_eq_ok h
      obtain ⟨v, hv, h⟩ := Proofs.bind_eq_ok h
      rw [Value.wellFormed_object_iff] at ht
      refine wellFormed_of_ofEntries (Value.wellFormed_object_iff.mpr ⟨ht.1.put name v, ?_⟩) h
      intro entry he
      rcases Table.mem_entries_put he with he | rfl
      · exact ht.2 entry he
      · exact wellFormed_of_ofTree hv

end

theorem wellFormed_of_load {text : String} {document : Table Value}
    (h : Document.load text = .ok document) : (Value.object document).WellFormed := by
  have hempty : (Value.object .empty).WellFormed := ⟨List.nodup_nil, trivial⟩
  rw [Document.load] at h
  split at h
  · cases h
    exact hempty
  · obtain ⟨v, hv, h⟩ := Proofs.bind_eq_ok h
    have hwell : v.WellFormed := by
      rw [read] at hv
      split at hv
      · cases hv
      · exact wellFormed_of_ofTree hv
    cases v <;> cases h
    · exact hempty
    · exact hwell

/-! ## Written text is not blank -/

theorem isBlank_append (a b : String) :
    Text.isBlank (a ++ b) = (Text.isBlank a && Text.isBlank b) := by
  rw [Text.isBlank, String.toList_append, List.all_append]
  rfl

/-- A text is not blank if its first line is not. -/
theorem isBlank_ofLines {line : String} {rest : List String}
    (h : line.toList.all Text.isWhiteSpace = false) :
    Text.isBlank (String.ofList (ofLines (line :: rest))) = false := by
  rw [Text.isBlank, String.toList_ofList, ofLines, List.flatMap_cons, List.all_append,
    List.all_append, h]
  rfl

/-- There is more than white space on the page. -/
def Page.Shows (p : Page) : Prop := Text.isBlank p.text = false

theorem Page.Shows.append {p : Page} (h : p.Shows) (text : String) (fresh : Bool) :
    Page.Shows ⟨p.text ++ text, fresh⟩ := by
  rw [Page.Shows, isBlank_append, show Text.isBlank p.text = false from h, Bool.false_and]

theorem Page.Shows.line {p : Page} (h : p.Shows) (indent : Nat) : (p.line indent).Shows := by
  refine Page.Shows.append (p := ⟨if p.fresh then p.text else p.text.push '\n', false⟩) ?_ _ _
  split
  · exact h
  · rw [Page.Shows, Text.isBlank, String.toList_push, List.all_append]
    rw [show p.text.toList.all Text.isWhiteSpace = false from h, Bool.false_and]

theorem Page.Shows.startEntry {p : Page} (h : p.Shows) (place : Place) (indent : Nat) :
    (startEntry place indent p).Shows := by
  cases place with
  | behindKey => exact h.line indent
  | behindMark => exact h.append _ _

/-- A key is followed by its mark. -/
theorem shows_writeKey (indent : Nat) (name : String) (p : Page) :
    (writeKey indent name p).1.Shows := by
  have hmark : ∀ q : Page, (q.add ":").Shows := by
    intro q
    rw [Page.Shows, Page.add, isBlank_append, show Text.isBlank ":" = false by decide,
      Bool.and_false]
  rw [writeKey]
  split
  · exact hmark _
  · exact hmark _

mutual

theorem Page.Shows.writeValue {p : Page} (h : p.Shows) (indent : Nat) (place : Place) :
    (v : Value) → (writeValue indent place p v).Shows
  | .null => h.append _ _
  | .bool _ => h.append _ _
  | .int _ => h.append _ _
  | .float _ => h.append _ _
  | .string _ => (h.append _ _).append _ _
  | .list items => by
      rw [Yaml.writeValue]
      split
      · exact h.append _ _
      · exact h.writeItems _ _ items
  | .object ⟨entries⟩ => by
      rw [Yaml.writeValue]
      split
      · exact h.append _ _
      · exact h.writeEntries _ _ entries

theorem Page.Shows.writeItems {p : Page} (h : p.Shows) (indent : Nat) (place : Place) :
    (items : List Value) → (writeItems indent place p items).Shows
  | [] => h
  | item :: rest =>
      (((h.startEntry place indent).append "-" _).writeValue indent .behindMark item).writeItems
        indent .behindKey rest

theorem Page.Shows.writeEntries {p : Page} (h : p.Shows) (indent : Nat) (place : Place) :
    (entries : List (String × Value)) → (writeEntries indent place p entries).Shows
  | [] => h
  | (name, v) :: rest =>
      ((shows_writeKey indent name _).writeValue indent _ v).writeEntries indent .behindKey rest

end

theorem isBlank_write (fields : Table Value) : Text.isBlank (write fields) = false := by
  obtain ⟨entries⟩ := fields
  cases entries with
  | nil => decide
  | cons entry rest =>
      have hentry := (shows_writeKey 0 entry.1 (startEntry .behindKey 0 .blank)).writeValue 0
        (writeKey 0 entry.1 (startEntry .behindKey 0 .blank)).2 entry.2
      exact (hentry.writeEntries 0 .behindKey rest).line 0

theorem load_of_ofTree {text : String} {tree : Tree} {fields : Table Value}
    (hblank : Text.isBlank text = false) (hread : Tree.read text = .ok tree)
    (h : ofTree tree = .ok (.object fields)) : Document.load text = .ok fields := by
  rw [Document.load, hblank, if_neg Bool.false_ne_true, read, hread]
  dsimp only
  rw [h]
  rfl

/-- A text that stands for the tree of a well-formed document is loaded as that document. -/
theorem load_of_read {text : String} {fields : Table Value}
    (hwell : (Value.object fields).WellFormed) (hblank : Text.isBlank text = false)
    (h : Tree.read text = .ok (Tree.ofValue (.object fields))) :
    Document.load text = .ok fields :=
  load_of_ofTree hblank h (ofTree_ofValue hwell)

/-- A document that YAML gives back is loaded as it was. -/
theorem load_write {fields : Table Value} (hwell : (Value.object fields).WellFormed)
    (hback : GivesBack fields) : Document.load (write fields) = .ok fields :=
  load_of_read hwell (isBlank_write fields) hback

end RolePlan.Yaml
