import RolePlan.Text.Invisible
import RolePlan.Yaml.Read

/-!
# Documents

A template or environment text is one mapping of sections; a text without content is the empty
mapping. The functions here read the fields that every kind of section shares. A field that is
null counts as missing.
-/

namespace RolePlan.Document

/-- The sections of a text. -/
def load (text : String) : Except Error (Table Value) :=
  if Text.isBlank text then .ok .empty
  else do
    match ← Yaml.read text with
    | .null => return .empty
    | .object sections => return sections
    | other => throw (.document (.notMapping other.kind))

def unknownSections (known : List String) (document : Table Value) : List String :=
  document.names.filter (!known.contains ·)

/-- The entries of a section; a section that is missing or null has none. -/
def entries (document : Table Value) (which : Section) : Except Error (List (String × Value)) :=
  match document.find? which.name with
  | none | some .null => .ok []
  | some (.object fields) => .ok fields.entries
  | some other => .error (.document (.sectionShape which .mapping other.kind))

def items (document : Table Value) (which : Section) : Except Error (List Value) :=
  match document.find? which.name with
  | none | some .null => .ok []
  | some (.list items) => .ok items
  | some other => .error (.document (.sectionShape which .list other.kind))

structure Entry where
  which : Section
  name : String
  fields : Table Value

namespace Entry

/-- An entry must be a mapping. -/
def of (which : Section) (name : String) (value : Value) : Except Error Entry :=
  match value with
  | .object fields => .ok ⟨which, name, fields⟩
  | other => .error (.invalidField which name "<entry>" (.shape .mapping other.kind))

variable (e : Entry)

def invalid {α : Type} (field : String) (fault : FieldFault) : Except Error α :=
  .error (.invalidField e.which e.name field fault)

def missing {α : Type} (field : String) : Except Error α :=
  .error (.missingField e.which e.name field)

def value? (field : String) : Option Value :=
  match e.fields.find? field with
  | none | some .null => none
  | some value => some value

def text? (field : String) : Except Error (Option String) :=
  match e.value? field with
  | none => .ok none
  | some value =>
      match value.scalarText? with
      | some text => .ok (some text)
      | none => e.invalid field (.shape .string value.kind)

def text (field : String) : Except Error String := do
  match ← e.text? field with
  | some text => return text
  | none => e.missing field

def bool? (field : String) : Except Error (Option Bool) :=
  match e.value? field with
  | none => .ok none
  | some (.bool b) => .ok (some b)
  | some other => e.invalid field (.shape .boolean other.kind)

def list (field : String) : Except Error (List Value) :=
  match e.value? field with
  | none => .ok []
  | some (.list items) => .ok items
  | some other => e.invalid field (.shape .list other.kind)

def mapping (field : String) : Except Error (List (String × Value)) :=
  match e.value? field with
  | none => .ok []
  | some (.object fields) => .ok fields.entries
  | some other => e.invalid field (.shape .mapping other.kind)

end Entry

end RolePlan.Document
