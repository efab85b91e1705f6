/-!
# Insertion-ordered tables

A table keeps its entries in the order in which their names were first given. Two insertion
policies exist: `add?` refuses a name that is taken, `put` replaces the value in its old place.
Removal keeps the order of the rest.
-/

namespace RolePlan

universe u v

/-- Named values in the order of their insertion. -/
structure Table (α : Type u) where
  entries : List (String × α)
  deriving Repr

namespace Table

variable {α : Type u} {β : Type v}

def empty : Table α := ⟨[]⟩

instance : Inhabited (Table α) := ⟨empty⟩

def names (t : Table α) : List String := t.entries.map (·.1)

def size (t : Table α) : Nat := t.entries.length

def isEmpty (t : Table α) : Bool := t.entries.isEmpty

/-- No name occurs twice. Every table built by `add?`, `put` and removals is of this kind. -/
def Distinct (t : Table α) : Prop := t.names.Nodup

def find? (t : Table α) (name : String) : Option α := t.entries.lookup name

def contains (t : Table α) (name : String) : Bool := t.entries.any (·.1 == name)

def add? (t : Table α) (name : String) (value : α) : Option (Table α) :=
  if t.contains name then none else some ⟨t.entries ++ [(name, value)]⟩

def putEntries (name : String) (value : α) : List (String × α) → List (String × α)
  | [] => [(name, value)]
  | entry :: rest =>
      if entry.1 == name then (name, value) :: rest else entry :: putEntries name value rest

/-- Replaces the value of a known name in its place; a new name goes to the end. -/
def put (t : Table α) (name : String) (value : α) : Table α := ⟨putEntries name value t.entries⟩

def keep (test : String → Bool) (t : Table α) : Table α := ⟨t.entries.filter (test ·.1)⟩

def erase (t : Table α) (name : String) : Table α := t.keep (· != name)

def map (f : α → β) (t : Table α) : Table β := ⟨t.entries.map fun entry => (entry.1, f entry.2)⟩

/-- Puts one entry after another: a later value takes an earlier one's place. -/
def ofList (entries : List (String × α)) : Table α :=
  entries.foldl (fun t entry => t.put entry.1 entry.2) empty

def take (t : Table α) (name : String) : Option α × Table α := (t.find? name, t.erase name)

/-- Takes the named entries away one after another: those that were there, and the rest. -/
def takeAll (t : Table α) : List String → Table α × Table α
  | [] => (empty, t)
  | name :: names =>
      let (value, rest) := t.take name
      let (taken, rest) := rest.takeAll names
      (⟨value.toList.map (name, ·) ++ taken.entries⟩, rest)

/-- The entries whose names pass the test, and the rest. The names are collected first. -/
def split (test : String → Bool) (t : Table α) : Table α × Table α :=
  t.takeAll (t.names.filter test)

/-- Equality up to order, given an equality of values. -/
def sameBy (same : α → α → Bool) (t u : Table α) : Bool :=
  t.size == u.size &&
    t.entries.all fun entry => (u.find? entry.1).any (same entry.2)

def eraseBySwap (t : Table α) (name : String) : Table α :=
  match t.entries.span (·.1 != name) with
  | (_, []) => t
  | (before, _ :: after) =>
      match after.getLast? with
      | none => ⟨before⟩
      | some final => ⟨before ++ final :: after.dropLast⟩

@[simp] theorem names_empty : (empty : Table α).names = [] := rfl

theorem contains_iff_mem_names {t : Table α} {name : String} :
    t.contains name = true ↔ name ∈ t.names := by
  simp [contains, names]

theorem names_map (f : α → β) (t : Table α) : (t.map f).names = t.names := by
  simp [names, map, Function.comp_def]

theorem names_keep (test : String → Bool) (t : Table α) :
    (t.keep test).names = t.names.filter test := by
  simp [names, keep, List.filter_map, Function.comp_def]

end Table

end RolePlan
