import Mathlib.Data.List.Induction
import RolePlan.Proofs.Table

/-!
# Tables and their histories

What a table holds is told by the events since it was empty: its names are those that were inserted
and not removed later, in the order of the insertions, and the value of a name is what the events
that concern this name have made of it.
-/

namespace RolePlan.Table

universe u v

variable {α : Type u}

def change (t : Table α) (name : String) (f : α → α) : Table α :=
  match t.find? name with
  | some value => t.put name (f value)
  | none => t

inductive Event (α : Type u) where
  | add (name : String) (value : α)
  | put (name : String) (value : α)
  | change (name : String) (f : α → α)
  | remove (test : String → Bool)

namespace Event

/-- The table after the event. An addition that is refused leaves it as it was. -/
def on (t : Table α) : Event α → Table α
  | add name value => (t.add? name value).getD t
  | put name value => t.put name value
  | change name f => t.change name f
  | remove test => t.keep (!test ·)

/-- The name that the event inserts, unless it is there. -/
def inserts? : Event α → Option String
  | add name _ => some name
  | put name _ => some name
  | change _ _ => none
  | remove _ => none

/-- The event removes the name if it is there. -/
def removes : Event α → String → Bool
  | add _ _ => fun _ => false
  | put _ _ => fun _ => false
  | change _ _ => fun _ => false
  | remove test => test

/-- What a name holds after the event, given what it held before. -/
def effect (name : String) (held : Option α) : Event α → Option α
  | add other value => if name = other then held.or (some value) else held
  | put other value => if name = other then some value else held
  | change other f => if name = other then held.map f else held
  | remove test => if test name then none else held

end Event

def after (t : Table α) : Option (Event α) → Table α
  | none => t
  | some e => e.on t

/-- The names that are inserted and not removed later, in the order of the insertions. -/
def surviving : List (Event α) → List String
  | [] => []
  | e :: later =>
      (e.inserts?.toList.filter fun name => !later.any (·.removes name)) ++ surviving later

/-- The table holds what the events have left since it was empty. -/
structure Records (events : List (Event α)) (t : Table α) : Prop where
  distinct : t.Distinct
  /-- A name that is inserted again while it is there keeps its place. -/
  names : t.names = (surviving events).eraseDups
  values : ∀ name, t.find? name = events.foldl (Event.effect name) none

theorem surviving_append (events : List (Event α)) (e : Event α) :
    surviving (events ++ [e]) = (surviving events).filter (!e.removes ·) ++ e.inserts?.toList := by
  induction events with
  | nil => simp [surviving]
  | cons first rest ih =>
      simp only [List.cons_append, surviving, ih, List.any_append, List.any_cons, List.any_nil,
        Bool.or_false, List.filter_append, List.filter_filter, List.append_assoc, Bool.not_or,
        Bool.and_comm]

/-! ## Names -/

theorem eraseDups_append_singleton (names : List String) (name : String) :
    (names ++ [name]).eraseDups =
      if name ∈ names then names.eraseDups else names.eraseDups ++ [name] := by
  rw [List.eraseDups_append]
  by_cases h : name ∈ names
  · simp [List.removeAll, h]
  · simp [List.removeAll, h, List.eraseDups_cons]

theorem eraseDups_filter (names : List String) (test : String → Bool) :
    (names.filter test).eraseDups = names.eraseDups.filter test := by
  induction names using List.reverseRecOn with
  | nil => rfl
  | append_singleton rest name ih =>
      rw [eraseDups_append_singleton, List.filter_append, List.filter_singleton]
      cases ht : test name with
      | true =>
          rw [cond_true, eraseDups_append_singleton, ih]
          by_cases hm : name ∈ rest <;> simp [hm, ht]
      | false =>
          rw [cond_false, List.append_nil, ih]
          by_cases hm : name ∈ rest <;> simp [hm, ht]

theorem names_change (t : Table α) (name : String) (f : α → α) :
    (t.change name f).names = t.names := by
  rw [change]
  split
  · next h => exact names_put_of_mem (mem_names_of_find? h) _
  · rfl

/-- An inserted name goes to the end, unless it is there; no name is removed with it. -/
theorem names_on_of_inserts {e : Event α} {name : String} (h : e.inserts? = some name)
    (t : Table α) :
    (e.on t).names = (if name ∈ t.names then t.names else t.names ++ [name]) ∧
      ∀ other, e.removes other = false := by
  cases e with
  | add other value =>
      obtain rfl : other = name := Option.some.inj h
      refine ⟨?_, fun _ => rfl⟩
      split
      · next hm => rw [Event.on, add?_of_mem hm, Option.getD_none]
      · next hm => rw [Event.on, add?_of_not_mem hm, Option.getD_some, names_extend]; rfl
  | put other value =>
      obtain rfl : other = name := Option.some.inj h
      refine ⟨?_, fun _ => rfl⟩
      split
      · next hm => rw [Event.on, names_put_of_mem hm]
      · next hm => rw [Event.on, put_of_not_mem hm, names_extend]; rfl
  | change other f => cases h
  | remove test => cases h

theorem names_on_of_none {e : Event α} (h : e.inserts? = none) (t : Table α) :
    (e.on t).names = t.names.filter (!e.removes ·) := by
  cases e with
  | add name value => cases h
  | put name value => cases h
  | change name f =>
      have hall : t.names.filter (fun _ => true) = t.names :=
        List.filter_eq_self.mpr fun _ _ => rfl
      exact (names_change t name f).trans hall.symm
  | remove test => exact names_keep _ t

/-! ## Values -/

theorem find?_change (t : Table α) (name : String) (f : α → α) (other : String) :
    (t.change name f).find? other =
      if other = name then (t.find? other).map f else t.find? other := by
  rw [change]
  split
  · next value h =>
      rw [find?_put]
      split
      · next heq => rw [heq, h]; rfl
      · rfl
  · next h =>
      split
      · next heq => rw [heq, h]; rfl
      · rfl

theorem find?_on (t : Table α) (e : Event α) (name : String) :
    (e.on t).find? name = e.effect name (t.find? name) := by
  cases e with
  | add other value =>
      by_cases hm : other ∈ t.names
      · obtain ⟨held, hheld⟩ := exists_find? hm
        simp only [Event.on, add?_of_mem hm, Option.getD_none, Event.effect]
        split
        · next heq => rw [heq, hheld, Option.some_or]
        · rfl
      · simp only [Event.on, add?_of_not_mem hm, Option.getD_some, ← put_of_not_mem hm, find?_put,
          Event.effect]
        split
        · next heq => rw [heq, find?_eq_none_iff.mpr hm, Option.none_or]
        · rfl
  | put other value => exact find?_put t other value name
  | change other f => exact find?_change t other f name
  | remove test =>
      cases ht : test name with
      | false =>
          rw [Event.on, find?_keep (by rw [ht]; rfl), Event.effect, ht, if_neg Bool.false_ne_true]
      | true =>
          have hgone : name ∉ (t.keep (!test ·)).names := by
            rw [names_keep, List.mem_filter, ht]
            exact fun h => Bool.false_ne_true h.2
          rw [Event.on, find?_eq_none_iff.mpr hgone, Event.effect, ht, if_pos rfl]

theorem find?_after (t : Table α) (e : Option (Event α)) (name : String) :
    (t.after e).find? name = e.elim (t.find? name) (Event.effect name (t.find? name)) := by
  cases e with
  | none => rfl
  | some e => exact find?_on t e name

/-! ## Histories -/

theorem Distinct.on {t : Table α} (h : t.Distinct) (e : Event α) : (e.on t).Distinct := by
  cases e with
  | add name value =>
      by_cases hm : name ∈ t.names
      · rwa [Event.on, add?_of_mem hm]
      · rw [Event.on, add?_of_not_mem hm]
        exact h.extend hm value
  | put name value => exact h.put name value
  | change name f => rwa [Event.on, Distinct, names_change]
  | remove test => exact h.keep _

theorem records_empty : Records [] (empty : Table α) :=
  ⟨List.nodup_nil, rfl, fun _ => rfl⟩

section Records

variable {events : List (Event α)} {t : Table α}

theorem Records.on (h : Records events t) (e : Event α) : Records (events ++ [e]) (e.on t) := by
  refine ⟨h.distinct.on e, ?_, fun name => ?_⟩
  · cases hinserts : e.inserts? with
    | none =>
        rw [names_on_of_none hinserts, surviving_append, hinserts, h.names, Option.toList_none,
          List.append_nil, eraseDups_filter]
    | some name =>
        obtain ⟨hnames, hremoves⟩ := names_on_of_inserts hinserts t
        have hall : (surviving events).filter (!e.removes ·) = surviving events :=
          List.filter_eq_self.mpr fun other _ => by rw [hremoves other]; rfl
        rw [hnames, surviving_append, hinserts, hall, Option.toList_some,
          eraseDups_append_singleton, h.names]
        simp only [List.mem_eraseDups]
  · rw [find?_on, List.foldl_append, h.values name]
    rfl

/-- One more of the things that may or may not be an event of the table. -/
theorem Records.after {β : Type v} {ops : List β} {f : β → Option (Event α)}
    (h : Records (ops.filterMap f) t) (op : β) :
    Records ((ops ++ [op]).filterMap f) (t.after (f op)) := by
  rw [List.filterMap_append]
  cases hf : f op with
  | none =>
      rw [List.filterMap_cons_none hf, List.filterMap_nil, List.append_nil]
      exact h
  | some e =>
      rw [List.filterMap_cons_some hf, List.filterMap_nil]
      exact h.on e

/-- The events of a history, carried out one after another. -/
theorem records_foldl (events : List (Event α)) :
    Records events (events.foldl Event.on empty) := by
  induction events using List.reverseRecOn with
  | nil => exact records_empty
  | append_singleton rest e ih =>
      rw [List.foldl_append]
      exact ih.on e

/-- What is put in again stays in its place; what was removed before comes last. -/
example : ([.add "a" 1, .add "b" 2, .add "c" 3, .remove (· == "a"), .put "b" 4, .add "c" 5,
    .add "a" 6].foldl Event.on empty).entries = [("b", 4), ("c", 3), ("a", 6)] := by
  decide +kernel

/-- A table is what comes of putting in its own entries. -/
theorem Distinct.records (h : t.Distinct) :
    Records (t.entries.map fun entry => .put entry.1 entry.2) t := by
  have hall := records_foldl (t.entries.map fun entry => Event.put entry.1 entry.2)
  rw [List.foldl_map] at hall
  have hsame : ofList t.entries = t := ofList_of_nodup h
  change Records _ (ofList t.entries) at hall
  rwa [hsame] at hall

/-- The entries are those that are found under their names. -/
theorem Distinct.find?_eq_some_iff (h : t.Distinct) {name : String} {value : α} :
    t.find? name = some value ↔ (name, value) ∈ t.entries :=
  ⟨mem_of_find?, find?_of_mem h⟩

end Records

end RolePlan.Table
