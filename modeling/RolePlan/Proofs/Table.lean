import Mathlib.Data.List.Basic
import Mathlib.Data.List.TakeDrop
import RolePlan.Table

/-!
# Laws of insertion-ordered tables

Adding a fresh name appends it, filtering by name commutes with appending and with replacing in
place, and a table is left as it is by a filter exactly when all of its names pass.
-/

namespace RolePlan.Table

universe u v

variable {α : Type u} {β : Type v}

instance (t : Table α) : Decidable t.Distinct := inferInstanceAs (Decidable t.names.Nodup)

@[simp] theorem entries_empty : (empty : Table α).entries = [] := rfl

def extend (t : Table α) (entries : List (String × α)) : Table α := ⟨t.entries ++ entries⟩

@[simp] theorem extend_nil (t : Table α) : t.extend [] = t := by simp [extend]

theorem extend_extend (t : Table α) (xs ys : List (String × α)) :
    (t.extend xs).extend ys = t.extend (xs ++ ys) := by
  simp [extend]

@[simp] theorem names_extend (t : Table α) (entries : List (String × α)) :
    (t.extend entries).names = t.names ++ entries.map (·.1) := by
  simp [names, extend]

theorem contains_eq_false_iff {t : Table α} {name : String} :
    t.contains name = false ↔ name ∉ t.names := by
  rw [← contains_iff_mem_names, Bool.not_eq_true]

theorem forall_mem_extend {P : String × α → Prop} {t : Table α} (h : ∀ entry ∈ t.entries, P entry)
    {entry : String × α} (hentry : P entry) : ∀ other ∈ (t.extend [entry]).entries, P other := by
  rw [extend, List.forall_mem_append]
  exact ⟨h, by simpa using hentry⟩

/-! ## Adding -/

theorem add?_of_not_mem {t : Table α} {name : String} (h : name ∉ t.names) (value : α) :
    t.add? name value = some (t.extend [(name, value)]) := by
  simp [add?, contains_eq_false_iff.mpr h, extend]

theorem add?_of_mem {t : Table α} {name : String} (h : name ∈ t.names) (value : α) :
    t.add? name value = none := by
  simp [add?, contains_iff_mem_names.mpr h]

/-- Of names that are all different, the first that is not yet in a table can be added to it, and
those after it remain different from all that is there. -/
theorem nodup_names_extend {t : Table α} {name : String} {names : List String}
    (h : (t.names ++ name :: names).Nodup) (value : α) :
    name ∉ t.names ∧ ((t.extend [(name, value)]).names ++ names).Nodup := by
  refine ⟨fun hm => ?_, by simpa using h⟩
  exact (List.nodup_append.mp h).2.2 name hm name List.mem_cons_self rfl

/-! ## Replacing -/

private theorem putEntries_of_not_mem {name : String} {entries : List (String × α)}
    (h : name ∉ entries.map (·.1)) (value : α) :
    putEntries name value entries = entries ++ [(name, value)] := by
  induction entries with
  | nil => rfl
  | cons entry rest ih =>
      simp only [List.map_cons, List.mem_cons, not_or] at h
      have hne : (entry.1 == name) = false := by simpa using fun he => h.1 he.symm
      simp [putEntries, hne, ih h.2]

theorem put_of_not_mem {t : Table α} {name : String} (h : name ∉ t.names) (value : α) :
    t.put name value = t.extend [(name, value)] := by
  simp [put, extend, putEntries_of_not_mem h]

private theorem map_fst_putEntries (name : String) (value : α) (entries : List (String × α)) :
    (putEntries name value entries).map (·.1) =
      if name ∈ entries.map (·.1) then entries.map (·.1) else entries.map (·.1) ++ [name] := by
  induction entries with
  | nil => simp [putEntries]
  | cons entry rest ih =>
      by_cases h : entry.1 = name
      · simp [putEntries, h]
      · have hne : name ≠ entry.1 := fun he => h he.symm
        simp only [putEntries, beq_eq_false_iff_ne.mpr h, Bool.false_eq_true, ↓reduceIte,
          List.map_cons, ih, List.mem_cons, hne, false_or]
        split <;> simp

theorem names_put_of_mem {t : Table α} {name : String} (h : name ∈ t.names) (value : α) :
    (t.put name value).names = t.names := by
  exact (map_fst_putEntries name value t.entries).trans (if_pos h)

theorem Distinct.extend {t : Table α} (h : t.Distinct) {name : String} (hnew : name ∉ t.names)
    (value : α) : (t.extend [(name, value)]).Distinct := by
  rw [Distinct, names_extend]
  refine List.nodup_append.mpr ⟨h, by simp, fun a ha b hb he => ?_⟩
  rw [List.map_singleton, List.mem_singleton] at hb
  exact hnew ((he.trans hb : a = name) ▸ ha)

/-- What `put` leaves is one of the old entries or the new one. -/
theorem mem_entries_put {t : Table α} {name : String} {value : α} {entry : String × α}
    (h : entry ∈ (t.put name value).entries) : entry ∈ t.entries ∨ entry = (name, value) := by
  obtain ⟨entries⟩ := t
  simp only [put] at h ⊢
  induction entries with
  | nil => simpa [putEntries] using h
  | cons first rest ih =>
      simp only [putEntries] at h
      split at h
      · rcases List.mem_cons.mp h with h | h
        · exact .inr h
        · exact .inl (List.mem_cons_of_mem first h)
      · rcases List.mem_cons.mp h with h | h
        · exact .inl (h ▸ List.mem_cons_self)
        · exact (ih h).imp_left (List.mem_cons_of_mem first)

theorem Distinct.put {t : Table α} (h : t.Distinct) (name : String) (value : α) :
    (t.put name value).Distinct := by
  by_cases hm : name ∈ t.names
  · rwa [Distinct, names_put_of_mem hm]
  · rw [put_of_not_mem hm]
    exact h.extend hm value

/-- Entries of different names make up a table as they are. -/
theorem ofList_of_nodup {entries : List (String × α)} (h : (entries.map (·.1)).Nodup) :
    ofList entries = ⟨entries⟩ := by
  suffices hgo : ∀ t : Table α, (t.names ++ entries.map (·.1)).Nodup →
      entries.foldl (fun t entry => t.put entry.1 entry.2) t = t.extend entries from
    hgo empty (by simpa using h)
  clear h
  induction entries with
  | nil => simp
  | cons entry rest ih =>
      intro t ht
      obtain ⟨hnew, hrest⟩ := nodup_names_extend ht entry.2
      rw [List.foldl_cons, put_of_not_mem hnew, ih _ hrest, extend_extend]
      rfl

/-- What holds of all given values holds of those in the table made of them. -/
theorem ofList_keeps {P : α → Prop} {entries : List (String × α)}
    (h : ∀ entry ∈ entries, P entry.2) :
    (ofList entries).Distinct ∧ ∀ entry ∈ (ofList entries).entries, P entry.2 := by
  suffices hgo : ∀ t : Table α, t.Distinct ∧ (∀ entry ∈ t.entries, P entry.2) →
      let u := entries.foldl (fun t entry => t.put entry.1 entry.2) t
      u.Distinct ∧ ∀ entry ∈ u.entries, P entry.2 from
    hgo empty ⟨List.nodup_nil, fun _ he => absurd he List.not_mem_nil⟩
  induction entries with
  | nil => exact fun t ht => ht
  | cons entry rest ih =>
      intro t ht
      refine ih (fun other ho => h other (List.mem_cons_of_mem entry ho)) _ ⟨ht.1.put _ _, ?_⟩
      intro other ho
      rcases mem_entries_put ho with ho | rfl
      · exact ht.2 other ho
      · exact h entry List.mem_cons_self

/-! ## Filtering -/

@[simp] theorem keep_extend (test : String → Bool) (t : Table α) (entries : List (String × α)) :
    (t.extend entries).keep test = (t.keep test).extend (entries.filter (test ·.1)) := by
  simp [keep, extend]

theorem keep_keep (test other : String → Bool) (t : Table α) :
    (t.keep test).keep other = t.keep fun name => test name && other name := by
  simp [keep, Bool.and_comm]

theorem keep_comm (test other : String → Bool) (t : Table α) :
    (t.keep test).keep other = (t.keep other).keep test := by
  rw [keep_keep, keep_keep]
  congr 1
  funext name
  exact Bool.and_comm _ _

theorem keep_eq_self {test : String → Bool} {t : Table α} (h : ∀ name ∈ t.names, test name = true) :
    t.keep test = t := by
  obtain ⟨entries⟩ := t
  simp only [keep, mk.injEq]
  exact List.filter_eq_self.mpr fun entry he => h entry.1 (List.mem_map_of_mem he)

theorem keep_eq_self_iff {test : String → Bool} {t : Table α} :
    t.keep test = t ↔ ∀ name ∈ t.names, test name = true := by
  refine ⟨fun h name hn => ?_, keep_eq_self⟩
  rw [← h, names_keep] at hn
  exact (List.mem_filter.mp hn).2

theorem keep_put_of_pos {test : String → Bool} {name : String} (h : test name = true)
    (t : Table α) (value : α) : (t.put name value).keep test = (t.keep test).put name value := by
  obtain ⟨entries⟩ := t
  simp only [keep, put, mk.injEq]
  induction entries with
  | nil => simp [putEntries, h]
  | cons entry rest ih =>
      by_cases he : entry.1 = name
      · simp [putEntries, he, h]
      · by_cases ht : test entry.1 = true
        · simp [putEntries, he, ht, ih]
        · simp [putEntries, he, ht, ih]

theorem keep_put_of_neg {test : String → Bool} {name : String} (h : test name = false)
    (t : Table α) (value : α) : (t.put name value).keep test = t.keep test := by
  obtain ⟨entries⟩ := t
  simp only [keep, put, mk.injEq]
  induction entries with
  | nil => simp [putEntries, h]
  | cons entry rest ih =>
      by_cases he : entry.1 = name
      · simp [putEntries, he, h]
      · simp [putEntries, he, List.filter_cons, ih]

@[simp] theorem keep_empty (test : String → Bool) : (empty : Table α).keep test = empty := rfl

theorem Distinct.keep {t : Table α} (h : t.Distinct) (test : String → Bool) :
    (t.keep test).Distinct := by
  rw [Distinct, names_keep]
  exact List.Pairwise.filter test h

theorem forall_mem_keep {P : String × α → Prop} {t : Table α} (h : ∀ entry ∈ t.entries, P entry)
    (test : String → Bool) : ∀ entry ∈ (t.keep test).entries, P entry :=
  fun entry he => h entry (List.mem_filter.mp he).1

theorem keep_congr {test other : String → Bool} {t : Table α}
    (h : ∀ name ∈ t.names, test name = other name) : t.keep test = t.keep other := by
  obtain ⟨entries⟩ := t
  simp only [keep, mk.injEq]
  exact List.filter_congr fun entry he => h entry.1 (List.mem_map_of_mem he)

/-! ## Taking away one after another -/

theorem takeAll_snd (t : Table α) (names : List String) :
    (t.takeAll names).2 = t.keep (!names.contains ·) := by
  induction names generalizing t with
  | nil => exact (keep_eq_self fun _ _ => rfl).symm
  | cons name rest ih =>
      calc ((t.erase name).takeAll rest).2
          = (t.keep (· != name)).keep (!rest.contains ·) := ih (t.erase name)
        _ = t.keep (!(name :: rest).contains ·) := by
            rw [keep_keep]
            congr 1
            funext other
            rw [List.contains_cons, Bool.not_or, bne]

/-- What is left by taking the names away one after another has been filtered. -/
theorem split_snd (test : String → Bool) (t : Table α) : (t.split test).2 = t.keep (!test ·) := by
  rw [split, takeAll_snd]
  refine keep_congr fun name hm => congrArg (!·) ?_
  rw [Bool.eq_iff_iff, List.contains_iff_mem, List.mem_filter]
  exact and_iff_right hm

/-! ## The place of an entry -/

section Place

variable {t : Table α} {before after : List (String × α)} {name : String} {old : α}

/-- An entry is the only one of its name. -/
theorem not_mem_beside (ht : t.Distinct) (h : t.entries = before ++ (name, old) :: after) :
    name ∉ before.map (·.1) ∧ name ∉ after.map (·.1) := by
  rw [Distinct, names, h, List.map_append, List.map_cons] at ht
  obtain ⟨-, hafter, hapart⟩ := List.nodup_append.mp ht
  exact ⟨fun hm => hapart name hm name List.mem_cons_self rfl, (List.nodup_cons.mp hafter).1⟩

theorem mem_names_of_entries (h : t.entries = before ++ (name, old) :: after) :
    name ∈ t.names := by
  rw [names, h, List.map_append]
  exact List.mem_append_right _ List.mem_cons_self

theorem put_of_entries (ht : t.Distinct) (h : t.entries = before ++ (name, old) :: after)
    (value : α) : t.put name value = ⟨before ++ (name, value) :: after⟩ := by
  obtain ⟨hbefore, -⟩ := not_mem_beside ht h
  clear ht
  obtain ⟨entries⟩ := t
  obtain rfl : entries = before ++ (name, old) :: after := h
  simp only [put, mk.injEq]
  induction before with
  | nil => simp [putEntries]
  | cons entry rest ih =>
      rw [List.map_cons, List.mem_cons, not_or] at hbefore
      have hne : (entry.1 == name) = false := beq_eq_false_iff_ne.mpr (Ne.symm hbefore.1)
      simp [putEntries, hne, ih hbefore.2]

theorem erase_of_not_mem (h : name ∉ t.names) : t.erase name = t :=
  keep_eq_self fun _ ho => bne_iff_ne.mpr fun heq => h (heq ▸ ho)

theorem erase_of_entries (ht : t.Distinct) (h : t.entries = before ++ (name, old) :: after) :
    t.erase name = ⟨before ++ after⟩ := by
  obtain ⟨hbefore, hafter⟩ := not_mem_beside ht h
  have hall {others : List (String × α)} (hnew : name ∉ others.map Prod.fst) :
      others.filter (·.1 != name) = others :=
    congrArg entries (erase_of_not_mem (t := ⟨others⟩) hnew)
  rw [erase, keep, h, List.filter_append, List.filter_cons_of_neg (by simp), hall hbefore,
    hall hafter]

end Place

/-! ## Moving the last entry -/

theorem span_ne_of_not_mem {name : String} {entries : List (String × α)}
    (h : name ∉ entries.map (·.1)) (rest : List (String × α)) :
    (entries ++ rest).span (·.1 != name) =
      (entries ++ rest.takeWhile (·.1 != name), rest.dropWhile (·.1 != name)) := by
  have hall : ∀ entry ∈ entries, (entry.1 != name) = true :=
    fun entry he => bne_iff_ne.mpr fun hn => h (hn ▸ List.mem_map_of_mem he)
  rw [List.span_eq_takeWhile_dropWhile, List.takeWhile_append_of_pos hall,
    List.dropWhile_append_of_pos hall]

theorem eraseBySwap_of_not_mem {t : Table α} {name : String} (h : name ∉ t.names) :
    t.eraseBySwap name = t := by
  have hspan := span_ne_of_not_mem h []
  rw [List.append_nil] at hspan
  rw [eraseBySwap, hspan]
  rfl

/-- An entry that comes last is taken away without a move. -/
theorem eraseBySwap_extend {t : Table α} {name : String} (h : name ∉ t.names) (value : α) :
    (t.extend [(name, value)]).eraseBySwap name = t := by
  rw [eraseBySwap, extend, span_ne_of_not_mem h]
  simp

/-- But for the order, it is all the same how the entry of a name is taken away. -/
theorem perm_eraseBySwap {t : Table α} (ht : t.Distinct) (name : String) :
    (t.eraseBySwap name).entries.Perm (t.erase name).entries := by
  by_cases hm : name ∈ t.names
  · obtain ⟨found, hfound, rfl⟩ := List.mem_map.mp hm
    obtain ⟨before, after, hsplit⟩ := List.append_of_mem hfound
    obtain ⟨hbefore, -⟩ := not_mem_beside ht hsplit
    rw [erase_of_entries ht hsplit, eraseBySwap, hsplit, span_ne_of_not_mem hbefore]
    simp only [List.takeWhile_cons, List.dropWhile_cons, bne_self_eq_false, Bool.false_eq_true,
      if_false, List.append_nil]
    cases hlast : after.getLast? with
    | none => rw [List.getLast?_eq_none_iff.mp hlast, List.append_nil]
    | some final =>
        have hmoved : (final :: after.dropLast).Perm (after.dropLast ++ [final]) :=
          (List.perm_append_singleton final after.dropLast).symm
        rw [List.dropLast_append_getLast? final hlast] at hmoved
        exact hmoved.append_left before
  · rw [eraseBySwap_of_not_mem hm, erase_of_not_mem hm]

/-! ## Finding -/

theorem mem_of_find? {t : Table α} {name : String} {value : α} (h : t.find? name = some value) :
    (name, value) ∈ t.entries := by
  obtain ⟨entries⟩ := t
  rw [find?] at h
  induction entries with
  | nil => cases h
  | cons entry rest ih =>
      obtain ⟨key, first⟩ := entry
      rw [List.lookup_cons] at h
      cases hk : name == key with
      | true =>
          rw [hk] at h
          cases h
          rw [beq_iff_eq.mp hk]
          exact List.mem_cons_self
      | false =>
          rw [hk] at h
          exact List.mem_cons_of_mem _ (ih h)

theorem find?_of_entries {t : Table α} (h : t.Distinct) {before after : List (String × α)}
    {name : String} {value : α} (hsplit : t.entries = before ++ (name, value) :: after) :
    t.find? name = some value := by
  obtain ⟨hnew, -⟩ := not_mem_beside h hsplit
  rw [find?, hsplit, List.lookup_eq_some_iff]
  exact ⟨before, after, rfl, fun entry he =>
    bne_iff_ne.mpr fun heq => hnew (heq ▸ List.mem_map_of_mem he)⟩

/-- In a table of different names every entry is found under its name. -/
theorem find?_of_mem {t : Table α} (h : t.Distinct) {name : String} {value : α}
    (hm : (name, value) ∈ t.entries) : t.find? name = some value := by
  obtain ⟨before, after, hsplit⟩ := List.append_of_mem hm
  exact find?_of_entries h hsplit

theorem find?_eq_none_iff {t : Table α} {name : String} :
    t.find? name = none ↔ name ∉ t.names := by
  rw [find?, List.lookup_eq_none_iff, names, List.mem_map]
  constructor
  · rintro h ⟨entry, he, rfl⟩
    simpa using h entry he
  · exact fun h entry he => bne_iff_ne.mpr fun heq => h ⟨entry, he, heq.symm⟩

theorem exists_find? {t : Table α} {name : String} (h : name ∈ t.names) :
    ∃ value, t.find? name = some value :=
  Option.ne_none_iff_exists'.mp fun hnone => find?_eq_none_iff.mp hnone h

theorem mem_names_of_find? {t : Table α} {name : String} {value : α}
    (h : t.find? name = some value) : name ∈ t.names :=
  List.mem_map_of_mem (mem_of_find? h)

theorem find?_extend (t : Table α) (entries : List (String × α)) (name : String) :
    (t.extend entries).find? name = (t.find? name).or (entries.lookup name) :=
  List.lookup_append

theorem lookup_of_not_mem {entries : List (String × α)} {name : String}
    (h : name ∉ entries.map (·.1)) : entries.lookup name = none :=
  (find?_eq_none_iff (t := ⟨entries⟩)).mpr h

private theorem lookup_cons_eq (other key : String) (first : α)
    (rest : List (String × α)) :
    ((key, first) :: rest).lookup other =
      if other = key then some first else rest.lookup other := by
  rw [List.lookup_cons]
  by_cases h : other = key
  · rw [if_pos h, beq_iff_eq.mpr h]
  · rw [if_neg h, beq_eq_false_iff_ne.mpr h]

/-- What is found in a table once a value was put into it. -/
theorem find?_put (t : Table α) (name : String) (value : α) (other : String) :
    (t.put name value).find? other = if other = name then some value else t.find? other := by
  obtain ⟨entries⟩ := t
  simp only [put, find?]
  induction entries with
  | nil => rw [putEntries, lookup_cons_eq]
  | cons entry rest ih =>
      obtain ⟨key, first⟩ := entry
      by_cases hk : key = name
      · simp only [putEntries, hk, beq_self_eq_true, if_true, lookup_cons_eq]
        split <;> rfl
      · rw [putEntries, if_neg (by simpa using hk), lookup_cons_eq, lookup_cons_eq, ih]
        by_cases h : other = key
        · rw [if_pos h, if_pos h, if_neg (h ▸ hk)]
        · rw [if_neg h, if_neg h]

theorem find?_keep {test : String → Bool} {name : String} (h : test name = true) (t : Table α) :
    (t.keep test).find? name = t.find? name := by
  obtain ⟨entries⟩ := t
  simp only [keep, find?]
  induction entries with
  | nil => rfl
  | cons entry rest ih =>
      by_cases hk : name = entry.1
      · rw [List.filter_cons_of_pos (hk ▸ h), lookup_cons_eq, lookup_cons_eq, if_pos hk, if_pos hk]
      · rw [lookup_cons_eq, if_neg hk, ← ih, List.filter_cons]
        split
        · rw [lookup_cons_eq, if_neg hk]
        · rfl

/-- What is taken away under different names is what was found under them. -/
theorem takeAll_fst (t : Table α) {names : List String} (h : names.Nodup) :
    (t.takeAll names).1.entries =
      names.filterMap fun name => (t.find? name).map fun value => (name, value) := by
  induction names generalizing t with
  | nil => rfl
  | cons name rest ih =>
      obtain ⟨hnew, hrest⟩ := List.nodup_cons.mp h
      have hfind : ∀ other ∈ rest, (t.erase name).find? other = t.find? other := by
        intro other ho
        refine find?_keep ?_ t
        exact bne_iff_ne.mpr fun heq => hnew (heq ▸ ho)
      have htaken : ((t.erase name).takeAll rest).1.entries =
          rest.filterMap fun other => (t.find? other).map fun value => (other, value) := by
        rw [ih _ hrest]
        exact List.filterMap_congr fun other ho => by rw [hfind other ho]
      simp only [takeAll, take, htaken]
      cases hname : t.find? name <;> simp [hname]

/-- What is taken away passes the test, and is in its old order. -/
theorem split_fst {t : Table α} (ht : t.Distinct) (test : String → Bool) :
    (t.split test).1 = t.keep test := by
  have hnames : (t.names.filter test).Nodup := List.Pairwise.filter test ht
  have hfound : ∀ entry ∈ (t.keep test).entries,
      (t.find? entry.1).map (fun value => (entry.1, value)) = some entry := by
    intro entry he
    rw [find?_of_mem ht (List.mem_filter.mp he).1]
    rfl
  have hentries : (t.split test).1.entries = (t.keep test).entries := by
    rw [split, takeAll_fst t hnames, ← names_keep, names, List.filterMap_map]
    exact (List.filterMap_congr hfound).trans List.filterMap_some
  exact congrArg mk hentries

/-! ## Mapping -/

universe w

variable {γ : Type w}

theorem map_map (f : α → β) (g : β → γ) (t : Table α) :
    (t.map f).map g = t.map fun value => g (f value) := by
  simp [map]

theorem map_eq_map_iff {f g : α → β} {t : Table α} :
    t.map f = t.map g ↔ ∀ entry ∈ t.entries, f entry.2 = g entry.2 := by
  simp only [map, mk.injEq, List.map_inj_left, Prod.mk.injEq, true_and]

theorem map_congr {f g : α → β} {t : Table α} (h : ∀ entry ∈ t.entries, f entry.2 = g entry.2) :
    t.map f = t.map g :=
  map_eq_map_iff.mpr h

@[simp] theorem map_extend (f : α → β) (t : Table α) (entries : List (String × α)) :
    (t.extend entries).map f =
      (t.map f).extend (entries.map fun entry => (entry.1, f entry.2)) := by
  simp [map, extend]

theorem map_keep (f : α → β) (test : String → Bool) (t : Table α) :
    (t.keep test).map f = (t.map f).keep test := by
  simp [map, keep, List.filter_map, Function.comp_def]

/-- What is found under a name where the values were changed with respect to their names. -/
theorem lookup_map_entries (f : String → α → β) (entries : List (String × α)) (name : String) :
    (entries.map fun entry => (entry.1, f entry.1 entry.2)).lookup name =
      (entries.lookup name).map (f name) := by
  induction entries with
  | nil => rfl
  | cons entry rest ih =>
      rw [List.map_cons, lookup_cons_eq, ih, lookup_cons_eq name entry.1]
      by_cases h : name = entry.1
      · rw [if_pos h, if_pos h, h]
        rfl
      · rw [if_neg h, if_neg h]

theorem find?_map (f : α → β) (t : Table α) (name : String) :
    (t.map f).find? name = (t.find? name).map f :=
  lookup_map_entries (fun _ => f) t.entries name

theorem contains_map (f : α → β) (t : Table α) (name : String) :
    (t.map f).contains name = t.contains name := by
  rw [Bool.eq_iff_iff, contains_iff_mem_names, contains_iff_mem_names, names_map]

theorem map_eq_self {f : α → α} {t : Table α} (h : ∀ entry ∈ t.entries, f entry.2 = entry.2) :
    t.map f = t := by
  obtain ⟨entries⟩ := t
  simp only [map, mk.injEq]
  refine (List.map_congr_left fun entry he => ?_).trans entries.map_id
  rw [h entry he]
  rfl

theorem Distinct.map {t : Table α} (h : t.Distinct) (f : α → β) : (t.map f).Distinct := by
  rwa [Distinct, names_map]

/-! ## Orders -/

/-- What is found under a name does not depend on the order of the entries. -/
theorem find?_eq_of_perm {t u : Table α} (ht : t.Distinct) (h : u.entries.Perm t.entries)
    (name : String) : u.find? name = t.find? name := by
  have hnames : u.names.Perm t.names := h.map _
  cases hfind : t.find? name with
  | none =>
      rw [find?_eq_none_iff] at hfind ⊢
      exact fun hm => hfind (hnames.mem_iff.mp hm)
  | some value =>
      exact find?_of_mem (hnames.nodup_iff.mpr ht) (h.mem_iff.mpr (mem_of_find? hfind))

/-- Values are put under two known names in either order. -/
theorem put_comm {t : Table α} {a b : String} (hab : a ≠ b) (ha : a ∈ t.names) (hb : b ∈ t.names)
    (x y : α) : (t.put a x).put b y = (t.put b y).put a x := by
  obtain ⟨entries⟩ := t
  simp only [put, mk.injEq]
  simp only [names] at ha hb
  induction entries with
  | nil => cases ha
  | cons entry rest ih =>
      rw [List.map_cons, List.mem_cons] at ha hb
      by_cases hea : entry.1 = a
      · simp [putEntries, hea, hab]
      · by_cases heb : entry.1 = b
        · simp [putEntries, heb, hab.symm]
        · have hrest := ih (ha.resolve_left (Ne.symm hea)) (hb.resolve_left (Ne.symm heb))
          simp [putEntries, hea, heb, hrest]

end RolePlan.Table
