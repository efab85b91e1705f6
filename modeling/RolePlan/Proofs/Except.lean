/-!
# Sequences of steps that may fail

A sequence succeeds exactly as far as its steps do. What each step keeps is kept by the whole, and
a sequence in which no step fails does not fail.
-/

namespace RolePlan.Proofs

variable {ε α β : Type}

/-- A step that succeeds has succeeded in both of its halves. -/
theorem bind_eq_ok {x : Except ε α} {f : α → Except ε β} {b : β} (h : (x >>= f) = .ok b) :
    ∃ a, x = .ok a ∧ f a = .ok b := by
  cases x with
  | error e => cases h
  | ok a => exact ⟨a, rfl, h⟩

/-- Steps whose first halves are the same up to a map, and whose second halves respect it. -/
theorem map_bind_congr {γ δ : Type} {x y : Except ε α} {f g : α → Except ε β} {k : α → γ}
    {l : β → δ} (h : x.map k = y.map k) (hfg : ∀ a b, k a = k b → (f a).map l = (g b).map l) :
    (x >>= f).map l = (y >>= g).map l := by
  cases x with
  | error e =>
      cases y with
      | error e' =>
          cases h
          rfl
      | ok b => cases h
  | ok a =>
      cases y with
      | error e' => cases h
      | ok b => exact hfg a b (Except.ok.inj h)

/-- Where each item is read back from what it was turned into, so is the whole list. -/
theorem mapM_map_eq_ok {f : β → Except ε α} {g : α → β} {items : List α}
    (h : ∀ a ∈ items, f (g a) = .ok a) : (items.map g).mapM f = .ok items := by
  induction items with
  | nil => rfl
  | cons item rest ih =>
      rw [List.map_cons, List.mapM_cons, h item List.mem_cons_self,
        ih fun a ha => h a (List.mem_cons_of_mem item ha)]
      rfl

theorem exists_of_mapM_eq_ok {f : β → Except ε α} {items : List β} {results : List α}
    (h : items.mapM f = .ok results) : ∀ a ∈ results, ∃ b ∈ items, f b = .ok a := by
  induction items generalizing results with
  | nil =>
      cases h
      simp
  | cons item rest ih =>
      rw [List.mapM_cons] at h
      obtain ⟨a, hf, h⟩ := bind_eq_ok h
      obtain ⟨more, hrest, h⟩ := bind_eq_ok h
      cases h
      intro other ho
      rcases List.mem_cons.mp ho with rfl | ho
      · exact ⟨item, List.mem_cons_self, hf⟩
      · obtain ⟨b, hb, hfb⟩ := ih hrest other ho
        exact ⟨b, List.mem_cons_of_mem item hb, hfb⟩

/-- What every step that succeeds keeps holds after all of them. -/
theorem foldlM_keeps {P : β → Prop} {f : β → α → Except ε β} {items : List α} {b c : β}
    (hstep : ∀ b, ∀ item ∈ items, P b → ∀ c, f b item = .ok c → P c) (hb : P b)
    (h : items.foldlM f b = .ok c) : P c := by
  induction items generalizing b with
  | nil =>
      cases h
      exact hb
  | cons item rest ih =>
      rw [List.foldlM_cons] at h
      cases hf : f b item with
      | error e =>
          rw [hf] at h
          cases h
      | ok d =>
          rw [hf] at h
          exact ih (fun b other ho => hstep b other (List.mem_cons_of_mem item ho))
            (hstep b item List.mem_cons_self hb d hf) h

/-- A sequence whose steps all succeed where `P` holds, and keep it, succeeds. -/
theorem exists_foldlM {P : β → Prop} {f : β → α → Except ε β} {items : List α} {b : β}
    (hstep : ∀ b, ∀ item ∈ items, P b → ∃ c, f b item = .ok c ∧ P c) (hb : P b) :
    ∃ c, items.foldlM f b = .ok c ∧ P c := by
  induction items generalizing b with
  | nil => exact ⟨b, rfl, hb⟩
  | cons item rest ih =>
      obtain ⟨c, hf, hc⟩ := hstep b item List.mem_cons_self hb
      rw [List.foldlM_cons, hf]
      exact ih (fun b other ho => hstep b other (List.mem_cons_of_mem item ho)) hc

/-- A map of states that carries each step to a step carries a sequence to the sequence. -/
theorem map_foldlM {γ : Type} {f : β → α → Except ε β} {f' : β → γ → Except ε β} {g : β → β}
    {k : α → γ} (hstep : ∀ b a, (f b a).map g = f' (g b) (k a)) (items : List α) (b : β) :
    (items.foldlM f b).map g = (items.map k).foldlM f' (g b) := by
  induction items generalizing b with
  | nil => rfl
  | cons item rest ih =>
      rw [List.map_cons, List.foldlM_cons, List.foldlM_cons, ← hstep]
      cases f b item with
      | error e => rfl
      | ok c => exact ih c

/-! ## Faults -/

/-- The faults explain the outcome: an error is that of one of them, and a success, of which `Q`
holds, means that there are none. -/
def Explains (F : ε → Prop) (Q : α → Prop) : Except ε α → Prop
  | .ok a => Q a ∧ ∀ e, ¬ F e
  | .error e => F e

namespace Explains

variable {F G : ε → Prop} {Q : α → Prop}

theorem ok {a : α} (ha : Q a) : Explains (fun _ : ε => False) Q (.ok a) := ⟨ha, fun _ h => h⟩

theorem imp {x : Except ε α} {R : α → Prop} (h : Explains F Q x) (hfault : ∀ e, F e ↔ G e)
    (hresult : ∀ a, Q a → R a) : Explains G R x := by
  cases x with
  | error e => exact (hfault e).mp h
  | ok a => exact ⟨hresult a h.1, fun e hg => h.2 e ((hfault e).mpr hg)⟩

theorem error_iff {x : Except ε α} (h : Explains F Q x) :
    (∃ e, x = .error e) ↔ ∃ e, F e := by
  cases x with
  | error e => exact ⟨fun _ => ⟨e, h⟩, fun _ => ⟨e, rfl⟩⟩
  | ok a => exact ⟨fun ⟨_, he⟩ => (by cases he), fun ⟨e, he⟩ => absurd he (h.2 e)⟩

theorem of_error {x : Except ε α} (h : Explains F Q x) {e : ε} (he : x = .error e) : F e := by
  rw [he] at h
  exact h

theorem bind {x : Except ε α} {R : β → Prop} {f : α → Except ε β} (hx : Explains F Q x)
    (hf : ∀ a, Q a → Explains G R (f a)) : Explains (fun e => F e ∨ G e) R (x >>= f) := by
  cases x with
  | error e => exact .inl hx
  | ok a =>
      obtain ⟨ha, hnone⟩ := hx
      exact (hf a ha).imp (fun e => (or_iff_right (hnone e)).symm) fun _ hb => hb

/-- A sequence fails with the faults of its items, if what the items before it have led to does not
count for those of an item. -/
theorem foldlM {F : α → ε → Prop} {P : List α → β → Prop} {f : β → α → Except ε β}
    {items : List α} {b : β}
    (hstep : ∀ done item, done ++ [item] <+: items → ∀ b, P done b →
      Explains (F item) (P (done ++ [item])) (f b item))
    (hb : P [] b) : Explains (fun e => ∃ item ∈ items, F item e) (P items) (items.foldlM f b) := by
  -- The items that are left, after some that are done.
  suffices hgo : ∀ rest done, done ++ rest = items → ∀ b, P done b →
      Explains (fun e => ∃ item ∈ rest, F item e) (P items) (rest.foldlM f b) from
    hgo items [] rfl b hb
  intro rest
  induction rest with
  | nil =>
      intro done hdone b hb
      rw [List.append_nil] at hdone
      exact (Explains.ok (hdone ▸ hb)).imp (by simp) fun _ h => h
  | cons item rest ih =>
      intro done hdone b hb
      have hsplit : done ++ [item] ++ rest = items := by simpa using hdone
      have hfirst := hstep done item ⟨rest, hsplit⟩ b hb
      rw [List.foldlM_cons]
      exact (hfirst.bind fun c hc => ih _ hsplit c hc).imp (by simp) fun _ h => h

end Explains

/-! ## First faults -/

/-- What a reader makes of a list of faults and of the result that there would be without them: the
first fault counts. -/
def outcome (faults : List ε) (a : α) : Except ε α :=
  match faults with
  | [] => .ok a
  | e :: _ => .error e

/-- The faults of the first half of a step come before those of the second. -/
theorem bind_outcome {x : Except ε α} {f : α → Except ε β} {a : α} {b : β} {first second : List ε}
    (hx : x = outcome first a) (hf : f a = outcome second b) :
    (x >>= f) = outcome (first ++ second) b := by
  rw [hx]
  cases first with
  | nil => exact hf
  | cons e more => rfl

theorem bind_outcome_flatten {x : Except ε α} {f : α → Except ε β} {a : α} {b : β}
    {first : List ε} {rest : List (List ε)} (hx : x = outcome first a)
    (hf : f a = outcome rest.flatten b) : (x >>= f) = outcome (first :: rest).flatten b :=
  bind_outcome hx hf

theorem mapM_outcome {f : β → Except ε α} {faults : β → List ε} {g : β → α} {items : List β}
    (h : ∀ item ∈ items, f item = outcome (faults item) (g item)) :
    items.mapM f = outcome (items.flatMap faults) (items.map g) := by
  induction items with
  | nil => rfl
  | cons item rest ih =>
      have hrest := ih fun other ho => h other (List.mem_cons_of_mem item ho)
      rw [List.mapM_cons, h item List.mem_cons_self, hrest, List.flatMap_cons]
      cases faults item with
      | nil => cases rest.flatMap faults <;> rfl
      | cons e more => rfl

theorem foldlM_outcome {f : β → α → Except ε β} {faults : α → List ε} {g : β → α → β}
    (h : ∀ b a, f b a = outcome (faults a) (g b a)) (items : List α) (b : β) :
    items.foldlM f b = outcome (items.flatMap faults) (items.foldl g b) := by
  induction items generalizing b with
  | nil => rfl
  | cons item rest ih =>
      rw [List.foldlM_cons, h, List.flatMap_cons, List.foldl_cons]
      cases faults item with
      | nil => exact ih (g b item)
      | cons e more => rfl

theorem exists_ok_outcome_iff {faults : List ε} {a : α} :
    (∃ b, outcome faults a = .ok b) ↔ faults = [] := by
  cases faults with
  | nil => exact ⟨fun _ => rfl, fun _ => ⟨a, rfl⟩⟩
  | cons e rest => exact ⟨fun ⟨_, h⟩ => (by cases h), fun h => (by cases h)⟩

theorem outcome_eq_ok {faults : List ε} {a b : α} (h : outcome faults a = .ok b) : b = a := by
  cases faults with
  | nil => exact (Except.ok.inj h).symm
  | cons e rest => cases h

theorem outcome_eq_error_iff {faults : List ε} {a : α} {e : ε} :
    outcome faults a = .error e ↔ faults.head? = some e := by
  cases faults with
  | nil => simp [outcome]
  | cons first rest => simp [outcome]

/-! ## Two outcomes -/

/-- Both succeed, with related results, or both fail. -/
inductive SameOutcome (R : α → β → Prop) : Except ε α → Except ε β → Prop
  | ok {a : α} {b : β} (h : R a b) : SameOutcome R (.ok a) (.ok b)
  | error (e e' : ε) : SameOutcome R (.error e) (.error e')

namespace SameOutcome

variable {R : α → β → Prop}

theorem of_ok {a : α} {b : β} {x : Except ε α} {y : Except ε β} (h : SameOutcome R x y)
    (hx : x = .ok a) (hy : y = .ok b) : R a b := by
  subst hx hy
  cases h with
  | ok h => exact h

theorem exists_right {x : Except ε α} {y : Except ε β} {a : α} (h : SameOutcome R x y)
    (hx : x = .ok a) : ∃ b, y = .ok b ∧ R a b := by
  subst hx
  cases h with
  | ok h => exact ⟨_, rfl, h⟩

theorem exists_left {x : Except ε α} {y : Except ε β} {b : β} (h : SameOutcome R x y)
    (hy : y = .ok b) : ∃ a, x = .ok a ∧ R a b := by
  subst hy
  cases h with
  | ok h => exact ⟨_, rfl, h⟩

theorem of_imp {x : Except ε α} {y : Except ε β} (h : ∀ a, x = .ok a → ∃ b, y = .ok b ∧ R a b)
    (hback : ∀ b, y = .ok b → ∃ a, x = .ok a) : SameOutcome R x y := by
  cases x with
  | ok a =>
      obtain ⟨b, rfl, hr⟩ := h a rfl
      exact .ok hr
  | error e =>
      cases y with
      | ok b =>
          obtain ⟨a, ha⟩ := hback b rfl
          cases ha
      | error e' => exact .error e e'

theorem bind {γ δ : Type} {S : γ → δ → Prop} {x : Except ε α} {y : Except ε β}
    {f : α → Except ε γ} {g : β → Except ε δ} (h : SameOutcome R x y)
    (hfg : ∀ a b, R a b → SameOutcome S (f a) (g b)) : SameOutcome S (x >>= f) (y >>= g) := by
  cases h with
  | ok h => exact hfg _ _ h
  | error e e' => exact .error e e'

theorem of_outcome {faults others : List ε} {a : α} {b : β} (hfaults : faults = [] ↔ others = [])
    (h : faults = [] → R a b) : SameOutcome R (outcome faults a) (outcome others b) := by
  cases faults with
  | nil =>
      obtain rfl := hfaults.mp rfl
      exact .ok (h rfl)
  | cons e rest =>
      cases others with
      | nil => cases hfaults.mpr rfl
      | cons other more => exact .error e other

end SameOutcome

end RolePlan.Proofs
