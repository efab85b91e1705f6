import RolePlan.Composition

/-!
# What jobs give

A job on a storage with a state gives a result and leaves another state. The warnings are carried
along and decide nothing.
-/

namespace RolePlan.Job

variable {S α β γ : Type}

def on (job : Job (StateM S) α) (s : S) : Except Error α × S :=
  let ((result, _), left) := (job.start).run s
  (result, left)

/-- Whatever warnings there are before, this is the result of the job; where it succeeds, this is
the state that it leaves. -/
def Gives (job : Job (StateM S) α) (s : S) (result : Except Error α) (left : S) : Prop :=
  ∀ warnings, ∃ more t, (job.run.run warnings).run s = ((result, more), t) ∧
    ∀ a, result = .ok a → t = left

variable {s s' s'' : S}

theorem Gives.on_fst {job : Job (StateM S) α} {result : Except Error α}
    (h : Gives job s result s') : (job.on s).1 = result := by
  obtain ⟨more, t, hrun, -⟩ := h []
  rw [on, start, hrun]

theorem Gives.on_of_ok {job : Job (StateM S) α} {a : α} (h : Gives job s (.ok a) s') :
    job.on s = (.ok a, s') := by
  obtain ⟨more, t, hrun, ht⟩ := h []
  rw [on, start, hrun, ht a rfl]

theorem gives_pure (a : α) (s : S) : Gives (pure a : Job (StateM S) α) s (.ok a) s :=
  fun warnings => ⟨warnings, s, rfl, fun _ _ => rfl⟩

theorem gives_ofExcept (result : Except Error α) (s : S) :
    Gives (ofExcept result : Job (StateM S) α) s result s :=
  fun warnings => ⟨warnings, s, rfl, fun _ _ => rfl⟩

theorem gives_warn (warning : Warning) (s : S) :
    Gives (warn warning : Job (StateM S) Unit) s (.ok ()) s :=
  fun warnings => ⟨warnings ++ [warning], s, rfl, fun _ _ => rfl⟩

theorem run_bind (job : Job (StateM S) α) (f : α → Job (StateM S) β) (warnings : List Warning)
    (s : S) :
    ((job >>= f).run.run warnings).run s =
      match (job.run.run warnings).run s with
      | ((.ok a, more), t) => ((f a).run.run more).run t
      | ((.error e, more), t) => ((.error e, more), t) := by
  simp only [ExceptT.run_bind, StateT.run_bind]
  rcases (job.run.run warnings).run s with ⟨⟨a | e, more⟩, t⟩ <;> rfl

theorem Gives.bind {job : Job (StateM S) α} {f : α → Job (StateM S) β} {first : Except Error α}
    {next : α → Except Error β} (hjob : Gives job s first s')
    (hnext : ∀ a, first = .ok a → Gives (f a) s' (next a) s'') :
    Gives (job >>= f) s (first >>= next) s'' := by
  intro warnings
  obtain ⟨more, t, hrun, ht⟩ := hjob warnings
  rw [run_bind, hrun]
  cases first with
  | error e => exact ⟨more, t, rfl, fun _ h => by cases h⟩
  | ok a =>
      rw [ht a rfl]
      exact hnext a rfl more

/-- Behind a job that succeeds, the rest decides the result. -/
theorem Gives.bind_of_ok {job : Job (StateM S) α} {a : α} {f : α → Job (StateM S) β}
    {result : Except Error β} (hjob : Gives job s (.ok a) s') (hnext : Gives (f a) s' result s'') :
    Gives (job >>= f) s result s'' := by
  have hrest : ∀ b, (.ok a : Except Error α) = .ok b → Gives (f b) s' result s'' := by
    intro b hb
    cases hb
    exact hnext
  exact hjob.bind hrest

/-- A job that only warns. -/
theorem gives_forM_warn (warnings : List Warning) (s : S) :
    Gives (warnings.forM warn : Job (StateM S) Unit) s (.ok ()) s := by
  induction warnings with
  | nil => exact gives_pure () s
  | cons warning rest ih => exact (gives_warn warning s).bind fun _ _ => ih

theorem gives_templateOf (text : String) (s : S) :
    Gives (Description.templateOf text) s (Template.parse text) s :=
  (gives_ofExcept _ s).bind fun document _ =>
    (gives_forM_warn (Template.warnings document) s).bind fun _ _ => gives_ofExcept _ s

theorem gives_environmentOf (text : String) (s : S) :
    Gives (Description.environmentOf text) s (Environment.parse text) s :=
  (gives_ofExcept _ s).bind fun document _ =>
    (gives_forM_warn (Environment.warnings document) s).bind fun _ _ => gives_ofExcept _ s

/-! ## Outcomes, failures included -/

/-- Whatever warnings there are before, this is so of the result of the job and of the state that
it leaves, even where it fails. -/
def Ends (job : Job (StateM S) α) (s : S) (Q : Except Error α → S → Prop) : Prop :=
  ∀ warnings, ∃ result more t, (job.run.run warnings).run s = ((result, more), t) ∧ Q result t

variable {P : Except Error α → S → Prop} {Q : Except Error β → S → Prop}

theorem Ends.on {job : Job (StateM S) α} (h : Ends job s P) : P (job.on s).1 (job.on s).2 := by
  obtain ⟨result, more, t, hrun, hp⟩ := h []
  rw [Job.on, start, hrun]
  exact hp

theorem ends_pure {a : α} (h : P (.ok a) s) : Ends (pure a : Job (StateM S) α) s P :=
  fun warnings => ⟨.ok a, warnings, s, rfl, h⟩

theorem ends_ofExcept {result : Except Error α} (h : P result s) :
    Ends (ofExcept result : Job (StateM S) α) s P :=
  fun warnings => ⟨result, warnings, s, rfl, h⟩

theorem ends_warn {P : Except Error Unit → S → Prop} (warning : Warning) (h : P (.ok ()) s) :
    Ends (warn warning : Job (StateM S) Unit) s P :=
  fun warnings => ⟨.ok (), warnings ++ [warning], s, rfl, h⟩

theorem Ends.bind {job : Job (StateM S) α} {f : α → Job (StateM S) β} (hjob : Ends job s P)
    (hok : ∀ a t, P (.ok a) t → Ends (f a) t Q) (herror : ∀ e t, P (.error e) t → Q (.error e) t) :
    Ends (job >>= f) s Q := by
  intro warnings
  obtain ⟨result, more, t, hrun, hp⟩ := hjob warnings
  rw [run_bind, hrun]
  cases result with
  | ok a => exact hok a t hp more
  | error e => exact ⟨.error e, more, t, rfl, herror e t hp⟩

theorem on_bind_of_error {job : Job (StateM S) α} {e : Error} (h : job.on s = (.error e, s'))
    (f : α → Job (StateM S) β) : (job >>= f).on s = (.error e, s') := by
  rcases hrun : (job.run.run []).run s with ⟨⟨result, more⟩, t⟩
  have hon : job.on s = (result, t) := by rw [Job.on, start, hrun]
  rw [h] at hon
  cases hon
  rw [Job.on, start, run_bind, hrun]

/-- Behind a first half that succeeds, the second half decides the outcome. -/
theorem Ends.on_bind {job : Job (StateM S) α} {a : α} {f : α → Job (StateM S) β}
    (hjob : job.on s = (.ok a, s')) (h : Ends (f a) s' Q) :
    Q ((job >>= f).on s).1 ((job >>= f).on s).2 := by
  rcases hrun : (job.run.run []).run s with ⟨⟨result, more⟩, t⟩
  have hon : job.on s = (result, t) := by rw [Job.on, start, hrun]
  rw [hjob] at hon
  cases hon
  obtain ⟨result, last, u, hlast, hq⟩ := h more
  rw [Job.on, start, run_bind, hrun]
  simp only [hlast]
  exact hq

/-! ## Requests to the storage -/

theorem gives_lift (request : StateM S α) (s : S) :
    Gives (liftM request : Job (StateM S) α) s (.ok (request.run s).1) (request.run s).2 :=
  fun warnings => ⟨warnings, _, rfl, fun _ _ => rfl⟩

def granted (answer : Except StorageFault α) : Except Error α :=
  match answer with
  | .ok value => .ok value
  | .error fault => .error (.storage fault)

theorem gives_ofStorage (request : StateM S (Except StorageFault α)) (s : S) :
    Gives (ofStorage request) s (granted (request.run s).1) (request.run s).2 := by
  have hnext : ∀ answer t, Gives (match answer with
      | .ok value => return value
      | .error fault => throw (.storage fault) : Job (StateM S) α) t (granted answer) t := by
    intro answer t
    cases answer with
    | ok value => exact gives_pure value t
    | error fault => exact gives_ofExcept (.error (.storage fault)) t
  exact (gives_lift request s).bind fun answer _ => hnext answer _

theorem ends_lift {request : StateM S α} (h : P (.ok (request.run s).1) (request.run s).2) :
    Ends (liftM request : Job (StateM S) α) s P :=
  fun warnings => ⟨.ok (request.run s).1, warnings, (request.run s).2, rfl, h⟩

theorem ends_ofStorage {request : StateM S (Except StorageFault α)}
    (h : P (granted (request.run s).1) (request.run s).2) : Ends (ofStorage request) s P := by
  have hasked : Ends (liftM request : Job (StateM S) (Except StorageFault α)) s fun result t =>
      result = .ok (request.run s).1 ∧ t = (request.run s).2 := ends_lift ⟨rfl, rfl⟩
  refine hasked.bind (fun answer t ⟨hanswer, ht⟩ => ?_) fun e t he => nomatch he.1
  cases hanswer
  rw [← ht] at h
  cases hrequest : (request.run s).1 with
  | ok value =>
      rw [hrequest] at h
      exact ends_pure h
  | error fault =>
      rw [hrequest] at h
      exact ends_ofExcept h

variable [Storage (StateM S)]

theorem gives_read (path : String) (s : S) :
    Gives (read path : Job (StateM S) String) s
      (granted ((Storage.read (m := StateM S) path).run s).1)
      ((Storage.read (m := StateM S) path).run s).2 :=
  gives_ofStorage _ s

theorem gives_write (path text : String) (s : S) :
    Gives (write path text : Job (StateM S) Unit) s
      (granted ((Storage.write (m := StateM S) path text).run s).1)
      ((Storage.write (m := StateM S) path text).run s).2 :=
  gives_ofStorage _ s

theorem gives_holds (path : String) (s : S) :
    Gives (holds path : Job (StateM S) Bool) s
      (.ok ((Storage.holds (m := StateM S) path).run s).1)
      ((Storage.holds (m := StateM S) path).run s).2 :=
  gives_lift _ s

end RolePlan.Job
