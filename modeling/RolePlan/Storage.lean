import RolePlan.Error
import RolePlan.Path

/-!
# Storages

Work on a plan asks a storage for texts by their paths, and leaves texts there. `Job` is such work:
it may fail, and what it warns of is kept even then. A shelf is a storage in memory: a text is found
under exactly the path it was put under. Some paths may be closed for writing, and the shelf
remembers what it was asked.
-/

namespace RolePlan

class Storage (m : Type → Type) where
  read : String → m (Except StorageFault String)
  write : String → String → m (Except StorageFault Unit)
  holds : String → m Bool

/-- Work on a storage, with the warnings given so far. -/
abbrev Job (m : Type → Type) (α : Type) : Type := ExceptT Error (StateT (List Warning) m) α

namespace Job

variable {m : Type → Type} [Monad m]

def start {α : Type} (job : Job m α) : m (Except Error α × List Warning) := (job.run).run []

def warn (warning : Warning) : Job m Unit := modify (· ++ [warning])

def ofExcept {α : Type} (result : Except Error α) : Job m α := ExceptT.mk (pure result)

variable [Storage m]

def ofStorage {α : Type} (request : m (Except StorageFault α)) : Job m α := do
  match ← request with
  | .ok value => return value
  | .error fault => throw (.storage fault)

def read (path : String) : Job m String := ofStorage (Storage.read path)

def write (path text : String) : Job m Unit := ofStorage (Storage.write path text)

def holds (path : String) : Job m Bool := liftM (Storage.holds (m := m) path)

end Job

/-- Effects below a folder: paths are seen from there. -/
abbrev Below (m : Type → Type) (α : Type) : Type := ReaderT String m α

instance {m : Type → Type} [Storage m] : Storage (Below m) where
  read path := fun folder => Storage.read (Path.join folder path)
  write path text := fun folder => Storage.write (Path.join folder path) text
  holds path := fun folder => Storage.holds (Path.join folder path)

/-! ## Shelves -/

inductive Request where
  | read
  | write
  | holds
  deriving DecidableEq, Repr

structure Shelf where
  texts : Table String := .empty
  readOnly : List String := []
  /-- The requests so far, the latest first. -/
  requests : List (Request × String) := []

namespace Shelf

def note (s : Shelf) (request : Request) (path : String) : Shelf :=
  { s with requests := (request, path) :: s.requests }

def find (s : Shelf) (path : String) : Except StorageFault String :=
  match s.texts.find? path with
  | some text => .ok text
  | none => .error (.notFound path)

def put (s : Shelf) (path text : String) : Except StorageFault Unit × Shelf :=
  if s.readOnly.contains path then (.error (.readOnly path), s)
  else (.ok (), { s with texts := s.texts.put path text })

instance : Storage (StateM Shelf) where
  read path := fun s => pure (s.find path, s.note .read path)
  write path text := fun s => pure ((s.note .write path).put path text)
  holds path := fun s => pure (s.texts.contains path, s.note .holds path)

end Shelf

end RolePlan
