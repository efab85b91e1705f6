import RolePlan.Storage
import RolePlan.Text.Utf8

/-!
# Directories

A directory is a storage in memory with folders, which holds bytes. A path is walked step by step
from the top: every step but the last must lead to a folder, and two dots lead to the folder above.
Writing makes the folders that are missing on the way. Nothing lies outside the top folder.
-/

namespace RolePlan

/-- The place of a file or folder: the names that lead there from the top. -/
abbrev Place := List (List Char)

structure Directory where
  files : List (Place × ByteArray) := []
  /-- All folders but the top one. -/
  folders : List Place := []

namespace Directory

def greatestName : Nat := 255

variable (d : Directory)

def file? (place : Place) : Option ByteArray := d.files.lookup place

def isFolder (place : Place) : Bool := place.isEmpty || d.folders.contains place

def expectFolder (path : String) (place : Place) : Except StorageFault Unit :=
  if d.isFolder place then .ok ()
  else if (d.file? place).isSome then .error (.notDirectory path)
  else .error (.notFound path)

def step (path : String) (place : Place) (part : List Char) : Except StorageFault Place := do
  d.expectFolder path place
  if !Path.isStep part then return place
  else if part = ['.', '.'] then
    if place.isEmpty then throw (.notFound path) else return place.dropLast
  else if part.contains '\x00' || greatestName < (String.ofList part).utf8ByteSize then
    throw (.invalidPath path)
  else return place ++ [part]

/-- The place that a path leads to, whether or not something is there. -/
def locate (path : String) : Except StorageFault Place :=
  if path.isEmpty || Path.isAbsolute path then .error (.notFound path)
  else (Path.parts path.toList).foldlM (d.step path) []

def read (path : String) : Except StorageFault ByteArray := do
  let place ← d.locate path
  match d.file? place with
  | some bytes => return bytes
  | none => throw (if d.isFolder place then .isDirectory path else .notFound path)

def readText (path : String) : Except StorageFault String := do
  match Text.Utf8.text? (← d.read path) with
  | some text => return text
  | none => throw (.notText path)

def holds (path : String) : Bool :=
  match d.locate path with
  | .ok place => d.isFolder place || (d.file? place).isSome
  | .error _ => false

def addFolder (place : Place) : Directory :=
  if d.isFolder place || (d.file? place).isSome then d
  else { d with folders := d.folders ++ [place] }

/-- Makes the folders that a path leads through, up to the first that cannot be made. -/
def makeFolders (path : String) (d : Directory) (place : Place) :
    List (List Char) → Directory × Except StorageFault Unit
  | [] =>
      let d := d.addFolder place
      (d, d.expectFolder path place)
  | part :: rest =>
      let d := d.addFolder place
      match d.step path place part with
      | .ok place => makeFolders path d place rest
      | .error fault => (d, .error fault)

def setFile (place : Place) (bytes : ByteArray) : Directory :=
  { d with
    files :=
      if (d.file? place).isSome then
        d.files.map fun entry => if entry.1 = place then (place, bytes) else entry
      else d.files ++ [(place, bytes)] }

def put (path : String) (bytes : ByteArray) : Directory × Except StorageFault Unit :=
  match d.locate path with
  | .error fault => (d, .error fault)
  | .ok place =>
      if d.isFolder place then (d, .error (.isDirectory path))
      else (d.setFile place bytes, .ok ())

/-- Puts bytes at the place of a path and makes the folders on the way. -/
def write (path : String) (bytes : ByteArray) : Directory × Except StorageFault Unit :=
  if Path.isAbsolute path then (d, .error (.notFound path))
  else
    match makeFolders path d [] (Path.parts (Path.folder path).toList) with
    | (d, .ok ()) => d.put path bytes
    | (d, .error fault) => (d, .error fault)

instance : Storage (StateM Directory) where
  read path := fun d => pure (d.readText path, d)
  write path text := fun d =>
    let (d, result) := d.write path text.toUTF8
    pure (result, d)
  holds path := fun d => pure (d.holds path, d)

def pathOf (place : Place) : String := String.ofList (['/'].intercalate place)

end Directory

end RolePlan
