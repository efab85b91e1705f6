/-!
# Paths

A path is a text of parts between slashes. Empty parts and single dots name no step, except that a
path whose text begins with a slash is absolute.
-/

namespace RolePlan.Path

def parts : List Char → List (List Char)
  | [] => [[]]
  | c :: rest =>
      if c = '/' then [] :: parts rest
      else
        match parts rest with
        | [] => [[c]]
        | part :: others => (c :: part) :: others

def isAbsolute (path : String) : Bool := path.toList.head? = some '/'

def join (folder path : String) : String :=
  if isAbsolute path || folder.isEmpty then path
  else if folder.toList.getLast? = some '/' then folder ++ path
  else folder ++ "/" ++ path

/-- A part that names a file, a folder or, by two dots, the folder above. -/
def isStep (part : List Char) : Bool := !(part.isEmpty || part = ['.'])

/-- The name that a path ends in; it ends in none where its last step goes up. -/
def fileName? (path : String) : Option (List Char) :=
  match ((parts path.toList).filter isStep).getLast? with
  | some name => if name = ['.', '.'] then none else some name
  | none => none

/-- What follows the last dot of the file name. A dot in the first place begins no extension. -/
def extension? (path : String) : Option String :=
  (fileName? path).bind fun name =>
    let tail := name.reverse.takeWhile (· ≠ '.')
    if tail.length + 1 < name.length then some (String.ofList tail.reverse) else none

def folder (path : String) : String :=
  let before := ((parts path.toList).reverse.dropWhile (!isStep ·)).drop 1
  String.ofList (['/'].intercalate before.reverse)

end RolePlan.Path
