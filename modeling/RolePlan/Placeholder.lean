/-!
# Placeholders

A placeholder is `${NAME}`: the name is what stands before the next closing brace, and has at least
one character. The placeholders of a text are found from left to right, and do not overlap. One
whose name is not known stays as it is written.
-/

namespace RolePlan.Placeholder

inductive Part where
  | plain (c : Char)
  | named (name : List Char)
  deriving DecidableEq, Repr

def opening : List Char := ['$', '\x7b']

def Part.written : Part → List Char
  | .plain c => [c]
  | .named name => opening ++ name ++ ['\x7d']

/-- The parts of a text. Within a placeholder, `name` holds what was read of its name, the latest
character first. -/
def scan (name : Option (List Char)) : List Char → List Part
  | [] =>
      match name with
      | none => []
      | some name => (opening ++ name.reverse).map .plain
  | c :: rest =>
      match name with
      | some name =>
          if c = '\x7d' then
            if name.isEmpty then (opening ++ ['\x7d']).map .plain ++ scan none rest
            else .named name.reverse :: scan none rest
          else scan (some (c :: name)) rest
      | none =>
          match c, rest with
          | '$', '\x7b' :: rest => scan (some []) rest
          | c, rest => .plain c :: scan none rest

def parts (text : String) : List Part := scan none text.toList

def names (text : String) : List String :=
  (parts text).filterMap fun part =>
    match part with
    | .plain _ => none
    | .named name => some (String.ofList name)

/-- What a part becomes: a known variable is replaced by its value. -/
def Part.filled (known : String → Option String) (part : Part) : List Char :=
  match part with
  | .plain c => [c]
  | .named name =>
      match known (String.ofList name) with
      | some value => value.toList
      | none => part.written

/-- The text with its placeholders replaced once. -/
def fill (known : String → Option String) (text : String) : String :=
  String.ofList ((parts text).flatMap (Part.filled known))

end RolePlan.Placeholder
