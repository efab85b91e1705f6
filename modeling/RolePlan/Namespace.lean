/-!
# Namespaces

A role's names are told apart from all others by a namespace in front of them. The delimiter is two
colons, which role names do not hold; a single colon is an ordinary character.
-/

namespace RolePlan.Namespace

def delimiter : String := "::"

/-- Stands in front of the registry aliases that a plan owns. -/
def aliasMark : String := "Tuskar::"

def apply (ns name : String) : String := ns ++ delimiter ++ name

def afterDelimiter? : List Char → Option (List Char)
  | [] => none
  | c :: rest =>
      if c = ':' && rest.head? = some ':' then some (rest.drop 1) else afterDelimiter? rest

/-- The name without what precedes its first delimiter and without that delimiter; a name without
one is left as it is. -/
def strip (name : String) : String :=
  match afterDelimiter? name.toList with
  | none => name
  | some rest => String.ofList rest

def owns (ns name : String) : Bool := (ns ++ delimiter).toList.isPrefixOf name.toList

def aliasOf (ns : String) : String := aliasMark ++ ns

def ofAlias? (name : String) : Option String :=
  if aliasMark.toList.isPrefixOf name.toList then
    some (String.ofList (name.toList.drop aliasMark.length))
  else none

/-- The id of a role's resource that stands by itself. -/
def resourceId (ns : String) : String := ns ++ "-resource"

def groupId (ns : String) : String := ns ++ "-servers"

def countName (ns : String) : String := apply ns "count"

end RolePlan.Namespace
