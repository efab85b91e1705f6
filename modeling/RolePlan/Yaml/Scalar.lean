import RolePlan.Value

/-!
# Plain scalars

What a scalar without quotes stands for: null, a truth value, an integer, a double or a text.
-/

namespace RolePlan.Yaml

inductive Scalar where
  | null
  | bool (b : Bool)
  | int (n : Int)
  | float (x : Binary64)
  | infinity (negative : Bool)
  | nan
  | string (text : String)
  deriving DecidableEq, Repr

namespace Scalar

def isNull (text : String) : Bool :=
  text = "~" || text = "null" || text = "Null" || text = "NULL"

def bool? (text : String) : Option Bool :=
  if text = "true" || text = "True" || text = "TRUE" then some true
  else if text = "false" || text = "False" || text = "FALSE" then some false
  else none

def digitValue? (radix : Nat) (c : Char) : Option Nat :=
  let value :=
    if '0' ≤ c && c ≤ '9' then c.toNat - '0'.toNat
    else if 'a' ≤ c && c ≤ 'z' then c.toNat - 'a'.toNat + 10
    else if 'A' ≤ c && c ≤ 'Z' then c.toNat - 'A'.toNat + 10
    else radix
  if value < radix then some value else none

def natural? (radix : Nat) (digits : List Char) : Option Nat :=
  if digits.isEmpty then none
  else digits.foldlM (fun n d => (digitValue? radix d).map (radix * n + ·)) 0

/-- A zero with further digits behind it is no number. -/
def isPaddedDigits (text : List Char) : Bool :=
  let digits := match text with
    | '-' :: rest => rest
    | '+' :: rest => rest
    | rest => rest
  match digits with
  | '0' :: rest => !rest.isEmpty && rest.all Binary64.isDigit
  | _ => false

/-- An integer without its sign: decimal, or with a mark for another radix. -/
def magnitude? : List Char → Option Nat
  | '0' :: 'x' :: digits => natural? 16 digits
  | '0' :: 'o' :: digits => natural? 8 digits
  | '0' :: 'b' :: digits => natural? 2 digits
  | digits => natural? 10 digits

def integer? (text : List Char) : Option Int :=
  if isPaddedDigits text then none
  else
    match text with
    | '-' :: rest => (magnitude? rest).map fun n => -(n : Int)
    | '+' :: rest => (magnitude? rest).map fun n => (n : Int)
    | rest => (magnitude? rest).map fun n => (n : Int)

/-- The integer that a text stands for. None: it stands for none, and one that is wider than 128
bits is left to be read as a double. An error: it is wider than the 64 bits a document holds. -/
def int? (text : List Char) : Except String (Option Int) :=
  match integer? text with
  | none => .ok none
  | some n =>
      if Word.fits 64 n then .ok (some n)
      else if Word.fits 128 n then .error "integer is out of range"
      else .ok none

/-- The double that a text stands for; a text that would overflow stands for none. -/
def float? (text : List Char) : Option Scalar :=
  let unsigned := match text with
    | '+' :: rest => rest
    | rest => rest
  let signedTwice := text.head? = some '+' && unsigned.head?.any fun c => c = '+' || c = '-'
  if signedTwice then none
  else if [".inf", ".Inf", ".INF"].contains (String.ofList unsigned) then some (.infinity false)
  else if ["-.inf", "-.Inf", "-.INF"].contains (String.ofList text) then some (.infinity true)
  else if [".nan", ".NaN", ".NAN"].contains (String.ofList text) then some .nan
  else (Binary64.parse? (String.ofList unsigned)).map .float

def ofPlain (text : String) : Except String Scalar :=
  if text.isEmpty || isNull text then .ok .null
  else
    match bool? text with
    | some b => .ok (.bool b)
    | none => do
        match ← int? text.toList with
        | some n => return .int n
        | none =>
            if isPaddedDigits text.toList then return .string text
            return (float? text.toList).getD (.string text)

inductive Wanted where
  | bool
  | int
  | float
  | null

def ofWanted (wanted : Wanted) (text : String) : Except String Scalar :=
  match wanted with
  | .bool => (bool? text).elim (.error "expected a boolean") fun b => .ok (.bool b)
  | .int => do
      match ← int? text.toList with
      | some n => return .int n
      | none => throw "expected an integer"
  | .float => (float? text.toList).elim (.error "expected a float") .ok
  | .null => if isNull text then .ok .null else .error "expected null"

/-- Equality of values: the zeros of both signs are equal, and so are two NaN. -/
def same : Scalar → Scalar → Bool
  | .float x, .float y => x.same y
  | x, y => x = y

def numberText? : Scalar → Option String
  | .int n => some (toString n)
  | .float x => some (x.render .inDocument)
  | .infinity negative => some (if negative then "-.inf" else ".inf")
  | .nan => some ".nan"
  | _ => none

end Scalar

end RolePlan.Yaml
