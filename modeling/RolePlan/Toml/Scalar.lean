import RolePlan.Toml.Node

/-!
# Numbers, truth values and times of a TOML document

Every scalar that is no string is one run of characters. Underscores may stand between digits. A
date and a time have fixed places, and `moment?` gives them their normal form: `T` between them,
seconds, no more than nine digits of a second and no zeros after the last of those.
-/

namespace RolePlan.Toml

def digits? (base : Nat) : List Char → Option (List Char)
  | [] => none
  | [c] => if isDigit base c then some [c] else none
  | c :: '_' :: rest => if isDigit base c then (digits? base rest).map (c :: ·) else none
  | c :: rest => if isDigit base c then (digits? base rest).map (c :: ·) else none

/-- The digits of a whole decimal number; a leading zero stands alone. -/
def whole? (text : List Char) : Option (List Char) :=
  match digits? 10 text with
  | some ('0' :: _ :: _) => none
  | found => found

def unsigned : List Char → Bool × List Char
  | '-' :: rest => (true, rest)
  | '+' :: rest => (false, rest)
  | text => (false, text)

def based? (base : Nat) (text : List Char) : Option Int :=
  (digits? base text).map fun digits => (ofDigits base digits : Int)

/-- A whole number: decimal with an optional sign, or hexadecimal, octal or binary without one. -/
def int? : List Char → Option Int
  | '0' :: 'x' :: rest => based? 16 rest
  | '0' :: 'o' :: rest => based? 8 rest
  | '0' :: 'b' :: rest => based? 2 rest
  | text =>
      let (negative, text) := unsigned text
      (whole? text).map fun digits =>
        if negative then -(ofDigits 10 digits : Int) else ofDigits 10 digits

/-- Whole numbers of at most 128 bits are kept, until it is known what reads them. -/
def ofInt (n : Int) : Node := if Word.fits 128 n then .int n else .tooLarge

def fraction? : List Char → Option (List Char × List Char)
  | '.' :: rest =>
      let isPart (c : Char) : Bool := isDigit 10 c || c = '_'
      (digits? 10 (rest.takeWhile isPart)).map fun digits =>
        ('.' :: digits, rest.dropWhile isPart)
  | rest => some ([], rest)

def power? : List Char → Option (List Char)
  | [] => some []
  | mark :: rest =>
      if mark = 'e' || mark = 'E' then
        let (negative, digits) := unsigned rest
        (digits? 10 digits).map fun digits =>
          'e' :: (if negative then '-' :: digits else digits)
      else none

def decimal? (text : List Char) : Option (List Char) := do
  let (negative, text) := unsigned text
  let isPart (c : Char) : Bool := isDigit 10 c || c = '_'
  let whole ← whole? (text.takeWhile isPart)
  let (fraction, rest) ← fraction? (text.dropWhile isPart)
  let power ← power? rest
  if fraction.isEmpty && power.isEmpty then none
  else return (if negative then ['-'] else []) ++ whole ++ fraction ++ power

/-- A number with a fraction or an exponent, an infinity, or the mark of no number. -/
def float? (text : List Char) : Option Node :=
  let (_, magnitude) := unsigned text
  if magnitude = ['i', 'n', 'f'] || magnitude = ['n', 'a', 'n'] then some .nonFinite
  else (decimal? text).map fun decimal =>
    match Binary64.parse? (String.ofList decimal) with
    | some x => .float x
    | none => .tooLarge

def pair? : List Char → Option (Nat × List Char)
  | a :: b :: rest =>
      if isDigit 10 a && isDigit 10 b then some (ofDigits 10 [a, b], rest) else none
  | _ => none

def isLeapYear (year : Nat) : Bool := year % 4 == 0 && (year % 100 != 0 || year % 400 == 0)

def daysOfMonth (year month : Nat) : Nat :=
  if month = 2 then (if isLeapYear year then 29 else 28)
  else if [4, 6, 9, 11].contains month then 30
  else 31

def date? (text : List Char) : Option (List Char × List Char) := do
  let (century, rest) ← pair? text
  let (year, rest) ← pair? rest
  let (month, rest) ← match rest with
    | '-' :: rest => pair? rest
    | _ => none
  let (day, rest) ← match rest with
    | '-' :: rest => pair? rest
    | _ => none
  let year := 100 * century + year
  if 1 ≤ month && month ≤ 12 && 1 ≤ day && day ≤ daysOfMonth year month then
    return (text.take 10, rest)
  else none

/-- The parts of a second, in the normal form. -/
def secondParts (digits : List Char) : List Char :=
  match ((digits.take 9).reverse.dropWhile (· = '0')).reverse with
  | [] => []
  | parts => '.' :: parts

/-- Passes the seconds of a time, which may be missing, and their parts. -/
def seconds? : List Char → Option (List Char × List Char)
  | ':' :: rest => do
      let (second, after) ← pair? rest
      if 60 < second then none
      else
        let text := ':' :: rest.take 2
        match after with
        | '.' :: parts =>
            let digits := parts.takeWhile (isDigit 10)
            if digits.isEmpty then none
            else return (text ++ secondParts digits, parts.dropWhile (isDigit 10))
        | _ => return (text, after)
  | rest => some ([':', '0', '0'], rest)

def time? (text : List Char) : Option (List Char × List Char) := do
  let (hour, rest) ← pair? text
  let (minute, rest) ← match rest with
    | ':' :: rest => pair? rest
    | _ => none
  let (seconds, rest) ← seconds? rest
  if hour ≤ 23 && minute ≤ 59 then return (text.take 5 ++ seconds, rest) else none

/-- The distance from universal time at the end of a text; it may be missing. -/
def offset? : List Char → Option (List Char)
  | [] => some []
  | ['Z'] => some ['Z']
  | ['z'] => some ['Z']
  | sign :: rest => do
      let (hours, after) ← pair? rest
      let (minutes, after) ← match after with
        | ':' :: after => pair? after
        | _ => none
      if !after.isEmpty || 59 < minutes || 24 * 60 < 60 * hours + minutes then none
      else if sign = '+' || (sign = '-' && hours + minutes = 0) then return '+' :: rest
      else if sign = '-' then return '-' :: rest
      else none

def isTimeMark (c : Char) : Bool := c = 'T' || c = 't' || c = ' '

/-- A date, a time, or a date and a time with or without an offset, in the normal form. -/
def moment? (text : List Char) : Option (List Char) :=
  match date? text with
  | some (date, []) => some date
  | some (date, mark :: rest) =>
      if isTimeMark mark then do
        let (time, rest) ← time? rest
        let offset ← offset? rest
        return date ++ 'T' :: time ++ offset
      else none
  | none =>
      match time? text with
      | some (time, []) => some time
      | _ => none

def scalar (text : List Char) : Except Fault Node :=
  if text = ['t', 'r', 'u', 'e'] then .ok (.bool true)
  else if text = ['f', 'a', 'l', 's', 'e'] then .ok (.bool false)
  else
    match int? text with
    | some n => .ok (ofInt n)
    | none =>
        match float? text with
        | some node => .ok node
        | none =>
            match moment? text with
            | some moment => .ok (.moment (String.ofList moment))
            | none => .error (.noScalar (String.ofList text))

end RolePlan.Toml
