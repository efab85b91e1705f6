/-!
# Finite binary64 numbers

A finite double is a sign, a significand below `2 ^ 53` and a power of two. `nearest?` rounds an
exact decimal to it, ties going to the even significand, in exact arithmetic on natural numbers.

Every decimal strictly between the midpoints to the neighbouring doubles reads back as the double
itself; a midpoint does so exactly when the significand is even. `shortest` takes the coarsest
decimal grid that has a point in that interval, and on it the point nearest to the value. If a
point of a grid lies in the interval, so does one of the value's two neighbours on that grid, so
only these are tried.

`render` writes the shortest digits in one of the documents' number formats; `parse?` reads an
unsigned or signed decimal with an optional fraction and exponent.
-/

namespace RolePlan

/-- The number `± significand * 2 ^ exponent`, with the significand at least `2 ^ 52` unless the
exponent is `-1074`, the least one. -/
structure Binary64 where
  negative : Bool
  significand : Nat
  exponent : Int
  deriving DecidableEq, Repr

namespace Binary64

def leastExponent : Int := -1074

def greatestExponent : Int := 971

def zero (negative : Bool) : Binary64 := ⟨negative, 0, leastExponent⟩

/-- Equality of values: the two zeros are one value. -/
def same (x y : Binary64) : Bool :=
  x = y || (x.significand == 0 && y.significand == 0)

/-! ## Rounding -/

/-- The quotient `num / den` rounded to a natural number, a tie going to the even neighbour. -/
def roundDiv (num den : Nat) : Nat :=
  let floor := num / den
  let twice := 2 * (num % den)
  if twice < den then floor
  else if twice = den then floor + floor % 2
  else floor + 1

def powerFraction (base : Nat) (e : Int) : Nat × Nat :=
  if 0 ≤ e then (Nat.pow base e.toNat, 1) else (1, Nat.pow base (-e).toNat)

/-- The magnitude `num / den` rounded to a significand and an exponent; none if it is too large. -/
def nearestMagnitude? (num den : Nat) : Option (Nat × Int) :=
  let low := max ((num.log2 : Int) - den.log2 - 53) leastExponent
  let scaled (e : Int) : Nat × Nat :=
    let (p, q) := powerFraction 2 e
    (num * q, den * p)
  let floorAt (e : Int) : Nat := (scaled e).1 / (scaled e).2
  let e := if floorAt low < Nat.pow 2 53 then low else low + 1
  let m := roundDiv (scaled e).1 (scaled e).2
  let (m, e) := if m = Nat.pow 2 53 then (Nat.pow 2 52, e + 1) else (m, e)
  if e ≤ greatestExponent then some (m, e) else none

/-- The double nearest to `± digits * 10 ^ power`, none if it is beyond the greatest one. Powers
far outside the range are decided by the number of digits alone. -/
def nearest? (negative : Bool) (digits : Nat) (power : Int) : Option Binary64 :=
  let magnitude : Int := (Nat.toDigits 10 digits).length + power
  if digits = 0 || magnitude < -330 then some (zero negative)
  else if 330 < magnitude then none
  else
    let (p, q) := powerFraction 10 power
    (nearestMagnitude? (digits * p) q).map fun (m, e) => ⟨negative, m, e⟩

/-! ## The shortest decimal -/

/-- Compares `a * 10 ^ k` with `b * 2 ^ e`. -/
def compareScaled (a : Nat) (k : Int) (b : Nat) (e : Int) : Ordering :=
  let (p, q) := powerFraction 10 k
  let (r, s) := powerFraction 2 e
  compare (a * p * s) (b * r * q)

/-- The greatest natural number `d` with `d * 10 ^ k ≤ b * 2 ^ e`. -/
def gridFloor (k : Int) (b : Nat) (e : Int) : Nat :=
  let (p, q) := powerFraction 10 k
  let (r, s) := powerFraction 2 e
  (b * r * q) / (p * s)

/-- The ends of the interval of decimals that read back, in units of `2 ^ (exponent - 2)`. Below a
power of two the neighbour is half as far away. -/
def interval (x : Binary64) : Nat × Nat :=
  let below :=
    if x.significand = Nat.pow 2 52 && x.exponent ≠ leastExponent then 1 else 2
  (4 * x.significand - below, 4 * x.significand + 2)

def readsBack (x : Binary64) (d : Nat) (k : Int) : Bool :=
  let (low, high) := x.interval
  let unit := x.exponent - 2
  let closed := x.significand % 2 = 0
  let aboveLow := match compareScaled d k low unit with
    | .gt => true
    | .eq => closed
    | .lt => false
  let belowHigh := match compareScaled d k high unit with
    | .lt => true
    | .eq => closed
    | .gt => false
  aboveLow && belowHigh

/-- The number of decimal digits before the point, zero or negative for a number below one:
`10 ^ (p - 1) ≤ value < 10 ^ p` for the result `p`. The first guess is at most one too low. -/
def decimalPoint (x : Binary64) : Int :=
  let guess := ((x.significand.log2 : Int) + x.exponent) * 30103 / 100000
  if compareScaled 1 (guess + 1) x.significand x.exponent = .gt then guess + 1 else guess + 2

/-- The point of the grid `10 ^ k` that reads back and is nearest to the value, of two equally near
the even one. -/
def gridPoint? (x : Binary64) (k : Int) : Option Nat :=
  let d := gridFloor k x.significand x.exponent
  match x.readsBack d k, x.readsBack (d + 1) k with
  | false, false => none
  | true, false => some d
  | false, true => some (d + 1)
  | true, true =>
      match compareScaled (2 * d + 1) k (2 * x.significand) x.exponent with
      | .gt => some d
      | .lt => some (d + 1)
      | .eq => some (d + d % 2)

def shortestFuel (x : Binary64) (point : Int) : Nat → Nat → Nat × Int
  | 0, digits => (gridFloor (point - digits) x.significand x.exponent, point - digits)
  | fuel + 1, digits =>
      match x.gridPoint? (point - digits) with
      | some d => (d, point - digits)
      | none => shortestFuel x point fuel (digits + 1)

def dropZerosFuel : Nat → Nat → Int → Nat × Int
  | 0, d, k => (d, k)
  | fuel + 1, d, k =>
      if d ≠ 0 && d % 10 = 0 then dropZerosFuel fuel (d / 10) (k + 1) else (d, k)

/-- The digits `d` and the power `k` of the shortest decimal `d * 10 ^ k` that reads back. Seventeen
digits always suffice. -/
def shortest (x : Binary64) : Nat × Int :=
  if x.significand = 0 then (0, 0)
  else
    let (d, k) := shortestFuel x x.decimalPoint 17 1
    dropZerosFuel 17 d k

/-! ## Decimal text -/

/-- How a number is laid out: positionally while the decimal point stands within the given bounds,
otherwise with an exponent. -/
structure Notation where
  /-- The least number of digits before the point that is still written positionally; it is
  negative or zero when zeros follow the point. -/
  leastPoint : Int
  greatestPoint : Int
  /-- Stands before a positive exponent. -/
  positiveExponent : String
  deriving DecidableEq, Repr

/-- Values inside other text: a positive exponent carries its sign. -/
def Notation.inText : Notation := ⟨-4, 16, "+"⟩

/-- Composed documents write a positive exponent without a sign. -/
def Notation.inDocument : Notation := ⟨-4, 16, ""⟩

def zeros (n : Nat) : String := String.ofList (List.replicate n '0')

def renderMagnitude (format : Notation) (d : Nat) (k : Int) : String :=
  let digits := Nat.toDigits 10 d
  let count : Int := digits.length
  let point := count + k
  if point < format.leastPoint || format.greatestPoint < point then
    let fraction := if digits.length ≤ 1 then "" else "." ++ String.ofList (digits.drop 1)
    let exponent := point - 1
    let sign := if 0 ≤ exponent then format.positiveExponent else "-"
    String.ofList (digits.take 1) ++ fraction ++ "e" ++ sign ++ toString exponent.natAbs
  else if point ≤ 0 then
    "0." ++ zeros (-point).toNat ++ String.ofList digits
  else if 0 ≤ k then
    String.ofList digits ++ zeros k.toNat ++ ".0"
  else
    String.ofList (digits.take point.toNat) ++ "." ++ String.ofList (digits.drop point.toNat)

def render (format : Notation) (x : Binary64) : String :=
  let sign := if x.negative then "-" else ""
  if x.significand = 0 then sign ++ "0.0"
  else
    let (d, k) := x.shortest
    sign ++ renderMagnitude format d k

def isDigit (c : Char) : Bool := '0' ≤ c && c ≤ '9'

def ofDigits (digits : List Char) : Nat :=
  digits.foldl (fun n c => 10 * n + (c.toNat - '0'.toNat)) 0

/-- Reads `e`, an optional sign and digits up to the end; the empty text is the exponent zero. -/
def exponent? : List Char → Option Int
  | [] => some 0
  | mark :: rest =>
      if mark = 'e' || mark = 'E' then
        let (negative, digits) := match rest with
          | '-' :: digits => (true, digits)
          | '+' :: digits => (false, digits)
          | digits => (false, digits)
        if digits.isEmpty || !digits.all isDigit then none
        else some (if negative then -(ofDigits digits : Int) else ofDigits digits)
      else none

/-- The sign, digits and power of ten of a decimal such as `-12.5e3`, `.5` or `5.`. -/
def decimal? (text : List Char) : Option (Bool × Nat × Int) :=
  let (negative, text) := match text with
    | '-' :: rest => (true, rest)
    | '+' :: rest => (false, rest)
    | rest => (false, rest)
  let whole := text.takeWhile isDigit
  let afterWhole := text.dropWhile isDigit
  let (fraction, afterFraction) := match afterWhole with
    | '.' :: rest => (rest.takeWhile isDigit, rest.dropWhile isDigit)
    | rest => ([], rest)
  if whole.isEmpty && fraction.isEmpty then none
  else
    (exponent? afterFraction).map fun e =>
      (negative, ofDigits (whole ++ fraction), e - fraction.length)

/-- The double that a decimal text stands for; none if the text is no decimal or is too large. -/
def parse? (text : String) : Option Binary64 :=
  (decimal? text.toList).bind fun (negative, digits, power) => nearest? negative digits power

end Binary64

end RolePlan
