/-!
# UTF-8

Bytes are read as characters one after another. Where no character can be read, the longest run of
bytes that begins one counts as one gap, and reading goes on behind it.
-/

namespace RolePlan.Text.Utf8

/-- A character that is begun: its bits so far, the bytes still missing, and the bounds of the next
byte. -/
structure Begun where
  bits : Nat
  missing : Nat
  least : Nat := 0x80
  greatest : Nat := 0xBF

/-- What a first byte begins. The bounds exclude overlong forms, surrogates and numbers beyond
the last character. -/
def begin? (byte : Nat) : Option Begun :=
  if byte < 0xC2 then none
  else if byte < 0xE0 then some { bits := byte - 0xC0, missing := 1 }
  else if byte < 0xF0 then
    some {
      bits := byte - 0xE0
      missing := 2
      least := if byte = 0xE0 then 0xA0 else 0x80
      greatest := if byte = 0xED then 0x9F else 0xBF }
  else if byte < 0xF5 then
    some {
      bits := byte - 0xF0
      missing := 3
      least := if byte = 0xF0 then 0x90 else 0x80
      greatest := if byte = 0xF4 then 0x8F else 0xBF }
  else none

/-- The characters of the bytes; none stands for a gap. -/
def decodeFrom (begun : Option Begun) : List Nat → List (Option Char)
  | [] => if begun.isSome then [none] else []
  | byte :: rest =>
      let first : List (Option Char) :=
        if byte < 0x80 then some (Char.ofNat byte) :: decodeFrom none rest
        else
          match begin? byte with
          | some next => decodeFrom (some next) rest
          | none => none :: decodeFrom none rest
      match begun with
      | none => first
      | some b =>
          if b.least ≤ byte && byte ≤ b.greatest then
            let bits := 64 * b.bits + (byte - 0x80)
            if b.missing = 1 then some (Char.ofNat bits) :: decodeFrom none rest
            else decodeFrom (some { bits, missing := b.missing - 1 }) rest
          else none :: first

def decode (bytes : ByteArray) : List (Option Char) :=
  decodeFrom none (bytes.data.toList.map UInt8.toNat)

def text? (bytes : ByteArray) : Option String := ((decode bytes).mapM id).map String.ofList

/-- The text of the bytes, with the replacement character in every gap. -/
def lossyText (bytes : ByteArray) : String :=
  String.ofList ((decode bytes).map (·.getD '\uFFFD'))

end RolePlan.Text.Utf8
