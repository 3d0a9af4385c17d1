import TypedRelations.Condition.Fault

/-!
# Splitting a text into lexemes

A lexeme is a token with the text it was written with and the place it stands at. Blanks are passed
over, and everywhere else the longest text that makes up a token is taken, however far a longer
attempt got before it failed. So `1.5e+` begins with the number `1.5`, and `nothing` is one name.
`Token.scan` takes one token off the front of a text, and `Lexeme.ofText` splits a whole text.
-/

namespace TypedRelations.Condition

/-- A token as it stands in a text. The start counts the bytes before it in UTF-8. -/
structure Lexeme where
  token : Token
  text : List Char
  start : Nat
  deriving Repr

/-- The longest run of word characters and of dots that stand directly before the beginning of a
word. This is what may follow the first character of a name. -/
def nameTail : List Char → List Char
  | '.' :: next :: rest =>
    if isWordStart next then '.' :: next :: nameTail rest else []
  | character :: rest => if isWordPart character then character :: nameTail rest else []
  | [] => []

/-- The digits that a text begins with. -/
def leadingDigits (input : List Char) : List Char := input.takeWhile Char.isDigit

/-- The fraction that a text begins with: a point and at least one digit. -/
def leadingFraction : List Char → List Char
  | '.' :: rest => if (leadingDigits rest).isEmpty then [] else '.' :: leadingDigits rest
  | _ => []

/-- The sign that a text begins with, if it does. -/
def leadingSign (input : List Char) : List Char :=
  (input.take 1).filter fun character => character == '+' || character == '-'

/-- The power of ten that a text begins with: the letter, a sign or none, and at least one
digit. -/
def leadingExponent : List Char → List Char
  | letter :: rest =>
    let sign := leadingSign rest
    let digits := leadingDigits (rest.drop sign.length)
    if (letter == 'e' || letter == 'E') && !digits.isEmpty then letter :: sign ++ digits else []
  | [] => []

/-- The natural number that a list of digits stands for. -/
def digitsValue (digits : List Char) : Nat := Nat.ofDigitChars 10 digits 0

/-- The integer that an exponent stands for, its letter included. -/
def exponentValue : List Char → Int
  | _ :: '+' :: digits => digitsValue digits
  | _ :: '-' :: digits => -digitsValue digits
  | _ :: digits => digitsValue digits
  | [] => 0

namespace Token

/-- A token and the text it takes off the front of the input, or the text that no token begins
with. -/
abbrev Scan := Except (List Char) (Token × List Char)

/-- The minus sign of a number that has one. -/
def signText (negative : Bool) : List Char := if negative then ['-'] else []

/-- The integer with the given sign and digits, if it fits into sixty-four bits. -/
def integer? (negative : Bool) (digits : List Char) : Option Int64 :=
  let value : Int := if negative then -(digitsValue digits : Int) else digitsValue digits
  if Int64.minValue.toInt ≤ value ∧ value ≤ Int64.maxValue.toInt then some (Int64.ofInt value)
  else none

/-- Reads a number whose sign has been read. Digits alone are an integer, which has to fit into
sixty-four bits; with a fraction, and with an exponent after it or not, they are the nearest
floating-point number. -/
def scanNumber (negative : Bool) (input : List Char) : Scan :=
  let whole := leadingDigits input
  let fraction := leadingFraction (input.drop whole.length)
  if fraction.isEmpty then
    match integer? negative whole with
    | some value => .ok (.int value, signText negative ++ whole)
    | none => .error (signText negative ++ whole)
  else
    let exponent := leadingExponent ((input.drop whole.length).drop fraction.length)
    let places := fraction.length - 1
    let value := Binary64.ofDecimal negative (digitsValue (whole ++ fraction.drop 1))
      (exponentValue exponent - places)
    .ok (.float value, signText negative ++ (whole ++ (fraction ++ exponent)))

/-- Reads a text between two equal quotes; the opening one has been read. What is never closed is
unexpected as a whole. -/
def scanQuoted (quote : Char) (make : String → Token) (input : List Char) : Scan :=
  let body := input.takeWhile (· != quote)
  if body.length < input.length then .ok (make (String.ofList body), quote :: body ++ [quote])
  else .error (quote :: input)

/-- Takes the longest token off the front of a text that begins with the given character. A name
between back quotes must not be empty. -/
def scan (first : Char) (rest : List Char) : Scan :=
  if isWordStart first then
    let word := first :: nameTail rest
    .ok (ofWord (String.ofList word), word)
  else if first.isDigit then scanNumber false (first :: rest)
  else if first == '-' && (rest.head?.any Char.isDigit) then scanNumber true rest
  else if first == singleQuote || first == doubleQuote then scanQuoted first .str rest
  else if first == backQuote then
    if rest.head?.all (· == backQuote) then .error [first] else scanQuoted first .name rest
  else
    match signs.find? fun (sign, _) => sign.isPrefixOf (first :: rest) with
    | some (sign, token) => .ok (token, sign)
    | none => .error [first]

end Token

namespace Lexeme

/-- Splits the part of a text that begins at a position, in bytes, after passing over the given
number of characters, which belong to a lexeme that has been taken already. -/
def scanFrom (covered position : Nat) : List Char → Except Fault (List Lexeme)
  | [] => .ok []
  | first :: rest =>
    let next := position + first.utf8Size
    if covered ≠ 0 then scanFrom (covered - 1) next rest
    else if isBlank first then scanFrom 0 next rest
    else
      match Token.scan first rest with
      | .ok (token, text) =>
        (scanFrom (text.length - 1) next rest).map (⟨token, text, position⟩ :: ·)
      | .error text => .error (.unexpectedText (String.ofList text) position)

/-- The lexemes of a text in order, or the first piece of it that is no token. -/
def ofText (source : String) : Except Fault (List Lexeme) := scanFrom 0 0 source.toList

end Lexeme

end TypedRelations.Condition
