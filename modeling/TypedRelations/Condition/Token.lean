import TypedRelations.Value

/-!
# The tokens of the condition language

A condition is written in words, signs, literals and names. This module lists the tokens, gives
the text each of them has in messages, and holds the three tables that decide how characters are
told apart: the signs, the reserved words and the character classes.
-/

namespace TypedRelations.Condition

/-- A sign that relates two values. -/
inductive Relator where
  | eq
  | ne
  | lt
  | le
  | gt
  | ge
  deriving BEq, DecidableEq, ReflBEq, LawfulBEq, Repr

/-- How a relator is written. -/
def Relator.text : Relator → String
  | .eq => "=="
  | .ne => "!="
  | .lt => "<"
  | .le => "<="
  | .gt => ">"
  | .ge => ">="

/-- A unit of the condition language. -/
inductive Token where
  | openParen
  | closeParen
  | relator (sign : Relator)
  | conjunction
  | disjunction
  | negation
  | containment
  | null
  | bool (value : Bool)
  | int (value : Int64)
  | float (value : Binary64)
  | str (value : String)
  | name (word : String)
  deriving Repr

namespace Token

/-- How a token is written in messages. Strings are put between single quotes however they were
quoted, and names stand without quotes. -/
def text : Token → String
  | .openParen => "("
  | .closeParen => ")"
  | .relator sign => sign.text
  | .conjunction => "and"
  | .disjunction => "or"
  | .negation => "not"
  | .containment => "in"
  | .null => "null"
  | .bool value => (Value.bool value).text
  | .int value => (Value.int value).text
  | .float value => (Value.float value).text
  | .str value => "'" ++ value ++ "'"
  | .name word => word

instance : ToString Token := ⟨text⟩

/-- The words that are not names, with the tokens they stand for. -/
def reservedWords : List (String × Token) :=
  [("and", .conjunction), ("or", .disjunction), ("not", .negation), ("in", .containment),
    ("true", .bool true), ("True", .bool true), ("false", .bool false), ("False", .bool false),
    ("null", .null), ("None", .null)]

/-- The token a word stands for: a reserved word has its own, any other word is a name. -/
def ofWord (word : String) : Token := (reservedWords.lookup word).getD (.name word)

/-- The signs, each before those that it begins with. -/
def signs : List (List Char × Token) :=
  [(['=', '='], .relator .eq), (['!', '='], .relator .ne), (['<', '='], .relator .le),
    (['>', '='], .relator .ge), (['<'], .relator .lt), (['>'], .relator .gt),
    (['('], .openParen), ([')'], .closeParen)]

end Token

/-- The quote around strings that the texts of tokens use. -/
def singleQuote : Char := '\x27'

/-- The other quote around strings. -/
def doubleQuote : Char := '\x22'

/-- The quote around names. -/
def backQuote : Char := '\x60'

/-- Characters that separate tokens: space, tab, line feed, carriage return and form feed. -/
def isBlank (character : Char) : Bool :=
  character == ' ' || character == '\t' || character == '\n' || character == '\r' ||
    character == '\x0c'

/-- Characters that a word begins with: the ASCII letters and the underscore. -/
def isWordStart (character : Char) : Bool := character.isAlpha || character == '_'

/-- Characters inside a word: those that begin one and the ASCII digits. -/
def isWordPart (character : Char) : Bool := isWordStart character || character.isDigit

end TypedRelations.Condition
