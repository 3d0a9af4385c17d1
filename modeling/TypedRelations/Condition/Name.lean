import TypedRelations.Condition.Token

/-!
# Writing names in conditions

A condition that is put together from names has to be read back with the same names. A name that
looks like one in the condition language is written as it is; every other name is put between back
quotes, which works for all names that are not empty and contain no back quote.
-/

namespace TypedRelations.Condition

/-- The characters are words with single dots between them. The flag says that a word has to begin
here. -/
def areDottedWords (atStart : Bool) : List Char → Bool
  | [] => !atStart
  | character :: rest =>
    if atStart then isWordStart character && areDottedWords false rest
    else if character == '.' then areDottedWords true rest
    else isWordPart character && areDottedWords false rest

/-- The name is read as itself when it is written without quotes. -/
def isPlainName (name : String) : Bool :=
  areDottedWords true name.toList && (Token.reservedWords.lookup name).isNone

/-- The way a name is written in a condition. -/
def nameText (name : String) : String :=
  if isPlainName name then name else "`" ++ name ++ "`"

end TypedRelations.Condition
