import RouteSheet.Text.Basic
import RouteSheet.Text.Offset
import RouteSheet.Value.Basic

/-!
# Environment variables

A setting of the manifest is overridden by a variable whose name is made from its
section and field; all spellings of a name with the same words give one variable.
A value in a stylesheet may refer to a variable, and a file of variables may stand
beside the manifest; variables that are already set are never overridden by it. Not every
variable can be set: a file that sets one that cannot be ends the program.
-/

namespace RouteSheet

open Text

/-- The environment variables. -/
abbrev Environment := Fields String

/-- A character that separates the words of a name. -/
def isWordSeparator (c : Char) : Bool := c == '_' || c == '-' || c == '.'

/-- The letters of a variable's name, from a place on: whether an underscore has just been
written, and whether the last character was a small letter or a digit. -/
def variableLetters : Bool → Bool → List Char → List Char
  | _, _, [] => []
  | afterMark, afterSmall, c :: s =>
    if isWordSeparator c then
      if afterMark then variableLetters true false s else '_' :: variableLetters true false s
    else
      let rest := upperChar c :: variableLetters false (isLower c || isDigit c) s
      if isUpper c && afterSmall then '_' :: rest else rest

/-- A name in capitals, its words joined by single underscores. -/
def variableWords (name : String) : String :=
  String.ofList (variableLetters false false name.toList)

/-- The variable that overrides a field of a section. -/
def overrideKey (section_ field : String) : String :=
  "ROUTECSS_" ++ variableWords section_ ++ "_" ++ variableWords field

namespace Environment

/-- The overriding value of a field, unless it is blank. -/
def override? (env : Environment) (section_ field : String) : Option String :=
  (Fields.get? (overrideKey section_ field) env).filter fun value => !isBlankText value.toList

/-- The name that a reference to a variable holds. -/
def referredName? (s : List Char) : Option (List Char) := do
  let rest ← stripStart? "env(".toList s
  let inner ← stripEnd? [')'] rest
  some (trimMatches isQuote (trim inner))

/-- A text that is not empty. -/
def nonEmpty? (s : String) : Option String := if s.isEmpty then none else some s

/-- The value that a text stands for: that of a variable it refers to, or the text itself
without its quotes. An empty value is none. -/
def resolve? (env : Environment) (text : List Char) : Option String :=
  let s := trim text
  match referredName? s with
  | some name => (Fields.get? (String.ofList name) env).bind nonEmpty?
  | none => nonEmpty? (String.ofList (stripQuotes s))

/-- The variable that a line of a variables file sets. Blank lines, lines that begin with a
hash sign, lines without an equals sign and lines without a name set none. -/
def ofLine? (line : List Char) : Option (String × String) :=
  let s := trim line
  if s.isEmpty || s.head? == some '#' then none
  else
    match cutAtChar? '=' ((stripStart? "export ".toList s).getD s) with
    | none => none
    | some (name, value) =>
      let name := trim name
      if name.isEmpty then none
      else some (String.ofList name, String.ofList (stripQuotes (trim value)))

/-- The variables that a file sets, line by line. -/
def ofText (text : List Char) : List (String × String) := (lines text).filterMap ofLine?

/-- A variable can be set to a value: its name is not empty and holds neither an equals sign nor
the character of code zero, and the value does not hold that character either. -/
def isSettable (name value : String) : Bool :=
  !name.isEmpty && !name.toList.contains '=' && !name.toList.contains '\x00' &&
    !value.toList.contains '\x00'

/-- The environment with a variable set, if it can be set. -/
def set? (env : Environment) (name value : String) : Option Environment :=
  if isSettable name value then some (Fields.insert name value env) else none

/-- The environment with variables set that were not set before; of several values for one
name the first one counts. There is none if a variable is to be set that cannot be. -/
def extend? (env : Environment) (settings : List (String × String)) : Option Environment :=
  settings.foldlM (fun env (name, value) =>
    if (Fields.get? name env).isSome then some env else env.set? name value) env

end Environment

end RouteSheet
