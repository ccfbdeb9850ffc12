import RouteSheet.Text.Basic

/-!
# Quotes, parentheses and comments

Every separator of the language counts only at the top: outside quotes and at
parenthesis depth zero. A run of quoted text opens with a single or double quote
and ends at the next quote of the same kind, with no escapes; inside it nothing
counts. Brackets and braces are ordinary text. The depth may go below zero, and a
text below zero is no more at the top than one above.

A comment opens with a slash and a star outside quotes and runs to the first star
and slash behind its opening, or to the end of the text. It is blanked out, not
cut out, and its line feeds stay, so that every line keeps its number.
-/

namespace RouteSheet.Text

/-- A character that opens a quoted run. -/
def isQuote (c : Char) : Bool := c == '"' || c == '\''

/-- How deep a place in a text lies: the open parentheses and the open quote. -/
structure Nesting where
  depth : Int
  quote : Option Char
  deriving Repr, DecidableEq

namespace Nesting

/-- The place before the first character. -/
def top : Nesting := ⟨0, none⟩

/-- Outside quotes and at depth zero. -/
def atTop (n : Nesting) : Bool := n.depth == 0 && n.quote.isNone

/-- The place behind one more character. -/
def next (n : Nesting) (c : Char) : Nesting :=
  match n.quote with
  | some q => if c = q then { n with quote := none } else n
  | none =>
    if isQuote c then { n with quote := some c }
    else if c = '(' then { n with depth := n.depth + 1 }
    else if c = ')' then { n with depth := n.depth - 1 }
    else n

/-- The place behind a text. -/
def run (n : Nesting) (s : List Char) : Nesting := s.foldl next n

/-- A character here may separate: it stands at the top and is itself neither quote nor
parenthesis. -/
def separates (n : Nesting) (c : Char) : Bool :=
  n.atTop && !isQuote c && c != '(' && c != ')'

/-- The same place, with parentheses that were never opened forgotten. -/
def floored (n : Nesting) : Nesting := { n with depth := max n.depth 0 }

end Nesting

/-- The characters up to the parenthesis that brings the depth to zero, or all of them. -/
def enclosed : Nesting → List Char → List Char
  | _, [] => []
  | n, c :: s => if (n.next c).depth = 0 then [] else c :: enclosed (n.next c) s

/-- The characters up to the brace that closes the last of the open braces, or all of them.
Braces count only at the top, and a stray closing parenthesis does not hide them. -/
def blockBody : Nesting → Nat → List Char → List Char
  | _, _, [] => []
  | n, braces, c :: s =>
    if n.separates c && c == '\x7d' && braces ≤ 1 then []
    else
      let braces :=
        if n.separates c && c == '\x7b' then braces + 1
        else if n.separates c && c == '\x7d' then braces - 1
        else braces
      c :: blockBody (n.next c).floored braces s

/-- What stands between the parentheses of a call of the given name. -/
def callArguments? (name s : List Char) : Option (List Char) :=
  match stripStart? name s with
  | some ('(' :: rest) => some (enclosed ⟨1, none⟩ rest)
  | _ => none

/-- The parts between the separators that stand at the top, from a place on. -/
def splitFrom (sep : Char) : Nesting → List Char → List (List Char)
  | _, [] => [[]]
  | n, c :: s =>
    if n.separates c && c == sep then [] :: splitFrom sep (n.next c) s
    else extendFirst c (splitFrom sep (n.next c) s)

/-- The parts between the separators that stand at the top; there is always at least one. -/
def splitTop (sep : Char) (s : List Char) : List (List Char) := splitFrom sep .top s

/-- What stands before and behind the first separator at the top, from a place on. -/
def cutFrom? (sep : Char) : Nesting → List Char → Option (List Char × List Char)
  | _, [] => none
  | n, c :: s =>
    if n.separates c && c == sep then some ([], s)
    else (cutFrom? sep (n.next c) s).map fun (before, after) => (c :: before, after)

/-- What stands before and behind the first separator at the top. -/
def cutTop? (sep : Char) (s : List Char) : Option (List Char × List Char) := cutFrom? sep .top s

/-- What stands before and behind the first bracket that itself stands at the top, from a
place on. -/
def cutOpeningFrom? (bracket : Char) : Nesting → List Char → Option (List Char × List Char)
  | _, [] => none
  | n, c :: s =>
    if c == bracket && n.atTop then some ([], s)
    else (cutOpeningFrom? bracket (n.next c) s).map fun (before, after) => (c :: before, after)

/-- What stands before and behind the first bracket that itself stands at the top. The bracket
may be a quote or a parenthesis, which never separates. -/
def cutOpening? (bracket : Char) (s : List Char) : Option (List Char × List Char) :=
  cutOpeningFrom? bracket .top s

/-- Where a place lies with respect to comments and quotes. -/
inductive Passage where
  | code
  | quoted (quote : Char)
  /-- inside a comment; the flag says that the last character was a star of that comment -/
  | comment (afterStar : Bool)
  deriving Repr, DecidableEq

/-- What a character of a comment leaves behind. -/
def blankedOut (c : Char) : Char := if c = '\n' then '\n' else ' '

/-- The text with its comments blanked out, from a passage on. -/
def blankCommentsFrom : Passage → List Char → List Char
  | _, [] => []
  | .code, '/' :: '*' :: s => ' ' :: ' ' :: blankCommentsFrom (.comment false) s
  | .code, c :: s => c :: blankCommentsFrom (if isQuote c then .quoted c else .code) s
  | .quoted q, c :: s => c :: blankCommentsFrom (if c = q then .code else .quoted q) s
  | .comment afterStar, c :: s =>
    if afterStar && c == '/' then ' ' :: blankCommentsFrom .code s
    else blankedOut c :: blankCommentsFrom (.comment (c == '*')) s

/-- The text with its comments blanked out. -/
def blankComments (s : List Char) : List Char := blankCommentsFrom .code s

end RouteSheet.Text
