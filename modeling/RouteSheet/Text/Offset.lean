import RouteSheet.Text.Nesting
import RouteSheet.Text.Utf8

/-!
# Quoted runs and places as byte offsets

One layer of quotes around a text, and the first quoted run inside one. A run has
no escapes: it ends at the next quote of the kind that opened it.

The scanners answer with the text itself; here the same answers are given for and
as offsets in bytes. An offset behind which no character begins, because it lies
beyond the text or inside a character, has nothing behind it.
-/

namespace RouteSheet.Text

/-- The text without one layer of equal quotes around it. -/
def stripQuotes : List Char → List Char
  | [] => []
  | q :: rest => if isQuote q && rest.getLast? == some q then rest.dropLast else q :: rest

/-- Of a quoted text only the quotes around it are taken off. -/
theorem stripQuotes_quoted {q : Char} (hq : isQuote q = true) (s : List Char) :
    stripQuotes (q :: (s ++ [q])) = s := by
  simp [stripQuotes, hq]

/-- A quoted run and the text around it. -/
structure QuotedRun where
  before : List Char
  contents : List Char
  after : List Char
  deriving Repr, DecidableEq

/-- The first quoted run of a text. Only the first quote can open it: if that one is never
closed, there is none. -/
def firstQuoted? (s : List Char) : Option QuotedRun :=
  match takeRun (!isQuote ·) s with
  | (_, []) => none
  | (before, q :: rest) =>
    (cutAtChar? q rest).map fun (contents, after) => ⟨before, contents, after⟩

/-- What a parenthesis at an offset encloses. -/
def enclosedAt (offset : Nat) (s : List Char) : List Char :=
  match dropBytes? (offset + 1) s with
  | some rest => enclosed ⟨1, none⟩ rest
  | none => []

/-- The body of a block whose brace stands at an offset. -/
def blockBodyAt (offset : Nat) (s : List Char) : List Char :=
  match dropBytes? (offset + 1) s with
  | some rest => blockBody .top 1 rest
  | none => []

/-- The offset of the first separator at the top. -/
def topOffset? (sep : Char) (s : List Char) : Option Nat :=
  (cutTop? sep s).map fun cut => byteSize cut.1

/-- The offset of the first bracket that stands at the top. -/
def openingOffset? (bracket : Char) (s : List Char) : Option Nat :=
  (cutOpening? bracket s).map fun cut => byteSize cut.1

/-- The offset behind the closing quote of a run. -/
def QuotedRun.endOffset (run : QuotedRun) : Nat := byteSize run.before + byteSize run.contents + 2

end RouteSheet.Text
