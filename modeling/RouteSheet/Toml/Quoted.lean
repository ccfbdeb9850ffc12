import RouteSheet.Reader
import RouteSheet.Text.Basic

/-!
# Texts of TOML

A text stands in double quotes, where a backslash escapes, or in single quotes,
where nothing does; three quotes begin a text of several lines. A line feed right
behind three quotes is not part of the text, and up to two quotes may stand at its
end. Line ends are read as line feeds.
-/

namespace RouteSheet.Toml

open Reader

/-- A reader of characters. -/
abbrev Chars := Reader Char

/-- A given character. -/
def char (c : Char) : Chars Unit := do let _ ← satisfying (· == c)

/-- A given sequence of characters. -/
def phrase (s : String) : Chars Unit := s.toList.forM char

/-- A character that may stand in texts and comments: no control character but the tab. -/
def isTextChar (c : Char) : Bool := c == '\t' || (0x20 ≤ c.toNat && c.toNat != 0x7F)

/-- A blank within a line. -/
def isGapChar (c : Char) : Bool := c == ' ' || c == '\t'

/-- Blanks within a line. -/
def gap : Chars Unit := do let _ ← front isGapChar

/-- The end of a line. -/
def lineEnd : Chars Unit := do
  let _ ← maybe (char '\r')
  char '\n'

/-- The character of so many hexadecimal digits. -/
def codePoint (count : Nat) : Chars Char := do
  let ds ← (List.replicate count ()).mapM fun _ => satisfying fun c => (Text.hexValue? c).isSome
  let n := ds.foldl (fun n d => 16 * n + (Text.hexValue? d).getD 0) 0
  if n.isValidChar then pure (Char.ofNat n) else failure

/-- An escaped character. -/
def escape : Chars Char := do
  char '\\'
  match ← next with
  | 'b' => pure '\x08'
  | 't' => pure '\t'
  | 'n' => pure '\n'
  | 'f' => pure '\x0c'
  | 'r' => pure '\r'
  | '"' => pure '"'
  | '\\' => pure '\\'
  | 'u' => codePoint 4
  | 'U' => codePoint 8
  | _ => failure

/-- A character that stands for itself in double quotes. -/
def isPlainChar (c : Char) : Bool := isTextChar c && c != '"' && c != '\\'

/-- A character that stands for itself in single quotes. -/
def isLiteralChar (c : Char) : Bool := isTextChar c && c != '\''

/-- The first of two readers, or else the second. -/
def either {α : Type} (r s : Chars α) : Chars α := do
  match ← maybe r with
  | some a => pure a
  | none => s

/-- A text in double quotes. -/
def basicText : Chars String := do
  char '"'
  let cs ← many (either (satisfying isPlainChar) escape)
  char '"'
  return String.ofList cs

/-- A text in single quotes. -/
def literalText : Chars String := do
  char '\''
  let cs ← front isLiteralChar
  char '\''
  return String.ofList cs

/-- One or two quotes that no third one follows. -/
def fewQuotes (quote : Char) : Chars (List Char) := do
  let quotes ← front (· == quote)
  if quotes.length = 1 || quotes.length = 2 then pure quotes else failure

/-- The quotes at the end of a text of several lines: three of them, and up to two before them
that belong to the text. -/
def closingQuotes (quote : Char) : Chars (List Char) := do
  let quotes ← front (· == quote)
  if 3 ≤ quotes.length && quotes.length ≤ 5 then pure (quotes.drop 3) else failure

/-- A line end as part of a text. -/
def lineFeedPiece : Chars (List Char) := do
  lineEnd
  pure ['\n']

/-- A backslash at the end of a line, with all blanks and line ends behind it. -/
def continuation : Chars (List Char) := do
  char '\\'
  gap
  lineEnd
  let _ ← many (either lineEnd do let _ ← satisfying isGapChar)
  pure []

/-- A text of several lines in three quotes of a kind, made of pieces. -/
def longText (quote : Char) (piece : Chars (List Char)) : Chars String := do
  char quote
  char quote
  char quote
  let _ ← maybe lineEnd
  let pieces ← many (either piece (either lineFeedPiece (fewQuotes quote)))
  let last ← closingQuotes quote
  return String.ofList (pieces.flatten ++ last)

/-- A piece of a text in three double quotes. -/
def basicPiece : Chars (List Char) :=
  either (do return [← satisfying isPlainChar])
    (either continuation do return [← escape])

/-- A piece of a text in three single quotes. -/
def literalPiece : Chars (List Char) := do return [← satisfying isLiteralChar]

/-- A text in any quotes. -/
def quotedText : Chars String := do
  match ← get with
  | '"' :: '"' :: '"' :: _ => longText '"' basicPiece
  | '"' :: _ => basicText
  | '\'' :: '\'' :: '\'' :: _ => longText '\'' literalPiece
  | _ => literalText

end RouteSheet.Toml
