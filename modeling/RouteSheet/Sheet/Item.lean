import RouteSheet.Text.Length
import RouteSheet.Text.Nesting

/-!
# Items of a stylesheet

A sheet without its comments is a sequence of items: at-rules up to a semicolon,
blocks of a selector and a body in braces, and text that is neither. Each item is
found by looking at the rest of the sheet alone, and each takes at least one
character, so the sequence ends. Lines are counted along the way.
-/

namespace RouteSheet

open Text

/-- An item of a sheet, with the line it begins on. -/
inductive Item where
  /-- what stands between an at sign and a semicolon -/
  | rule (text : List Char) (line : Nat)
  /-- a selector and a body, with the line the body begins on -/
  | block (selector body : List Char) (line bodyLine : Nat)
  /-- text before a semicolon where a selector was expected -/
  | stray (text : List Char) (line : Nat)
  /-- text without an opening brace, up to the end of the sheet -/
  | unopened (text : List Char) (line : Nat)
  deriving Repr, DecidableEq

namespace Item

/-- The item that a text begins with and the text behind it. -/
def next (s : List Char) (line : Nat) : Item × List Char :=
  match s with
  | '@' :: rest =>
    match cutTop? ';' rest with
    | some (text, after) => (.rule text line, after)
    | none => (.rule rest line, [])
  | _ =>
    match cutOpening? '\x7b' s with
    | none => (.unopened s line, [])
    | some (selector, after) =>
      match cutTop? ';' selector with
      | some (text, _) => (.stray text line, s.drop (text.length + 1))
      | none =>
        let body := blockBody .top 1 after
        (.block selector body line (line + lineFeeds selector), after.drop (body.length + 1))

/-- Behind an item less of the text is left, so reading one item after the other ends. -/
theorem length_next_lt {s : List Char} (line : Nat) (hs : s ≠ []) :
    (next s line).2.length < s.length := by
  unfold next
  split
  · split
    · next h => have := length_of_cutTop? h; simp only [List.length_cons]; omega
    · simp
  · split
    · exact List.length_pos_iff.mpr hs
    · next h =>
      have := length_of_cutOpening? h
      split
      · simp only [List.length_drop]
        have := List.length_pos_iff.mpr hs
        omega
      · simp only [List.length_drop]
        omega

/-- The items of a text that begins on a line. -/
def all (line : Nat) (s : List Char) : List Item :=
  let start := trimStart s
  if _ : start = [] then []
  else
    let startLine := line + lineFeeds (s.takeWhile isBlank)
    let found := next start startLine
    let taken := start.take (start.length - found.2.length)
    found.1 :: all (startLine + lineFeeds taken) found.2
termination_by s.length
decreasing_by
  exact Nat.lt_of_lt_of_le (length_next_lt _ ‹_›) (length_dropWhile_le isBlank s)

/-- The items of a stylesheet. -/
def ofSheet (s : List Char) : List Item := all 1 (blankComments s)

end Item

/-- A declaration inside a block, without the blanks around it, and its line. -/
structure Declaration where
  text : List Char
  line : Nat
  deriving Repr, DecidableEq

namespace Declaration

/-- The declarations of the parts of a body, where the first part begins on a line. Blank parts
declare nothing. -/
def ofParts : Nat → List (List Char) → List Declaration
  | _, [] => []
  | line, part :: rest =>
    let others := ofParts (line + lineFeeds part) rest
    if (trim part).isEmpty then others
    else ⟨trim part, line + lineFeeds (part.takeWhile isBlank)⟩ :: others

/-- The declarations of a body that begins on a line. -/
def ofBody (line : Nat) (body : List Char) : List Declaration := ofParts line (splitTop ';' body)

end Declaration

end RouteSheet
