import RouteSheet.Text.Basic
import RouteSheet.Text.Length

/-!
# Selector attributes

An attribute stands in brackets: a name, an equals sign and a value in quotes or
bare, with blanks wherever they do not split a word. A bracket that opens no
attribute is passed over, and so is everything between attributes. A quoted value
that is not followed by the closing bracket is read once more as a bare one.
-/

namespace RouteSheet

open Text

/-- A named value of a selector. -/
structure Attribute where
  name : List Char
  value : List Char
  deriving Repr, DecidableEq

namespace Attribute

/-- A character of an attribute's name. -/
def isNameChar (c : Char) : Bool := isLetter c || c == '_' || c == '-'

/-- What stands behind a closing bracket and the blanks before it. -/
def closing? (s : List Char) : Option (List Char) := stripStart? [']'] (trimStart s)

/-- A value in quotes, up to the closing bracket, and the text behind it. -/
def quotedValue? : List Char → Option (List Char × List Char)
  | [] => none
  | q :: s =>
    if isQuote q then
      match cutAtChar? q s with
      | some (value, after) => (closing? after).map fun rest => (value, rest)
      | none => none
    else none

/-- A value without quotes, up to the closing bracket, and the text behind it. -/
def bareValue? (s : List Char) : Option (List Char × List Char) :=
  let (value, after) := takeRun (fun c => c != ']' && !isBlank c) s
  if value.isEmpty then none else (closing? after).map fun rest => (value, rest)

/-- The attribute that begins behind an opening bracket, and the text behind it. -/
def ofOpen? (s : List Char) : Option (Attribute × List Char) :=
  let (name, rest) := takeRun isNameChar (trimStart s)
  if name.isEmpty then none
  else
    match stripStart? ['='] (trimStart rest) with
    | none => none
    | some rest =>
      let rest := trimStart rest
      match (quotedValue? rest).or (bareValue? rest) with
      | some (value, after) => some (⟨name, value⟩, after)
      | none => none

/-- Behind the closing bracket less of the text is left. -/
theorem length_of_closing? {s rest : List Char} (h : closing? s = some rest) :
    rest.length < s.length := by
  have := length_of_stripStart? h
  have := length_dropWhile_le isBlank s
  simp only [trimStart, List.length_cons] at *
  omega

/-- Behind a quoted value less of the text is left. -/
theorem length_of_quotedValue? {s value rest : List Char}
    (h : quotedValue? s = some (value, rest)) : rest.length < s.length := by
  unfold quotedValue? at h
  split at h
  · cases h
  · next q s =>
    split at h
    · split at h
      · next v after hc =>
        obtain ⟨r, hr, he⟩ := Option.map_eq_some_iff.mp h
        cases he
        have := length_of_cutAtChar? hc
        have := length_of_closing? hr
        simp only [List.length_cons]
        omega
      · cases h
    · cases h

/-- Behind a bare value less of the text is left. -/
theorem length_of_bareValue? {s value rest : List Char} (h : bareValue? s = some (value, rest)) :
    rest.length < s.length := by
  have hs := length_takeRun (fun c => c != ']' && !isBlank c) s
  unfold bareValue? at h
  simp only at h
  split at h
  · cases h
  · obtain ⟨r, hr, he⟩ := Option.map_eq_some_iff.mp h
    cases he
    have := length_of_closing? hr
    omega

/-- Behind an opened attribute no more of the text is left. -/
theorem length_of_ofOpen? {s rest : List Char} {a : Attribute}
    (h : ofOpen? s = some (a, rest)) : rest.length ≤ s.length := by
  have hs := length_takeRun isNameChar (trimStart s)
  have hb := length_dropWhile_le isBlank s
  have hn := length_dropWhile_le isBlank (takeRun isNameChar (trimStart s)).2
  unfold ofOpen? at h
  simp only at h
  split at h
  · cases h
  · split at h
    · cases h
    · next r hr =>
      have he := length_of_stripStart? hr
      have hv := length_dropWhile_le isBlank r
      split at h
      · next v after hv' =>
        cases h
        simp only [trimStart, List.length_cons] at *
        rcases Option.or_eq_some_iff.mp hv' with hq | ⟨_, hq⟩
        · have := length_of_quotedValue? hq; omega
        · have := length_of_bareValue? hq; omega
      · cases h

/-- The attribute that a text begins with, and the text behind it. -/
def ofText? : List Char → Option (Attribute × List Char)
  | '[' :: s => ofOpen? s
  | _ => none

/-- Behind an attribute less of the text is left. -/
theorem length_of_ofText? {s rest : List Char} {a : Attribute}
    (h : ofText? s = some (a, rest)) : rest.length < s.length := by
  unfold ofText? at h
  split at h
  · have := length_of_ofOpen? h
    simp only [List.length_cons]
    omega
  · cases h

/-- The attributes of a text, in order. -/
def all (s : List Char) : List Attribute :=
  match _ : ofText? s with
  | some (a, rest) => a :: all rest
  | none =>
    match _ : s with
    | [] => []
    | _ :: rest => all rest
termination_by s.length
decreasing_by
  · exact length_of_ofText? ‹_›
  · simp_all

end Attribute

end RouteSheet
