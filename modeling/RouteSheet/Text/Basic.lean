/-!
# Characters and cuts

A character is blank when it has the Unicode property White_Space: twenty-five
characters in ten ranges, more than the four that core calls whitespace.
Trimming removes blanks from the ends of a text and touches nothing between.

Case folding, names and keywords know the twenty-six letters of ASCII only; every
other character is left as it is.

A numeral is recognised by the Unicode category Nd, the decimal digits of all
scripts (version 16, 760 characters in runs of ten), but its value is read from
the ten ASCII digits alone. Both classes stand here, with the value of a digit.

A text is cut at a character, at the first occurrence of a phrase, and at line ends.
Nothing here knows of quotes or parentheses.
-/

namespace RouteSheet.Text

/-- Closed ranges of code points hold a character. -/
def inRanges (ranges : List (Nat × Nat)) (c : Char) : Bool :=
  ranges.any fun r => r.1 ≤ c.toNat && c.toNat ≤ r.2

/-- The code points with the property White_Space, ascending and apart. -/
def blankRanges : List (Nat × Nat) :=
  [(0x09, 0x0D), (0x20, 0x20), (0x85, 0x85), (0xA0, 0xA0), (0x1680, 0x1680), (0x2000, 0x200A),
   (0x2028, 0x2029), (0x202F, 0x202F), (0x205F, 0x205F), (0x3000, 0x3000)]

/-- The character is blank. -/
def isBlank (c : Char) : Bool := inRanges blankRanges c

/-- The text without its leading blanks. -/
def trimStart (s : List Char) : List Char := s.dropWhile isBlank

/-- The text without its trailing blanks. -/
def trimEnd (s : List Char) : List Char := (s.reverse.dropWhile isBlank).reverse

/-- The text without leading and trailing blanks. -/
def trim (s : List Char) : List Char := trimEnd (trimStart s)

/-- Nothing but blanks. -/
def isBlankText (s : List Char) : Bool := s.all isBlank

/-- The text without the characters of a class at both ends. -/
def trimMatches (p : Char → Bool) (s : List Char) : List Char :=
  ((s.dropWhile p).reverse.dropWhile p).reverse

/-- An ASCII letter in upper case. -/
def isUpper (c : Char) : Bool := 'A' ≤ c && c ≤ 'Z'

/-- An ASCII letter in lower case. -/
def isLower (c : Char) : Bool := 'a' ≤ c && c ≤ 'z'

/-- An ASCII letter. -/
def isLetter (c : Char) : Bool := isUpper c || isLower c

/-- The character with an ASCII letter turned to upper case. -/
def upperChar (c : Char) : Char := if isLower c then Char.ofNat (c.toNat - 32) else c

/-- The character with an ASCII letter turned to lower case. -/
def lowerChar (c : Char) : Char := if isUpper c then Char.ofNat (c.toNat + 32) else c

/-- The text with its ASCII letters in upper case. -/
def upper (s : List Char) : List Char := s.map upperChar

/-- The text with its ASCII letters in lower case. -/
def lower (s : List Char) : List Char := s.map lowerChar

/-- The texts are equal up to the case of ASCII letters. -/
def equalFolded (s t : List Char) : Bool := lower s == lower t

/-- The code point of the zero of each run of ten decimal digits. -/
def digitZeros : List Nat :=
  [0x0030, 0x0660, 0x06F0, 0x07C0, 0x0966, 0x09E6, 0x0A66, 0x0AE6, 0x0B66, 0x0BE6, 0x0C66, 0x0CE6,
   0x0D66, 0x0DE6, 0x0E50, 0x0ED0, 0x0F20, 0x1040, 0x1090, 0x17E0, 0x1810, 0x1946, 0x19D0, 0x1A80,
   0x1A90, 0x1B50, 0x1BB0, 0x1C40, 0x1C50, 0xA620, 0xA8D0, 0xA900, 0xA9D0, 0xA9F0, 0xAA50, 0xABF0,
   0xFF10, 0x104A0, 0x10D30, 0x10D40, 0x11066, 0x110F0, 0x11136, 0x111D0, 0x112F0, 0x11450, 0x114D0,
   0x11650, 0x116C0, 0x116D0, 0x116DA, 0x11730, 0x118E0, 0x11950, 0x11BF0, 0x11C50, 0x11D50,
   0x11DA0, 0x11F50, 0x16130, 0x16A60, 0x16AC0, 0x16B50, 0x16D70, 0x1CCF0, 0x1D7CE, 0x1D7D8,
   0x1D7E2, 0x1D7EC, 0x1D7F6, 0x1E140, 0x1E2F0, 0x1E4F0, 0x1E5F1, 0x1E950, 0x1FBF0]

/-- The ranges of the category Nd. -/
def digitRanges : List (Nat × Nat) := digitZeros.map fun z => (z, z + 9)

/-- A decimal digit of some script. -/
def isDecimalDigit (c : Char) : Bool := inRanges digitRanges c

/-- One of the ten ASCII digits. -/
def isDigit (c : Char) : Bool := '0' ≤ c && c ≤ '9'

/-- The value of an ASCII digit. -/
def digitValue (c : Char) : Nat := c.toNat - '0'.toNat

/-- The natural number that ASCII digits write, most significant first. -/
def natOfDigits (ds : List Char) : Nat := ds.foldl (fun n d => 10 * n + digitValue d) 0

/-- The number that a sequence of ASCII digits writes, with a plus sign allowed in front;
nothing else is accepted, and nothing above the largest value. -/
def unsigned? (largest : Nat) (s : List Char) : Option Nat :=
  let ds := match s with
    | '+' :: rest => rest
    | _ => s
  if ds.isEmpty || !ds.all isDigit then none
  else if natOfDigits ds ≤ largest then some (natOfDigits ds) else none

/-- The decimal digits of a natural number. -/
def natDigits (n : Nat) : List Char := Nat.toDigits 10 n

/-- The value of a hexadecimal digit in either case. -/
def hexValue? (c : Char) : Option Nat :=
  if '0' ≤ c && c ≤ '9' then some (c.toNat - 48)
  else if 'a' ≤ c && c ≤ 'f' then some (c.toNat - 87)
  else if 'A' ≤ c && c ≤ 'F' then some (c.toNat - 55)
  else none

/-- A fact about the first 128 characters holds of each of them. -/
theorem of_ascii {P : Char → Prop} (h : ∀ n < 128, P (Char.ofNat n)) {c : Char}
    (hc : c.toNat < 128) : P c := by
  rw [← Char.ofNat_toNat c]
  exact h _ hc

/-- A character in front of another has no greater number. -/
theorem toNat_le_of_le {c d : Char} (h : c ≤ d) : c.toNat ≤ d.toNat :=
  UInt32.le_iff_toNat_le.mp (Char.le_def.mp h)

/-- Digits are ASCII. -/
theorem toNat_lt_of_isDigit {c : Char} (h : isDigit c = true) : c.toNat < 128 := by
  simp only [isDigit, Bool.and_eq_true, decide_eq_true_eq] at h
  exact Nat.lt_of_le_of_lt (toNat_le_of_le h.2) (by decide)

/-- Capitals are ASCII. -/
theorem toNat_lt_of_isUpper {c : Char} (h : isUpper c = true) : c.toNat < 128 := by
  simp only [isUpper, Bool.and_eq_true, decide_eq_true_eq] at h
  exact Nat.lt_of_le_of_lt (toNat_le_of_le h.2) (by decide)

/-- Small letters are ASCII. -/
theorem toNat_lt_of_isLower {c : Char} (h : isLower c = true) : c.toNat < 128 := by
  simp only [isLower, Bool.and_eq_true, decide_eq_true_eq] at h
  exact Nat.lt_of_le_of_lt (toNat_le_of_le h.2) (by decide)

/-- What is turned to upper case is no small letter. -/
theorem isLower_upperChar (c : Char) : isLower (upperChar c) = false := by
  by_cases hc : isLower c = true
  · have hall : ∀ n < 128, isLower (upperChar (Char.ofNat n)) = false := by
      decide
    exact of_ascii (P := fun c => isLower (upperChar c) = false) hall (toNat_lt_of_isLower hc)
  · rw [upperChar, if_neg hc]
    exact Bool.eq_false_iff.mpr hc

/-- A text in upper case has no small letters. -/
theorem isLower_of_mem_upper {s : List Char} {c : Char} (h : c ∈ upper s) : isLower c = false := by
  obtain ⟨d, -, rfl⟩ := List.mem_map.mp h
  exact isLower_upperChar d

/-- Turning to upper case twice is turning once. -/
theorem upperChar_upperChar (c : Char) : upperChar (upperChar c) = upperChar c := by
  rw [upperChar, if_neg (Bool.eq_false_iff.mp (isLower_upperChar c))]

/-- Turning to lower case twice is turning once. -/
theorem lowerChar_lowerChar (c : Char) : lowerChar (lowerChar c) = lowerChar c := by
  by_cases hc : isUpper c = true
  · have hall : ∀ n < 128, lowerChar (lowerChar (Char.ofNat n)) = lowerChar (Char.ofNat n) := by
      decide
    exact of_ascii (P := fun c => lowerChar (lowerChar c) = lowerChar c) hall
      (toNat_lt_of_isUpper hc)
  · have hkept : lowerChar c = c := if_neg hc
    rw [hkept, hkept]

/-- A text in lower case is in lower case already. -/
theorem lower_lower (s : List Char) : lower (lower s) = lower s := by
  rw [lower, lower, List.map_map]
  exact List.map_congr_left fun c _ => lowerChar_lowerChar c

/-- The parts with a character put before the first of them. -/
def extendFirst (c : Char) : List (List Char) → List (List Char)
  | part :: rest => (c :: part) :: rest
  | [] => [[c]]

/-- The parts between the characters of a class; there is always at least one. -/
def splitWhere (p : Char → Bool) (s : List Char) : List (List Char) :=
  s.foldr (fun c parts => if p c then [] :: parts else extendFirst c parts) [[]]

/-- The parts between the occurrences of a character. -/
def splitAtChar (sep : Char) (s : List Char) : List (List Char) := splitWhere (· == sep) s

/-- The longest beginning within a class of characters, and the rest. -/
def takeRun (p : Char → Bool) (s : List Char) : List Char × List Char :=
  (s.takeWhile p, s.dropWhile p)

/-- What stands before and behind the first occurrence of a character. -/
def cutAtChar? (sep : Char) (s : List Char) : Option (List Char × List Char) :=
  match takeRun (· != sep) s with
  | (before, _ :: after) => some (before, after)
  | (_, []) => none

/-- The text behind a given beginning. -/
def stripStart? (start s : List Char) : Option (List Char) :=
  if start.isPrefixOf s then some (s.drop start.length) else none

/-- The text before a given ending. -/
def stripEnd? (ending s : List Char) : Option (List Char) :=
  if ending.isSuffixOf s then some (s.take (s.length - ending.length)) else none

/-- What stands before and behind the first occurrence of a phrase. -/
def cutAtPhrase? (phrase : List Char) : List Char → Option (List Char × List Char)
  | [] => if phrase.isEmpty then some ([], []) else none
  | c :: s =>
    match stripStart? phrase (c :: s) with
    | some after => some ([], after)
    | none => (cutAtPhrase? phrase s).map fun (before, after) => (c :: before, after)

/-- The phrase occurs in the text. -/
def containsPhrase (phrase s : List Char) : Bool := (cutAtPhrase? phrase s).isSome

/-- The lines of a text without their ends: a line feed ends a line, and one carriage return
before it belongs to the end. A text that ends in a line feed has no empty last line. -/
def lines (s : List Char) : List (List Char) :=
  let parts := splitAtChar '\n' s
  let ended := parts.dropLast.map fun line => (stripEnd? ['\r'] line).getD line
  match parts.getLast? with
  | some [] | none => ended
  | some last => ended ++ [last]

/-- How many line feeds the text holds. -/
def lineFeeds (s : List Char) : Nat := s.count '\n'

/-- The longest runs of characters outside a class. -/
def words (p : Char → Bool) (s : List Char) : List (List Char) :=
  (splitWhere p s).filter fun w => !w.isEmpty

end RouteSheet.Text
