import RouteSheet.Environment
import RouteSheet.Proofs.Text.Split
import RouteSheet.Text.Basic

/-!
# Spellings of a field

A name is written as words with marks between them or with a capital at the beginning of each
word but the first. The reader of names carries two facts along: whether an underscore has just
been written, and whether the last character was small. Behind a word the first does not hold and
the second does, and from there each way of going on to the next word writes one underscore. So
the variable of a field depends on the words of its section and its name alone.
-/

namespace RouteSheet

open Text

/-- A small letter or a digit. -/
def isSmall (c : Char) : Bool := isLower c || isDigit c

/-- A word of a name: a small letter, and small letters or digits behind it, at least one. -/
structure NameWord where
  initial : Char
  others : List Char
  initial_isLower : isLower initial = true
  others_ne_nil : others ≠ []
  others_isSmall : others.all isSmall = true

/-- How a word is set off from the one in front of it. -/
inductive WordBreak where
  /-- one or more separators of any kind -/
  | marks (first : Char) (others : List Char)
      (separate : (first :: others).all isWordSeparator = true)
  /-- a capital in place of the small letter that the word begins with -/
  | capital

namespace NameWord

/-- The word in small letters. -/
def letters (w : NameWord) : List Char := w.initial :: w.others

/-- The word in capitals. -/
def capitals (w : NameWord) : List Char := upper w.letters

/-- The word as it is written behind another one. -/
def behind (w : NameWord) : WordBreak → List Char
  | .marks first others _ => first :: others ++ w.letters
  | .capital => upperChar w.initial :: w.others

end NameWord

/-- A name as it is written: words, each but the first set off in a way of its own. Snake case,
kebab case and dotted names have separators everywhere, camel case has capitals. -/
structure SpelledName where
  first : NameWord
  others : List (WordBreak × NameWord)

namespace SpelledName

/-- The words of the name. -/
def words (name : SpelledName) : List NameWord := name.first :: name.others.map Prod.snd

/-- The text of the name. -/
def text (name : SpelledName) : String :=
  String.ofList (name.first.letters ++ name.others.flatMap fun (mark, w) => w.behind mark)

end SpelledName

section Letters

variable {c : Char} {s t : List Char}

/-- Small letters and digits are told apart from capitals and separators. -/
theorem of_isSmall (h : isSmall c = true) : isWordSeparator c = false ∧ isUpper c = false := by
  have hall : ∀ n < 128, isSmall (Char.ofNat n) = true →
      isWordSeparator (Char.ofNat n) = false ∧ isUpper (Char.ofNat n) = false := by
    decide
  have hascii : c.toNat < 128 :=
    (Bool.or_eq_true_iff.mp h).elim toNat_lt_of_isLower toNat_lt_of_isDigit
  exact of_ascii (P := fun c => isSmall c = true → isWordSeparator c = false ∧ isUpper c = false)
    hall hascii h

/-- The capital of a small letter is told apart from separators and small characters. -/
theorem of_isLower (h : isLower c = true) : isWordSeparator (upperChar c) = false ∧
    isUpper (upperChar c) = true ∧ isSmall (upperChar c) = false := by
  have hall : ∀ n < 128, isLower (Char.ofNat n) = true →
      isWordSeparator (upperChar (Char.ofNat n)) = false ∧
      isUpper (upperChar (Char.ofNat n)) = true ∧ isSmall (upperChar (Char.ofNat n)) = false := by
    decide
  exact of_ascii (P := fun c => isLower c = true → isWordSeparator (upperChar c) = false ∧
    isUpper (upperChar c) = true ∧ isSmall (upperChar c) = false) hall (toNat_lt_of_isLower h) h

/-- Small characters are written in capitals with nothing before them, and leave the reader
behind a small character. -/
theorem variableLetters_small (hs : s.all isSmall = true) (hne : s ≠ [])
    (afterMark afterSmall : Bool) (t : List Char) :
    variableLetters afterMark afterSmall (s ++ t) = upper s ++ variableLetters false true t := by
  induction s generalizing afterMark afterSmall with
  | nil => exact absurd rfl hne
  | cons c s ih =>
    rw [List.all_cons, Bool.and_eq_true] at hs
    obtain ⟨hmark, hupper⟩ := of_isSmall hs.1
    have hsmall : (isLower c || isDigit c) = true := hs.1
    have hstep : variableLetters afterMark afterSmall (c :: (s ++ t)) =
        upperChar c :: variableLetters false true (s ++ t) := by
      simp [variableLetters, hmark, hupper, hsmall]
    rw [List.cons_append, hstep]
    cases s with
    | nil => rfl
    | cons d s => exact congrArg (upperChar c :: ·) (ih hs.2 (List.cons_ne_nil d s) false true)

/-- Separators behind an underscore write nothing. -/
theorem variableLetters_marks (hs : s.all isWordSeparator = true) (t : List Char) :
    variableLetters true false (s ++ t) = variableLetters true false t := by
  induction s with
  | nil => rfl
  | cons c s ih =>
    rw [List.all_cons, Bool.and_eq_true] at hs
    simp [variableLetters, hs.1, ih hs.2]

end Letters

namespace NameWord

variable (w : NameWord)

/-- The letters of a word are small. -/
theorem letters_isSmall : w.letters.all isSmall = true := by
  rw [letters, List.all_cons, w.others_isSmall, Bool.and_true, isSmall, w.initial_isLower,
    Bool.true_or]

/-- A word writes its capitals. -/
theorem variableLetters_letters (afterMark afterSmall : Bool) (t : List Char) :
    variableLetters afterMark afterSmall (w.letters ++ t) =
      w.capitals ++ variableLetters false true t :=
  variableLetters_small w.letters_isSmall (List.cons_ne_nil _ _) afterMark afterSmall t

/-- Behind a word, the next one writes an underscore and its capitals, however it is set off. A
capital that sets it off does not count as small. -/
theorem variableLetters_behind (mark : WordBreak) (t : List Char) :
    variableLetters false true (w.behind mark ++ t) =
      '_' :: w.capitals ++ variableLetters false true t := by
  cases mark with
  | marks first others separate =>
    rw [List.all_cons, Bool.and_eq_true] at separate
    have hstep : variableLetters false true (first :: (others ++ (w.letters ++ t))) =
        '_' :: variableLetters true false (others ++ (w.letters ++ t)) := by
      simp [variableLetters, separate.1]
    rw [behind, List.append_assoc, List.cons_append, hstep,
      variableLetters_marks separate.2, w.variableLetters_letters, List.cons_append]
  | capital =>
    obtain ⟨hmark, hupper, hsmall⟩ := of_isLower w.initial_isLower
    have hstep : variableLetters false true (upperChar w.initial :: (w.others ++ t)) =
        '_' :: upperChar w.initial :: variableLetters false false (w.others ++ t) := by
      rw [isSmall] at hsmall
      simp [variableLetters, hmark, hupper, hsmall, upperChar_upperChar]
    rw [behind, List.cons_append, hstep,
      variableLetters_small w.others_isSmall w.others_ne_nil false false t]
    rfl

end NameWord

namespace SpelledName

/-- A name writes its words in capitals with an underscore between them. -/
theorem variableWords_text (name : SpelledName) :
    variableWords name.text =
      String.ofList (['_'].intercalate (name.words.map NameWord.capitals)) := by
  obtain ⟨first, others⟩ := name
  have hothers : variableLetters false true (others.flatMap fun (mark, w) => w.behind mark) =
      others.flatMap fun (_, w) => '_' :: w.capitals := by
    induction others with
    | nil => rfl
    | cons next others ih =>
      rw [List.flatMap_cons, List.flatMap_cons, NameWord.variableLetters_behind, ih]
  rw [variableWords, text, String.toList_ofList, first.variableLetters_letters, hothers, words,
    List.map_cons, intercalate_cons_eq, List.map_map, List.flatMap_map]
  rfl

/-- The variable of a field consists of the words of its section and its name, in capitals and
joined by single underscores, however the two names are spelled. -/
theorem overrideKey_text (section_ field : SpelledName) :
    overrideKey section_.text field.text = "ROUTECSS_" ++ String.ofList
      (['_'].intercalate ((section_.words ++ field.words).map NameWord.capitals)) := by
  have hjoined : ['_'].intercalate ((section_.words ++ field.words).map NameWord.capitals) =
      ['_'].intercalate (section_.words.map NameWord.capitals) ++
        '_' :: ['_'].intercalate (field.words.map NameWord.capitals) := by
    simp only [words, List.map_cons, List.cons_append, List.map_append, intercalate_cons_eq,
      List.flatMap_append, List.flatMap_cons, List.append_assoc]
  rw [hjoined]
  apply String.toList_inj.mp
  simp [overrideKey, variableWords_text]

example : ["max_requests", "max-requests", "max..requests", "maxRequests"].map
    (overrideKey "serve") = List.replicate 4 "ROUTECSS_SERVE_MAX_REQUESTS" := by decide +kernel

end SpelledName

end RouteSheet
