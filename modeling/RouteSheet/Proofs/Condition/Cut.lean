import RouteSheet.Proofs.Surface.Question

/-!
# How a condition is cut

Blanks around a condition do not matter. A condition is cut at the first disjunction in it, else
at the first conjunction, else a negation is taken off, and a text without any of them is a
question.
-/

namespace RouteSheet.Condition

open Text Surface

/-- A condition is cut at a disjunction, else at a conjunction, else it is a question. -/
theorem parse_eq (s : List Char) : parse s =
    match cutAtPhrase? Connective.or.text (trim s) with
    | some (left, right) => .or (parse left) (parse right)
    | none =>
      match cutAtPhrase? Connective.and.text (trim s) with
      | some (left, right) => .and (parse left) (parse right)
      | none =>
        match stripStart? "not ".toList (trim s) with
        | some rest => .not (parse rest)
        | none => atom (trim s) := by
  rw [parse]
  simp only [Connective.text]
  split
  · next h => rw [h]
  · next h =>
    rw [h]
    split
    · next h => rw [h]
    · next h =>
      rw [h]
      split
      · next h => rw [h]
      · next h => rw [h]

/-- Blanks around a condition do not matter. -/
theorem parse_padded {b₁ b₂ : List Char} (h₁ : isBlankText b₁ = true) (h₂ : isBlankText b₂ = true)
    (s : List Char) : parse (b₁ ++ s ++ b₂) = parse s := by
  rw [parse_eq, parse_eq s, trim_padded h₁ h₂]

/-- Blanks behind a condition do not count. -/
theorem parse_append_of_blank {b : List Char} (h : isBlankText b = true) (s : List Char) :
    parse (s ++ b) = parse s := parse_padded isBlankText_nil h s

section Cut

variable {s left right : List Char} (htrim : isTrimmed s = true)

include htrim

/-- A condition is cut at its first disjunction. -/
theorem parse_or (h : cutAtPhrase? Connective.or.text s = some (left, right)) :
    parse s = .or (parse left) (parse right) := by
  rw [parse_eq, trim_of_isTrimmed htrim, h]

/-- A condition without a disjunction is cut at its first conjunction. -/
theorem parse_and (hor : FreeOf Connective.or.text s [])
    (h : cutAtPhrase? Connective.and.text s = some (left, right)) :
    parse s = .and (parse left) (parse right) := by
  rw [parse_eq, trim_of_isTrimmed htrim, h,
    (cutAtPhrase?_eq_none Connective.or.text_ne_nil).mpr hor]

/-- A condition without connectives is a negation or a question. -/
theorem parse_unconnected (h : ∀ k : Connective, FreeOf k.text s []) :
    parse s = match stripStart? "not ".toList s with
      | some rest => .not (parse rest)
      | none => atom s := by
  rw [parse_eq, trim_of_isTrimmed htrim,
    (cutAtPhrase?_eq_none Connective.or.text_ne_nil).mpr (h .or),
    (cutAtPhrase?_eq_none Connective.and.text_ne_nil).mpr (h .and)]

end Cut

end RouteSheet.Condition
