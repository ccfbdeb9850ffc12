import RouteSheet.Expr.Reader
import RouteSheet.Proofs.Surface.Token

/-!
# Texts that are read as an expression

A text is read as an expression wherever it may stand: alone, between blanks, as an
argument between commas, and as a value in front of a semicolon. As an argument it
comes out of the pieces between commas whole, though a JSON text is cut into
several of them.
-/

namespace RouteSheet.Surface

open Text Nesting

/-- A text is read as an expression, alone and as part of another text. -/
structure Reads (text : List Char) (e : Expr) : Prop where
  trimmed : isTrimmed text = true
  balanced : Balanced (· == ';') text
  pieces {b₁ b₂ : List Char} (h₁ : isBlankText b₁ = true) (h₂ : isBlankText b₂ = true)
    (more : List (List Char)) : Expr.joinPieces (splitTop ',' (b₁ ++ text ++ b₂) ++ more) =
      text :: Expr.joinPieces more
  parse : Expr.parse text = e

variable {text b₁ b₂ : List Char} {e : Expr}

/-- Blanks around a text do not matter. -/
theorem parse_padded (h₁ : isBlankText b₁ = true) (h₂ : isBlankText b₂ = true) (s : List Char) :
    Expr.parse (b₁ ++ s ++ b₂) = Expr.parse s := by
  rw [Expr.parse_eq, Expr.parse_eq s, trim_padded h₁ h₂]

/-- The first piece is joined with those behind it where they make a document together, and
otherwise stands alone. -/
theorem joinPieces_cons (piece : List Char) (rest : List (List Char)) :
    Expr.joinPieces (piece :: rest) =
      match Expr.joinOf? piece rest with
      | some (document, left) => document :: Expr.joinPieces left
      | none => trim piece :: Expr.joinPieces rest := by
  rw [Expr.joinPieces]
  split
  · next h => rw [h]
  · next h => rw [h]

/-- A text that is one piece and begins no JSON document stands for itself. -/
theorem joinPieces_clear (hclear : Balanced isSeparator text)
    (hbegins : Expr.beginsJson text = false) (htrim : isTrimmed text = true)
    (h₁ : isBlankText b₁ = true) (h₂ : isBlankText b₂ = true) (more : List (List Char)) :
    Expr.joinPieces (splitTop ',' (b₁ ++ text ++ b₂) ++ more) = text :: Expr.joinPieces more := by
  have hall : clear ',' top (b₁ ++ text ++ b₂) = true :=
    (((balanced_of_blank h₁).append hclear).append (balanced_of_blank h₂)).clear rfl
  have hpiece : trim (b₁ ++ text ++ b₂) = text := by
    rw [trim_padded h₁ h₂, trim_of_isTrimmed htrim]
  have hjoin : Expr.joinOf? (b₁ ++ text ++ b₂) more = none := by
    rw [Expr.joinOf?, hpiece, hbegins, Bool.false_and, if_neg Bool.false_ne_true]
  rw [splitTop, splitFrom_of_clear hall, List.singleton_append, joinPieces_cons, hjoin, hpiece]

/-- A text without top-level separators is read alike everywhere. -/
theorem Reads.of_clear (htrim : isTrimmed text = true) (hbalanced : Balanced isSeparator text)
    (hbegins : Expr.beginsJson text = false) (hparse : Expr.parse text = e) : Reads text e where
  trimmed := htrim
  balanced := balanced_of_separator hbalanced rfl
  pieces := joinPieces_clear hbalanced hbegins htrim
  parse := hparse

/-- No call begins with another character than a letter. -/
theorem ofText?_eq_none {c : Char} (hc : isLetter c = false) (s : List Char) :
    Call.ofText? (c :: s) = none := by
  refine List.findSome?_eq_none_iff.mpr fun call _ => ?_
  have hword : ¬call.word.toList <+: c :: s := by
    intro hp
    cases call <;>
      exact absurd (List.cons_prefix_cons.mp hp).1 (by rintro rfl; exact absurd hc (by decide))
  rw [callArguments?, stripStart?_eq_none hword, Option.map_none]

/-- The call that a text begins with is read with what stands between its parentheses. -/
theorem ofText?_call (call : Call) {p : Char → Bool} {inner : List Char} (h : Balanced p inner) :
    Call.ofText? (call.word.toList ++ '(' :: (inner ++ [')'])) = some (call, inner) := by
  have hinner := h.enclosed_closed
  cases call <;>
    simp [Call.ofText?, Call.all, Call.word, callArguments?, stripStart?, hinner]

end RouteSheet.Surface
