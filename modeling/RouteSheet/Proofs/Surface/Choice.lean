import RouteSheet.Proofs.Surface.Call
import RouteSheet.Proofs.Surface.Condition

/-!
# Choices

The branches of a choice stand between semicolons, each a condition, a colon and a
value. When every value is read as its expression, the branches come out of the text
in order, and the value that no condition guards beside them.
-/

namespace RouteSheet.Surface

open Text Nesting

variable {text rest : List Char} {e : Expr} {branches : List (Condition × Expr)}
  {otherwise : Option Expr} {b b₁ b₂ : List Char}

/-- A text between semicolons is read as the branches of a choice. -/
structure ReadsChoice (text : List Char) (branches : List (Condition × Expr))
    (otherwise : Option Expr) : Prop where
  balanced : Balanced (fun _ => false) text
  branches {b : List Char} (hb : isBlankText b = true) :
    ((Expr.branchTexts (text ++ b)).map fun branch =>
      (Condition.parse branch.1, Expr.parse branch.2)) = branches
  otherwise {b : List Char} (hb : isBlankText b = true) :
    (Expr.otherwiseText? (text ++ b)).map Expr.parse = otherwise

private theorem balanced_padded (h : Balanced (· == ';') text) (h₁ : isBlankText b₁ = true)
    (h₂ : isBlankText b₂ = true) : Balanced (· == ';') (b₁ ++ text ++ b₂) := by
  have hblank : ∀ b, isBlankText b = true → Balanced (· == ';') b := fun b hb =>
    balanced_of_separator (balanced_of_blank hb) rfl
  exact ((hblank b₁ h₁).append h).append (hblank b₂ h₂)

/-- A part of a choice is what stands in front of a semicolon. -/
private theorem choiceParts_cons (h : Balanced (· == ';') text) (htrim : isTrimmed text = true)
    (h₁ : isBlankText b₁ = true) (h₂ : isBlankText b₂ = true) (s : List Char) :
    Expr.choiceParts (b₁ ++ text ++ b₂ ++ ';' :: s) = text :: Expr.choiceParts s := by
  have hpadded := balanced_padded h h₁ h₂
  have hrun : top.run (b₁ ++ text ++ b₂) = top := hpadded.run 0
  have hclear : splitTop ';' (b₁ ++ text ++ b₂) = [b₁ ++ text ++ b₂] :=
    splitFrom_of_clear (hpadded.clear rfl)
  have hne : text.isEmpty = false := List.isEmpty_eq_false_iff.mpr (ne_nil_of_isTrimmed htrim)
  rw [Expr.choiceParts, splitTop_append hrun rfl, hclear, List.singleton_append,
    List.map_cons, trim_padded h₁ h₂, trim_of_isTrimmed htrim, List.filter_cons, hne,
    Bool.not_false, if_pos rfl, Expr.choiceParts]

private theorem choiceParts_last (h : Balanced (· == ';') text) (htrim : isTrimmed text = true)
    (h₁ : isBlankText b₁ = true) (h₂ : isBlankText b₂ = true) :
    Expr.choiceParts (b₁ ++ text ++ b₂) = [text] := by
  have hclear : splitTop ';' (b₁ ++ text ++ b₂) = [b₁ ++ text ++ b₂] :=
    splitFrom_of_clear ((balanced_padded h h₁ h₂).clear rfl)
  have hne : text.isEmpty = false := List.isEmpty_eq_false_iff.mpr (ne_nil_of_isTrimmed htrim)
  rw [Expr.choiceParts, hclear, List.map_singleton, trim_padded h₁ h₂, trim_of_isTrimmed htrim,
    List.filter_cons, hne, Bool.not_false, if_pos rfl, List.filter_nil]

/-- A condition, a colon and a value. -/
def branchText (d : Disjunction) (before after : Blanks) (value : List Char) : List Char :=
  d.text ++ (before.1 ++ ':' :: after.1 ++ value)

section Branch

variable (d : Disjunction) (before after : Blanks)

private theorem balanced_branchText (h : Reads text e) :
    Balanced (· == ';') (branchText d before after text) := by
  have hcolon : Balanced (· == ';') [':'] := .plain rfl rfl
  have hbefore := balanced_of_separator (d := ';') (balanced_of_blank before.2) rfl
  have hafter := balanced_of_separator (d := ';') (balanced_of_blank after.2) rfl
  exact (balanced_of_separator d.balanced rfl).append
    ((hbefore.append (hcolon.append hafter)).append h.balanced)

private theorem isTrimmed_branchText (h : Reads text e) :
    isTrimmed (branchText d before after text) = true :=
  isTrimmed_append d.isTrimmed_text h.trimmed _

/-- A branch does not begin like the value that no condition guards. -/
private theorem stripStart?_branchText :
    stripStart? "else:".toList (branchText d before after text) = none := by
  obtain ⟨c, s, hs, hc⟩ := d.exists_text
  refine stripStart?_eq_none ?_
  rw [branchText, hs, List.cons_append]
  intro hp
  have hhead : 'e' = c := (List.cons_prefix_cons.mp hp).1
  rcases hc with rfl | rfl <;> exact absurd hhead (by decide)

/-- A branch is cut at the colon behind its condition. -/
private theorem cutTop?_branchText : cutTop? ':' (branchText d before after text) =
    some (d.text ++ before.1, after.1 ++ text) := by
  have hfront := d.balanced.append (balanced_of_blank before.2)
  have hrun : top.run (d.text ++ before.1) = top := hfront.run 0
  refine cutFrom?_eq_some.mpr ⟨?_, hfront.clear rfl, ?_⟩
  · simp only [branchText, List.append_assoc, List.cons_append]
  · rw [hrun]
    rfl

/-- The text of a branch is read as its condition and its value. -/
private theorem parse_branchText (h : Reads text e) :
    (Condition.parse (d.text ++ before.1), Expr.parse (after.1 ++ text)) = (d.condition, e) := by
  have hcondition := d.parse_text isBlankText_nil before.2
  have hvalue := parse_padded after.2 isBlankText_nil text
  rw [List.nil_append] at hcondition
  rw [List.append_nil] at hvalue
  rw [hcondition, hvalue, h.parse]

end Branch

namespace ReadsChoice

/-- The last branch. -/
theorem last (d : Disjunction) (before after : Blanks) (h : Reads text e)
    (hb : isBlankText b = true) :
    ReadsChoice (b ++ branchText d before after text) [(d.condition, e)] none where
  balanced := (balanced_blank hb).append (balanced_branchText d before after h).inner
  branches {b'} hb' := by
    rw [Expr.branchTexts, choiceParts_last (balanced_branchText d before after h)
      (isTrimmed_branchText d before after h) hb hb']
    simp only [List.filterMap_cons, stripStart?_branchText, Option.isSome_none, Bool.false_eq_true,
      if_false, cutTop?_branchText, List.filterMap_nil, List.map_cons, List.map_nil,
      parse_branchText d before after h]
  otherwise {b'} hb' := by
    rw [Expr.otherwiseText?, choiceParts_last (balanced_branchText d before after h)
      (isTrimmed_branchText d before after h) hb hb']
    simp only [List.findSome?_cons, stripStart?_branchText, List.findSome?_nil, Option.map_none]

/-- A branch in front of a semicolon. -/
theorem cons (d : Disjunction) (before after : Blanks) (h : Reads text e)
    (hrest : ReadsChoice rest branches otherwise) (h₁ : isBlankText b₁ = true)
    (h₂ : isBlankText b₂ = true) :
    ReadsChoice (b₁ ++ branchText d before after text ++ b₂ ++ ';' :: rest)
      ((d.condition, e) :: branches) otherwise where
  balanced := (balanced_padded (balanced_branchText d before after h) h₁ h₂).inner.append
    ((Balanced.plain (c := ';') rfl rfl).append hrest.balanced)
  branches {b} hb := by
    have hbranches := hrest.branches hb
    rw [Expr.branchTexts] at hbranches ⊢
    rw [List.append_assoc (b₁ ++ branchText d before after text ++ b₂), List.cons_append,
      choiceParts_cons (balanced_branchText d before after h)
        (isTrimmed_branchText d before after h) h₁ h₂]
    simp only [List.filterMap_cons, stripStart?_branchText, Option.isSome_none, Bool.false_eq_true,
      if_false, cutTop?_branchText, List.map_cons, parse_branchText d before after h, hbranches]
  otherwise {b} hb := by
    have hotherwise := hrest.otherwise hb
    rw [Expr.otherwiseText?] at hotherwise ⊢
    rw [List.append_assoc (b₁ ++ branchText d before after text ++ b₂), List.cons_append,
      choiceParts_cons (balanced_branchText d before after h)
        (isTrimmed_branchText d before after h) h₁ h₂]
    simp only [List.findSome?_cons, stripStart?_branchText, hotherwise]

/-- The value that no condition guards. -/
theorem unguarded (gap : Blanks) (h : Reads text e) (hb : isBlankText b = true) :
    ReadsChoice (b ++ ("else:".toList ++ (gap.1 ++ text))) [] (some e) := by
  have hword : Balanced (· == ';') "else:".toList := Balanced.of_all rfl
  have hgap := balanced_padded h.balanced gap.2 isBlankText_nil
  rw [List.append_nil] at hgap
  have hbalanced : Balanced (· == ';') ("else:".toList ++ (gap.1 ++ text)) := hword.append hgap
  have htrim : isTrimmed ("else:".toList ++ (gap.1 ++ text)) = true :=
    isTrimmed_append rfl h.trimmed gap.1
  have hparse := parse_padded gap.2 isBlankText_nil text
  rw [List.append_nil, h.parse] at hparse
  refine ⟨(balanced_blank hb).append hbalanced.inner, fun hb' => ?_, fun hb' => ?_⟩
  · rw [Expr.branchTexts, choiceParts_last hbalanced htrim hb hb']
    simp only [List.filterMap_cons, stripStart?_append, Option.isSome_some, if_true,
      List.filterMap_nil, List.map_nil]
  · rw [Expr.otherwiseText?, choiceParts_last hbalanced htrim hb hb']
    simp only [List.findSome?_cons, stripStart?_append, Option.map_some, hparse]

/-- A choice is read as its branches and the value beside them. -/
theorem reads (h : ReadsChoice text branches otherwise) (hb : isBlankText b = true) :
    Reads (callText .choice (text ++ b)) (.choice branches otherwise) := by
  have hbalanced := h.balanced.append (balanced_blank hb)
  refine .of_call .choice hbalanced ?_
  rw [Expr.parse_eq, ofText?_callText .choice hbalanced]
  simp only [h.branches hb, h.otherwise hb]

end ReadsChoice

end RouteSheet.Surface
