import RouteSheet.Proofs.Condition.Cut

/-!
# Conditions of the surface syntax

A condition is written as a disjunction of conjunctions of tests. A disjunction is
cut at its first connective and a conjunction holds none of a disjunction, so a
written condition is read as the condition that it writes.
-/

namespace RouteSheet.Surface

open Text Nesting

/-- A question or its negation. -/
inductive Test where
  | plain (question : Question)
  | negated (gap : Blanks) (question : Question)

/-- Tests of which all must hold. -/
inductive Conjunction where
  | test (t : Test)
  | and (left : Test) (before after : Blanks) (right : Conjunction)

/-- Conjunctions of which one must hold. -/
inductive Disjunction where
  | all (c : Conjunction)
  | or (left : Conjunction) (before after : Blanks) (right : Disjunction)

/-- Two texts with a connective between them. -/
def Connective.join (k : Connective) (left : List Char) (before after : Blanks)
    (right : List Char) : List Char :=
  left ++ (before.1 ++ (k.text ++ (after.1 ++ right)))

namespace Test

/-- The text of a test. -/
def text : Test → List Char
  | .plain question => question.text
  | .negated gap question => "not ".toList ++ (gap.1 ++ question.text)

/-- The condition that a test writes. -/
def condition : Test → Condition
  | .plain question => question.condition
  | .negated _ question => .not question.condition

end Test

namespace Conjunction

/-- The text of a conjunction. -/
def text : Conjunction → List Char
  | .test t => t.text
  | .and left before after right =>
    Connective.and.join left.text before after right.text

/-- The condition that a conjunction writes. -/
def condition : Conjunction → Condition
  | .test t => t.condition
  | .and left _ _ right => .and left.condition right.condition

end Conjunction

namespace Disjunction

/-- The text of a disjunction. -/
def text : Disjunction → List Char
  | .all c => c.text
  | .or left before after right =>
    Connective.or.join left.text before after right.text

/-- The condition that a disjunction writes. -/
def condition : Disjunction → Condition
  | .all c => c.condition
  | .or left _ _ right => .or left.condition right.condition

end Disjunction

/-- A question between blanks is read as the condition that it asks for. -/
theorem Question.parse_text (q : Question) {b₁ b₂ : List Char} (h₁ : isBlankText b₁ = true)
    (h₂ : isBlankText b₂ = true) : Condition.parse (b₁ ++ q.text ++ b₂) = q.condition := by
  have hstart : stripStart? "not ".toList q.text = none := by
    cases q <;> rfl
  rw [Condition.parse_padded h₁ h₂,
    Condition.parse_unconnected q.isTrimmed_text (fun k => q.freeOf_text k []), hstart,
    q.atom_text]

namespace Test

variable (t : Test)

/-- A test has no blanks at its ends. -/
theorem isTrimmed_text : isTrimmed t.text = true := by
  cases t with
  | plain question => exact question.isTrimmed_text
  | negated gap question =>
    have hnot : isTrimmed "not".toList = true := by decide
    exact isTrimmed_append hnot question.isTrimmed_text (' ' :: gap.1)

/-- A test is balanced. -/
theorem balanced : Balanced isSeparator t.text := by
  cases t with
  | plain question => exact question.balanced
  | negated gap question =>
    have hnot : Balanced isSeparator "not ".toList := Balanced.of_all rfl
    exact hnot.append ((balanced_of_blank gap.2).append question.balanced)

/-- A test begins with a mark or a negation. -/
theorem exists_text : ∃ c s, t.text = c :: s ∧ (c = '-' ∨ c = 'n') := by
  cases t with
  | plain question => cases question <;> exact ⟨'-', _, rfl, Or.inl rfl⟩
  | negated gap question => exact ⟨'n', _, rfl, Or.inr rfl⟩

private theorem freeOf_text (k : Connective) (rest : List Char) : FreeOf k.text t.text rest := by
  cases t with
  | plain question => exact question.freeOf_text k rest
  | negated gap question =>
    have hnot : FreeOf k.text "not".toList (' ' :: gap.1 ++ question.text ++ rest) :=
      k.freeOf_of_tame rfl
    have hgap : FreeOf k.text gap.spaced.1 (question.text ++ rest) := by
      refine k.freeOf_blanks gap.spaced ?_
      cases question <;> cases k <;> exact nofun
    exact freeOf_append (s := "not".toList).mpr ⟨hnot,
      freeOf_append (s := gap.spaced.1).mpr ⟨hgap, question.freeOf_text k rest⟩⟩

/-- A test between blanks is read as the condition that it writes. -/
theorem parse_text {b₁ b₂ : List Char} (h₁ : isBlankText b₁ = true) (h₂ : isBlankText b₂ = true) :
    Condition.parse (b₁ ++ t.text ++ b₂) = t.condition := by
  cases t with
  | plain question => exact question.parse_text h₁ h₂
  | negated gap question =>
    have htrim := isTrimmed_text (.negated gap question)
    have hquestion := question.parse_text gap.2 isBlankText_nil
    rw [List.append_nil] at hquestion
    rw [Condition.parse_padded h₁ h₂,
      Condition.parse_unconnected htrim fun k => freeOf_text (.negated gap question) k []]
    simp only [text, stripStart?_append, hquestion, condition]

end Test

section Join

variable (k : Connective) {left right : List Char} (before after : Blanks)

private theorem isTrimmed_join (hl : isTrimmed left = true) (hr : isTrimmed right = true) :
    isTrimmed (k.join left before after right) = true := by
  have h := isTrimmed_append hl hr (before.1 ++ (k.text ++ after.1))
  rw [Connective.join]
  simpa only [List.append_assoc] using h

private theorem balanced_join (hl : Balanced isSeparator left) (hr : Balanced isSeparator right) :
    Balanced isSeparator (k.join left before after right) := by
  have hword : Balanced isSeparator k.text := by
    cases k <;> exact Balanced.of_all rfl
  exact hl.append ((balanced_of_blank before.2).append
    (hword.append ((balanced_of_blank after.2).append hr)))

/-- The first connective is the one behind a text in which none begins. -/
private theorem cutAtPhrase?_join (right : List Char) (hl : ∀ rest, FreeOf k.text left rest) :
    cutAtPhrase? k.text (k.join left before after right) =
      some (left ++ before.1, after.1 ++ right) := by
  have hbefore : FreeOf k.text before.1 (k.text ++ (after.1 ++ right)) := by
    refine k.freeOf_blanks before ?_
    cases k <;> exact nofun
  have hfree : FreeOf k.text (left ++ before.1) (k.text ++ (after.1 ++ right)) :=
    freeOf_append.mpr ⟨hl _, hbefore⟩
  rw [← cutAtPhrase?_of_freeOf k.text_ne_nil hfree, List.append_assoc, Connective.join]

/-- The parts of a joined text are read with the blanks left on them. -/
private theorem parse_parts {l r : Condition}
    (hl : ∀ {b₁ b₂}, isBlankText b₁ = true → isBlankText b₂ = true →
      Condition.parse (b₁ ++ left ++ b₂) = l)
    (hr : ∀ {b₁ b₂}, isBlankText b₁ = true → isBlankText b₂ = true →
      Condition.parse (b₁ ++ right ++ b₂) = r) :
    Condition.parse (left ++ before.1) = l ∧ Condition.parse (after.1 ++ right) = r := by
  have hleft := hl isBlankText_nil before.2
  have hright := hr after.2 isBlankText_nil
  rw [List.nil_append] at hleft
  rw [List.append_nil] at hright
  exact ⟨hleft, hright⟩

end Join

namespace Conjunction

/-- A conjunction begins with a mark or a negation. -/
theorem exists_text (c : Conjunction) : ∃ x s, c.text = x :: s ∧ (x = '-' ∨ x = 'n') := by
  cases c with
  | test t => exact t.exists_text
  | and left before after right =>
    obtain ⟨x, s, hs, hx⟩ := left.exists_text
    exact ⟨x, _, by rw [text, Connective.join, hs, List.cons_append], hx⟩

/-- A conjunction has no blanks at its ends. -/
theorem isTrimmed_text (c : Conjunction) : isTrimmed c.text = true := by
  induction c with
  | test t => exact t.isTrimmed_text
  | and left before after right ih => exact isTrimmed_join .and before after left.isTrimmed_text ih

/-- A conjunction is balanced. -/
theorem balanced (c : Conjunction) : Balanced isSeparator c.text := by
  induction c with
  | test t => exact t.balanced
  | and left before after right ih => exact balanced_join .and before after left.balanced ih

/-- No disjunction begins in a conjunction. -/
private theorem freeOf_text (c : Conjunction) (rest : List Char) :
    FreeOf Connective.or.text c.text rest := by
  induction c with
  | test t => exact t.freeOf_text .or rest
  | and left before after right ih =>
    have hword : Connective.and.text ++ (after.1 ++ right.text) =
        [' '] ++ ("and".toList ++ (after.spaced.1 ++ right.text)) := rfl
    have hafter : FreeOf Connective.or.text after.spaced.1 (right.text ++ rest) := by
      refine Connective.or.freeOf_blanks after.spaced ?_
      obtain ⟨x, s, hs, hx⟩ := right.exists_text
      rw [hs, List.cons_append, List.head?_cons]
      rcases hx with rfl | rfl <;> decide
    have hspace : ∀ t, FreeOf Connective.or.text [' '] ("and".toList ++ t) :=
      fun t => Connective.or.freeOf_blanks ⟨[' '], rfl⟩ nofun
    have hbefore : ∀ t, FreeOf Connective.or.text before.1 ([' '] ++ t) :=
      fun t => Connective.or.freeOf_blanks before nofun
    have hand : ∀ t, FreeOf Connective.or.text "and".toList t :=
      fun t => Connective.or.freeOf_of_tame rfl
    rw [text, Connective.join, hword]
    refine freeOf_append.mpr ⟨left.freeOf_text .or _, freeOf_append.mpr ⟨?_, ?_⟩⟩
    · rw [List.append_assoc]
      exact hbefore _
    · refine freeOf_append.mpr ⟨?_, freeOf_append.mpr ⟨hand _, ?_⟩⟩
      · rw [List.append_assoc]
        exact hspace _
      · exact freeOf_append.mpr ⟨hafter, ih⟩

/-- A conjunction between blanks is read as the condition that it writes. -/
theorem parse_text (c : Conjunction) {b₁ b₂ : List Char} (h₁ : isBlankText b₁ = true)
    (h₂ : isBlankText b₂ = true) : Condition.parse (b₁ ++ c.text ++ b₂) = c.condition := by
  induction c generalizing b₁ b₂ with
  | test t => exact t.parse_text h₁ h₂
  | and left before after right ih =>
    have htrim := isTrimmed_text (.and left before after right)
    have hor := freeOf_text (.and left before after right) []
    have hand := cutAtPhrase?_join .and before after right.text (left.freeOf_text .and)
    obtain ⟨hleft, hright⟩ := parse_parts before after left.parse_text ih
    rw [Condition.parse_padded h₁ h₂, Condition.parse_and htrim hor hand, hleft, hright, condition]

end Conjunction

namespace Disjunction

/-- A disjunction begins with a mark or a negation. -/
theorem exists_text (d : Disjunction) : ∃ x s, d.text = x :: s ∧ (x = '-' ∨ x = 'n') := by
  cases d with
  | all c => exact c.exists_text
  | or left before after right =>
    obtain ⟨x, s, hs, hx⟩ := left.exists_text
    exact ⟨x, _, by rw [text, Connective.join, hs, List.cons_append], hx⟩

/-- A disjunction has no blanks at its ends. -/
theorem isTrimmed_text (d : Disjunction) : isTrimmed d.text = true := by
  induction d with
  | all c => exact c.isTrimmed_text
  | or left before after right ih => exact isTrimmed_join .or before after left.isTrimmed_text ih

/-- A disjunction is balanced. -/
theorem balanced (d : Disjunction) : Balanced isSeparator d.text := by
  induction d with
  | all c => exact c.balanced
  | or left before after right ih => exact balanced_join .or before after left.balanced ih

/-- A disjunction between blanks is read as the condition that it writes. -/
theorem parse_text (d : Disjunction) {b₁ b₂ : List Char} (h₁ : isBlankText b₁ = true)
    (h₂ : isBlankText b₂ = true) : Condition.parse (b₁ ++ d.text ++ b₂) = d.condition := by
  induction d generalizing b₁ b₂ with
  | all c => exact c.parse_text h₁ h₂
  | or left before after right ih =>
    have htrim := isTrimmed_text (.or left before after right)
    have hor := cutAtPhrase?_join .or before after right.text left.freeOf_text
    obtain ⟨hleft, hright⟩ := parse_parts before after left.parse_text ih
    rw [Condition.parse_padded h₁ h₂, Condition.parse_or htrim hor, hleft, hright, condition]

end Disjunction

end RouteSheet.Surface
