import RouteSheet.Proofs.Condition.Cut
import RouteSheet.Proofs.Route.Lockstep
import RouteSheet.Sheet.Load

/-!
# Scalars

The value of an assignment and the text that a condition compares with are read apart. They agree
on every text of one line that is neither a word nor a call nor a JSON document: a numeral is its
number to both and all else is a text without its quotes. No numeral is NaN, so the value is equal
to itself and a variable equals the text that was assigned to it.
-/

namespace RouteSheet

open Text Surface

/-- A text of one line that writes no word, no call and no JSON document. -/
structure IsScalar (t : List Char) : Prop where
  trimmed : isTrimmed t = true
  oneLine : '\n' ∉ t
  ne_true : t ≠ "true".toList
  ne_false : t ≠ "false".toList
  ne_null : t ≠ "null".toList
  notJson : Expr.beginsJson t = false
  notCall : Call.ofText? t = none

/-- A declaration that assigns a text to a variable. -/
def assignmentText (name : Name) (t : List Char) : List Char :=
  "--".toList ++ (name.chars ++ (": ".toList ++ t))

/-- A question that compares a variable with a text. -/
def comparisonText (name : Name) (relation : Relation) (t : List Char) : List Char :=
  "--".toList ++ (name.chars ++ (" ".toList ++ (relation.symbol.toList ++ (" ".toList ++ t))))

section Numerals

/-- A numeral without its sign begins with a digit. -/
private theorem exists_of_isUnsignedNumeral {s : List Char} (h : isUnsignedNumeral s = true) :
    ∃ c u, s = c :: u ∧ isDecimalDigit c = true := by
  cases s with
  | nil => cases h
  | cons c u =>
    refine ⟨c, u, rfl, ?_⟩
    cases hc : isDecimalDigit c with
    | true => rfl
    | false => simp [isUnsignedNumeral, takeRun, hc] at h

/-- A digit does not begin the word for NaN, in either case. -/
private theorem lowerChar_ne_n {c : Char} (hc : isDecimalDigit c = true) : lowerChar c ≠ 'n' := by
  intro h
  have hletter : c = 'N' ∨ c = 'n' := by
    unfold lowerChar at h
    split at h
    · next hupper =>
      have hall : ∀ n < 128, lowerChar (Char.ofNat n) = 'n' →
          Char.ofNat n = 'N' ∨ Char.ofNat n = 'n' := by decide
      have hascii : c.toNat < 128 :=
        toNat_lt_of_isNameChar (by simp [Condition.isNameChar, isLetter, hupper])
      refine of_ascii (P := fun c => lowerChar c = 'n' → c = 'N' ∨ c = 'n') hall hascii ?_
      rw [lowerChar, if_pos hupper, h]
    · exact .inr h
  rcases hletter with rfl | rfl <;> exact absurd hc (by decide)

/-- Behind the sign of a numeral stands a digit. -/
private theorem exists_of_isNumeral {s : List Char} (h : isNumeral s = true) :
    ∃ c u, (takeSign s).2 = c :: u ∧ isDecimalDigit c = true := by
  unfold isNumeral at h
  split at h
  · next s => exact exists_of_isUnsignedNumeral h
  · next s hminus =>
    obtain ⟨c, u, rfl, hc⟩ := exists_of_isUnsignedNumeral h
    refine ⟨c, u, ?_, hc⟩
    unfold takeSign
    split
    · next rest heq => exact absurd heq (hminus rest)
    · next rest heq =>
      obtain ⟨rfl, -⟩ := List.cons.inj heq
      exact absurd hc (by decide)
    · rfl

private theorem Number.nearest_ne_nan (negative : Bool) (num den : Nat) :
    nearest negative num den ≠ .nan := by
  unfold nearest
  simp only
  split <;> exact nofun

private theorem Number.ofDecimal_ne_nan (negative : Bool) (digits : Nat) (exponent : Int) :
    ofDecimal negative digits exponent ≠ .nan := by
  simp only [ofDecimal]
  split_ifs <;> simp [nearest_ne_nan]

/-- No numeral is NaN. -/
theorem Number.ofNumeral?_ne_nan (s : List Char) : ofNumeral? s ≠ some .nan := by
  intro h
  unfold ofNumeral? at h
  split at h
  · next hnumeral =>
    obtain ⟨c, u, hbody, hc⟩ := exists_of_isNumeral hnumeral
    have hword : lower (takeSign s).2 ≠ "nan".toList := by
      rw [hbody]
      intro hnan
      exact lowerChar_ne_n hc (List.cons.inj hnan).1
    simp only [ofText?, beq_eq_false_iff_ne.mpr hword, Bool.false_eq_true, if_false] at h
    split at h
    · cases h
    · obtain ⟨⟨digits, exponent⟩, -, hvalue⟩ := Option.map_eq_some_iff.mp h
      exact ofDecimal_ne_nan _ digits exponent hvalue
  · cases h

/-- A number that is not NaN equals itself. -/
theorem Number.equals_self {x : Number} (h : x ≠ .nan) : x.equals x = true := by
  cases x with
  | nan => exact absurd rfl h
  | infinite negative => simp [equals, compare?, position?]
  | finite x => simp [equals, compare?, position?]

/-- What a condition compares with is equal to itself. -/
theorem Value.equals_comparand (s : List Char) :
    (Condition.comparand s).equals (Condition.comparand s) = true := by
  unfold Condition.comparand
  split
  · next x h =>
    have hx : x ≠ .nan := by
      rintro rfl
      exact Number.ofNumeral?_ne_nan s h
    rw [equals, Number.equals_self hx]
  · rw [equals, beq_self_eq_true]

end Numerals

variable {name : Name} {t : List Char}

/-- A scalar that is assigned is the value that it is compared with. -/
theorem IsScalar.parse (h : IsScalar t) : Expr.parse t = .literal (Condition.comparand t) := by
  rw [Expr.parse_eq, trim_of_isTrimmed h.trimmed, h.notCall]
  simp only [Expr.ofLiteral, Condition.comparand]
  cases Number.ofNumeral? t with
  | some x => rfl
  | none =>
    simp only [beq_eq_false_iff_ne.mpr h.ne_true, beq_eq_false_iff_ne.mpr h.ne_false,
      beq_eq_false_iff_ne.mpr h.ne_null, h.notJson, Bool.false_eq_true, if_false]

private theorem isBlankText_space : isBlankText [' '] = true := rfl

/-- The spaces that stand around a symbol. -/
private def space : Blanks := ⟨[' '], isBlankText_space⟩

private theorem comparisonText_eq (name : Name) (relation : Relation) (t : List Char) :
    comparisonText name relation t = Question.opening name space relation space ++ t := by
  simp [comparisonText, Question.opening, space]

/-- Where the text brings no connective with it, the relation brings none. -/
private theorem freeOf_comparisonText {k : Connective} {relation : Relation}
    (h : containsPhrase k.text (comparisonText name relation t) = false) (relation' : Relation) :
    FreeOf k.text (comparisonText name relation' t) [] := by
  have hsplit : ∀ r, comparisonText name r t =
      Question.opening name space r ⟨[], rfl⟩ ++ ' ' :: t := by
    intro r
    simp [comparisonText, Question.opening, space]
  have hfree : FreeOf k.text (comparisonText name relation t) [] := by
    refine (cutAtPhrase?_eq_none k.text_ne_nil).mp ?_
    rwa [containsPhrase, Option.isSome_eq_false_iff, Option.isNone_iff_eq_none] at h
  rw [hsplit, freeOf_append] at hfree ⊢
  refine ⟨k.freeOf_opening name space relation' ⟨[], rfl⟩ ?_, hfree.2⟩
  cases k <;> simp [Connective.letter]

/-- A comparison with a scalar is read as one with its value. -/
theorem IsScalar.parse_comparison (h : IsScalar t) {relation : Relation}
    (hfree : ∀ k : Connective, FreeOf k.text (comparisonText name relation t) []) :
    Condition.parse (comparisonText name relation t) =
      .compare (String.ofList name.chars) relation (Condition.comparand t) := by
  have htrim : isTrimmed (comparisonText name relation t) = true := by
    have hmark : isTrimmed ['-'] = true := by decide
    have happend := isTrimmed_append hmark h.trimmed
      ('-' :: (name.chars ++ ' ' :: (relation.symbol.toList ++ [' '])))
    simpa [comparisonText] using happend
  have hnot : stripStart? "not ".toList (comparisonText name relation t) = none := by
    simp [comparisonText, stripStart?]
  have hrelation : Condition.relation? (comparisonText name relation t) =
      some (name.chars, relation, t) := by
    have hsymbol : (space.1 ++ t).head? ≠ some '=' := by simp [space]
    rw [comparisonText_eq]
    exact Question.relation?_comparison name space relation space h.trimmed h.oneLine hsymbol
  rw [Condition.parse_unconnected htrim hfree, hnot]
  simp only [Condition.atom, hrelation, trim_of_isTrimmed h.trimmed]

/-- The declaration of an assignment adds it. -/
theorem assignments_declare_assignmentText (l : Loading RouteParts) (htrim : isTrimmed t = true)
    (line : Nat) : (RouteParts.declare l ⟨assignmentText name t, line⟩).built.assignments =
      l.built.assignments ++ [⟨String.ofList name.chars, Expr.parse t, line⟩] := by
  have hmark : isTrimmed "--".toList = true := by decide
  have hproperty : isTrimmed ("--".toList ++ name.chars) = true := by
    have hname := isTrimmed_of_tame name.isTame_chars name.ne_nil
    exact isTrimmed_append hmark hname []
  have hcut : cutTop? ':' (assignmentText name t) = some ("--".toList ++ name.chars, ' ' :: t) := by
    have hbalanced : Balanced isSeparator ("--".toList ++ name.chars) :=
      (balanced_of_tame rfl).append name.balanced
    have hrun : Nesting.top.run ("--".toList ++ name.chars) = Nesting.top := hbalanced.run 0
    refine cutFrom?_eq_some.mpr ⟨?_, hbalanced.clear rfl, ?_⟩
    · simp [assignmentText]
    · rw [hrun]
      rfl
  have hvalue : trim (' ' :: t) = t := by
    have hpadded := trim_padded isBlankText_space isBlankText_nil t
    simpa [trim_of_isTrimmed htrim] using hpadded
  simp only [RouteParts.declare, hcut, trim_of_isTrimmed hproperty, hvalue]
  rfl

/-- The text that was assigned to a variable is read as the value that it is compared with, so
behind the assignment the variable is equal to the text. -/
theorem scalar_equals_assigned (name : Name) {t : List Char} (h : IsScalar t)
    (hfree : ∀ k : Connective, containsPhrase k.text (comparisonText name .eq t) = false) :
    (∃ value, Expr.parse t = .literal value ∧ Condition.parse (comparisonText name .eq t) =
      .compare (String.ofList name.chars) .eq value) ∧
    ∀ (σ : Type) (db : Option (Executor σ)) (l : Loading RouteParts) (line : Nat) (scope : Scope)
      (s : σ),
      let parts := (RouteParts.declare l ⟨assignmentText name t, line⟩).built
      let behind := (Route.bindAll db parts.assignments scope s).1
      (Condition.parse (comparisonText name .eq t)).holds behind.var = true ∧
        (Condition.parse (comparisonText name .ne t)).holds behind.var = false := by
  have hread : ∀ relation, Condition.parse (comparisonText name relation t) =
      .compare (String.ofList name.chars) relation (Condition.comparand t) := by
    intro relation
    exact h.parse_comparison fun k => freeOf_comparisonText (hfree k) relation
  refine ⟨⟨_, h.parse, hread .eq⟩, ?_⟩
  intro σ db l line scope s parts behind
  have hbehind : behind.var (String.ofList name.chars) = Condition.comparand t := by
    have hvar := Scope.lookup_bind (Route.bindAll db l.built.assignments scope s).1
      (String.ofList name.chars) (Condition.comparand t) (.var (String.ofList name.chars))
    rw [if_pos rfl] at hvar
    simp only [behind, parts, assignments_declare_assignmentText l h.trimmed,
      Route.bindAll_append, Route.bindAll_cons, h.parse]
    exact hvar
  rw [hread, hread]
  simp only [Condition.holds, Relation.holds, hbehind, Value.equals_comparand, Bool.not_true,
    and_self]

/-- A text in quotes that begins like a relation is equal to itself behind its assignment. -/
theorem scalar_equals_assigned_quoted :
    (∃ value, Expr.parse "'= b'".toList = .literal value ∧
      Condition.parse "--x = '= b'".toList = .compare "x" .eq value) ∧
    let parts := (RouteParts.declare ⟨.empty, []⟩ ⟨"--x: '= b'".toList, 1⟩).built
    let behind := (Route.bindAll (none : Option (Executor Unit)) parts.assignments
      (.ofRequest ⟨[], [], [], []⟩) ()).1
    (Condition.parse "--x = '= b'".toList).holds behind.var = true ∧
      (Condition.parse "--x != '= b'".toList).holds behind.var = false := by
  let name : Name := ⟨['x'], by decide, rfl⟩
  have hscalar : IsScalar "'= b'".toList := {
    trimmed := rfl, oneLine := by decide, ne_true := by decide, ne_false := by decide,
    ne_null := by decide, notJson := rfl, notCall := rfl }
  have hfree : ∀ k : Connective,
      containsPhrase k.text (comparisonText name .eq "'= b'".toList) = false := by
    intro k
    cases k <;> rfl
  obtain ⟨hread, hbehind⟩ := scalar_equals_assigned name hscalar hfree
  exact ⟨hread, hbehind Unit none ⟨.empty, []⟩ 1 (.ofRequest ⟨[], [], [], []⟩) ()⟩

end RouteSheet
