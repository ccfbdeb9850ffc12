import RouteSheet.Proofs.Json.Document
import RouteSheet.Proofs.Surface.Reads

/-!
# Literals

Numerals, words, quoted texts and JSON documents are read as they stand. A JSON
document is cut at its commas when it is an argument, and its pieces are joined up
to its end and no further, because no document ends before one of its commas.
-/

namespace RouteSheet.Surface

open Text Nesting

variable {text b₁ b₂ : List Char}

/-- A JSON array or object, nested as deep as a document may be, in which no string escapes a
double quote. -/
structure JsonLiteral where
  text : List Char
  document : Json
  parses : Json.parse? text = some document
  begins : Expr.beginsJson text = true
  trimmed : isTrimmed text = true
  unescaped : Json.escapesQuote text = false

namespace JsonLiteral

variable (j : JsonLiteral)

/-- A written array or object is a document. -/
theorem isDocument_text : Json.isDocument j.text = true := by
  rw [Json.isDocument, j.parses, Option.isSome_some]

/-- A written array or object begins with its bracket or brace. -/
theorem exists_text : ∃ c s, j.text = c :: s ∧ (c = '[' ∨ c = '\x7b') := by
  have hbegins := j.begins
  cases htext : j.text with
  | nil =>
    rw [htext] at hbegins
    exact absurd hbegins nofun
  | cons c s =>
    rw [htext, Expr.beginsJson, List.head?_cons, Bool.or_eq_true, beq_iff_eq, beq_iff_eq,
      Option.some.injEq, Option.some.injEq] at hbegins
    exact ⟨c, s, rfl, hbegins⟩

private theorem not_isBlank_head {c : Char} {s : List Char} (h : j.text = c :: s) :
    isBlank c = false ∧ c ≠ ',' := by
  obtain ⟨d, t, htext, hd⟩ := j.exists_text
  obtain ⟨rfl, -⟩ := List.cons.inj (h.symm.trans htext)
  rcases hd with rfl | rfl <;> exact ⟨rfl, by decide⟩

/-- A comma between blanks around the text is one of the text. -/
private theorem exists_comma (h₁ : isBlankText b₁ = true) (h₂ : isBlankText b₂ = true)
    {s t : List Char} (h : b₁ ++ j.text ++ b₂ = s ++ ',' :: t) :
    ∃ x y, s = b₁ ++ x ∧ j.text = x ++ ',' :: y := by
  have hblank : isBlank ',' = false := rfl
  have hcomma : ∀ b, isBlankText b = true → ',' ∉ b := by
    intro b hb hmem
    exact Bool.false_ne_true (hblank.symm.trans (isBlank_of_mem hb hmem))
  rw [List.append_assoc] at h
  obtain ⟨x, rfl, hx⟩ : ∃ x, s = b₁ ++ x ∧ j.text ++ b₂ = x ++ ',' :: t := by
    rcases List.append_eq_append_iff.mp h with ⟨x, hs, hx⟩ | ⟨x, hb, hx⟩
    · exact ⟨x, hs, hx⟩
    · cases x with
      | nil => exact ⟨[], by rw [List.append_nil, hb, List.append_nil], hx.symm⟩
      | cons c x =>
        obtain ⟨rfl, -⟩ := List.cons.inj hx
        exact absurd (hb ▸ List.mem_append_right s (List.mem_cons_self ..)) (hcomma b₁ h₁)
  refine ⟨x, ?_⟩
  rcases List.append_eq_append_iff.mp hx with ⟨y, hy, hb⟩ | ⟨y, hy, hb⟩
  · exact absurd (hb ▸ List.mem_append_right y (List.mem_cons_self ..)) (hcomma b₂ h₂)
  · cases y with
    | nil =>
      rw [List.nil_append] at hb
      exact absurd (hb ▸ List.mem_cons_self ..) (hcomma b₂ h₂)
    | cons c y =>
      obtain ⟨rfl, -⟩ := List.cons.inj hb
      exact ⟨y, rfl, hy⟩

/-- No document ends before a comma of the text. -/
private theorem isDocument_before (h₁ : isBlankText b₁ = true) (h₂ : isBlankText b₂ = true)
    {s t : List Char} (h : b₁ ++ j.text ++ b₂ = s ++ ',' :: t) :
    Expr.beginsJson (trim s) = true ∧ Json.isDocument (trim s) = false := by
  obtain ⟨x, y, rfl, htext⟩ := j.exists_comma h₁ h₂ h
  cases x with
  | nil => exact absurd rfl (j.not_isBlank_head htext).2
  | cons c x =>
    obtain ⟨hc, -⟩ := j.not_isBlank_head htext
    have htrim : trim (b₁ ++ c :: x) = trimEnd (c :: x) := by
      rw [trim, trimStart_append_of_blank h₁, trimStart_cons hc]
    obtain ⟨b, hb, hx⟩ := exists_append_trimEnd (c :: x)
    rw [htrim]
    constructor
    · cases hend : trimEnd (c :: x) with
      | nil =>
        rw [hend, List.nil_append] at hx
        exact absurd (isBlank_of_mem hb (hx ▸ List.mem_cons_self ..)) (Bool.eq_false_iff.mp hc)
      | cons d z =>
        rw [hend, List.cons_append] at hx
        have hbegins := j.begins
        rwa [htext, List.cons_append, ← (List.cons.inj hx).1] at hbegins
    · refine Json.isDocument_before_comma (t := y) ?_ hb
      rw [← List.append_assoc, hx, ← htext]
      exact j.isDocument_text

/-- The pieces of the text are joined up to its end. -/
private theorem rejoin?_pieces (h₁ : isBlankText b₁ = true) (h₂ : isBlankText b₂ = true)
    (more : List (List Char)) {joined piece : List Char} {rest : List (List Char)}
    (h : b₁ ++ j.text ++ b₂ = joined ++ (piece :: rest).flatMap (',' :: ·)) :
    Expr.rejoin? joined (piece :: rest ++ more) = some (j.text, more) := by
  induction rest generalizing joined piece with
  | nil =>
    have hall : b₁ ++ j.text ++ b₂ = joined ++ ',' :: piece := by
      simpa only [List.flatMap_cons, List.flatMap_nil, List.append_nil] using h
    have htrim : trim (joined ++ ',' :: piece) = j.text := by
      rw [← hall, trim_padded h₁ h₂, trim_of_isTrimmed j.trimmed]
    rw [List.singleton_append, Expr.rejoin?]
    simp only [htrim, j.isDocument_text, if_true]
  | cons next rest ih =>
    have hsplit : b₁ ++ j.text ++ b₂ =
        (joined ++ ',' :: piece) ++ (next :: rest).flatMap (',' :: ·) := by
      rw [h, List.flatMap_cons, List.append_assoc]
    have hnone := (j.isDocument_before h₁ h₂ hsplit).2
    rw [List.cons_append, Expr.rejoin?]
    simp only [hnone, Bool.false_eq_true, if_false]
    exact ih hsplit

/-- As an argument, the text comes out of its pieces whole. -/
theorem joinPieces_text (h₁ : isBlankText b₁ = true) (h₂ : isBlankText b₂ = true)
    (more : List (List Char)) : Expr.joinPieces (splitTop ',' (b₁ ++ j.text ++ b₂) ++ more) =
      j.text :: Expr.joinPieces more := by
  obtain ⟨piece, rest, hsplit⟩ := exists_splitFrom ',' top (b₁ ++ j.text ++ b₂)
  have hjoin := (join_splitFrom hsplit).symm
  rw [splitTop, hsplit, List.cons_append, joinPieces_cons]
  cases rest with
  | nil =>
    have htrim : trim piece = j.text := by
      rw [List.flatMap_nil, List.append_nil] at hjoin
      rw [← hjoin, trim_padded h₁ h₂, trim_of_isTrimmed j.trimmed]
    rw [Expr.joinOf?, htrim, j.isDocument_text, Bool.not_true, Bool.and_false,
      if_neg Bool.false_ne_true, List.nil_append]
  | cons next rest =>
    obtain ⟨hbegins, hnone⟩ := j.isDocument_before h₁ h₂ hjoin
    rw [Expr.joinOf?, hbegins, hnone, Bool.not_false, Bool.and_self, if_pos rfl,
      j.rejoin?_pieces h₁ h₂ more hjoin]

end JsonLiteral

/-- What is no call is a literal. -/
private theorem parse_literal (hcall : Call.ofText? text = none) (htrim : isTrimmed text = true) :
    Expr.parse text = Expr.ofLiteral text := by
  rw [Expr.parse_eq, trim_of_isTrimmed htrim, hcall]

private theorem beginsJson_cons {c : Char} (s : List Char) (h₁ : c ≠ '[') (h₂ : c ≠ '\x7b') :
    Expr.beginsJson (c :: s) = false := by
  rw [Expr.beginsJson, List.head?_cons, beq_eq_false_iff_ne.mpr (by simpa using h₁),
    beq_eq_false_iff_ne.mpr (by simpa using h₂), Bool.or_self]

/-- A numeral is read as its number. -/
theorem Numeral.reads (n : Numeral) : Reads n.text (.literal (.number n.value)) := by
  have htrim := isTrimmed_of_tame n.isTame_text n.text_ne_nil
  have hbalanced := balanced_of_tame n.isTame_text
  obtain ⟨c, s, hs, hname, hletter⟩ := n.exists_text
  have hcall : Call.ofText? n.text = none := by
    rw [hs]
    exact ofText?_eq_none hletter s
  have hbegins : Expr.beginsJson n.text = false := by
    rw [hs]
    refine beginsJson_cons s ?_ ?_ <;> rintro rfl <;> exact absurd hname (by decide)
  refine .of_clear htrim hbalanced hbegins ?_
  rw [parse_literal hcall htrim, Expr.ofLiteral, n.ofNumeral?_text]

/-- The word of a truth value. -/
def boolText (b : Bool) : List Char := if b then "true".toList else "false".toList

/-- A truth value is read as itself. -/
theorem reads_bool (b : Bool) : Reads (boolText b) (.literal (.bool b)) := by
  cases b with
  | true =>
    refine .of_clear rfl (balanced_of_tame rfl) rfl ?_
    rw [parse_literal rfl rfl]
    rfl
  | false =>
    refine .of_clear rfl (balanced_of_tame rfl) rfl ?_
    rw [parse_literal rfl rfl]
    rfl

/-- The word null is read as the value. -/
theorem reads_null : Reads "null".toList (.literal .null) := by
  refine .of_clear rfl (balanced_of_tame rfl) rfl ?_
  rw [parse_literal rfl rfl]
  rfl

section Head

variable {c : Char} {s : List Char} (hletter : isLetter c = false)
  (hnumeral : Number.ofNumeral? (c :: s) = none)

include hletter

private theorem ne_words : (c :: s == "true".toList) = false ∧
    (c :: s == "false".toList) = false ∧ (c :: s == "null".toList) = false := by
  have hne : ∀ (d : Char) (w : List Char), isLetter d = true → (c :: s == d :: w) = false := by
    intro d w hd
    refine beq_eq_false_iff_ne.mpr ?_
    intro h
    rw [(List.cons.inj h).1, hd] at hletter
    exact absurd hletter nofun
  exact ⟨hne 't' _ rfl, hne 'f' _ rfl, hne 'n' _ rfl⟩

include hnumeral

/-- A document is read as its value. -/
private theorem ofLiteral_json {document : Json} (hbegins : Expr.beginsJson (c :: s) = true)
    (hparse : Json.parse? (c :: s) = some document) :
    Expr.ofLiteral (c :: s) = .json (.ofJson document) := by
  obtain ⟨htrue, hfalse, hnull⟩ := ne_words (s := s) hletter
  simp only [Expr.ofLiteral, hnumeral, htrue, hfalse, hnull, Bool.false_eq_true, if_false, hbegins,
    if_true, hparse]

/-- What begins like no other literal is a string. -/
private theorem ofLiteral_string (hbegins : Expr.beginsJson (c :: s) = false) :
    Expr.ofLiteral (c :: s) = .literal (.string (String.ofList (stripQuotes (c :: s)))) := by
  obtain ⟨htrue, hfalse, hnull⟩ := ne_words (s := s) hletter
  simp only [Expr.ofLiteral, hnumeral, htrue, hfalse, hnull, Bool.false_eq_true, if_false, hbegins]

end Head

/-- A quoted text is read as its contents. -/
theorem Quoted.reads (q : Quoted) :
    Reads q.text (.literal (.string (String.ofList q.contents))) := by
  have hhead : isLetter q.quote = false ∧ Expr.beginsJson q.text = false := by
    rcases q.quote_eq with h | h <;> rw [text, h] <;> exact ⟨rfl, rfl⟩
  have hcall : Call.ofText? q.text = none := ofText?_eq_none hhead.1 _
  have hliteral : Expr.ofLiteral q.text = _ :=
    ofLiteral_string hhead.1 q.ofNumeral?_text hhead.2
  refine .of_clear q.isTrimmed_text (q.balanced (p := isSeparator)) hhead.2 ?_
  rw [parse_literal hcall q.isTrimmed_text, hliteral, ← text, q.stripQuotes_text]

/-- A JSON document is read as its value. -/
theorem JsonLiteral.reads (j : JsonLiteral) : Reads j.text (.json (.ofJson j.document)) := by
  refine ⟨j.trimmed, Json.balanced_of_isDocument j.isDocument_text j.unescaped,
    j.joinPieces_text, ?_⟩
  obtain ⟨c, s, htext, hc⟩ := j.exists_text
  obtain ⟨hletter, hnumeral⟩ : isLetter c = false ∧ Number.ofNumeral? (c :: s) = none := by
    rcases hc with rfl | rfl <;> exact ⟨rfl, ofNumeral?_eq_none (by decide) rfl s⟩
  have hcall : Call.ofText? j.text = none := by
    rw [htext]
    exact ofText?_eq_none hletter s
  have hliteral := ofLiteral_json hletter hnumeral (htext ▸ j.begins) (htext ▸ j.parses)
  rw [parse_literal hcall j.trimmed, htext, hliteral]

end RouteSheet.Surface
