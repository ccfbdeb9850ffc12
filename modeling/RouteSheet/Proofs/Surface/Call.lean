import RouteSheet.Proofs.Surface.Reads

/-!
# Calls

A call is read from the word in front of its parentheses and the text between them.
What the arguments of a call need is that each of them is read as its expression:
then they come out of the text in order, none lost and none split.
-/

namespace RouteSheet.Surface

open Text Nesting

/-- The text of a call. -/
def callText (call : Call) (inner : List Char) : List Char :=
  call.word.toList ++ '(' :: (inner ++ [')'])

variable {text inner b b₁ b₂ b₃ : List Char} {e : Expr} {es : List Expr}

/-- Blanks are balanced. -/
theorem balanced_blank (hb : isBlankText b = true) : Balanced (fun _ => false) b :=
  (balanced_of_blank hb).inner

private theorem isTame_word (call : Call) :
    call.word.toList.all isTame = true ∧ call.word.toList ≠ [] := by
  cases call <;> decide

private theorem isTrimmed_callText (call : Call) : isTrimmed (callText call inner) = true := by
  obtain ⟨htame, hne⟩ := isTame_word call
  exact isTrimmed_append (isTrimmed_of_tame htame hne) (t := [')']) rfl ('(' :: inner)

/-- The text of a call with balanced contents is read as the call. -/
theorem ofText?_callText (call : Call) (h : Balanced (fun _ => false) inner) :
    Call.ofText? (trim (callText call inner)) = some (call, inner) := by
  rw [trim_of_isTrimmed (isTrimmed_callText call), callText, ofText?_call call h]

/-- Between its parentheses a call may hold any balanced text. -/
theorem Reads.of_call (call : Call) (h : Balanced (fun _ => false) inner)
    (hparse : Expr.parse (callText call inner) = e) : Reads (callText call inner) e := by
  have hbegins : Expr.beginsJson (callText call inner) = false := by
    cases call <;> rfl
  have hbalanced := (balanced_of_tame (isTame_word call).1).append (.parens h)
  exact .of_clear (isTrimmed_callText call) hbalanced hbegins hparse

/-- A reference to a variable or to a field of the request. -/
inductive Reference where
  | param
  /-- a parameter with a colon in front of its name -/
  | colonParam
  | query
  | body
  | header
  | var
  deriving Repr, DecidableEq

namespace Reference

/-- The call that a reference is. -/
def call : Reference → Call
  | .param | .colonParam => .param
  | .query => .query
  | .body => .body
  | .header => .header
  | .var => .var

/-- The mark in front of the name. -/
def mark : Reference → List Char
  | .colonParam => [':']
  | .var => ['-', '-']
  | _ => []

/-- The expression of a reference. -/
def expr : Reference → String → Expr
  | .param | .colonParam => .param
  | .query => .query
  | .body => .body
  | .header => .header
  | .var => .var

private theorem isTrimmed_mark (r : Reference) (name : Name) :
    isTrimmed (r.mark ++ name.chars) = true := by
  have hname := isTrimmed_of_tame name.isTame_chars name.ne_nil
  cases r with
  | colonParam => exact isTrimmed_append (s := [':']) rfl hname []
  | var => exact isTrimmed_append (s := ['-']) rfl hname ['-']
  | param | query | body | header => exact hname

/-- The name of a parameter is taken with a colon in front of it or without. -/
private theorem referenceName_colon (name : Name) (h : trim inner = name.chars) :
    Expr.referenceName [':'] inner = String.ofList name.chars := by
  have hnone : stripStart? [':'] name.chars = none := by
    refine stripStart?_eq_none ?_
    rintro ⟨rest, hrest⟩
    have hmem : ':' ∈ name.chars := by
      rw [← hrest]
      exact List.mem_cons_self ..
    exact absurd (List.all_eq_true.mp name.isName _ hmem) (by decide)
  rw [Expr.referenceName, h, hnone, Option.getD_none]

private theorem referenceName_mark (mark : List Char) (name : Name)
    (h : trim inner = mark ++ name.chars) :
    Expr.referenceName mark inner = String.ofList name.chars := by
  rw [Expr.referenceName, h, stripStart?_append, Option.getD_some]

/-- A reference is read as its name without the mark. -/
theorem reads (r : Reference) (name : Name) (h₁ : isBlankText b₁ = true)
    (h₂ : isBlankText b₂ = true) :
    Reads (callText r.call (b₁ ++ (r.mark ++ name.chars) ++ b₂))
      (r.expr (String.ofList name.chars)) := by
  have hbalanced : Balanced (fun _ => false) (b₁ ++ (r.mark ++ name.chars) ++ b₂) := by
    have hmark : Balanced (fun _ => false) r.mark := by
      cases r <;> exact Balanced.of_all rfl
    exact ((balanced_blank h₁).append (hmark.append name.balanced.inner)).append (balanced_blank h₂)
  have htrim : trim (b₁ ++ (r.mark ++ name.chars) ++ b₂) = r.mark ++ name.chars := by
    rw [trim_padded h₁ h₂, trim_of_isTrimmed (isTrimmed_mark r name)]
  refine .of_call r.call hbalanced ?_
  rw [Expr.parse_eq, ofText?_callText r.call hbalanced]
  cases r with
  | param => exact congrArg Expr.param (referenceName_colon name htrim)
  | colonParam => exact congrArg Expr.param (referenceName_mark [':'] name htrim)
  | query => exact congrArg Expr.query (referenceName_mark [] name htrim)
  | body => exact congrArg Expr.body (referenceName_mark [] name htrim)
  | header => exact congrArg Expr.header (referenceName_mark [] name htrim)
  | var => exact congrArg Expr.var (referenceName_mark ['-', '-'] name htrim)

end Reference

/-- A text between commas is read as the arguments of a call. -/
structure ReadsAll (text : List Char) (es : List Expr) : Prop where
  balanced : Balanced (fun _ => false) text
  ends : isTrimmed (',' :: text) = true
  arguments {b : List Char} (hb : isBlankText b = true) :
    (Expr.argumentTexts (text ++ b)).map Expr.parse = es

namespace ReadsAll

/-- The last argument. -/
theorem last (h : Reads text e) (hb : isBlankText b = true) : ReadsAll (b ++ text) [e] where
  balanced := (balanced_blank hb).append h.balanced.inner
  ends := isTrimmed_append (s := [',']) rfl h.trimmed b
  arguments {b'} hb' := by
    have hne : text.isEmpty = false := List.isEmpty_eq_false_iff.mpr (ne_nil_of_isTrimmed h.trimmed)
    have hpieces := h.pieces hb hb' []
    rw [List.append_nil] at hpieces
    rw [Expr.argumentTexts, hpieces, Expr.joinPieces]
    simp only [List.filter_cons, hne, Bool.not_false, if_true, List.filter_nil, List.map_cons,
      h.parse, List.map_nil]

/-- An argument in front of a comma. -/
theorem cons (h : Reads text e) (hrest : ReadsAll inner es) (h₁ : isBlankText b₁ = true)
    (h₂ : isBlankText b₂ = true) : ReadsAll (b₁ ++ text ++ b₂ ++ ',' :: inner) (e :: es) where
  balanced := (((balanced_blank h₁).append h.balanced.inner).append (balanced_blank h₂)).append
    ((Balanced.plain (c := ',') rfl rfl).append hrest.balanced)
  ends := isTrimmed_append (s := [',']) rfl hrest.ends (b₁ ++ text ++ b₂)
  arguments {b} hb := by
    have hne : text.isEmpty = false := List.isEmpty_eq_false_iff.mpr (ne_nil_of_isTrimmed h.trimmed)
    have hfirst : Balanced (fun _ => false) (b₁ ++ text ++ b₂) :=
      ((balanced_blank h₁).append h.balanced.inner).append (balanced_blank h₂)
    have hrun : top.run (b₁ ++ text ++ b₂) = top := hfirst.run 0
    have harguments := hrest.arguments hb
    rw [Expr.argumentTexts] at harguments ⊢
    rw [List.append_assoc (b₁ ++ text ++ b₂), List.cons_append, splitTop_append hrun rfl,
      h.pieces h₁ h₂]
    simp only [List.filter_cons, hne, Bool.not_false, if_true, List.map_cons, h.parse, harguments]

end ReadsAll

/-- Blanks are no arguments. -/
theorem argumentTexts_of_blank (hb : isBlankText b = true) : Expr.argumentTexts b = [] := by
  have hclear : clear ',' top b = true := (balanced_of_blank hb).clear rfl
  have hjoin : Expr.joinOf? b [] = none := by
    rw [Expr.joinOf?, trim_eq_nil hb]
    rfl
  rw [Expr.argumentTexts, splitTop, splitFrom_of_clear hclear, joinPieces_cons, hjoin,
    trim_eq_nil hb, Expr.joinPieces]
  rfl

/-- The quoted text behind the blanks is the statement. -/
private theorem firstQuoted?_text (q : Quoted) (hb : isBlankText b = true) (s : List Char) :
    firstQuoted? (b ++ q.text ++ s) = some ⟨b, q.contents, s⟩ := by
  have hblank : b.all (!Text.isQuote ·) = true := by
    refine List.all_eq_true.mpr fun c hc => ?_
    have hplain := isPlain_of_isBlank (isBlank_of_mem hb hc)
    simp only [isPlain, Bool.and_eq_true] at hplain
    exact hplain.1.1
  have hopen : takeRun (!Text.isQuote ·) (b ++ q.quote :: (q.contents ++ q.quote :: s)) =
      (b, q.quote :: (q.contents ++ q.quote :: s)) := by
    refine takeRun_append_of_all hblank fun c hc => ?_
    rw [← Option.some.inj hc, q.isQuote, Bool.not_true]
  have hclose : takeRun (· != q.quote) (q.contents ++ q.quote :: s) =
      (q.contents, q.quote :: s) := by
    refine takeRun_append_of_all ?_ fun c hc => ?_
    · refine List.all_eq_true.mpr fun c hc => bne_iff_ne.mpr ?_
      rintro rfl
      exact q.free hc
    · rw [← Option.some.inj hc, bne_self_eq_false]
  have htext : b ++ q.text ++ s = b ++ q.quote :: (q.contents ++ q.quote :: s) := by
    simp only [Quoted.text, List.append_assoc, List.cons_append, List.nil_append]
  rw [htext, firstQuoted?, hopen]
  simp only [cutAtChar?, hclose, Option.map_some]

/-- A query without arguments. -/
theorem reads_sql_nil (q : Quoted) (h₁ : isBlankText b₁ = true) (h₂ : isBlankText b₂ = true) :
    Reads (callText .sql (b₁ ++ q.text ++ b₂)) (.sql (String.ofList q.contents) []) := by
  have hbalanced : Balanced (fun _ => false) (b₁ ++ q.text ++ b₂) :=
    ((balanced_blank h₁).append q.balanced).append (balanced_blank h₂)
  have htexts : Expr.queryTexts (b₁ ++ q.text ++ b₂) = (q.contents, []) := by
    have hnone : Expr.argumentTexts ((stripStart? [','] []).getD []) = [] :=
      argumentTexts_of_blank rfl
    simp only [Expr.queryTexts, firstQuoted?_text q h₁, trim_eq_nil h₂, hnone]
  refine .of_call .sql hbalanced ?_
  rw [Expr.parse_eq, ofText?_callText .sql hbalanced]
  simp only [htexts, List.map_nil]

/-- A query is read as its statement and its arguments. -/
theorem ReadsAll.sql (h : ReadsAll text es) (q : Quoted) (h₁ : isBlankText b₁ = true)
    (h₂ : isBlankText b₂ = true) (h₃ : isBlankText b₃ = true) :
    Reads (callText .sql (b₁ ++ q.text ++ (b₂ ++ ',' :: text ++ b₃)))
      (.sql (String.ofList q.contents) es) := by
  have hbalanced : Balanced (fun _ => false) (b₁ ++ q.text ++ (b₂ ++ ',' :: text ++ b₃)) :=
    ((balanced_blank h₁).append q.balanced).append (((balanced_blank h₂).append
      ((Balanced.plain (c := ',') rfl rfl).append h.balanced)).append (balanced_blank h₃))
  have htexts : Expr.queryTexts (b₁ ++ q.text ++ (b₂ ++ ',' :: text ++ b₃)) =
      (q.contents, Expr.argumentTexts text) := by
    have hcomma : stripStart? [','] (',' :: text) = some text := stripStart?_append [','] text
    simp only [Expr.queryTexts, firstQuoted?_text q h₁, trim_padded h₂ h₃,
      trim_of_isTrimmed h.ends, hcomma, Option.getD_some]
  have harguments := h.arguments (b := []) rfl
  rw [List.append_nil] at harguments
  refine .of_call .sql hbalanced ?_
  rw [Expr.parse_eq, ofText?_callText .sql hbalanced]
  simp only [htexts, harguments]

/-- A concatenation of nothing. -/
theorem reads_concat_nil (hb : isBlankText b = true) :
    Reads (callText .concat b) (.concat []) := by
  refine .of_call .concat (balanced_blank hb) ?_
  rw [Expr.parse_eq, ofText?_callText .concat (balanced_blank hb)]
  simp only [argumentTexts_of_blank hb, List.map_nil]

/-- A concatenation is read as its parts. -/
theorem ReadsAll.concat (h : ReadsAll text es) (hb : isBlankText b = true) :
    Reads (callText .concat (text ++ b)) (.concat es) := by
  have hbalanced := h.balanced.append (balanced_blank hb)
  refine .of_call .concat hbalanced ?_
  rw [Expr.parse_eq, ofText?_callText .concat hbalanced]
  simp only [h.arguments hb]

end RouteSheet.Surface
