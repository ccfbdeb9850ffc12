import RouteSheet.Json.Reader
import RouteSheet.Number.Numeral
import RouteSheet.Syntax
import RouteSheet.Text.Length
import RouteSheet.Value.Text

/-!
# Reading conditions and expressions

A condition is cut at the first textual ` or `, else at the first ` and `, else it
may begin with `not `. What remains is a relation between a variable and a value,
or the bare name of a variable. Quotes protect nothing here: the connectives are
looked for in the text as it stands.

Reading an expression never fails: a text that is no call is a literal. The arguments
of a call are cut at the top-level commas, and because brackets do not count as nesting,
the pieces of a JSON array or object are joined again: a piece that begins like one
takes in the following pieces up to the first join that is a document.
-/

namespace RouteSheet

open Text

namespace Condition

/-- A character of a variable's name. -/
def isNameChar (c : Char) : Bool := isLetter c || isDigit c || c == '_' || c == '-'

/-- The value that a relation compares with: a number if the text is a numeral, else the text
without its quotes. -/
def comparand (s : List Char) : Value :=
  match Number.ofNumeral? s with
  | some x => .number x
  | none => .string (String.ofList (stripQuotes s))

/-- A variable's name, a relation and the text compared with. The text is not empty and has one
line, and a longer symbol that would leave nothing gives way to a shorter one. -/
def relation? (s : List Char) : Option (List Char × Relation × List Char) :=
  match stripStart? ['-', '-'] s with
  | none => none
  | some s =>
    let (name, rest) := takeRun isNameChar s
    if name.isEmpty then none
    else Relation.all.findSome? fun relation =>
      match stripStart? relation.symbol.toList (trimStart rest) with
      | none => none
      | some after =>
        let text := trimStart after
        if text.isEmpty || text.contains '\n' then none else some (name, relation, text)

/-- The condition of a text without connectives. -/
def atom (s : List Char) : Condition :=
  match relation? s with
  | some (name, relation, text) => .compare (String.ofList name) relation (comparand (trim text))
  | none => .truthy (String.ofList ((stripStart? ['-', '-'] s).getD s))

/-- The condition that a text writes. -/
def parse (text : List Char) : Condition :=
  match _ : cutAtPhrase? " or ".toList (trim text) with
  | some (left, right) => .or (parse left) (parse right)
  | none =>
    match _ : cutAtPhrase? " and ".toList (trim text) with
    | some (left, right) => .and (parse left) (parse right)
    | none =>
      match _ : stripStart? "not ".toList (trim text) with
      | some rest => .not (parse rest)
      | none => atom (trim text)
termination_by text.length
decreasing_by
  all_goals
    have := length_trim_le text
    first
      | have := length_of_cutAtPhrase? ‹_›
        simp only [String.reduceToList, List.length_cons] at this
        omega
      | have := length_of_stripStart? ‹_›
        simp only [String.reduceToList, List.length_cons] at this
        omega

end Condition

/-- The calls of the language. -/
inductive Call where
  | sql
  | param
  | query
  | body
  | header
  | var
  | choice
  | concat
  deriving Repr, DecidableEq

namespace Call

/-- The word in front of the parenthesis. -/
def word : Call → String
  | .sql => "sql"
  | .param => "param"
  | .query => "query"
  | .body => "body"
  | .header => "header"
  | .var => "var"
  | .choice => "if"
  | .concat => "concat"

/-- All calls. No word is followed by a parenthesis inside another, so the order is of no
account. -/
def all : List Call := [.sql, .param, .query, .body, .header, .var, .choice, .concat]

/-- The call that a text begins with, and the text between its parentheses. What follows the
closing parenthesis is ignored. -/
def ofText? (s : List Char) : Option (Call × List Char) :=
  all.findSome? fun call => (callArguments? call.word.toList s).map fun inner => (call, inner)

/-- What stands between the parentheses of a call is shorter than the call. -/
theorem length_of_ofText? {s inner : List Char} {call : Call} (h : ofText? s = some (call, inner)) :
    inner.length < s.length := by
  obtain ⟨c, _, hc⟩ := List.exists_of_findSome?_eq_some h
  obtain ⟨i, hi, he⟩ := Option.map_eq_some_iff.mp hc
  simp only [Prod.mk.injEq] at he
  rw [← he.2]
  exact length_of_callArguments? hi

end Call

namespace Expr

/-- A text begins like a JSON array or object. -/
def beginsJson (s : List Char) : Bool := s.head? == some '[' || s.head? == some '\x7b'

/-- The literal of a text: a number, a word of JSON, a JSON array or object, or else a string
without its quotes. -/
def ofLiteral (s : List Char) : Expr :=
  match Number.ofNumeral? s with
  | some x => .literal (.number x)
  | none =>
    if s == "true".toList then .literal (.bool true)
    else if s == "false".toList then .literal (.bool false)
    else if s == "null".toList then .literal .null
    else
      match if beginsJson s then Json.parse? s else none with
      | some document => .json (.ofJson document)
      | none => .literal (.string (String.ofList (stripQuotes s)))

/-- The shortest join of a piece with the pieces behind it that is a JSON document, and the
pieces left over. -/
def rejoin? (joined : List Char) : List (List Char) → Option (List Char × List (List Char))
  | [] => none
  | piece :: rest =>
    let longer := joined ++ ',' :: piece
    if Json.isDocument (trim longer) then some (trim longer, rest) else rejoin? longer rest

/-- Behind joined pieces fewer pieces are left. -/
theorem length_of_rejoin? {joined document : List Char} {pieces rest : List (List Char)}
    (h : rejoin? joined pieces = some (document, rest)) : rest.length < pieces.length := by
  induction pieces generalizing joined with
  | nil => simp [rejoin?] at h
  | cons piece pieces ih =>
    unfold rejoin? at h
    simp only at h
    split at h
    · cases h; simp
    · have := ih h
      simp only [List.length_cons]
      omega

/-- The join that a piece needs because it begins a JSON document and is none. -/
def joinOf? (piece : List Char) (rest : List (List Char)) :
    Option (List Char × List (List Char)) :=
  if beginsJson (trim piece) && !Json.isDocument (trim piece) then rejoin? piece rest else none

/-- The arguments that the pieces between commas make up. -/
def joinPieces : List (List Char) → List (List Char)
  | [] => []
  | piece :: rest =>
    match _ : joinOf? piece rest with
    | some (document, rest) => document :: joinPieces rest
    | none => trim piece :: joinPieces rest
termination_by pieces => pieces.length
decreasing_by
  · next h =>
    unfold joinOf? at h
    split at h
    · have := length_of_rejoin? h
      simp only [List.length_cons]
      omega
    · cases h
  · simp

/-- The texts of the arguments of a call; empty ones are dropped. -/
def argumentTexts (inner : List Char) : List (List Char) :=
  (joinPieces (splitTop ',' inner)).filter fun s => !s.isEmpty

/-- The length of the pieces with one separator behind each. -/
def totalLength : List (List Char) → Nat
  | [] => 0
  | piece :: rest => piece.length + 1 + totalLength rest

/-- A character put before the first part makes the parts longer by one. -/
theorem totalLength_extendFirst (c : Char) {parts : List (List Char)} (h : parts ≠ []) :
    totalLength (extendFirst c parts) = totalLength parts + 1 := by
  cases parts with
  | nil => exact absurd rfl h
  | cons part rest => simp only [extendFirst, totalLength, List.length_cons]; omega

/-- There is always at least one part. -/
theorem splitFrom_ne_nil (sep : Char) (n : Nesting) (s : List Char) : splitFrom sep n s ≠ [] := by
  cases s with
  | nil => simp [splitFrom]
  | cons c s =>
    unfold splitFrom
    split
    · simp
    · cases splitFrom sep (n.next c) s <;> simp [extendFirst]

/-- The parts, with one character for the end of each, are longer than the text by one. -/
theorem totalLength_splitFrom (sep : Char) (n : Nesting) (s : List Char) :
    totalLength (splitFrom sep n s) = s.length + 1 := by
  induction s generalizing n with
  | nil => simp [splitFrom, totalLength]
  | cons c s ih =>
    unfold splitFrom
    split
    · simp only [totalLength, List.length_nil, ih, List.length_cons]; omega
    · rw [totalLength_extendFirst c (splitFrom_ne_nil sep _ s), ih, List.length_cons]

/-- A joined document and the pieces behind it are no longer than the pieces that they are made
of. -/
theorem length_of_rejoin?_document {joined document : List Char} {pieces rest : List (List Char)}
    (h : rejoin? joined pieces = some (document, rest)) :
    document.length + totalLength rest ≤ joined.length + totalLength pieces := by
  induction pieces generalizing joined with
  | nil => simp [rejoin?] at h
  | cons piece pieces ih =>
    unfold rejoin? at h
    simp only at h
    split at h
    · have := length_trim_le (joined ++ ',' :: piece)
      simp only [List.length_append, List.length_cons] at this
      cases h
      simp only [totalLength]
      omega
    · have := ih h
      simp only [List.length_append, List.length_cons, totalLength] at *
      omega

/-- A joined piece is shorter than all pieces with their ends. -/
theorem length_of_mem_joinPieces {pieces : List (List Char)} {s : List Char}
    (h : s ∈ joinPieces pieces) : s.length + 1 ≤ totalLength pieces := by
  fun_induction joinPieces pieces with
  | case1 => simp at h
  | case2 piece rest document left hj ih =>
    have hb : document.length + totalLength left ≤ piece.length + totalLength rest := by
      unfold joinOf? at hj
      split at hj
      · exact length_of_rejoin?_document hj
      · cases hj
    simp only [List.mem_cons] at h
    simp only [totalLength]
    rcases h with h | h
    · subst h; omega
    · have := ih h; omega
  | case3 piece rest _ ih =>
    have := length_trim_le piece
    simp only [List.mem_cons] at h
    simp only [totalLength]
    rcases h with h | h
    · subst h; omega
    · have := ih h; omega

/-- The text of an argument is no longer than what the arguments stand in. -/
theorem length_of_mem_argumentTexts {inner s : List Char} (h : s ∈ argumentTexts inner) :
    s.length ≤ inner.length := by
  have := length_of_mem_joinPieces (List.mem_filter.mp h).1
  rw [splitTop, totalLength_splitFrom] at this
  omega

/-- The statement of a query and the texts of its arguments: the first quoted run is the
statement, and one comma behind it is dropped. Without a quoted run both are empty. -/
def queryTexts (inner : List Char) : List Char × List (List Char) :=
  match firstQuoted? inner with
  | none => ([], [])
  | some run =>
    let rest := trim run.after
    (run.contents, argumentTexts ((stripStart? [','] rest).getD rest))

/-- The text of a bound argument is shorter than what the query stands in. -/
theorem length_of_mem_queryTexts {inner s : List Char} (h : s ∈ (queryTexts inner).2) :
    s.length < inner.length := by
  unfold queryTexts at h
  split at h
  · simp at h
  · next run hr =>
    have ha := length_of_mem_argumentTexts h
    have hq := length_of_firstQuoted? hr
    have ht := length_trim_le run.after
    cases hs : stripStart? [','] (trim run.after) with
    | none => rw [hs, Option.getD_none] at ha; omega
    | some rest =>
      have := length_of_stripStart? hs
      rw [hs, Option.getD_some] at ha
      omega

/-- The parts of a choice that are not blank. -/
def choiceParts (inner : List Char) : List (List Char) :=
  ((splitTop ';' inner).map trim).filter fun s => !s.isEmpty

/-- The texts of condition and value of each branch. A part without a colon at the top is no
branch. -/
def branchTexts (inner : List Char) : List (List Char × List Char) :=
  (choiceParts inner).filterMap fun part =>
    if (stripStart? "else:".toList part).isSome then none else cutTop? ':' part

/-- The text of the value that no condition guards; the first one counts. -/
def otherwiseText? (inner : List Char) : Option (List Char) :=
  (choiceParts inner).findSome? (stripStart? "else:".toList)

/-- A part of a choice is no longer than the choice. -/
theorem length_of_mem_choiceParts {inner part : List Char} (h : part ∈ choiceParts inner) :
    part.length ≤ inner.length := by
  obtain ⟨p, hp, rfl⟩ := List.mem_map.mp (List.mem_filter.mp h).1
  have := length_of_mem_splitTop hp
  have := length_trim_le p
  omega

/-- The value of a branch is shorter than the choice. -/
theorem length_of_mem_branchTexts {inner : List Char} {branch : List Char × List Char}
    (h : branch ∈ branchTexts inner) : branch.2.length < inner.length := by
  obtain ⟨part, hp, hb⟩ := List.mem_filterMap.mp h
  have := length_of_mem_choiceParts hp
  split at hb
  · cases hb
  · have := length_of_cutTop? hb
    omega

/-- The last value of a choice is shorter than the choice. -/
theorem length_of_otherwiseText? {inner s : List Char} (h : otherwiseText? inner = some s) :
    s.length < inner.length := by
  obtain ⟨part, hp, hs⟩ := List.exists_of_findSome?_eq_some h
  have := length_of_mem_choiceParts hp
  have := length_of_stripStart? hs
  simp only [String.reduceToList, List.length_cons] at this
  omega

/-- The name between the parentheses of a reference, without one mark in front. -/
def referenceName (mark inner : List Char) : String :=
  String.ofList ((stripStart? mark (trim inner)).getD (trim inner))

/-- The expression that a text writes. -/
def parse (text : List Char) : Expr :=
  match _ : Call.ofText? (trim text) with
  | none => ofLiteral (trim text)
  | some (.sql, inner) =>
    .sql (String.ofList (queryTexts inner).1)
      ((queryTexts inner).2.attach.map fun arg => parse arg.1)
  | some (.param, inner) => .param (referenceName [':'] inner)
  | some (.query, inner) => .query (referenceName [] inner)
  | some (.body, inner) => .body (referenceName [] inner)
  | some (.header, inner) => .header (referenceName [] inner)
  | some (.var, inner) => .var (referenceName ['-', '-'] inner)
  | some (.choice, inner) =>
    .choice ((branchTexts inner).attach.map fun branch =>
        (Condition.parse branch.1.1, parse branch.1.2))
      ((otherwiseText? inner).attach.map fun value => parse value.1)
  | some (.concat, inner) => .concat ((argumentTexts inner).attach.map fun arg => parse arg.1)
termination_by text.length
decreasing_by
  all_goals
    have := length_trim_le text
    have := Call.length_of_ofText? ‹_›
  · have := length_of_mem_queryTexts arg.2
    omega
  · have := length_of_mem_branchTexts branch.2
    omega
  · have := length_of_otherwiseText? value.2
    omega
  · have := length_of_mem_argumentTexts arg.2
    omega

/-- Reading is decided by the call at the beginning; the parts of a call are read alike. -/
theorem parse_eq (text : List Char) :
    parse text =
      match Call.ofText? (trim text) with
      | none => ofLiteral (trim text)
      | some (.sql, inner) =>
        .sql (String.ofList (queryTexts inner).1) ((queryTexts inner).2.map parse)
      | some (.param, inner) => .param (referenceName [':'] inner)
      | some (.query, inner) => .query (referenceName [] inner)
      | some (.body, inner) => .body (referenceName [] inner)
      | some (.header, inner) => .header (referenceName [] inner)
      | some (.var, inner) => .var (referenceName ['-', '-'] inner)
      | some (.choice, inner) =>
        .choice ((branchTexts inner).map fun branch => (Condition.parse branch.1, parse branch.2))
          ((otherwiseText? inner).map parse)
      | some (.concat, inner) => .concat ((argumentTexts inner).map parse) := by
  rw [parse]
  split
  case h_8 inner h =>
    have hb := List.attach_map_val (l := branchTexts inner) (f := fun branch =>
      (Condition.parse branch.1, parse branch.2))
    simp_all
  all_goals simp_all

end Expr

end RouteSheet
