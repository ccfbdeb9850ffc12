import RouteSheet.Proofs.Surface.Choice
import RouteSheet.Proofs.Surface.Literal

/-!
# The surface syntax of expressions

A form is an expression together with the blanks and quotes that an author chose for
it. Reading the text of a form gives its expression back: no branch, argument or
statement is lost, merged, split or moved, however deep the calls are nested. The
word in front of the last value of a choice is written together with its colon.
-/

namespace RouteSheet.Surface

open Text

mutual

/-- An expression as an author writes it. -/
inductive Form where
  | numeral (n : Numeral)
  | bool (b : Bool)
  | null
  | quoted (q : Quoted)
  | json (j : JsonLiteral)
  | reference (r : Reference) (before : Blanks) (name : Name) (after : Blanks)
  /-- a query without arguments -/
  | sql (before : Blanks) (statement : Quoted) (after : Blanks)
  | sqlWith (before : Blanks) (statement : Quoted) (after : Blanks) (args : Arguments)
      (behind : Blanks)
  /-- a concatenation of nothing -/
  | concatNil (blanks : Blanks)
  | concat (args : Arguments) (behind : Blanks)
  | choice (branches : Branches) (behind : Blanks)

/-- The arguments of a call, with commas between them. -/
inductive Arguments where
  | last (before : Blanks) (arg : Form)
  | cons (before : Blanks) (arg : Form) (behind : Blanks) (rest : Arguments)

/-- The branches of a choice, with semicolons between them. -/
inductive Branches where
  | last (before : Blanks) (condition : Disjunction) (gap after : Blanks) (value : Form)
  /-- the value that no condition guards -/
  | unguarded (before gap : Blanks) (value : Form)
  | cons (before : Blanks) (condition : Disjunction) (gap after : Blanks) (value : Form)
      (behind : Blanks) (rest : Branches)

end

mutual

/-- The text of a form. -/
def Form.text : Form → List Char
  | .numeral n => n.text
  | .bool b => boolText b
  | .null => "null".toList
  | .quoted q => q.text
  | .json j => j.text
  | .reference r before name after =>
    callText r.call (before.1 ++ (r.mark ++ name.chars) ++ after.1)
  | .sql before statement after => callText .sql (before.1 ++ statement.text ++ after.1)
  | .sqlWith before statement after args behind =>
    callText .sql (before.1 ++ statement.text ++ (after.1 ++ ',' :: args.text ++ behind.1))
  | .concatNil blanks => callText .concat blanks.1
  | .concat args behind => callText .concat (args.text ++ behind.1)
  | .choice branches behind => callText .choice (branches.text ++ behind.1)

/-- The text of the arguments. -/
def Arguments.text : Arguments → List Char
  | .last before arg => before.1 ++ arg.text
  | .cons before arg behind rest => before.1 ++ arg.text ++ behind.1 ++ ',' :: rest.text

/-- The text of the branches. -/
def Branches.text : Branches → List Char
  | .last before condition gap after value =>
    before.1 ++ branchText condition gap after value.text
  | .unguarded before gap value => before.1 ++ ("else:".toList ++ (gap.1 ++ value.text))
  | .cons before condition gap after value behind rest =>
    before.1 ++ branchText condition gap after value.text ++ behind.1 ++ ';' :: rest.text

end

mutual

/-- The expression that a form writes. -/
def Form.expr : Form → Expr
  | .numeral n => .literal (.number n.value)
  | .bool b => .literal (.bool b)
  | .null => .literal .null
  | .quoted q => .literal (.string (String.ofList q.contents))
  | .json j => .json (.ofJson j.document)
  | .reference r _ name _ => r.expr (String.ofList name.chars)
  | .sql _ statement _ => .sql (String.ofList statement.contents) []
  | .sqlWith _ statement _ args _ => .sql (String.ofList statement.contents) args.exprs
  | .concatNil _ => .concat []
  | .concat args _ => .concat args.exprs
  | .choice branches _ => .choice branches.guarded branches.otherwise

/-- The expressions of the arguments, in order. -/
def Arguments.exprs : Arguments → List Expr
  | .last _ arg => [arg.expr]
  | .cons _ arg _ rest => arg.expr :: rest.exprs

/-- The conditions and values of the branches, in order. -/
def Branches.guarded : Branches → List (Condition × Expr)
  | .last _ condition _ _ value => [(condition.condition, value.expr)]
  | .unguarded _ _ _ => []
  | .cons _ condition _ _ value _ rest => (condition.condition, value.expr) :: rest.guarded

/-- The value that no condition guards. -/
def Branches.otherwise : Branches → Option Expr
  | .last _ _ _ _ _ => none
  | .unguarded _ _ value => some value.expr
  | .cons _ _ _ _ _ _ rest => rest.otherwise

end

mutual

/-- Every form is read as its expression. -/
theorem Form.reads (f : Form) : Reads f.text f.expr := by
  cases f with
  | numeral n => exact n.reads
  | bool b => exact reads_bool b
  | null => exact reads_null
  | quoted q => exact q.reads
  | json j => exact j.reads
  | reference r before name after => exact r.reads name before.2 after.2
  | sql before statement after => exact reads_sql_nil statement before.2 after.2
  | sqlWith before statement after args behind =>
    exact args.readsAll.sql statement before.2 after.2 behind.2
  | concatNil blanks => exact reads_concat_nil blanks.2
  | concat args behind => exact args.readsAll.concat behind.2
  | choice branches behind => exact branches.readsChoice.reads behind.2

/-- Arguments are read as their expressions. -/
theorem Arguments.readsAll (args : Arguments) : ReadsAll args.text args.exprs := by
  cases args with
  | last before arg => exact .last arg.reads before.2
  | cons before arg behind rest => exact .cons arg.reads rest.readsAll before.2 behind.2

/-- Branches are read as their conditions and values. -/
theorem Branches.readsChoice (branches : Branches) :
    ReadsChoice branches.text branches.guarded branches.otherwise := by
  cases branches with
  | last before condition gap after value => exact .last condition gap after value.reads before.2
  | unguarded before gap value => exact .unguarded gap value.reads before.2
  | cons before condition gap after value behind rest =>
    exact .cons condition gap after value.reads rest.readsChoice before.2 behind.2

end

/-- Reading inverts writing: the text of a form, between any blanks, is read as exactly the
expression that it writes. -/
theorem Form.parse_written (f : Form) (before after : Blanks) :
    Expr.parse (before.1 ++ f.text ++ after.1) = f.expr := by
  rw [parse_padded before.2 after.2, f.reads.parse]

/-- A JSON document keeps its commas, and blanks stand around the comma between arguments. -/
example : String.ofList (Form.text (.concat (.cons ⟨[], rfl⟩
      (.json ⟨"[1, \"a,b\"]".toList, .array [.integer 1, .string "a,b"], rfl, rfl, rfl, rfl⟩)
      ⟨[' '], rfl⟩ (.last ⟨['\n'], rfl⟩
        (.reference .var ⟨[], rfl⟩ ⟨"id".toList, nofun, rfl⟩ ⟨[], rfl⟩))) ⟨[], rfl⟩)) =
    "concat([1, \"a,b\"] ,\nvar(--id))" := rfl

end RouteSheet.Surface
