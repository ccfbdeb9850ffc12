import RouteSheet.Expr.Eval
import RouteSheet.Sheet.Load

/-!
# The parts of an expression

An expression is made of parts one level down: the arguments of a query, the values
of a choice, the members of a concatenation. What an expression has whenever its
parts have it, every expression has. A choice is evaluated through one of its parts,
the chosen one, or it is null.
-/

namespace RouteSheet.Expr

/-- The expressions that an expression is made of, one level down. -/
def parts : Expr → List Expr
  | .sql _ args => args
  | .choice branches otherwise => branches.map Prod.snd ++ otherwise.toList
  | .concat parts => parts
  | _ => []

/-- The value of a branch is a part of its choice. -/
theorem mem_parts_of_branch {branches : List (Condition × Expr)} {branch : Condition × Expr}
    (h : branch ∈ branches) (otherwise : Option Expr) :
    branch.2 ∈ (choice branches otherwise).parts :=
  List.mem_append_left _ (List.mem_map_of_mem h)

/-- The last value of a choice is a part of it. -/
theorem mem_parts_of_otherwise (branches : List (Condition × Expr)) (value : Expr) :
    value ∈ (choice branches (some value)).parts :=
  List.mem_append_right _ (List.mem_singleton_self value)

/-- A part is smaller than the whole. -/
theorem sizeOf_lt_of_mem_parts {e p : Expr} (h : p ∈ e.parts) : sizeOf p < sizeOf e := by
  cases e with
  | sql statement args =>
    have hlt : sizeOf p < sizeOf args := List.sizeOf_lt_of_mem h
    simp only [sql.sizeOf_spec]
    omega
  | choice branches otherwise =>
    simp only [choice.sizeOf_spec]
    rcases List.mem_append.mp h with h | h
    · obtain ⟨⟨condition, value⟩, hb, rfl⟩ := List.mem_map.mp h
      have hlt := List.sizeOf_lt_of_mem hb
      simp only [Prod.mk.sizeOf_spec] at hlt ⊢
      omega
    · obtain rfl := Option.mem_toList.mp h
      simp only [Option.some.sizeOf_spec]
      omega
  | concat parts =>
    have hlt : sizeOf p < sizeOf parts := List.sizeOf_lt_of_mem h
    simp only [concat.sizeOf_spec]
    omega
  | _ => exact absurd h List.not_mem_nil

/-- Induction from the parts to the whole. -/
@[elab_as_elim]
theorem induction_on_parts {motive : Expr → Prop}
    (step : ∀ e, (∀ p ∈ e.parts, motive p) → motive e) (e : Expr) : motive e :=
  step e fun p _ => induction_on_parts step p
termination_by sizeOf e
decreasing_by exact sizeOf_lt_of_mem_parts ‹_›

/-- The statements of several expressions are those of each in turn. -/
theorem statementsOfAll_eq (es : List Expr) : statementsOfAll es = es.flatMap statements := by
  induction es with
  | nil => rfl
  | cons e es ih => rw [statementsOfAll, ih, List.flatMap_cons]

/-- The statements of branches are those of their values. -/
theorem statementsOfBranches_eq (branches : List (Condition × Expr)) :
    statementsOfBranches branches = (branches.map Prod.snd).flatMap statements := by
  induction branches with
  | nil => rfl
  | cons branch branches ih => rw [statementsOfBranches, ih, List.map_cons, List.flatMap_cons]

/-- An expression runs a statement of its own or those of its parts. -/
theorem statements_subset_of_mem_parts {e p : Expr} (h : p ∈ e.parts) :
    p.statements ⊆ e.statements := by
  intro statement hs
  have hparts : statement ∈ e.parts.flatMap statements := List.mem_flatMap.mpr ⟨p, h, hs⟩
  cases e with
  | sql own args =>
    rw [statements, statementsOfAll_eq]
    exact List.mem_cons_of_mem _ hparts
  | choice branches otherwise =>
    cases otherwise with
    | none =>
      rw [statements, statementsOfBranches_eq]
      simpa only [parts, Option.toList_none, List.append_nil] using hparts
    | some value =>
      rw [statements, statementsOfBranches_eq]
      simpa only [parts, Option.toList_some, List.flatMap_append, List.flatMap_cons,
        List.flatMap_nil, List.append_nil] using hparts
  | concat parts =>
    rw [statements, statementsOfAll_eq]
    exact hparts
  | _ => exact absurd h List.not_mem_nil

/-- The value behind the first condition that holds, else the last one. -/
def chosen? (lookup : String → Value) (branches : List (Condition × Expr))
    (otherwise : Option Expr) : Option Expr :=
  ((branches.find? fun branch => branch.1.holds lookup).map Prod.snd).or otherwise

section

variable {σ : Type} (db : Option (Executor σ)) (scope : Scope)

/-- A query is evaluated behind its arguments. -/
theorem eval_sql (statement : String) (args : List Expr) (s : σ) :
    eval db scope (.sql statement args) s =
      queryValue db statement (evalAll db scope args s).1 (evalAll db scope args s).2 := by
  rw [eval]

/-- A concatenation is the joined texts of its parts. -/
theorem eval_concat (parts : List Expr) (s : σ) :
    eval db scope (.concat parts) s =
      (.string (String.join ((evalAll db scope parts s).1.map Value.toText)),
        (evalAll db scope parts s).2) := by
  rw [eval]

/-- A choice is evaluated through the chosen value alone. -/
theorem eval_choice (branches : List (Condition × Expr)) (otherwise : Option Expr) :
    eval db scope (.choice branches otherwise) =
      match chosen? scope.var branches otherwise with
      | some value => eval db scope value
      | none => fun s => (.null, s) := by
  funext s
  rw [eval]
  induction branches with
  | nil =>
    cases otherwise with
    | none => rfl
    | some value => rfl
  | cons branch branches ih =>
    rw [evalBranches, chosen?, List.find?_cons]
    cases branch.1.holds scope.var with
    | true => rfl
    | false => exact ih

end

end RouteSheet.Expr
