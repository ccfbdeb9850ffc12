import RouteSheet.Proofs.Expr.Lockstep
import RouteSheet.Query.Script

/-!
# Values that are not chosen

A choice is decided by its conditions up to the first that holds, and what it decides is
all that runs. Other values, later conditions and an unused last value may be replaced by
any others, in a choice at any place of an expression: the whole keeps its value, its
effect and its calls. Deciding makes no call.
-/

namespace RouteSheet.Expr

/-- An expression with a hole in the place of one expression inside. -/
inductive Context where
  | hole
  | argument (statement : String) (before : List Expr) (inner : Context) (after : List Expr)
  | branch (before : List (Condition × Expr)) (condition : Condition) (inner : Context)
      (after : List (Condition × Expr)) (otherwise : Option Expr)
  /-- the hole is in the last value of a choice -/
  | last (branches : List (Condition × Expr)) (inner : Context)
  | member (before : List Expr) (inner : Context) (after : List Expr)

/-- The expression with the hole filled. -/
def Context.fill (e : Expr) : Context → Expr
  | .hole => e
  | .argument statement before inner after => .sql statement (before ++ inner.fill e :: after)
  | .branch before condition inner after otherwise =>
    .choice (before ++ (condition, inner.fill e) :: after) otherwise
  | .last branches inner => .choice branches (some (inner.fill e))
  | .member before inner after => .concat (before ++ inner.fill e :: after)

/-- Two choices are decided alike by the same conditions up to the first that holds. Where one
holds they have its value in common, and where none holds the last value. -/
inductive SameSelection (lookup : String → Value) :
    List (Condition × Expr) → Option Expr → List (Condition × Expr) → Option Expr → Prop where
  | found {condition : Condition} (h : condition.holds lookup = true) (value : Expr)
      (rest rest' : List (Condition × Expr)) (otherwise otherwise' : Option Expr) :
      SameSelection lookup ((condition, value) :: rest) otherwise
        ((condition, value) :: rest') otherwise'
  | passed {condition : Condition} (h : condition.holds lookup = false) (value value' : Expr)
      {rest rest' : List (Condition × Expr)} {otherwise otherwise' : Option Expr}
      (behind : SameSelection lookup rest otherwise rest' otherwise') :
      SameSelection lookup ((condition, value) :: rest) otherwise
        ((condition, value') :: rest') otherwise'
  | none (otherwise : Option Expr) : SameSelection lookup [] otherwise [] otherwise

/-- Choices that are decided alike choose the same value. -/
theorem SameSelection.chosen?_eq {lookup : String → Value}
    {branches branches' : List (Condition × Expr)} {otherwise otherwise' : Option Expr}
    (h : SameSelection lookup branches otherwise branches' otherwise') :
    chosen? lookup branches otherwise = chosen? lookup branches' otherwise' := by
  induction h with
  | found h value rest rest' otherwise otherwise' =>
    simp only [chosen?, List.find?_cons, h, Option.map_some, Option.some_or]
  | passed h value value' behind ih =>
    simp only [chosen?, List.find?_cons, h] at ih ⊢
    exact ih
  | none otherwise => rfl

section

variable {σ : Type} {db : Option (Executor σ)} {scope : Scope}

/-- Lists that differ in one expression run alike if that one does. -/
theorem forall₂_lockstep_middle {e e' : Expr}
    (h : Lockstep Eq Eq (eval db scope e) (eval db scope e')) (before after : List Expr) :
    List.Forall₂ (fun e e' => Lockstep Eq Eq (eval db scope e) (eval db scope e'))
      (before ++ e :: after) (before ++ e' :: after) := by
  have hsame : ∀ es : List Expr,
      List.Forall₂ (fun e e' => Lockstep Eq Eq (eval db scope e) (eval db scope e')) es es :=
    fun es => List.forall₂_same.mpr fun _ _ => .refl _
  exact List.rel_append (hsame before) (.cons h (hsame after))

/-- Expressions that run alike do so at every place. -/
theorem Context.fill_lockstep {e e' : Expr}
    (h : Lockstep Eq Eq (eval db scope e) (eval db scope e')) (context : Context) :
    Lockstep Eq Eq (eval db scope (context.fill e)) (eval db scope (context.fill e')) := by
  have hbranches : ∀ branches : List (Condition × Expr),
      List.Forall₂ (fun b b' => b.1.holds scope.var = b'.1.holds scope.var ∧
        Lockstep Eq Eq (eval db scope b.2) (eval db scope b'.2)) branches branches :=
    fun _ => List.forall₂_same.mpr fun branch _ => ⟨rfl, .refl _⟩
  induction context with
  | hole => exact h
  | argument statement before inner after ih =>
    exact sql_lockstep (fun _ => .refl _) (forall₂_lockstep_middle ih before after)
  | branch before condition inner after otherwise ih =>
    refine choice_lockstep (List.rel_append (hbranches before) ?_) ?_
    · exact .cons ⟨rfl, ih⟩ (hbranches after)
    · cases otherwise with
      | none => exact .none
      | some value => exact .some (.refl _)
  | last branches inner ih => exact choice_lockstep (hbranches branches) (.some ih)
  | member before inner after ih => exact concat_lockstep (forall₂_lockstep_middle ih before after)

end

variable {σ : Type}

/-- The calls that an evaluation makes, first call first. -/
def calls (db : Executor σ) (scope : Scope) (e : Expr) (s : σ) : List QueryCall :=
  (e.eval (some db.watched) scope (s, [])).2.2

/-- Wherever a choice stands, one that is decided alike may stand in its place: the whole
expression has the same value, leaves the same state and makes the same calls. The calls of a
choice are those of the chosen value; its conditions make none. The watched executor is one more
database, so that what is known of all of them is known of it. -/
theorem eval_fill_unselected {scope : Scope} {branches branches' : List (Condition × Expr)}
    {otherwise otherwise' : Option Expr}
    (h : SameSelection scope.var branches otherwise branches' otherwise') (context : Context)
    (db : Executor σ) (s : σ) :
    (context.fill (.choice branches otherwise)).eval (some db) scope s =
      (context.fill (.choice branches' otherwise')).eval (some db) scope s ∧
    (context.fill (.choice branches otherwise)).calls db scope s =
      (context.fill (.choice branches' otherwise')).calls db scope s ∧
    (choice branches otherwise).calls db scope s =
      match chosen? scope.var branches otherwise with
      | some value => value.calls db scope s
      | none => [] := by
  have hfill : ∀ (τ : Type) (db : Executor τ),
      eval (some db) scope (context.fill (.choice branches otherwise)) =
        eval (some db) scope (context.fill (.choice branches' otherwise')) := by
    intro τ db
    have hchoice : eval (some db) scope (.choice branches otherwise) =
        eval (some db) scope (.choice branches' otherwise') := by
      rw [eval_choice, eval_choice, h.chosen?_eq]
    exact Lockstep.eq_iff.mp (context.fill_lockstep (Lockstep.eq_iff.mpr hchoice))
  refine ⟨by rw [hfill], by rw [calls, calls, hfill], ?_⟩
  rw [calls, eval_choice]
  cases chosen? scope.var branches otherwise with
  | none => rfl
  | some value => rfl

/-- What a visitor sets off: rows go for an administrator, and a visit of anyone else is noted
if there is a guest. -/
def visitBranches : List (Condition × Expr) :=
  [(.truthy "admin", .sql "DELETE FROM users" []), (.not (.truthy "admin"), .var "name"),
    (.truthy "guest", .sql "INSERT INTO visits (n) VALUES (1)" [])]

/-- The branches that nobody but an administrator tells from those of a visit. -/
def quietBranches : List (Condition × Expr) :=
  [(.truthy "admin", .json .null), (.not (.truthy "admin"), .var "name")]

/-- For one who is no administrator neither rows nor visits are touched, also where the choice is
the argument of a query. -/
theorem eval_fill_unselected_visit :
    SameSelection (Scope.ofRequest ⟨[], [], [], []⟩).var visitBranches none quietBranches
      (some (.sql "DELETE FROM visits" [])) ∧
    ((Context.argument "SELECT ?" [] .hole []).fill (.choice visitBranches none)).calls
        scriptExecutor (.ofRequest ⟨[], [], [], []⟩) [] =
      ((Context.argument "SELECT ?" [] .hole []).fill
        (.choice quietBranches (some (.sql "DELETE FROM visits" [])))).calls
        scriptExecutor (.ofRequest ⟨[], [], [], []⟩) [] := by
  have h : SameSelection (Scope.ofRequest ⟨[], [], [], []⟩).var visitBranches none quietBranches
      (some (.sql "DELETE FROM visits" [])) :=
    .passed rfl _ _ (.found rfl _ _ _ _ _)
  exact ⟨h, (eval_fill_unselected h (.argument "SELECT ?" [] .hole []) scriptExecutor []).2.1⟩

end RouteSheet.Expr
