import RouteSheet.Proofs.Expr.Parts
import RouteSheet.Proofs.Fields

/-!
# The names that an expression looks up

An expression looks up variables, in its conditions too, and fields of the request. Scopes
are compared by the names that they agree on, and bindings of the same value keep an
agreement. A condition depends on its own variables alone.
-/

namespace RouteSheet

/-- A name that an expression looks up in its scope. -/
inductive Lookup where
  | var (name : String)
  | param (name : String)
  | query (name : String)
  | body (name : String)
  | header (name : String)
  deriving Repr, DecidableEq

/-- The value of a name in a scope. -/
def Scope.lookup (scope : Scope) : Lookup → Value
  | .var name => scope.var name
  | .param name => scope.param name
  | .query name => scope.queryParam name
  | .body name => scope.bodyField name
  | .header name => scope.header name

namespace Scope

/-- A bound variable has its value, and all other names keep theirs. -/
theorem lookup_bind (scope : Scope) (name : String) (value : Value) (l : Lookup) :
    (scope.bind name value).lookup l = if l = .var name then value else scope.lookup l := by
  cases l with
  | var key =>
    simp only [lookup, var, bind, Fields.get?_insert, Lookup.var.injEq, eq_comm (a := name)]
    split <;> rfl
  | _ => rfl

/-- The scopes agree on the names of a set. -/
def AgreeOn (names : Lookup → Prop) (scope scope' : Scope) : Prop :=
  ∀ l, names l → scope.lookup l = scope'.lookup l

/-- Every scope agrees with itself. -/
theorem AgreeOn.refl (names : Lookup → Prop) (scope : Scope) : AgreeOn names scope scope :=
  fun _ _ => rfl

/-- Scopes that agree do so behind a binding of the same value. -/
theorem AgreeOn.bind {names : Lookup → Prop} {scope scope' : Scope}
    (h : AgreeOn names scope scope') (name : String) (value : Value) :
    AgreeOn names (scope.bind name value) (scope'.bind name value) := by
  intro l hl
  rw [lookup_bind, lookup_bind, h l hl]

/-- Bindings of different variables agree in either order. -/
theorem AgreeOn.bind_comm (names : Lookup → Prop) (scope : Scope) {name name' : String}
    (h : name ≠ name') (value value' : Value) :
    AgreeOn names ((scope.bind name' value').bind name value)
      ((scope.bind name value).bind name' value') := by
  intro l _
  simp only [lookup_bind]
  by_cases hl : l = .var name
  · have hl' : l ≠ .var name' := by
      rw [hl]
      exact fun he => h (Lookup.var.inj he)
    rw [if_pos hl, if_neg hl', if_pos hl]
  · rw [if_neg hl, if_neg hl]

end Scope

/-- The variables that a condition asks about. -/
def Condition.variables : Condition → List String
  | .truthy name => [name]
  | .compare name _ _ => [name]
  | .and left right => left.variables ++ right.variables
  | .or left right => left.variables ++ right.variables
  | .not inner => inner.variables

/-- A condition depends on its own variables alone. -/
theorem Condition.holds_congr {f g : String → Value} {condition : Condition}
    (h : ∀ name ∈ condition.variables, f name = g name) :
    condition.holds f = condition.holds g := by
  induction condition with
  | truthy name => rw [holds, holds, h name (List.mem_singleton_self name)]
  | compare name relation value => rw [holds, holds, h name (List.mem_singleton_self name)]
  | and left right ihl ihr =>
    rw [holds, holds, ihl fun name hn => h name (List.mem_append_left _ hn),
      ihr fun name hn => h name (List.mem_append_right _ hn)]
  | or left right ihl ihr =>
    rw [holds, holds, ihl fun name hn => h name (List.mem_append_left _ hn),
      ihr fun name hn => h name (List.mem_append_right _ hn)]
  | not inner ih => rw [holds, holds, ih h]

namespace Expr

mutual

/-- The names that an expression looks up, in conditions too. -/
def lookups : Expr → List Lookup
  | .literal _ | .json _ | .html _ => []
  | .var name => [.var name]
  | .param name => [.param name]
  | .query name => [.query name]
  | .body name => [.body name]
  | .header name => [.header name]
  | .sql _ args => lookupsOfAll args
  | .choice branches otherwise => lookupsOfBranches branches ++ lookupsOfOtherwise otherwise
  | .concat parts => lookupsOfAll parts

/-- The names that several expressions look up. -/
def lookupsOfAll : List Expr → List Lookup
  | [] => []
  | e :: rest => lookups e ++ lookupsOfAll rest

/-- The names that the conditions and the values of branches look up. -/
def lookupsOfBranches : List (Condition × Expr) → List Lookup
  | [] => []
  | (condition, value) :: rest =>
    condition.variables.map .var ++ lookups value ++ lookupsOfBranches rest

/-- The names that the last value of a choice looks up. -/
def lookupsOfOtherwise : Option Expr → List Lookup
  | none => []
  | some value => lookups value

end

/-- What an expression looks up is looked up by a list that it stands in. -/
theorem lookups_subset_of_mem {es : List Expr} {e : Expr} (h : e ∈ es) :
    e.lookups ⊆ lookupsOfAll es := by
  induction h with
  | head es => exact List.subset_append_left _ _
  | tail e' _ ih => exact List.subset_append_of_subset_right _ ih

/-- What a branch looks up is looked up by the branches that it stands in. -/
theorem lookups_subset_of_mem_branches {branches : List (Condition × Expr)}
    {branch : Condition × Expr} (h : branch ∈ branches) :
    branch.1.variables.map .var ++ branch.2.lookups ⊆ lookupsOfBranches branches := by
  induction h with
  | head branches => exact List.subset_append_left _ _
  | tail branch' _ ih => exact List.subset_append_of_subset_right _ ih

/-- An expression looks up what its parts look up. -/
theorem lookups_subset_of_mem_parts {e p : Expr} (h : p ∈ e.parts) : p.lookups ⊆ e.lookups := by
  cases e with
  | sql statement args => exact lookups_subset_of_mem h
  | choice branches otherwise =>
    rcases List.mem_append.mp h with h | h
    · obtain ⟨branch, hb, rfl⟩ := List.mem_map.mp h
      have hvalue := List.Subset.trans (List.subset_append_right _ _)
        (lookups_subset_of_mem_branches hb)
      exact List.subset_append_of_subset_left _ hvalue
    · obtain rfl := Option.mem_toList.mp h
      exact List.subset_append_right _ _
  | concat parts => exact lookups_subset_of_mem h
  | _ => exact absurd h List.not_mem_nil

end Expr

end RouteSheet
