import RouteSheet.Proofs.Sheet.Contribution
import RouteSheet.Route.Run

/-!
# Statuses of three digits

A status code is a number from 100 to 999. Loading accepts no other code as a fixed
status, and what a variable or a choice gives while a route is run is held to the same
range. So the status of every response of a loaded route is open or a code, whatever
its expressions are worth.
-/

namespace RouteSheet

open Text

/-- A status code is a number from 100 to 999. -/
theorem isStatusCode_iff {code : Nat} : isStatusCode code ↔ 100 ≤ code ∧ code ≤ 999 := by
  simp only [isStatusCode, Bool.and_eq_true, decide_eq_true_eq]
  omega

/-- A status that is fixed while loading is a status code. -/
def StatusSpec.InRange : StatusSpec → Prop
  | .code n => isStatusCode n
  | _ => True

/-- The route has no fixed status out of range. -/
def Route.StatusInRange (route : Route) : Prop := ∀ spec ∈ route.status, spec.InRange

/-- A text that writes a status writes no code out of range. -/
theorem StatusSpec.inRange_of_parse {text : List Char} {spec : StatusSpec}
    (h : parse text = .ok spec) : spec.InRange := by
  simp only [parse] at h
  split at h
  · split at h
    · next n hn =>
      obtain rfl := Except.ok.inj h
      exact (Option.filter_eq_some_iff.mp hn).2
    · exact nomatch h
  · split at h
    · obtain rfl := Except.ok.inj h
      exact trivial
    · obtain rfl := Except.ok.inj h
      exact trivial
    · exact nomatch h

namespace RouteParts

/-- The status declared so far is in range. -/
def StatusInRange (parts : RouteParts) : Prop := ∀ spec ∈ parts.status, spec.InRange

/-- No status is set in the empty parts of a route. -/
theorem statusInRange_empty : empty.StatusInRange := by
  intro spec hspec
  cases hspec

/-- A declaration keeps the status, unless it is one that sets it. -/
theorem statusInRange_adding {parts : RouteParts} (h : parts.StatusInRange) (d : Declaration) :
    (parts.adding d).StatusInRange := by
  simp only [adding, declare]
  split
  · exact h
  · split
    · exact h
    · split
      · unfold setStatus
        cases hparse : StatusSpec.parse _ with
        | error e => exact h
        | ok spec =>
          intro set hset
          obtain rfl := Option.some.inj hset
          exact StatusSpec.inRange_of_parse hparse
      · split
        · exact h
        · exact h

/-- Declarations leave the status in range. -/
theorem statusInRange_foldl_adding (ds : List Declaration) {parts : RouteParts}
    (h : parts.StatusInRange) : (ds.foldl adding parts).StatusInRange := by
  induction ds generalizing parts with
  | nil => exact h
  | cons d ds ih => exact ih (statusInRange_adding h d)

end RouteParts

/-- A block declares no route with a fixed status out of range. -/
theorem Item.statusInRange_of_route? {item : Item} {route : Route}
    (h : item.route? = some route) : route.StatusInRange := by
  cases item with
  | block selector body line bodyLine =>
    simp only [route?, Option.bind_eq_bind, Option.bind_eq_some_iff, Option.some.injEq] at h
    obtain ⟨text, -, path, -, returns, -, rfl⟩ := h
    exact RouteParts.statusInRange_foldl_adding _ RouteParts.statusInRange_empty
  | rule text line => cases h
  | stray text line => cases h
  | unopened text line => cases h

namespace Sheet

/-- No route of a loaded sheet has a fixed status out of range. -/
theorem statusInRange_of_mem_routes {env : Environment} {text : List Char} {route : Route}
    (h : route ∈ (load env text).built.routes) : route.StatusInRange := by
  obtain ⟨item, -, hroute⟩ := exists_item_of_mem_routes h
  exact Item.statusInRange_of_route? hroute

end Sheet

/-- A number gives a status code or none. -/
theorem Number.isStatusCode_of_toStatus? {x : Number} {code : Nat}
    (h : x.toStatus? = some code) : isStatusCode code := by
  cases x with
  | finite x =>
    rw [toStatus?] at h
    split at h
    · next hx =>
      obtain rfl := Option.some.inj h
      have hlow : 100 ≤ x.trunc := of_decide_eq_true (Bool.and_eq_true_iff.mp hx).1
      rw [Int.toNat_of_nonneg (by omega)]
      exact hx
    · cases h
  | _ => cases h

/-- A value gives a status code or none. -/
theorem Value.isStatusCode_of_toStatus? {v : Value} {code : Nat}
    (h : v.toStatus? = some code) : isStatusCode code := by
  cases v with
  | number x => exact Number.isStatusCode_of_toStatus? h
  | string s =>
    obtain ⟨x, -, hx⟩ := Option.bind_eq_some_iff.mp h
    exact Number.isStatusCode_of_toStatus? hx
  | _ => exact nomatch h

namespace Route

variable {σ : Type} {db : Option (Executor σ)} {s : σ}

/-- A status in range is worth a status code, or is left open. -/
theorem isStatusCode_of_evalStatus {status : Option StatusSpec} {scope : Scope} {code : Nat}
    (hstatus : ∀ spec ∈ status, spec.InRange)
    (h : (evalStatus db scope status s).1 = some code) : isStatusCode code := by
  unfold evalStatus at h
  split at h
  · exact nomatch h
  · next fixed =>
    obtain rfl := Option.some.inj h
    exact hstatus (.code fixed) rfl
  · exact Value.isStatusCode_of_toStatus? h
  · exact Value.isStatusCode_of_toStatus? h

/-- The response of a route whose status is in range has a status code, or an open status. -/
theorem isStatusCode_of_run {route : Route} {request : Request} {code : Nat}
    (hroute : route.StatusInRange) (h : (route.run db request s).1.status = some code) :
    isStatusCode code :=
  isStatusCode_of_evalStatus hroute h

end Route

end RouteSheet
