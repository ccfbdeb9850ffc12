import RouteSheet.Proofs.Fields
import RouteSheet.Proofs.Http.Head
import RouteSheet.Proofs.Http.Traceless
import RouteSheet.Proofs.Route.Lockstep
import RouteSheet.Proofs.Text.Split
import RouteSheet.Text.Basic

/-!
# Headers as they are sent

The headers of a request are collected under names in lower case, collected once more for
the scope of a route, and looked up in lower case again. What an expression finds in the
end is what the last header line of the name says, without the blanks around it.
-/

namespace RouteSheet

namespace Http

/-- The line says that a header has a value: behind its first colon stands the value and before
it the name, in letters of any case, both among blanks. -/
def SaysHeader (name value : String) (line : List UInt8) : Prop :=
  ∃ before after, lineText line = before ++ ':' :: after ∧ ':' ∉ before ∧
    Text.equalFolded (Text.trim before) name.toList = true ∧
    value = String.ofList (Text.trim after)

/-- What the last of the lines that say anything of a header says; none when no line does. -/
def LastSaid (name : String) (lines : List (List UInt8)) : Option String → Prop
  | some value => ∃ earlier line later, lines = earlier ++ line :: later ∧
      SaysHeader name value line ∧ ∀ other ∈ later, ∀ value', ¬ SaysHeader name value' other
  | none => ∀ line ∈ lines, ∀ value, ¬ SaysHeader name value line

/-- The value that a line gives a header. -/
def headerValue? (name : String) (line : List UInt8) : Option String :=
  (headerField? (lineText line)).bind fun field =>
    if field.1 = lowerText name then some field.2 else none

section

variable {name value : String} {line : List UInt8} {lines : List (List UInt8)}

/-- A line has a value for a header exactly if it says so. -/
theorem headerValue?_eq_some_iff :
    headerValue? name line = some value ↔ SaysHeader name value line := by
  have hfolded : ∀ before : List Char, String.ofList (Text.lower (Text.trim before)) =
      lowerText name ↔ Text.equalFolded (Text.trim before) name.toList = true := by
    intro before
    rw [lowerText, String.ofList_inj, Text.equalFolded, beq_iff_eq]
  constructor
  · intro h
    by_cases hcolon : ':' ∈ lineText line
    · obtain ⟨before, after, htext, hfree⟩ := List.eq_append_cons_of_mem hcolon
      rw [headerValue?, headerField?, htext, Text.cutAtChar?_append hfree, Option.map_some,
        Option.bind_some, Option.ite_none_right_eq_some] at h
      obtain ⟨hname, hvalue⟩ := h
      exact ⟨before, after, htext, hfree, (hfolded before).mp hname, (Option.some.inj hvalue).symm⟩
    · rw [headerValue?, headerField?, Text.cutAtChar?_eq_none hcolon] at h
      exact nomatch h
  · rintro ⟨before, after, htext, hfree, hname, rfl⟩
    rw [headerValue?, headerField?, htext, Text.cutAtChar?_append hfree, Option.map_some,
      Option.bind_some, if_pos ((hfolded before).mpr hname)]

/-- A line has no value for a header exactly if it says none. -/
theorem headerValue?_eq_none_iff :
    headerValue? name line = none ↔ ∀ value, ¬ SaysHeader name value line := by
  simp only [Option.eq_none_iff_forall_ne_some, ne_eq, headerValue?_eq_some_iff]

/-- What is said last is what the search from the end finds. -/
theorem lastSaid_iff {said : Option String} :
    LastSaid name lines said ↔ said = lines.reverse.findSome? (headerValue? name) := by
  rw [eq_comm]
  cases said with
  | none =>
    rw [LastSaid, List.findSome?_eq_none_iff]
    simp only [List.mem_reverse, headerValue?_eq_none_iff]
  | some value =>
    rw [LastSaid, List.findSome?_eq_some_iff]
    simp only [headerValue?_eq_none_iff, headerValue?_eq_some_iff]
    constructor
    · rintro ⟨earlier, line, later, rfl, hline, hlater⟩
      refine ⟨later.reverse, line, earlier.reverse, ?_, hline, fun other hother => ?_⟩
      · rw [List.reverse_append, List.reverse_cons, List.append_assoc, List.singleton_append]
      · exact hlater other (List.mem_reverse.mp hother)
    · rintro ⟨later, line, earlier, hlines, hline, hlater⟩
      refine ⟨earlier.reverse, line, later.reverse, ?_, hline, fun other hother => ?_⟩
      · rw [← List.reverse_reverse lines, hlines, List.reverse_append, List.reverse_cons,
          List.append_assoc, List.singleton_append]
      · exact hlater other (List.mem_reverse.mp hother)

/-- Of the lines that name a header the last one counts. -/
theorem get?_headersOf (name : String) (lines : List (List UInt8)) :
    (headersOf lines).get? (lowerText name) = lines.reverse.findSome? (headerValue? name) := by
  rw [headersOf, Fields.get?_ofPairs, ← List.filterMap_reverse]
  induction lines.reverse with
  | nil => rfl
  | cons line lines ih =>
    rw [List.filterMap_cons, List.findSome?_cons, headerValue?]
    cases headerField? (lineText line) with
    | none => exact ih
    | some field =>
      rw [List.find?_cons, Option.bind_some]
      by_cases hname : field.1 = lowerText name
      · rw [if_pos hname, decide_eq_true hname, Option.map_some]
      · rw [if_neg hname, decide_eq_false hname]
        exact ih

/-- The names of headers are in lower case. -/
theorem lowerText_of_mem_headersOf (h : name ∈ (headersOf lines).map Prod.fst) :
    lowerText name = name := by
  obtain ⟨field, hfield, rfl⟩ := List.mem_map.mp (Fields.mem_names_of_mem_ofPairs h)
  obtain ⟨line, -, hline⟩ := List.mem_filterMap.mp hfield
  obtain ⟨⟨before, after⟩, -, rfl⟩ := Option.map_eq_some_iff.mp hline
  rw [lowerText, String.toList_ofList, Text.lower_lower]

/-- Collecting headers once more under names in lower case changes nothing. -/
theorem ofPairs_lowerText_headersOf (lines : List (List UInt8)) :
    Fields.ofPairs ((headersOf lines).map fun (name, value) => (lowerText name, value)) =
      headersOf lines := by
  have hsame : ∀ field ∈ headersOf lines, (lowerText field.1, field.2) = field := by
    intro field hfield
    rw [lowerText_of_mem_headersOf (List.mem_map_of_mem hfield)]
  rw [List.map_congr_left hsame, List.map_id']
  exact Fields.ofPairs_of_nodup (Fields.nodup_names_ofPairs _)

end

end Http

namespace Route

variable {σ : Type}

/-- Bound variables leave the headers as they are. -/
theorem headers_bindAll (db : Option (Executor σ)) (as : List Assignment) (scope : Scope) (s : σ) :
    (bindAll db as scope s).1.headers = scope.headers := by
  induction as generalizing scope s with
  | nil => rfl
  | cons a as ih =>
    rw [bindAll_cons, ih]
    rfl

/-- The scope of a route behind the first so many of its assignments. -/
def scopeAfter (db : Option (Executor σ)) (route : Route) (request : Request) (k : Nat) (s : σ) :
    Scope :=
  (bindAll db (route.assignments.take k) (.ofRequest request) s).1

end Route

namespace Http

/-- What a message brings to a route that answers it with captures. -/
def Message.request (m : Message) (captures : List (String × String)) : Request :=
  Request.withParams ⟨[], (splitTarget m.target).2, bodyFields m.headers m.body, m.headers⟩
    (App.decodedCaptures captures)

/-- A request that finds a route is answered by a run of the route. -/
theorem answer_routed {σ : Type} (app : App σ) {m : Message} {route : Route}
    {captures : List (String × String)}
    (h : Route.find? app.routes m.method (splitTarget m.target).1 = some (route, captures))
    (s : σ) :
    answer app m s = (.ofResponse (route.run app.database (m.request captures) s).1,
      (route.run app.database (m.request captures) s).2) := by
  simp only [answer, App.handle, h]
  rfl

/-- The headers of a request are those of the lines of its head. -/
theorem Connection.exists_head_of_message {c : Connection} {m : Message} (h : c.message = .ok m) :
    ∃ head, c.HasHead head ∧ m.headers = headersOf head.headers := by
  cases hhead : c.head with
  | error e =>
    rw [message, hhead] at h
    cases h
  | ok accepted =>
    obtain ⟨head, method, target⟩ := accepted
    refine ⟨head, (head_eq_ok_iff.mp hhead).1, ?_⟩
    rw [message_of_head hhead] at h
    cases hbody : c.body head (contentLength (headersOf head.headers)) with
    | error e =>
      rw [hbody] at h
      cases h
    | ok body =>
      rw [hbody] at h
      cases h
      rfl

/-- A request that is read has one head, and the route that answers it looks up headers in the
lines of that head: wherever an expression of the route is evaluated, a header has the value that
the last line of its name says, and it is missing when no line has the name. -/
theorem header_as_sent {c : Connection} {m : Message} (h : c.message = .ok m) :
    ∃ head : Head, (∀ other, c.HasHead other ↔ other = head) ∧
      ∀ {σ : Type} (app : App σ) (s : σ) (route : Route) (captures : List (String × String)),
        Route.find? app.routes m.method (splitTarget m.target).1 = some (route, captures) →
        respond app c s = (.ofResponse (route.run app.database (m.request captures) s).1,
          (route.run app.database (m.request captures) s).2) ∧
        ∀ (name : String) (k : Nat) (t : σ),
          ∃ said, (∀ other, LastSaid name head.headers other ↔ other = said) ∧
            (Expr.header name).eval app.database
              (route.scopeAfter app.database (m.request captures) k s) t =
                (Scope.textValue said, t) := by
  obtain ⟨head, hhead, hheaders⟩ := Connection.exists_head_of_message h
  refine ⟨head, fun other => ⟨hhead.unique, fun he => he ▸ hhead⟩, ?_⟩
  intro σ app s route captures hroute
  constructor
  · rw [respond, h]
    exact answer_routed app hroute s
  · intro name k t
    refine ⟨_, fun other => lastSaid_iff, ?_⟩
    have hscope : (route.scopeAfter app.database (m.request captures) k s).headers =
        headersOf head.headers := by
      rw [Route.scopeAfter, Route.headers_bindAll, ← ofPairs_lowerText_headersOf, ← hheaders]
      rfl
    rw [← get?_headersOf, ← hscope]
    rfl

/-- The head of a request that sends one header twice. -/
def twiceKeyedHead : Head where
  request := Text.bytesOf "get /k HTTP/1.1\r\n".toList
  headers := [Text.bytesOf "X-Key: a\r\n".toList, Text.bytesOf "no colon\n".toList,
    Text.bytesOf "x-KEY :  b:c \r\n".toList]
  blank := Text.bytesOf "\r\n".toList

/-- The request that sends one header twice. -/
def twiceKeyed : Message := ⟨"GET", "/k", headersOf twiceKeyedHead.headers, []⟩

/-- A route that binds a header and answers with it. -/
def keyRoute : Route where
  method := "GET"
  path := "/k"
  assignments := [⟨"key", .header "x-Key", 1⟩]
  status := none
  returns := ⟨.json, .header "X-Key"⟩
  line := 1

/-- Of the two lines the last one is found, and nothing of a header without a line. -/
theorem header_as_sent_twiceKeyed :
    (⟨twiceKeyedHead.bytes, .closed⟩ : Connection).message = .ok twiceKeyed ∧
    ∀ {σ : Type} (k : Nat) (s t : σ),
      (Expr.header "X-Key").eval none (keyRoute.scopeAfter none (twiceKeyed.request []) k s) t =
        (.string "b:c", t) ∧
      (Expr.header "Y").eval none (keyRoute.scopeAfter none (twiceKeyed.request []) k s) t =
        (.missing, t) := by
  have haccepted : (⟨twiceKeyedHead.bytes, .closed⟩ : Connection).head =
      .ok (twiceKeyedHead, "GET", "/k") := rfl
  have hmessage : (⟨twiceKeyedHead.bytes, .closed⟩ : Connection).message = .ok twiceKeyed := by
    rw [Connection.message_of_head haccepted]
    rfl
  refine ⟨hmessage, fun k s t => ?_⟩
  obtain ⟨head, hunique, hroutes⟩ := header_as_sent hmessage
  obtain rfl := (hunique _).mp (Connection.head_eq_ok_iff.mp haccepted).1
  have hroute : Route.find? [keyRoute] twiceKeyed.method (splitTarget twiceKeyed.target).1 =
      some (keyRoute, []) := rfl
  obtain ⟨-, hheader⟩ := hroutes ⟨[keyRoute], none⟩ s keyRoute [] hroute
  obtain ⟨said, hsaid, hvalue⟩ := hheader "X-Key" k t
  obtain ⟨absent, habsent, hmissing⟩ := hheader "Y" k t
  have hlast : some "b:c" = said := (hsaid _).mp (lastSaid_iff.mpr (by decide +kernel))
  have hnone : none = absent := (habsent _).mp (lastSaid_iff.mpr (by decide +kernel))
  rw [← hlast] at hvalue
  rw [← hnone] at hmissing
  exact ⟨hvalue, hmissing⟩

end Http

end RouteSheet
