import RouteSheet.Http.Server

/-!
# Bodies with broken framing

A body is framed by the length that its head declares. The framing is broken when
the declared text is no numeral of 64 bits, and when fewer bytes follow the head
than the numeral says. A client that stalls inside such a body is refused, and
nothing is run for it. Every other client with broken framing is answered like one
that declared exactly the bytes that are taken: none without a numeral, and all that
came before a close.
-/

namespace RouteSheet.Http

/-- The length that the value of a header declares. -/
def declaredLength? (value : String) : Option Nat :=
  Text.unsigned? 0xFFFFFFFFFFFFFFFF value.toList

/-- The bytes behind a head. -/
def Connection.behind (c : Connection) (head : Head) : List UInt8 :=
  c.bytes.drop head.bytes.length

/-- The declared text is no length, or fewer bytes than that follow. -/
def Connection.BodyBroken (c : Connection) (head : Head) (value : String) : Prop :=
  ∀ n, declaredLength? value = some n → (c.behind head).length < n

/-- The client falls silent inside a body whose length it declared. -/
def Connection.StallsInBody (c : Connection) (value : String) : Prop :=
  c.ending = .stalled ∧ (declaredLength? value).isSome

/-- The request whose body is the bytes taken for a declared text. -/
def Connection.taken (c : Connection) (head : Head) (method target value : String) : Message :=
  ⟨method, target, headersOf head.headers,
    (c.behind head).take ((declaredLength? value).getD 0)⟩

/-- A text that is no length counts as none. -/
theorem contentLength_eq {headers : Fields String} {value : String}
    (h : headers.get? "content-length" = some value) :
    contentLength headers = (declaredLength? value).getD 0 := by
  rw [contentLength, h]
  rfl

/-- An accepted head leaves the fate of the request to its body. -/
theorem Connection.message_of_head {c : Connection} {head : Head} {method target : String}
    (h : c.head = .ok (head, method, target)) :
    c.message = (c.body head (contentLength (headersOf head.headers))).map fun body =>
      ⟨method, target, headersOf head.headers, body⟩ := by
  rw [message, h]
  cases hb : c.body head (contentLength (headersOf head.headers)) <;>
    simp only [bind, Except.bind, hb, Except.map, pure, Except.pure]

/-- A stalled body that is shorter than declared is waited for in vain. -/
theorem Connection.message_of_stallsInBody {c : Connection} {head : Head}
    {method target value : String} (hh : c.head = .ok (head, method, target))
    (hv : (headersOf head.headers).get? "content-length" = some value)
    (hb : c.BodyBroken head value) (hs : c.StallsInBody value) :
    c.message = .error .timedOut := by
  obtain ⟨hending, hsome⟩ := hs
  obtain ⟨n, hn⟩ := Option.isSome_iff_exists.mp hsome
  have hshort : (c.bytes.drop head.bytes.length).length < n := hb n hn
  rw [message_of_head hh, contentLength_eq hv, hn, Option.getD_some, body]
  simp only [hending, hshort, beq_self_eq_true, decide_true, Bool.and_self, ite_true]
  rfl

/-- Any other broken body is taken as far as it goes. -/
theorem Connection.message_of_not_stallsInBody {c : Connection} {head : Head}
    {method target value : String} (hh : c.head = .ok (head, method, target))
    (hv : (headersOf head.headers).get? "content-length" = some value)
    (hs : ¬ c.StallsInBody value) :
    c.message = .ok (c.taken head method target value) := by
  have hwait : (c.ending == .stalled && decide ((c.bytes.drop head.bytes.length).length <
      (declaredLength? value).getD 0)) = false := by
    cases hd : declaredLength? value with
    | none => simp only [Option.getD_none, Nat.not_lt_zero, decide_false, Bool.and_false]
    | some n =>
      have hending : ¬ c.ending = .stalled := fun he => hs ⟨he, by rw [hd]; rfl⟩
      simp only [beq_eq_false_iff_ne.mpr hending, Bool.false_and]
  rw [message_of_head hh, contentLength_eq hv, body]
  simp only [hwait, Bool.false_eq_true, ite_false]
  rfl

/-- A connection with broken framing is refused by every application exactly when its client
stalls inside a body of a declared length. Otherwise every application answers it like a request
whose body is the bytes taken. The state of an executor holds the calls made to it, so a state
left alone means that none was made. That a request was read is told by an application without
routes, which answers it with 404. -/
theorem brokenBody_refused_iff {c : Connection} {head : Head} {method target value : String}
    (hh : c.head = .ok (head, method, target))
    (hv : (headersOf head.headers).get? "content-length" = some value)
    (hb : c.BodyBroken head value) :
    ((∀ (σ : Type) (app : App σ) (s : σ), ∃ e, respond app c s = (.rejected e, s)) ↔
      c.StallsInBody value) ∧
    (¬ c.StallsInBody value → ∀ (σ : Type) (app : App σ) (s : σ),
      respond app c s = answer app (c.taken head method target value) s) := by
  have hrun : ¬ c.StallsInBody value → ∀ (σ : Type) (app : App σ) (s : σ),
      respond app c s = answer app (c.taken head method target value) s := by
    intro hs σ app s
    rw [respond, Connection.message_of_not_stallsInBody hh hv hs]
  refine ⟨⟨?_, ?_⟩, hrun⟩
  · intro hrefused
    by_cases hs : c.StallsInBody value
    · exact hs
    · obtain ⟨e, he⟩ := hrefused Unit ⟨[], none⟩ ()
      rw [hrun hs] at he
      have hstatus : 404 = 400 := congrArg (fun r => r.1.status) he
      exact absurd hstatus (by decide)
  · intro hs σ app s
    refine ⟨.timedOut, ?_⟩
    rw [respond, Connection.message_of_stallsInBody hh hv hb hs]

/-- A request that declares twenty bytes and sends five of them. -/
def cutShort (ending : Ending) : Connection where
  bytes := Text.bytesOf ("POST /n HTTP/1.1\r\nContent-Length: 20\r\n" ++
    "Content-Type: application/x-www-form-urlencoded\r\n\r\nv=tru").toList
  ending := ending

/-- The head of the request that is cut short. -/
def cutShortHead : Head where
  request := Text.bytesOf "POST /n HTTP/1.1\r\n".toList
  headers := [Text.bytesOf "Content-Length: 20\r\n".toList,
    Text.bytesOf "Content-Type: application/x-www-form-urlencoded\r\n".toList]
  blank := Text.bytesOf "\r\n".toList

/-- The head is accepted however the client goes on. -/
theorem head_cutShort (ending : Ending) :
    (cutShort ending).head = .ok (cutShortHead, "POST", "/n") := by
  cases ending <;> rfl

/-- Five bytes are fewer than the twenty declared. -/
theorem bodyBroken_cutShort (ending : Ending) :
    (cutShort ending).BodyBroken cutShortHead "20" := by
  intro n hn
  have hlength : ((cutShort ending).behind cutShortHead).length = 5 := by
    cases ending <;> rfl
  have hdeclared : declaredLength? "20" = some 20 := rfl
  rw [hdeclared] at hn
  rw [hlength, ← Option.some.inj hn]
  decide

/-- The request that is cut short is refused when its client stalls. -/
theorem cutShort_stalled_refused :
    (cutShort .stalled).head = .ok (cutShortHead, "POST", "/n") ∧
    (cutShort .stalled).BodyBroken cutShortHead "20" ∧
    ∀ (σ : Type) (app : App σ) (s : σ),
      ∃ e, respond app (cutShort .stalled) s = (.rejected e, s) := by
  have hv : (headersOf cutShortHead.headers).get? "content-length" = some "20" := rfl
  have hiff := (brokenBody_refused_iff (head_cutShort .stalled) hv (bodyBroken_cutShort _)).1
  exact ⟨head_cutShort _, bodyBroken_cutShort _, hiff.mpr ⟨rfl, by decide +kernel⟩⟩

/-- A route that stores the field of a form and returns it. -/
def noteRoute : Route where
  method := "POST"
  path := "/n"
  assignments := [⟨"r", .sql "INSERT INTO notes (v) VALUES (?)" [.body "v"], 1⟩]
  status := none
  returns := ⟨.json, .body "v"⟩
  line := 1

/-- The application of the storing route, on a database that notes its calls. -/
def noteApp : App (Unit × List QueryCall) where
  routes := [noteRoute]
  database := some <| Executor.watched
    ⟨fun _ _ s => (.ok none, s), fun _ _ s => (.ok [], s), fun _ _ s => (.ok ⟨1, 1⟩, s)⟩

/-- The same request runs its route when the client closes: the beginning of its form is stored
and answered with 200. -/
theorem cutShort_closed_runs_route :
    (cutShort .closed).head = .ok (cutShortHead, "POST", "/n") ∧
    (cutShort .closed).BodyBroken cutShortHead "20" ∧
    (respond noteApp (cutShort .closed) ((), [])).1 = ⟨200, .json, "\"tru\""⟩ ∧
    (respond noteApp (cutShort .closed) ((), [])).2.2.map (·.statement) =
      ["INSERT INTO notes (v) VALUES (?)"] :=
  ⟨head_cutShort _, bodyBroken_cutShort _, by decide +kernel, by decide +kernel⟩

end RouteSheet.Http
