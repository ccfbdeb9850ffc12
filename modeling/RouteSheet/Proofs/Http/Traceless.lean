import RouteSheet.Proofs.Http.Framing

/-!
# Connections that leave no trace

A server hands the state of its database from one connection to the next. Two kinds of
connection hand it on as it is: one whose request cannot be read, for whatever reason,
and one whose method and path no route answers. Each has its reply from the connection
and the routes alone, so without it every other connection gets the reply that it gets
with it, and the database ends in the same state.
-/

namespace RouteSheet.Http

/-- The connection is answered before anything of a route is run. -/
inductive Connection.Traceless (routes : List Route) (c : Connection) : Prop where
  /-- its request cannot be read -/
  | refused {e : RequestError} (h : c.message = .error e)
  /-- no route answers the method and the path of its request -/
  | unrouted {m : Message} (h : c.message = .ok m)
      (hr : Route.find? routes m.method (splitTarget m.target).1 = none)

section

variable {σ : Type} (app : App σ)

/-- A request without a route is not found, and nothing is run for it. -/
theorem answer_unrouted {m : Message}
    (h : Route.find? app.routes m.method (splitTarget m.target).1 = none) (s : σ) :
    answer app m s = (.notFound, s) := by
  simp only [answer, App.handle, h]

/-- A connection without a trace has one reply for all states, and hands them on. -/
theorem respond_traceless {c : Connection} (h : c.Traceless app.routes) :
    ∃ reply, ∀ s, respond app c s = (reply, s) := by
  cases h with
  | @refused e h =>
    refine ⟨.rejected e, fun s => ?_⟩
    rw [respond, h]
  | unrouted h hr =>
    refine ⟨.notFound, fun s => ?_⟩
    rw [respond, h]
    exact answer_unrouted app hr s

/-- A server answers the first connection, and then the others from the state behind it. -/
theorem serve_cons (c : Connection) (cs : List Connection) (s : σ) :
    serve app (c :: cs) s =
      ((respond app c s).1 :: (serve app cs (respond app c s).2).1,
        (serve app cs (respond app c s).2).2) := rfl

/-- A server without a limit that is spared a connection without a trace, at any place of any
sequence, gives all others the replies that they get with it and ends in the same state. Any
number of such connections may be left out, one after the other. The state of an executor that
notes its calls holds them, so the calls are the same too. In front of the place both runs answer
from the same states. -/
theorem serveUpTo_eraseIdx {connections : List Connection} {i : Nat}
    (h : ∀ c ∈ connections[i]?, c.Traceless app.routes) (s : σ) :
    serveUpTo 0 app (connections.eraseIdx i) s =
      ((serveUpTo 0 app connections s).1.eraseIdx i, (serveUpTo 0 app connections s).2) := by
  simp only [serveUpTo, if_pos]
  induction connections generalizing i s with
  | nil => rfl
  | cons c rest ih =>
    cases i with
    | zero =>
      obtain ⟨reply, hreply⟩ := respond_traceless app (h c rfl)
      rw [List.eraseIdx_cons_zero, serve_cons, hreply, List.eraseIdx_cons_zero]
    | succ i =>
      have hrest : ∀ d ∈ rest[i]?, d.Traceless app.routes := fun d hd =>
        h d (by rwa [List.getElem?_cons_succ])
      rw [List.eraseIdx_cons_succ, serve_cons, ih hrest, serve_cons, List.eraseIdx_cons_succ]

end

/-- Between two requests that are stored, one that stalls is refused and may be left out. -/
theorem serveUpTo_eraseIdx_stalled :
    (∀ c ∈ [cutShort .closed, cutShort .stalled, cutShort .closed][1]?,
      c.Traceless noteApp.routes) ∧
    (serveUpTo 0 noteApp [cutShort .closed, cutShort .closed] ((), [])).1.map (·.status) =
      [200, 200] ∧
    serveUpTo 0 noteApp
        ([cutShort .closed, cutShort .stalled, cutShort .closed].eraseIdx 1) ((), []) =
      ((serveUpTo 0 noteApp [cutShort .closed, cutShort .stalled, cutShort .closed] ((), [])).1
          |>.eraseIdx 1,
        (serveUpTo 0 noteApp [cutShort .closed, cutShort .stalled, cutShort .closed]
          ((), [])).2) := by
  have h : ∀ c ∈ [cutShort .closed, cutShort .stalled, cutShort .closed][1]?,
      c.Traceless noteApp.routes := by
    intro c hc
    obtain rfl := Option.some.inj hc
    have hlength : (headersOf cutShortHead.headers).get? "content-length" = some "20" := rfl
    exact .refused (Connection.message_of_stallsInBody (head_cutShort .stalled) hlength
      (bodyBroken_cutShort .stalled) ⟨rfl, by decide +kernel⟩)
  exact ⟨h, by decide +kernel, serveUpTo_eraseIdx noteApp h ((), [])⟩

end RouteSheet.Http
