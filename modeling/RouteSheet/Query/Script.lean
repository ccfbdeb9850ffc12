import RouteSheet.Query.Dispatch

/-!
# Scripted executors

An executor whose answers are laid down in advance: each call takes the next
reply, and calls beyond the last find an empty one. It stands in for a database
where only the order of calls matters.
-/

namespace RouteSheet

/-- One reply of a script; a call takes from it the part that it asks for. -/
structure ScriptReply where
  failure : Option QueryError
  row : Option Object
  rows : List Object
  report : WriteReport

namespace ScriptReply

/-- The reply beyond the end of a script: no row, no rows, nothing changed. -/
def empty : ScriptReply := ⟨none, none, [], ⟨0, 0⟩⟩

/-- A part of the reply, unless it is a failure. -/
def part {α : Type} (reply : ScriptReply) (answer : α) : Except QueryError α :=
  match reply.failure with
  | some e => .error e
  | none => .ok answer

end ScriptReply

/-- The executor that answers with the replies still to come. -/
def scriptExecutor : Executor (List ScriptReply) where
  first _ _ s :=
    let reply := s.headD .empty
    (reply.part reply.row, s.tail)
  all _ _ s :=
    let reply := s.headD .empty
    (reply.part reply.rows, s.tail)
  run _ _ s :=
    let reply := s.headD .empty
    (reply.part reply.report, s.tail)

end RouteSheet
