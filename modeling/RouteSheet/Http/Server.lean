import RouteSheet.App
import RouteSheet.Http.Message

/-!
# Serving

Connections are answered one after the other, each with one response, on the
database that the earlier ones left behind. A request that cannot be read is
answered with 400 and a path without a route with 404, and neither touches the
database.
-/

namespace RouteSheet.Http

/-- The words that stand for a status. -/
def reason : Nat → String
  | 200 => "OK"
  | 201 => "Created"
  | 204 => "No Content"
  | 301 => "Moved Permanently"
  | 302 => "Found"
  | 304 => "Not Modified"
  | 400 => "Bad Request"
  | 401 => "Unauthorized"
  | 403 => "Forbidden"
  | 404 => "Not Found"
  | 405 => "Method Not Allowed"
  | 409 => "Conflict"
  | 422 => "Unprocessable Entity"
  | 500 => "Internal Server Error"
  | 503 => "Service Unavailable"
  | _ => "Unknown"

/-- A response as it is sent. -/
structure Reply where
  status : Nat
  kind : BodyKind
  body : String
  deriving Repr, DecidableEq

namespace Reply

/-- The reply to a request that no route answers. -/
def notFound : Reply := ⟨404, .json, errorBody "Not found"⟩

/-- The reply to a request that cannot be read. -/
def rejected (e : RequestError) : Reply := ⟨400, .json, errorBody e.message⟩

/-- The reply of a route; a status left open is 200. -/
def ofResponse (r : Response) : Reply := ⟨r.status.getD 200, r.kind, r.text⟩

/-- The end of a line on the wire. -/
def lineEnd : String := "\r\n"

/-- The status line and the headers, without the blank line. -/
def head (r : Reply) : String :=
  "HTTP/1.1 " ++ intText r.status ++ " " ++ reason r.status ++ lineEnd ++
    "Content-Type: " ++ r.kind.contentType ++ lineEnd ++
    "Content-Length: " ++ intText r.body.utf8ByteSize ++ lineEnd ++
    "Connection: close" ++ lineEnd

/-- The text of the response. -/
def render (r : Reply) : String := r.head ++ lineEnd ++ r.body

end Reply

/-- The path of a target and the fields of the query behind its first question mark. -/
def splitTarget (target : String) : String × Fields String :=
  match Text.cutAtChar? '?' target.toList with
  | some (path, query) => (String.ofList path, formFields query)
  | none => (target, [])

variable {σ : Type}

/-- The reply to a request that has been read. -/
def answer (app : App σ) (m : Message) (s : σ) : Reply × σ :=
  let (path, query) := splitTarget m.target
  let request : Request := ⟨[], query, bodyFields m.headers m.body, m.headers⟩
  match app.handle m.method path request s with
  | (some response, t) => (.ofResponse response, t)
  | (none, t) => (.notFound, t)

/-- The reply to a connection. -/
def respond (app : App σ) (c : Connection) (s : σ) : Reply × σ :=
  match c.message with
  | .ok m => answer app m s
  | .error e => (.rejected e, s)

/-- The replies to connections one after the other. -/
def serve (app : App σ) : List Connection → σ → List Reply × σ
  | [], s => ([], s)
  | c :: rest, s =>
    let (reply, s) := respond app c s
    let (replies, s) := serve app rest s
    (reply :: replies, s)

/-- The replies of a server that stops after so many connections; none stands for no limit. -/
def serveUpTo (limit : Nat) (app : App σ) (connections : List Connection) (s : σ) :
    List Reply × σ :=
  serve app (if limit = 0 then connections else connections.take limit) s

end RouteSheet.Http
