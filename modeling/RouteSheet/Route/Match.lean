import RouteSheet.Syntax
import RouteSheet.Text.Basic

/-!
# Matching paths

A path is a list of segments once the slashes at both ends are gone. A segment of
a pattern is fixed text or, behind a colon, the name of a capture; a path fits when
it has as many segments and every fixed one is equal. Captures are the raw segments
in path order. Of several routes that fit, the first declared one answers.
-/

namespace RouteSheet

/-- A segment of a pattern. -/
inductive Segment where
  | fixed (text : List Char)
  | capture (name : String)
  deriving Repr, DecidableEq

/-- The segment of a pattern's text. -/
def Segment.ofText : List Char → Segment
  | ':' :: name => .capture (String.ofList name)
  | text => .fixed text

/-- The segments of a path without the slashes at both ends; a path of slashes has none. -/
def pathSegments (path : List Char) : List (List Char) :=
  let trimmed := Text.trimMatches (· == '/') path
  if trimmed.isEmpty then [] else Text.splitAtChar '/' trimmed

/-- The captures of a path, segment by segment. -/
def captures? : List Segment → List (List Char) → Option (List (String × String))
  | [], [] => some []
  | .fixed text :: pattern, segment :: path =>
    if text = segment then captures? pattern path else none
  | .capture name :: pattern, segment :: path =>
    (captures? pattern path).map ((name, String.ofList segment) :: ·)
  | _, _ => none

namespace Route

/-- The segments of the route's pattern. -/
def pattern (route : Route) : List Segment :=
  (pathSegments route.path.toList).map Segment.ofText

/-- The captures of a path that fits the route. -/
def match? (route : Route) (path : String) : Option (List (String × String)) :=
  captures? route.pattern (pathSegments path.toList)

/-- The route answers requests of the method. -/
def hasMethod (route : Route) (method : String) : Bool :=
  Text.equalFolded route.method.toList method.toList

/-- The first route that answers the method and the path, with the captures. -/
def find? (routes : List Route) (method path : String) :
    Option (Route × List (String × String)) :=
  routes.findSome? fun route =>
    if route.hasMethod method then (route.match? path).map fun captures => (route, captures)
    else none

end Route

end RouteSheet
