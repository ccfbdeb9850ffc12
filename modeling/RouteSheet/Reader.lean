/-!
# Readers

A reader takes tokens from the front of a list and gives a result, or fails and
takes nothing. Lists of elements are read as long as they go on; every element
takes at least one token where a list is used, so as many rounds as there are
tokens are enough.
-/

namespace RouteSheet

/-- A reader of the tokens still to come. -/
abbrev Reader (τ : Type) := StateT (List τ) Option

namespace Reader

variable {τ α : Type}

/-- The next token. -/
def next : Reader τ τ := do
  match ← get with
  | [] => failure
  | t :: rest =>
    set rest
    pure t

/-- The next token, if it is one of a class. -/
def satisfying (p : τ → Bool) : Reader τ τ := do
  let t ← next
  if p t then pure t else failure

/-- The tokens of a class at the front. -/
def front (p : τ → Bool) : Reader τ (List τ) := do
  let (taken, rest) := (← get).span p
  set rest
  pure taken

/-- Nothing is left. -/
def atEnd : Reader τ Bool := do return (← get).isEmpty

/-- A reader whose success may be missing, and then takes nothing. -/
def maybe (r : Reader τ α) : Reader τ (Option α) := do
  match r.run (← get) with
  | some (a, rest) =>
    set rest
    pure (some a)
  | none => pure none

/-- The reader succeeds here; if it does not, it takes nothing. -/
def given (r : Reader τ α) : Reader τ Bool := do return (← maybe r).isSome

/-- As often as a reader succeeds, at most so many times. -/
def repeated (r : Reader τ α) : Nat → Reader τ (List α)
  | 0 => pure []
  | fuel + 1 => do
    match ← maybe r with
    | some a => return a :: (← repeated r fuel)
    | none => pure []

/-- A list of elements behind each other. -/
def many (r : Reader τ α) : Reader τ (List α) := do repeated r (← get).length

/-- A list of one or more elements with separators between them. -/
def separated (separator : Reader τ Unit) (r : Reader τ α) : Reader τ (List α) := do
  let first ← r
  return first :: (← many (do separator; r))

/-- The result of a reader that takes all of a list. -/
def whole? (r : Reader τ α) (tokens : List τ) : Option α :=
  match r.run tokens with
  | some (a, []) => some a
  | _ => none

end Reader

end RouteSheet
