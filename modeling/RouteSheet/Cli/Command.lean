import RouteSheet.Text.Basic

/-!
# Commands

The program checks a stylesheet or serves it. A command is a word, then options with
two dashes and at most one path, in any order; a value follows its option as the next
word or behind an equals sign. Behind a bare pair of dashes every word is a path.
In place of the command the version can be asked for, and then nothing else counts.
-/

namespace RouteSheet.Cli

/-- What the program is asked to do. A path that is not given is left to the project. -/
inductive Command where
  | run (file manifest host : Option String) (port : Option Nat)
  | check (file manifest : Option String) (dump : Bool)
  | version
  deriving Repr, DecidableEq

/-- Why words are no command. -/
inductive UsageError where
  | noCommand
  | unknownCommand (word : String)
  | unexpected (word : String)
  | missingValue (option : String)
  | repeated (option : String)
  | badPort (value : String)
  deriving Repr, DecidableEq

/-- The text of the failure. -/
def UsageError.message : UsageError → String
  | .noCommand => "expected a command: run or check"
  | .unknownCommand word => "unrecognized subcommand '" ++ word ++ "'"
  | .unexpected word => "unexpected argument '" ++ word ++ "' found"
  | .missingValue option => "a value is required for '" ++ option ++ "' but none was supplied"
  | .repeated option => "the argument '" ++ option ++ "' cannot be used multiple times"
  | .badPort value => "invalid value '" ++ value ++ "' for '--port'"

/-- The words of a command that have been understood. -/
structure Arguments where
  file : Option String
  manifest : Option String
  host : Option String
  port : Option Nat
  dump : Bool

namespace Arguments

/-- No words. -/
def empty : Arguments := ⟨none, none, none, none, false⟩

/-- One more path. -/
def addPath (a : Arguments) (word : String) : Except UsageError Arguments :=
  if a.file.isSome then .error (.unexpected word) else .ok { a with file := some word }

/-- The options of a command that take a value. -/
def valueOptions (serves : Bool) : List String :=
  if serves then ["--manifest-path", "--host", "--port"] else ["--manifest-path"]

/-- One more option with its value. -/
def addValue (a : Arguments) (option value : String) : Except UsageError Arguments :=
  if option = "--manifest-path" then
    if a.manifest.isSome then .error (.repeated option) else .ok { a with manifest := some value }
  else if option = "--host" then
    if a.host.isSome then .error (.repeated option) else .ok { a with host := some value }
  else if a.port.isSome then .error (.repeated option)
  else
    match Text.unsigned? 65535 value.toList with
    | some n => .ok { a with port := some n }
    | none => .error (.badPort value)

/-- The word is an option and no path. -/
def isOption (word : String) : Bool := word.startsWith "-" && word != "-"

/-- One more word that stands alone. -/
def addWord (a : Arguments) (serves : Bool) (word : String) : Except UsageError Arguments :=
  if word = "--dump" && !serves then
    if a.dump then .error (.repeated word) else .ok { a with dump := true }
  else if (valueOptions serves).contains word then .error (.missingValue word)
  else if isOption word then
    match Text.cutAtChar? '=' word.toList with
    | some (name, value) =>
      if (valueOptions serves).contains (String.ofList name) then
        a.addValue (String.ofList name) (String.ofList value)
      else .error (.unexpected word)
    | none => .error (.unexpected word)
  else a.addPath word

/-- All words behind those already understood. -/
def addAll (serves : Bool) : Arguments → List String → Except UsageError Arguments
  | a, [] => .ok a
  | a, [word] => if word = "--" then .ok a else a.addWord serves word
  | a, word :: value :: rest =>
    if word = "--" then (value :: rest).foldlM addPath a
    else if (valueOptions serves).contains word && !isOption value then
      match a.addValue word value with
      | .ok b => addAll serves b rest
      | .error e => .error e
    else
      match a.addWord serves word with
      | .ok b => addAll serves b (value :: rest)
      | .error e => .error e

end Arguments

/-- The command that words give. -/
def Command.ofWords : List String → Except UsageError Command
  | [] => .error .noCommand
  | word :: rest =>
    if word = "run" then
      (Arguments.addAll true .empty rest).map fun a => .run a.file a.manifest a.host a.port
    else if word = "check" then
      (Arguments.addAll false .empty rest).map fun a => .check a.file a.manifest a.dump
    else if word = "--version" || word.startsWith "-V" then .ok .version
    else .error (.unknownCommand word)

end RouteSheet.Cli
