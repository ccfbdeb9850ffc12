import Std.Async.TCP
import Std.Async.Timer
import Std.Internal.UV.System
import RouteSheet.Cli.Session
import RouteSheet.Http.Server

/-!
# The program

Reads files, the environment and connections, and writes what the library answers.
A client that sends nothing for five seconds counts as stalled.
-/

namespace RouteSheet.Main

open Std.Async Std.Net

/-- The number of a system error, which may come with its sign changed. -/
def systemCode (code : UInt32) : Nat := min code.toNat (0x100000000 - code.toNat)

/-- A failure to read, by its cause. -/
def fileError : IO.Error → FileError
  | .noFileOrDirectory _ _ _ => .missing
  | .inappropriateType _ code _ => if systemCode code = 21 then .directory else .notDirectory
  | .invalidArgument _ code details =>
    if systemCode code = 36 then .nameTooLong else .other details
  | e => .other (toString e)

/-- The text of a file. -/
def readText (path : String) : IO (Except FileError String) := do
  if path.contains '\x00' then return .error .zeroInName
  try
    let bytes ← IO.FS.readBinFile path
    match Text.ofBytes? bytes.toList with
    | some text => return .ok (String.ofList text)
    | none => return .error .notText
  catch e => return .error (fileError e)

/-- The files of the machine. -/
def machineFiles : Files IO where
  workingDirectory := do return some (toString (← IO.currentDir))
  isPresent path := do
    match ← readText path with
    | .ok _ | .error .directory | .error .notText => return true
    | .error _ => return false
  isDirectory path := do
    match ← readText path with
    | .error .directory => return true
    | _ => return false
  read := readText

/-- How many milliseconds a client may be silent. -/
def patience : Std.Time.Millisecond.Offset := 5000

/-- What a client sends from now on, behind bytes already received. -/
partial def receive (client : TCP.Socket.Client) (received : List UInt8) :
    Async Http.Connection := do
  if Http.isOpen received then
    let part ← Selectable.one #[
      .case (client.recvSelector 65536) fun data => return some data,
      .case (← Selector.sleep patience) fun _ => return none]
    match part with
    | some (some data) => receive client (received ++ data.toList)
    | some none => return ⟨received, .closed⟩
    | none => return ⟨received, .stalled⟩
  else return ⟨received, .stalled⟩

/-- Answers one client after the other, so many or without end. -/
partial def answerAll (listener : TCP.Socket.Server) (server : Cli.Server) (count : Nat)
    (store : Store) : Async Unit := do
  if server.maxRequests = 0 || count < server.maxRequests then
    let client ← listener.accept
    let connection ← receive client []
    let (reply, store) := Http.respond server.app connection store
    try
      client.send reply.render.toUTF8
      client.shutdown
    catch _ => pure ()
    answerAll listener server (count + 1) store

/-- The address that a host and a port name; of names only the machine's own is known. -/
def socketAddress? (server : Cli.Server) : Option SocketAddress :=
  let port := UInt16.ofNat server.port
  match IPv6Addr.ofString server.host with
  | some address => some (.v6 ⟨address, port⟩)
  | none =>
    let host := if server.host = "localhost" then "127.0.0.1" else server.host
    (IPv4Addr.ofString host).map fun address => .v4 ⟨address, port⟩

/-- Why a socket is refused. -/
def bindError : IO.Error → Cli.BindError
  | .permissionDenied _ _ _ => .permissionDenied
  | .unsupportedOperation code details =>
    if systemCode code = 99 then .addressUnavailable else .other details
  | e => .other (toString e)

/-- A socket that listens for a server, or why there is none. -/
def listen (server : Cli.Server) : IO (Except Cli.BindError TCP.Socket.Server) := do
  match socketAddress? server with
  | none => return .error (.other "failed to lookup address information: Name or service not known")
  | some address =>
    try
      let listener ← TCP.Socket.Server.mk
      listener.bind address
      listener.listen 128
      return .ok listener
    catch e => return .error (bindError e)

/-- Writes what a command has written and gives its exit code. -/
def report : Cli.Outcome → IO UInt32
  | .finished code output errors => do
    IO.print output
    IO.eprint errors
    return UInt32.ofNat code
  | .serving errors _ => do
    IO.eprint errors
    return 0

/-- Listens and answers until the limit is reached. -/
def serve (errors : String) (server : Cli.Server) : IO UInt32 := do
  match ← listen server with
  | .error e => report (.unbound errors server e)
  | .ok listener =>
    IO.eprint errors
    (answerAll listener server 0 server.store).block
    return 0

end RouteSheet.Main

/-- Carries out the command of the command line. -/
def main (words : List String) : IO UInt32 := do
  let env := (← Std.Internal.UV.System.osEnviron).toList
  match ← RouteSheet.Cli.perform RouteSheet.Main.machineFiles env words with
  | .serving errors server => RouteSheet.Main.serve errors server
  | outcome => RouteSheet.Main.report outcome
