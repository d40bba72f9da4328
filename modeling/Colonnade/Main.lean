import Colonnade.Command.Run
import Colonnade.Http.Wire
import Colonnade.Migration.Identifier
import Std.Async.DNS
import Std.Async.TCP
import Std.Time.DateTime.Timestamp

/-!
# The program

The host of the program is the machine it runs on: its files, its environment, its clock, its
network and its terminal.
-/

namespace Colonnade.Machine

/-! ## Files -/

/-- A failure of the system. -/
def fileError : IO.Error → Files.FileError
  | .noFileOrDirectory .. => .missing
  | .inappropriateType _ code _ => if code = 21 then .isDirectory else .notDirectory
  | e => .other (toString e)

/-- A step with the failures of the system. -/
def attempt {α : Type} (step : IO α) : ExceptT Files.FileError IO α :=
  ExceptT.mk do
    try return .ok (← step)
    catch e => return .error (fileError e)

/-- Whether a path leads to a regular file. -/
def isFile (path : String) : IO Bool := do
  try
    match (← (← IO.FS.realPath ⟨path⟩).metadata).type with
    | .file => return true
    | _ => return false
  catch _ => return false

/-- The files of the machine. -/
def files : Files.Access IO where
  reaches path := do (← IO.FS.realPath ⟨path⟩).pathExists
  read path := do
    match String.fromUTF8? (← attempt (IO.FS.readBinFile ⟨path⟩)) with
    | some text => return text
    | none => throw .notText
  list path := attempt do
    let found ← (← IO.FS.realPath ⟨path⟩).readDir
    found.toList.mapM fun e => return ⟨e.fileName, ← isFile (Files.join path e.fileName)⟩

/-! ## Environment -/

/-- A variable: its name, an equals sign and its value. -/
def assignment? (bytes : List UInt8) : Option (String × String) := do
  let text ← String.fromUTF8? ⟨bytes.toArray⟩
  let (name, value) ← Text.cutWhere? (· == '=') text.toList
  return (.ofList name, .ofList value)

/-- The variables of the process; there are none where the machine does not list them. -/
def environment : IO (NameMap String) := do
  try
    let bytes := (← IO.FS.readBinFile ⟨"/proc/self/environ"⟩).toList
    return .ofList ((bytes.splitOn 0).reverse.filterMap assignment?)
  catch _ => return .empty

/-! ## Network -/

open Std.Async

/-- All bytes until the connection ends. -/
partial def receive (socket : TCP.Socket.Client) (got : ByteArray) : Async ByteArray := do
  match ← socket.recv? 65536 with
  | some bytes => if bytes.isEmpty then return got else receive socket (got ++ bytes)
  | none => return got

/-- Sends bytes to a place and waits for the bytes that come back. -/
def exchange (host : String) (port : UInt16) (bytes : ByteArray) : Async ByteArray := do
  let addresses ← DNS.getAddrInfo host (toString port)
  let some address := addresses[0]? | throw (.userError "the host has no address")
  let socket ← TCP.Socket.Client.mk
  socket.connect (match address with
    | .v4 a => .v4 ⟨a, port⟩
    | .v6 a => .v6 ⟨a, port⟩)
  socket.send bytes
  receive socket .empty

/-- The network of the machine, with a connection for every request. -/
def network : Http.Network IO := fun request => ExceptT.mk do
  let some place := Http.Endpoint.ofOrigin? request.origin
    | return .error "no plain connection leads there"
  try
    let answer ← (exchange place.host place.port (request.bytes place.authority)).block
    match Http.Response.ofBytes? answer.toList with
    | some response => return .ok response
    | none => return .error "the answer has no end"
  catch e => return .error (toString e)

/-! ## Host -/

/-- What a row of the ledger takes from the machine. -/
def stamp : Migration.Stamp IO where
  identifier := return Migration.identifierOf (← IO.getRandomBytes 16).toList
  now := return .ofInt (← Std.Time.Timestamp.now).toSecondsSinceUnixEpoch.toInt

/-- The machine as a host. -/
def host : IO (Command.Host IO) := do
  let out ← IO.getStdout
  let err ← IO.getStderr
  return ⟨files, ← environment, network, stamp, out.putStr, err.putStr⟩

end Colonnade.Machine

/-- Runs the program with the arguments of the process. -/
def main (args : List String) : IO UInt32 := do
  return .ofNat (← Colonnade.Command.run (← Colonnade.Machine.host) args)
