import Colonnade.Http.Request
import Colonnade.Text.Cut
import Colonnade.Text.Space
import Colonnade.Text.Utf8

/-!
# Requests and answers as bytes

A request is one line, its headers, an empty line and the statement. An answer is read when the
connection has ended, so all its bytes are there: the body is as long as a header says, or comes in
chunks, or is all that is left.
-/

namespace Colonnade.Http

/-! ## Where to -/

/-- The place a request goes to. -/
structure Endpoint where
  /-- The host and the port as the address spells them. -/
  authority : String
  host : String
  port : UInt16
deriving DecidableEq, Repr

/-- The place that an origin names. Only plain connections are spoken, on port 80 unless there is
another one. -/
def Endpoint.ofOrigin? (origin : String) : Option Endpoint := do
  let authority := Text.afterLast '@' (← Text.afterStart? "http://".toList origin.toList)
  let host := hostOf authority
  let port ← match authority.drop (host.length + 1) with
    | [] => some 80
    | digits => (String.ofList digits).toNat?
  if port < UInt16.size then return ⟨.ofList authority, .ofList host, .ofNat port⟩ else none

/-! ## A request -/

/-- A header with the end of its line. -/
def headerLine (header : String × String) : String := header.1 ++ ": " ++ header.2 ++ "\r\n"

/-- What precedes the body of a request. The connection is to end with the answer. -/
def Request.head (r : Request) (authority : String) : String :=
  let headers := ("Host", authority) :: r.headers ++
    [("Content-Length", toString r.body.utf8ByteSize), ("Connection", "close")]
  "POST " ++ r.target ++ " HTTP/1.1\r\n" ++ .join (headers.map headerLine) ++ "\r\n"

/-- The bytes of a request. -/
def Request.bytes (r : Request) (authority : String) : ByteArray :=
  (r.head authority).toUTF8 ++ r.body.toUTF8

/-! ## An answer -/

/-- The first line and what follows it; `line` is what has been read of it, last byte first. -/
def lineFrom? (line : List UInt8) : List UInt8 → Option (List UInt8 × List UInt8)
  | 13 :: 10 :: rest => some (line.reverse, rest)
  | b :: rest => lineFrom? (b :: line) rest
  | [] => none

/-- The lines up to the empty one, and what follows it; every line takes one of `fuel`. -/
def headFrom? : (fuel : Nat) → List UInt8 → Option (List String × List UInt8)
  | 0, _ => none
  | fuel + 1, bytes => do
    let (line, rest) ← lineFrom? [] bytes
    if line.isEmpty then return ([], rest)
    let (lines, rest) ← headFrom? fuel rest
    return (Text.Utf8.decode line :: lines, rest)

/-- The name of a header in small letters, and its value. -/
def header? (line : String) : Option (String × String) := do
  let (name, value) ← Text.cutWhere? (· == ':') line.toList
  return (.ofList (name.map Char.toLower), Text.trim (.ofList value))

/-- The number that hexadecimal digits spell; there is at least one. -/
def hexNumber? : List UInt8 → Option Nat
  | [] => none
  | digits => digits.foldlM (fun n b =>
    if 48 ≤ b ∧ b ≤ 57 then some (16 * n + (b.toNat - 48))
    else if 65 ≤ b ∧ b ≤ 70 then some (16 * n + (b.toNat - 55))
    else if 97 ≤ b ∧ b ≤ 102 then some (16 * n + (b.toNat - 87))
    else none) 0

/-- The first bytes, if there are so many. -/
def takeExactly? (count : Nat) (bytes : List UInt8) : Option (List UInt8) :=
  let taken := bytes.take count
  if taken.length = count then some taken else none

/-- A body in chunks, each after a line with its size; an empty one is the last. What follows a
semicolon says more about a chunk and is not needed. Every chunk takes one of `fuel`. -/
def chunks? : (fuel : Nat) → List UInt8 → Option (List UInt8)
  | 0, _ => none
  | fuel + 1, bytes => do
    let (line, rest) ← lineFrom? [] bytes
    let size ← hexNumber? (line.takeWhile fun b => b != 59 && b != 32)
    if size = 0 then return []
    let chunk ← takeExactly? size rest
    match rest.drop size with
    | 13 :: 10 :: rest => return chunk ++ (← chunks? fuel rest)
    | _ => none

/-- The body of an answer. -/
def bodyOf? (headers : List (String × String)) (bytes : List UInt8) : Option (List UInt8) :=
  if headers.lookup "transfer-encoding" = some "chunked" then chunks? (bytes.length + 1) bytes
  else match headers.lookup "content-length" with
    | some size => size.toNat?.bind fun n => takeExactly? n bytes
    | none => some bytes

/-- The answer that bytes spell. -/
def Response.ofBytes? (bytes : List UInt8) : Option Response := do
  let (lines, rest) ← headFrom? (bytes.length + 1) bytes
  let first :: headers := lines | none
  let _ :: status :: _ := Text.words first.toList | none
  return ⟨← (String.ofList status).toNat?, ← bodyOf? (headers.filterMap header?) rest⟩

end Colonnade.Http
