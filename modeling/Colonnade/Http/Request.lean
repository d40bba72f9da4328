import Colonnade.Project.Config
import Colonnade.Text.Cut

/-!
# Requests to a store

A statement is posted to the address of the store. The database is a parameter of the address, the
user and the password are headers.
-/

namespace Colonnade.Http

open Project

/-- A request. -/
structure Request where
  /-- The scheme, the host and the port. -/
  origin : String
  /-- The path and the query. -/
  target : String
  headers : List (String × String)
  body : String
deriving DecidableEq, Repr

/-- An answer. -/
structure Response where
  status : Nat
  body : List UInt8
deriving DecidableEq, Repr

/-! ## Percent signs -/

/-- The digits of a byte after a percent sign. -/
def percent (b : UInt8) : List Char :=
  let digit (n : Nat) : Char := if n < 10 then Char.ofNat (48 + n) else Char.ofNat (55 + n)
  ['%', digit (b.toNat / 16), digit (b.toNat % 16)]

/-- A character by the percent signs of its bytes. -/
def percentChar (c : Char) : List Char := (String.singleton c).toUTF8.toList.flatMap percent

/-- A value in a form: letters and digits stand for themselves and a plus for a space. -/
def formEncode (s : String) : String :=
  .ofList (s.toList.flatMap fun c =>
    if c.isAlphanum || ['*', '-', '.', '_'].contains c then [c]
    else if c = ' ' then ['+']
    else percentChar c)

/-- Characters that stand for themselves neither in a path nor in a query. -/
def isForeign (c : Char) : Bool :=
  c.toNat ≤ 0x20 || 0x7e < c.toNat || ['"', '<', '>'].contains c

/-- The path of an address. -/
def pathEncode (cs : List Char) : List Char :=
  cs.flatMap fun c =>
    if isForeign c || ['\x60', '\x7b', '\x7d', '^'].contains c then percentChar c else [c]

/-- The query of an address. -/
def queryEncode (cs : List Char) : List Char :=
  cs.flatMap fun c => if isForeign c || c = '\'' then percentChar c else [c]

/-! ## Addresses -/

/-- The address of a store. -/
structure Url where
  origin : String
  path : List Char
  query : List Char
deriving DecidableEq, Repr

/-- The host in the part of an address that names it, without a user and a port. -/
def hostOf (authority : List Char) : List Char :=
  (Text.afterLast '@' authority).takeWhile (· != ':')

/-- The address that a text spells. It needs a scheme and a host; what follows a number sign is no
part of it. -/
def Url.ofText? (text : String) : Option Url := do
  let scheme ← ["http://", "https://"].find? fun s => Text.startsWith s text
  let rest := (text.toList.drop scheme.length).takeWhile (· != '#')
  let authority := rest.takeWhile fun c => c != '/' && c != '?'
  let after := rest.drop authority.length
  let path := after.takeWhile (· != '?')
  if (hostOf authority).isEmpty || authority.any isForeign then none
  else return ⟨scheme ++ .ofList authority, if path.isEmpty then ['/'] else path,
    after.drop (path.length + 1)⟩

/-- The path and the query of an address with one more parameter. -/
def Url.targetWith (u : Url) (name value : String) : String :=
  let query := queryEncode u.query
  .ofList (pathEncode u.path ++ '?' :: query ++ (if query.isEmpty then [] else ['&']))
    ++ name ++ "=" ++ formEncode value

/-! ## Requests -/

/-- Whether a text may be the value of a header. -/
def isHeaderValue (s : String) : Bool :=
  s.toList.all fun c => c == '\t' || (0x20 ≤ c.toNat && c.toNat != 0x7f)

/-- The request that posts a statement. -/
def Request.of? (c : Connection) (sql : String) : Option Request := do
  let url ← Url.ofText? c.url
  if isHeaderValue c.user && isHeaderValue c.password then
    return {
      origin := url.origin
      target := url.targetWith "database" c.database
      headers := [("X-ClickHouse-User", c.user), ("X-ClickHouse-Key", c.password)]
      body := sql }
  else none

end Colonnade.Http
