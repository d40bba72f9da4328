import Colonnade.Statement.Error
import Colonnade.Sql.Quoted

/-!
# Sources of dictionaries
-/

namespace Colonnade

/-- A table of another database that a dictionary is filled from. -/
structure DictionarySource where
  remoteTable : String
  hosts : List String
  database : String
  port : UInt16
  user : String
  password : String
  layout : String := "HASHED()"
  /-- Seconds between refreshes. -/
  lifetime : UInt32 := 300
deriving DecidableEq, Repr

namespace DictionarySource

/-- One host; the earlier a host stands, the smaller its priority number. -/
def replica (host : String) (priority : Nat) : String :=
  "replica(host " ++ Sql.Quoted.quote host ++ " priority " ++ toString priority ++ ")"

/-- The replicas of hosts with priorities from a number on. -/
def replicasFrom (priority : Nat) : List String → List String
  | [] => []
  | host :: hosts => replica host priority :: replicasFrom (priority + 1) hosts

/-- The text of a source; it needs a host. -/
def text (s : DictionarySource) : Except StatementError String :=
  if s.hosts.isEmpty then
    .error (.configuration ("Dictionary source for table '" ++ s.remoteTable ++ "' has no hosts"))
  else
    .ok ("MYSQL(" ++ " ".intercalate (replicasFrom 1 s.hosts) ++ " port " ++ toString s.port.toNat
      ++ " db " ++ Sql.Quoted.quote s.database ++ " table " ++ Sql.Quoted.quote s.remoteTable
      ++ " user " ++ Sql.Quoted.quote s.user ++ " password " ++ Sql.Quoted.quote s.password
      ++ " fail_on_connection_loss 'true')")

end DictionarySource

end Colonnade
