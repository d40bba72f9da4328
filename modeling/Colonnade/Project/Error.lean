import Colonnade.Files.Error

/-!
# What can go wrong with a configuration
-/

namespace Colonnade.Project

/-- What a configuration must not say. -/
inductive Fault where
  | emptyName
  | emptyMigrationPath
  | badUrl (url : String)
  /-- A target that is asked for is not among those that there are. -/
  | unknownTarget (name : String) (available : List String)
deriving DecidableEq, Repr

/-- The text of a fault. -/
def Fault.message : Fault → String
  | .emptyName => "project name must not be empty"
  | .emptyMigrationPath => "migration_path must not be empty"
  | .badUrl url => "connection url '" ++ url ++ "' must start with http:// or https://"
  | .unknownTarget name available =>
    "Target '" ++ name ++ "' not found. Available targets: " ++ ", ".intercalate available

/-- Why there is no configuration, or not the part of it that is asked for. -/
inductive ConfigError where
  | missing (path : String)
  /-- The text is not that of a configuration. -/
  | malformed
  | invalid (fault : Fault)
  | unreadable (path : String) (e : Files.FileError)
deriving DecidableEq, Repr

namespace ConfigError

/-- The text of a failure. -/
def message : ConfigError → String
  | .missing path => "[C001] Config file not found: " ++ path
  | .malformed => "[C002] Failed to parse config: the text is not that of a configuration"
  | .invalid fault => "[C003] Invalid config: " ++ fault.message
  | .unreadable path e => "[C004] Failed to read '" ++ path ++ "': " ++ e.message

/-- The text of a failure and of what is behind it. -/
def chain : ConfigError → List String
  | .unreadable path e => [message (.unreadable path e), e.message]
  | e => [e.message]

end ConfigError

end Colonnade.Project
