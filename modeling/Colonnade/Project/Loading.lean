import Colonnade.Files.Access
import Colonnade.Files.Path
import Colonnade.Project.Decoding

/-!
# Loading a configuration
-/

namespace Colonnade.Project

variable {m : Type → Type} [Monad m]

/-- The names of a configuration in the directory of a project, the preferred one first. -/
def configName : String := "clickforge.yml"

/-- The other name of a configuration. -/
def otherConfigName : String := "clickforge.yaml"

/-- A read of a file with its failure as a failure to configure. -/
def readConfigText (files : Files.Access m) (path : String) : ExceptT ConfigError m String :=
  ExceptT.mk do
    match ← (files.read path).run with
    | .ok text => return .ok text
    | .error e => return .error (.unreadable path e)

/-- Loads a configuration from a file. -/
def load (files : Files.Access m) (path : String) : ExceptT ConfigError m Config := do
  if ← files.reaches path then
    let text ← readConfigText files path
    ExceptT.mk (pure (Config.ofText text))
  else throw (.missing path)

/-- Loads the configuration in the directory of a project. -/
def loadFrom (files : Files.Access m) (directory : String) : ExceptT ConfigError m Config := do
  let path := Files.join directory configName
  let other := Files.join directory otherConfigName
  if ← files.reaches path then load files path
  else if ← files.reaches other then load files other
  else throw (.missing path)

end Colonnade.Project
