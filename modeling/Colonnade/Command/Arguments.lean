import Colonnade.Text.Cut

/-!
# The arguments of the command line

Options that every command takes may stand before the command and after it; what stands after it
counts. A flag is a long name or a letter, letters can be run together, and a value is the next
argument or what follows in the same one. After two dashes nothing is an option.
-/

namespace Colonnade.Command

/-- The options that every command takes. -/
structure Options where
  verbose : Bool := false
  projectDirectory : String := "."
  config : Option String := none
  target : Option String := none
deriving DecidableEq, Repr

/-- Which way to migrate. -/
inductive Direction where
  | up
  | down
deriving DecidableEq, Repr

/-- What to do. -/
inductive Task where
  | migrate (direction : Option Direction) (version : Option String)
  | render (version : String) (down : Bool)
deriving DecidableEq, Repr

/-- Why the arguments do not lead to a task. -/
inductive Stop where
  /-- The arguments are not those of any task. -/
  | misuse
  | help
  | version
deriving DecidableEq, Repr

/-! ## Options -/

/-- The meaning of an option. -/
inductive Key where
  | verbose
  | projectDirectory
  | config
  | target
  | help
  /-- Shows the version of the program. -/
  | version
  /-- The version of a migration. -/
  | targetVersion
  | down
deriving DecidableEq, Repr

/-- An option. -/
structure Spec where
  key : Key
  long : String
  short : Option Char := none
  takesValue : Bool := false
deriving DecidableEq, Repr

/-- The options that every command takes. -/
def commonSpecs : List Spec := [
  ⟨.verbose, "verbose", some 'v', false⟩, ⟨.projectDirectory, "project-dir", some 'p', true⟩,
  ⟨.config, "config", some 'c', true⟩, ⟨.target, "target", some 't', true⟩,
  ⟨.help, "help", some 'h', false⟩]

/-- The options before a command. -/
def topSpecs : List Spec := commonSpecs ++ [⟨.version, "version", some 'V', false⟩]

/-- The options of migrating. -/
def migrateSpecs : List Spec := commonSpecs ++ [⟨.targetVersion, "version", none, true⟩]

/-- The options of rendering. -/
def renderSpecs : List Spec := commonSpecs ++ [⟨.down, "down", none, false⟩]

/-- The options that are given, each once, with their values. -/
abbrev Given := List (Key × String)

/-- Gives an option a value. Help and the version are shown at once. -/
def give (given : Given) (key : Key) (value : String) : Except Stop Given :=
  match key with
  | .help => .error .help
  | .version => .error .version
  | key => if (given.lookup key).isSome then .error .misuse else .ok ((key, value) :: given)

/-- Whether an argument cannot be a value of its own. -/
def isDashed (arg : String) : Bool :=
  match arg.toList with
  | '-' :: _ :: _ => true
  | _ => false

/-- The value that the next argument is. -/
def nextValue : List String → Except Stop (String × List String)
  | [] => .error .misuse
  | arg :: rest => if isDashed arg then .error .misuse else .ok (arg, rest)

/-- An option by its long name. -/
def giveLong (specs : List Spec) (given : Given) (name : String) (attached : Option String)
    (rest : List String) : Except Stop (Given × List String) :=
  match specs.find? fun s => s.long == name, attached with
  | none, _ => .error .misuse
  | some s, none =>
    if s.takesValue then do
      let (value, rest) ← nextValue rest
      return (← give given s.key value, rest)
    else do return (← give given s.key "", rest)
  | some s, some value =>
    if s.takesValue then do return (← give given s.key value, rest) else .error .misuse

/-- Options by their letters. -/
def giveShort (specs : List Spec) (given : Given) (rest : List String) :
    List Char → Except Stop (Given × List String)
  | [] => .ok (given, rest)
  | c :: cs =>
    match specs.find? fun s => s.short == some c with
    | none => .error .misuse
    | some s =>
      if s.takesValue then
        match cs with
        | [] => do
          let (value, rest) ← nextValue rest
          return (← give given s.key value, rest)
        | cs => do
          let value := if cs.head? = some '=' then cs.drop 1 else cs
          return (← give given s.key (.ofList value), rest)
      else do giveShort specs (← give given s.key "") rest cs

/-- An argument that starts with a dash. -/
def giveDashed (specs : List Spec) (given : Given) (arg : String) (rest : List String) :
    Except Stop (Given × List String) :=
  match arg.toList with
  | '-' :: '-' :: cs =>
    match Text.cutAt? ['='] cs with
    | some (name, value) => giveLong specs given (.ofList name) (some (.ofList value)) rest
    | none => giveLong specs given (.ofList cs) none rest
  | _ :: cs => giveShort specs given rest cs
  | [] => .error .misuse

/-! ## Commands -/

/-- Reads the direction of a migration. -/
def Direction.ofText? : String → Option Direction
  | "up" => some .up
  | "down" => some .down
  | _ => none

/-- The commands. -/
inductive Name where
  | migrate
  | render
deriving DecidableEq, Repr

/-- Reads the name of a command. -/
def Name.ofText? : String → Option Name
  | "migrate" => some .migrate
  | "render" => some .render
  | _ => none

/-- The options of a command. -/
def Name.specs : Name → List Spec
  | .migrate => migrateSpecs
  | .render => renderSpecs

/-- Whether a command takes an operand after others. -/
def Name.accepts (name : Name) (operands : List String) (operand : String) : Bool :=
  operands.isEmpty && (name == .render || (Direction.ofText? operand).isSome)

/-- The options and operands of a command. `fuel` bounds the number of arguments. -/
def readCommand (name : Name) (fuel : Nat) (given : Given) (operands : List String)
    (plain : Bool) : List String → Except Stop (Given × List String)
  | [] => .ok (given, operands)
  | arg :: rest =>
    match fuel with
    | 0 => .error .misuse
    | fuel + 1 =>
      if !plain && arg == "--" then readCommand name fuel given operands true rest
      else if !plain && isDashed arg then do
        let (given, rest) ← giveDashed name.specs given arg rest
        readCommand name fuel given operands false rest
      else if name.accepts operands arg then
        readCommand name fuel given (operands ++ [arg]) plain rest
      else .error .misuse

/-- The options before a command, the command, and the arguments after it. -/
def readTop (fuel : Nat) (given : Given) : List String → Except Stop (Given × Name × List String)
  | [] => .error .misuse
  | arg :: rest =>
    match fuel with
    | 0 => .error .misuse
    | fuel + 1 =>
      if arg == "--" then .error .misuse
      else if isDashed arg then do
        let (given, rest) ← giveDashed topSpecs given arg rest
        readTop fuel given rest
      else if arg == "help" then
        .error (if rest.all fun a => a == "help" || (Name.ofText? a).isSome then .help else .misuse)
      else
        match Name.ofText? arg with
        | some name => .ok (given, name, rest)
        | none => .error .misuse

/-- The options that count: those after the command before those in front of it. -/
def optionsOf (inner outer : Given) : Options :=
  let value (key : Key) : Option String := inner.lookup key <|> outer.lookup key
  { verbose := (value .verbose).isSome
    projectDirectory := (value .projectDirectory).getD "."
    config := value .config
    target := value .target }

/-- The task of a command. -/
def taskOf (name : Name) (given : Given) (operands : List String) : Except Stop Task :=
  match name, operands with
  | .migrate, operands =>
    .ok (.migrate (operands.head?.bind Direction.ofText?) (given.lookup .targetVersion))
  | .render, version :: _ => .ok (.render version (given.lookup .down).isSome)
  | .render, [] => .error .misuse

/-- The task and the options of the arguments. -/
def readArguments (args : List String) : Except Stop (Task × Options) := do
  let (outer, name, rest) ← readTop (args.length + 1) [] args
  let (inner, operands) ← readCommand name (rest.length + 1) [] [] false rest
  return (← taskOf name inner operands, optionsOf inner outer)

end Colonnade.Command
