import TypedRecords.Floating.Reader
/-!
# Command line arguments

Two commands, `infer` and `normalize`, each with options of its own, and options that may stand before
or after the command.
-/

namespace TypedRecords.Command

inductive UsageError where
  | unknownArgument
  | invalidSubcommand
  | missingSubcommand
  | missingRequiredArgument
  /-- An option without a value, or with an empty one. -/
  | invalidValue
  | valueValidation
  /-- An option given twice. -/
  | argumentConflict
  /-- A value for a flag. -/
  | tooManyValues
  | displayHelp
  | displayVersion
  | displayHelpOnMissing
  deriving DecidableEq, Repr

inductive Argument where
  | options
  | verbose
  | input
  | schema
  | ratio
  | pretty
  | help
  | version
  deriving DecidableEq, Repr

def Argument.takesValue : Argument → Bool
  | .options => true
  | .input => true
  | .schema => true
  | .ratio => true
  | _ => false

/-- Where an argument stands: before the command or after it. -/
inductive Level where
  | top
  | infer
  | normalize
  deriving DecidableEq, Repr

def longName? (level : Level) (name : String) : Option Argument :=
  match name, level with
  | "options", _ => some .options
  | "verbose", _ => some .verbose
  | "help", _ => some .help
  | "version", .top => some .version
  | "input", .infer => some .input
  | "input", .normalize => some .input
  | "sampling-ratio", .infer => some .ratio
  | "pretty", .infer => some .pretty
  | "schema", .normalize => some .schema
  | _, _ => none

def shortName? (level : Level) (name : Char) : Option Argument :=
  match name, level with
  | 'o', _ => some .options
  | 'v', _ => some .verbose
  | 'h', _ => some .help
  | 'V', .top => some .version
  | 'i', .infer => some .input
  | 'i', .normalize => some .input
  | 's', .normalize => some .schema
  | _, _ => none

structure Settings where
  options : Option String := none
  verbose : Bool := false
  input : Option String := none
  schema : Option String := none
  ratio : Option Double := none
  pretty : Bool := false
  deriving DecidableEq, Repr, Inhabited

def pathValue (present : Bool) (value : String) : Except UsageError String :=
  if present then .error .argumentConflict
  else if value.isEmpty then .error .invalidValue
  else .ok value

def Settings.give (s : Settings) (a : Argument) (value : String) : Except UsageError Settings :=
  match a with
  | .options => (pathValue s.options.isSome value).map fun p => { s with options := some p }
  | .input => (pathValue s.input.isSome value).map fun p => { s with input := some p }
  | .schema => (pathValue s.schema.isSome value).map fun p => { s with schema := some p }
  | .ratio =>
    if s.ratio.isSome then .error .argumentConflict
    else match Floating.ofText? value.toList with
      | some x => .ok { s with ratio := some x }
      | none => .error .valueValidation
  | _ => .ok s

def Settings.flag (s : Settings) (a : Argument) : Except UsageError Settings :=
  match a with
  | .verbose => if s.verbose then .error .argumentConflict else .ok { s with verbose := true }
  | .pretty => if s.pretty then .error .argumentConflict else .ok { s with pretty := true }
  | .help => .error .displayHelp
  | .version => .error .displayVersion
  | _ => .ok s

/-- The settings so far, and the last option as long as it is not recorded: it still waits for its
value, or its value is not yet checked. -/
structure Reading where
  settings : Settings := {}
  pending : Option (Argument × Option String) := none
  deriving DecidableEq, Repr, Inhabited

namespace Reading

def resolve (r : Reading) : Except UsageError Reading :=
  match r.pending with
  | none => .ok r
  | some (_, none) => .error .invalidValue
  | some (a, some value) => (r.settings.give a value).map fun s => ⟨s, none⟩

def isWaiting (r : Reading) : Bool :=
  match r.pending with
  | some (_, none) => true
  | _ => false

def flag (r : Reading) (a : Argument) : Except UsageError Reading := do
  let r ← r.resolve
  let s ← r.settings.flag a
  return ⟨s, none⟩

def attached (r : Reading) (a : Argument) (value : String) : Except UsageError Reading := do
  let r ← r.resolve
  let s ← r.settings.give a value
  return ⟨s, none⟩

def await (r : Reading) (a : Argument) : Except UsageError Reading := do
  let r ← r.resolve
  return ⟨r.settings, some (a, none)⟩

def long (level : Level) (r : Reading) (text : List Char) : Except UsageError Reading :=
  let name := String.ofList (text.takeWhile (· != '='))
  let value : Option String := match text.dropWhile (· != '=') with
    | [] => none
    | _ :: cs => some (String.ofList cs)
  match longName? level name with
  | none => .error .unknownArgument
  | some a =>
    match a.takesValue, value with
    | false, some _ => .error .tooManyValues
    | false, none => r.flag a
    | true, some v => r.attached a v
    | true, none => r.await a

/-- The letters after `-`. The first option takes the other letters as its value, less an equals sign
in front. -/
def short (level : Level) (r : Reading) : List Char → Except UsageError Reading
  | [] => .ok r
  | c :: cs =>
    match shortName? level c with
    | none => .error .unknownArgument
    | some a =>
      if a.takesValue then
        match cs with
        | [] => r.await a
        | '=' :: value => r.attached a (String.ofList value)
        | value => r.attached a (String.ofList value)
      else do
        let r ← r.flag a
        short level r cs

end Reading

def subcommand? (text : String) : Option Level :=
  match text with
  | "infer" => some .infer
  | "normalize" => some .normalize
  | _ => none

def strayWord (level : Level) (literally : Bool) (text : String) : UsageError :=
  if level = .top && !(literally && ((subcommand? text).isSome || text == "help")) then
    .invalidSubcommand
  else .unknownArgument

/-- The words after `help` have to be commands. -/
def helpRequest : List String → UsageError
  | [] => .displayHelp
  | text :: _ =>
    if (subcommand? text).isSome || text == "help" then .displayHelp else .invalidSubcommand

/-- Reads the arguments of a level. At the top level it ends at a command, which is given with the
arguments after it. After `--` every argument is a word. -/
def scan (level : Level) (literally : Bool) (r : Reading) :
    List String → Except UsageError (Reading × Option (Level × List String))
  | [] => .ok (r, none)
  | text :: rest =>
    if literally then .error (strayWord level true text)
    else
      let command := if level = .top && !r.isWaiting then subcommand? text else none
      match command with
      | some next => .ok (r, some (next, rest))
      | none =>
        if level = .top && !r.isWaiting && text == "help" then .error (helpRequest rest)
        else match text.toList with
          | ['-', '-'] => scan level true r rest
          | '-' :: '-' :: name =>
            match r.long level name with
            | .ok r => scan level false r rest
            | .error e => .error e
          | '-' :: c :: letters =>
            match r.short level (c :: letters) with
            | .ok r => scan level false r rest
            | .error e => .error e
          | _ =>
            match r.pending with
            | some (a, none) => scan level false ⟨r.settings, some (a, some text)⟩ rest
            | _ => .error (strayWord level false text)

inductive Task where
  | infer (input : String) (ratio : Option Double) (pretty : Bool)
  | normalize (input : String) (schema : Option String)
  deriving DecidableEq, Repr

structure Invocation where
  options : Option String
  verbose : Bool
  task : Task
  deriving DecidableEq, Repr

def taskOf (level : Level) (s : Settings) : Except UsageError Task :=
  match s.input with
  | none => .error .missingRequiredArgument
  | some input =>
    if level = .normalize then .ok (.normalize input s.schema)
    else .ok (.infer input s.ratio s.pretty)

/-- The arguments of a command. Its own options take precedence over those before it, whose last
value is checked after the command's arguments. -/
def readTask (top : Reading) (level : Level) (args : List String) :
    Except UsageError Invocation := do
  let (r, _) ← scan level false {} args
  let r ← r.resolve
  let task ← taskOf level r.settings
  let top ← top.resolve
  return ⟨r.settings.options.or top.settings.options, r.settings.verbose || top.settings.verbose,
    task⟩

def Invocation.ofArguments (args : List String) : Except UsageError Invocation := do
  let (top, command) ← scan .top false {} args
  match command with
  | some (level, rest) => readTask top level rest
  | none =>
    let top ← top.resolve
    .error (if top.settings = {} then .displayHelpOnMissing else .missingSubcommand)

end TypedRecords.Command
