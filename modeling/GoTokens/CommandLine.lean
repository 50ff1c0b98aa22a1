import GoTokens.Settings

/-!
Reading the arguments of a run. Options that every command has may stand before
the command and after it, once each; other options stand after it. Arguments are
taken from left to right, and the first thing that settles the run settles it: an
argument that cannot be understood, or a request for the version or for help. What
is wrong with the value of an option before the command shows only after the
arguments of the command have been read.
-/

namespace GoTokens.CommandLine

inductive Command where
  | scan (file : String) (format : Option OutputFormat) (noComments : Bool)
  | stream (file : String) (noComments : Bool)
  | init (directory : Option String) (force : Bool)
deriving DecidableEq, Repr

structure Invocation where
  verbose : Bool
  noColor : Bool
  configuration : Option String
  command : Command
deriving DecidableEq, Repr

inductive Stop where
  /-- The arguments or the environment make no sense. -/
  | misuse
  /-- The version of the program, or of one of its commands, was asked for. -/
  | version (name : String)
  | help
deriving DecidableEq, Repr

/-! ### Levels and options -/

/-- The place of an argument: before the command, or after one. -/
inductive Level where
  | program | scan | stream | init
deriving DecidableEq, Repr

namespace Level

def ofCommandName? : String → Option Level
  | "scan" => some scan
  | "stream" => some stream
  | "init" => some init
  | _ => none

/-- The name under which the version is given. -/
def programName : Level → String
  | program => "golt"
  | scan => "golt-scan"
  | stream => "golt-stream"
  | init => "golt-init"

def takesFile : Level → Bool
  | scan | stream => true
  | program | init => false

end Level

inductive Slot where
  | verbose | configuration | noColor | version | help
  | format | noComments | path | force
  /-- The argument that stands without an option. -/
  | file
deriving DecidableEq, Repr

namespace Slot

def takesValue : Slot → Bool
  | configuration | format | path | file => true
  | _ => false

def ofLongName? (level : Level) (name : String) : Option Slot :=
  match name, level with
  | "verbose", _ => some verbose
  | "config", _ => some configuration
  | "no-color", _ => some noColor
  | "version", _ => some version
  | "help", _ => some help
  | "format", .scan => some format
  | "no-comments", .scan => some noComments
  | "no-comments", .stream => some noComments
  | "path", .init => some path
  | "force", .init => some force
  | _, _ => none

def ofLetter? (level : Level) (letter : Char) : Option Slot :=
  match letter, level with
  | 'v', _ => some verbose
  | 'c', _ => some configuration
  | 'V', _ => some version
  | 'h', _ => some help
  | 'F', .scan => some format
  | 'p', .init => some path
  | 'f', .init => some force
  | _, _ => none

/-- Whether a value can be given: paths are not empty, and formats are those there are. -/
def accepts : Slot → String → Bool
  | format, value => (OutputFormat.ofName? value).isSome
  | configuration, value | path, value | file, value => !value.isEmpty
  | _, _ => true

/-- The variable of the environment that stands in for an option. -/
def standIn? : Slot → Option String
  | verbose => some "GOLT_VERBOSE"
  | configuration => some "GOLT_CONFIG"
  | noColor => some "GOLT_NO_COLOR"
  | _ => none

end Slot

/-! ### The arguments of one level -/

structure Given where
  level : Level
  /-- Settled options, with their values. -/
  settled : List (Slot × String)
  /-- An option that may still be in want of its value, or whose value has not been
  looked at. -/
  open? : Option (Slot × Option String)
  /-- Whether two dashes have ended the options. -/
  ended : Bool
deriving DecidableEq, Repr

namespace Given

def start (level : Level) : Given := ⟨level, [], none, false⟩

def value? (g : Given) (slot : Slot) : Option String := g.settled.lookup slot

def has (g : Given) (slot : Slot) : Bool := (g.value? slot).isSome

/-- Take an option with its value; none is given twice. -/
def settle (g : Given) (slot : Slot) (value : String) : Except Stop Given :=
  if g.has slot || !slot.accepts value then .error .misuse
  else .ok { g with settled := g.settled ++ [(slot, value)] }

def close (g : Given) : Except Stop Given :=
  match g.open? with
  | none => .ok g
  | some (slot, some value) => { g with open? := none }.settle slot value
  | some (_, none) => .error .misuse

/-- An option that came without a value, or with one attached to it. -/
def option (g : Given) (slot : Slot) (attached : Option String) : Except Stop Given := do
  let g ← g.close
  match slot, attached with
  | .version, none => throw (.version g.level.programName)
  | .help, none => throw .help
  | slot, some value => if slot.takesValue then g.settle slot value else throw .misuse
  | slot, none =>
    if slot.takesValue then return { g with open? := some (slot, none) }
    else g.settle slot "true"

/-- An option spelled with two dashes, without them. -/
def long (g : Given) (text : List Char) : Except Stop Given :=
  let name := String.ofList (text.takeWhile (· ≠ '='))
  let attached :=
    match text.dropWhile (· ≠ '=') with
    | _ :: value => some (String.ofList value)
    | [] => none
  match Slot.ofLongName? g.level name with
  | some slot => g.option slot attached
  | none => .error .misuse

/-- Options spelled with one dash and a letter each, without the dash. The rest of the text
after an option that takes a value is its value, and may be set off by an equals sign. -/
def short (g : Given) : List Char → Except Stop Given
  | [] => .ok g
  | letter :: letters =>
    match Slot.ofLetter? g.level letter with
    | none => .error .misuse
    | some slot =>
      if slot.takesValue then
        match letters with
        | [] => g.option slot none
        | '=' :: value => g.option slot (some (String.ofList value))
        | value => g.option slot (some (String.ofList value))
      else
        match g.option slot none with
        | .ok g => g.short letters
        | .error stop => .error stop

def plain (g : Given) (arg : String) : Except Stop Given :=
  if g.level.takesFile && !g.has .file && g.open?.all (·.1 != .file) then do
    let g ← g.close
    return { g with open? := some (.file, some arg) }
  else .error .misuse

/-- Whether the next plain argument is the value of an option. -/
def wantsValue (g : Given) : Bool :=
  match g.open? with
  | some (_, none) => true
  | _ => false

/-- An argument that is not the name of a command. -/
def argument (g : Given) (arg : String) : Except Stop Given :=
  if g.ended then g.plain arg
  else
    match arg.toList with
    | ['-', '-'] => .ok { g with ended := true }
    | '-' :: '-' :: text => g.long text
    | '-' :: letter :: letters => g.short (letter :: letters)
    | _ =>
      match g.open? with
      | some (slot, none) => .ok { g with open? := some (slot, some arg) }
      | _ => g.plain arg

def arguments (g : Given) : List String → Except Stop Given
  | [] => .ok g
  | arg :: args =>
    match g.argument arg with
    | .ok g => g.arguments args
    | .error stop => .error stop

/-- The names after a request for help: commands that there are. -/
def helpFor : List String → Stop
  | [] => .help
  | [name] => if name = "help" ∨ (Level.ofCommandName? name).isSome then .help else .misuse
  | _ => .misuse

/-- The arguments before the command, with the command and the arguments after it. -/
def untilCommand (g : Given) : List String → Except Stop (Given × Level × List String)
  | [] => .error .misuse
  | arg :: args =>
    let mayBeCommand := !g.ended && !g.wantsValue
    match if mayBeCommand then Level.ofCommandName? arg else none with
    | some level => .ok (g, level, args)
    | none =>
      if mayBeCommand && arg = "help" then .error (helpFor args)
      else
        match g.argument arg with
        | .ok g => g.untilCommand args
        | .error stop => .error stop

end Given

/-! ### The environment -/

/-- A variable of the environment can stand in for an option: a switch is turned by `true`
and `false`, and a path is not empty. -/
def standInIsGood (slot : Slot) (value : String) : Bool :=
  if slot.takesValue then slot.accepts value else value = "true" || value = "false"

/-- The options that every command has. -/
def everywhere : List Slot := [.verbose, .configuration, .noColor]

/-- A level is done: what is open is settled, and the variables that stand in for options
not given here make sense. -/
def finish (environment : String → Option String) (g : Given) : Except Stop Given := do
  let g ← g.close
  let bad := everywhere.any fun slot =>
    !g.has slot && (slot.standIn?.bind environment).any fun value => !standInIsGood slot value
  if bad then throw .misuse
  return g

/-- The value of an option that every command has. Given after the command it counts more
than given before, and both count more than the environment. -/
def chosen? (environment : String → Option String) (before after : Given) (slot : Slot) :
    Option String :=
  after.value? slot <|> before.value? slot <|> slot.standIn?.bind environment

def command? (g : Given) : Option Command :=
  match g.level with
  | .scan => (g.value? .file).map fun file =>
    .scan file ((g.value? .format).bind OutputFormat.ofName?) (g.has .noComments)
  | .stream => (g.value? .file).map fun file => .stream file (g.has .noComments)
  | .init => some (.init (g.value? .path) (g.has .force))
  | .program => none

def parse (environment : String → Option String) (args : List String) :
    Except Stop Invocation := do
  let (before, level, args) ← (Given.start .program).untilCommand args
  let after ← (Given.start level).arguments args
  let after ← finish environment after
  let some command := command? after | throw .misuse
  let before ← finish environment before
  let chosen? := chosen? environment before after
  return {
    verbose := chosen? .verbose = some "true"
    noColor := chosen? .noColor = some "true"
    configuration := chosen? .configuration
    command }

end GoTokens.CommandLine
