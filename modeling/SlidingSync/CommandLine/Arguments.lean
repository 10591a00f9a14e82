import SlidingSync.CommandLine.WindowText

/-!
# Arguments

The command line is a command with options. `-c` and `-l` may stand before or after the command's
name, the options of a command only after it. A value follows its option as the next argument, or
is attached to it; it is judged when the next option is met or the arguments end, so an unknown
argument behind it is reported first.
-/

namespace SlidingSync

inductive Command
  | checkConfig
  | inspect (sort : List String) (window : Window)
  | replay (events request user : String)
  deriving DecidableEq, Repr

structure Invocation where
  config : Option String
  logLevel : Option String
  command : Command
  deriving DecidableEq, Repr

/-- Why arguments are no invocation, calls for help and for the version included. -/
inductive ArgumentFault
  | valueValidation
  | invalidValue
  | argumentConflict
  | missingRequiredArgument
  | missingSubcommand
  | unknownArgument
  | invalidSubcommand
  | tooManyValues
  | displayHelpOnMissing
  | displayHelp
  | displayVersion
  deriving DecidableEq, Repr

def ArgumentFault.name : ArgumentFault → String
  | .valueValidation => "ValueValidation"
  | .invalidValue => "InvalidValue"
  | .argumentConflict => "ArgumentConflict"
  | .missingRequiredArgument => "MissingRequiredArgument"
  | .missingSubcommand => "MissingSubcommand"
  | .unknownArgument => "UnknownArgument"
  | .invalidSubcommand => "InvalidSubcommand"
  | .tooManyValues => "TooManyValues"
  | .displayHelpOnMissing => "DisplayHelpOnMissingArgumentOrSubcommand"
  | .displayHelp => "DisplayHelp"
  | .displayVersion => "DisplayVersion"

namespace CommandLine

inductive Key
  | config
  | logLevel
  | sort
  | range
  | events
  | request
  | user
  deriving DecidableEq, Repr

def Key.name : Key → String
  | .config => "config"
  | .logLevel => "log-level"
  | .sort => "sort"
  | .range => "range"
  | .events => "events"
  | .request => "request"
  | .user => "user"

/-- Whether values of the option are paths, which are never empty. -/
def Key.isPath : Key → Bool
  | .config | .events | .request => true
  | _ => false

/-- Where arguments stand: before the command's name, or behind it. -/
inductive Level
  | top
  | checkConfig
  | inspect
  | replay
  deriving DecidableEq, Repr

def commandNames : List (String × Level) :=
  [("check-config", .checkConfig), ("inspect", .inspect), ("replay", .replay)]

def helpName : String :=
  "help"

/-- The options that may stand at a level. -/
def Level.keys : Level → List Key
  | .top => [.config, .logLevel]
  | .checkConfig => [.config, .logLevel]
  | .inspect => [.config, .logLevel, .sort, .range]
  | .replay => [.config, .logLevel, .events, .request, .user]

inductive Flag
  | option (key : Key)
  | help
  | version

def Level.long? (level : Level) (name : String) : Option Flag :=
  if name = "help" then some .help
  else if level = .top ∧ name = "version" then some .version
  else (level.keys.find? fun key => key.name == name).map .option

def Level.short? (level : Level) (letter : Char) : Option Flag :=
  if letter = 'h' then some .help
  else if letter = 'c' then some (.option .config)
  else if letter = 'l' then some (.option .logLevel)
  else if level = .top ∧ letter = 'V' then some .version
  else none

structure Values where
  given : List (Key × String) := []
  /-- The last option while its value may still be missing or has not been judged. -/
  waiting : Option (Key × Option String) := none
  deriving DecidableEq, Repr

namespace Values

def all (v : Values) (key : Key) : List String :=
  (v.given.filter fun entry => entry.1 == key).map (·.2)

def get? (v : Values) (key : Key) : Option String :=
  (v.all key).head?

/-- Judge a value and add it. Only sort identifiers may be given twice. -/
def add (v : Values) (key : Key) (text : String) : Except ArgumentFault Values :=
  if key ≠ .sort ∧ (v.get? key).isSome then .error .argumentConflict
  else if key.isPath ∧ text = "" then .error .invalidValue
  else if key = .range ∧ !(Window.parse text).isOk then .error .valueValidation
  else .ok { v with given := v.given ++ [(key, text)] }

def settle (v : Values) : Except ArgumentFault Values :=
  match v.waiting with
  | none => .ok v
  | some (_, none) => .error .invalidValue
  | some (key, some text) => { v with waiting := none }.add key text

/-- Whether the next argument is a value unless it begins with a dash. -/
def isOpen (v : Values) : Bool :=
  match v.waiting with
  | some (_, none) => true
  | _ => false

/-- An option, with its value if that is attached. -/
def meet (v : Values) (key : Key) (attached : Option String) : Except ArgumentFault Values := do
  let settled ← v.settle
  match attached with
  | some text => settled.add key text
  | none => return { settled with waiting := some (key, none) }

end Values

def applyFlag (v : Values) (flag : Option Flag) (attached : Option String) :
    Except ArgumentFault Values :=
  match flag with
  | none => .error .unknownArgument
  | some (.option key) => v.meet key attached
  | some .help => v.settle.bind fun _ => .error .displayHelp
  | some .version => v.settle.bind fun _ => .error .displayVersion

/-- A long flag, cut at its first equals sign. -/
def longFlag (level : Level) (v : Values) (cs : List Char) : Except ArgumentFault Values :=
  let flag := level.long? (String.ofList (cs.takeWhile (· != '=')))
  match flag, cs.dropWhile (· != '=') with
  | some .help, _ :: _ => .error .tooManyValues
  | some .version, _ :: _ => .error .tooManyValues
  | _, _ :: text => applyFlag v flag (some (String.ofList text))
  | _, [] => applyFlag v flag none

/-- A short flag; what follows its letter is the value, with or without an equals sign. -/
def shortFlag (level : Level) (v : Values) (letter : Char) (rest : List Char) :
    Except ArgumentFault Values :=
  let attached :=
    match rest with
    | [] => none
    | '=' :: text => some (String.ofList text)
    | text => some (String.ofList text)
  applyFlag v (level.short? letter) attached

/-- An argument that is neither flag nor value nor the name of a command. -/
def strayFault (level : Level) : ArgumentFault :=
  match level with
  | .top => .invalidSubcommand
  | _ => .unknownArgument

/-- An argument behind a double dash, where nothing is expected. -/
def trailingFault (level : Level) (arg : String) : ArgumentFault :=
  if level = .top ∧ (arg = helpName ∨ (commandNames.lookup arg).isSome) then .unknownArgument
  else strayFault level

/-- What a call for help comes to that goes on with these names of commands. -/
def helpFault (names : List String) : ArgumentFault :=
  match names with
  | [] => .displayHelp
  | [name] =>
      if name = helpName ∨ (commandNames.lookup name).isSome then .displayHelp
      else .invalidSubcommand
  | _ => .invalidSubcommand

/-- The arguments of one level: the values given, and the command with the arguments behind it. -/
def readLevel (level : Level) (v : Values) :
    List String → Except ArgumentFault (Values × Option (Level × List String))
  | [] => .ok (v, none)
  | arg :: rest =>
      let command := if level = .top ∧ !v.isOpen then commandNames.lookup arg else none
      match command with
      | some next => .ok (v, some (next, rest))
      | none =>
          if level = .top ∧ !v.isOpen ∧ arg = helpName then .error (helpFault rest)
          else
            match arg.toList with
            | ['-', '-'] =>
                match rest with
                | [] => .ok (v, none)
                | stray :: _ => .error (trailingFault level stray)
            | '-' :: '-' :: name =>
                match longFlag level v name with
                | .ok v => readLevel level v rest
                | .error fault => .error fault
            | '-' :: letter :: tail =>
                match shortFlag level v letter tail with
                | .ok v => readLevel level v rest
                | .error fault => .error fault
            | _ =>
                match v.waiting with
                | some (key, none) =>
                    readLevel level { v with waiting := some (key, some arg) } rest
                | _ => .error (strayFault level)

/-- The values of a level once its arguments have ended; the environment may name the
configuration. -/
def conclude (environment : Option String) (v : Values) : Except ArgumentFault Values := do
  let settled ← v.settle
  match settled.get? .config, environment with
  | none, some path => if path = "" then .error .invalidValue else return settled
  | _, _ => return settled

def defaultSort : List String :=
  ["by_recency"]

def defaultWindow : Window :=
  ⟨0, 19⟩

def defaultUser : String :=
  "@proxy:localhost"

def Level.command (level : Level) (v : Values) : Except ArgumentFault Command :=
  match level with
  | .top => .error .missingSubcommand
  | .checkConfig => .ok .checkConfig
  | .inspect =>
      let sort := (v.all .sort).flatMap fun text => text.splitOn ","
      let window :=
        match (v.get? .range).map Window.parse with
        | some (.ok w) => w
        | _ => defaultWindow
      .ok (.inspect (if sort.isEmpty then defaultSort else sort) window)
  | .replay =>
      match v.get? .events, v.get? .request with
      | some events, some request =>
          .ok (.replay events request ((v.get? .user).getD defaultUser))
      | _, _ => .error .missingRequiredArgument

end CommandLine

open CommandLine

/--
The invocation that the arguments ask for. An option given behind the command's
name wins over the same option before it, and either over `environment`, the
configuration that the environment names.
-/
def Invocation.parse (environment : Option String) (args : List String) :
    Except ArgumentFault Invocation := do
  let (before, found) ← readLevel .top {} args
  match found with
  | none =>
      let given ← conclude environment before
      if given.given.isEmpty && environment.isNone then .error .displayHelpOnMissing
      else .error .missingSubcommand
  | some (level, rest) =>
      let (behind, _) ← readLevel level {} rest
      let inner ← conclude environment behind
      let command ← level.command inner
      let outer ← conclude environment before
      return {
        config := ((inner.get? .config).or (outer.get? .config)).or environment
        logLevel := (inner.get? .logLevel).or (outer.get? .logLevel)
        command := command }

end SlidingSync
