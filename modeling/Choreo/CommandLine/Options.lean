/-!
# Options of the command line

There are two options with a value, the path of the plan and the level of the log, and two without,
besides those that ask for help and for the version. A value follows its option as the next word or
after an equals sign. A word that begins with a dash is never taken for a value, unless it is only
that dash. The first thing that is wrong, from the left, decides; what is wrong with a value that
stands as a word of its own shows when the next known option, or the end, is reached.
-/

namespace Choreo.CommandLine

inductive LogLevel where
  | error | warn | info | debug | trace
  deriving DecidableEq

def LogLevel.word : LogLevel → String
  | .error => "error"
  | .warn => "warn"
  | .info => "info"
  | .debug => "debug"
  | .trace => "trace"

def LogLevel.ofWord? (word : String) : Option LogLevel :=
  [LogLevel.error, .warn, .info, .debug, .trace].find? fun level => level.word == word

structure Options where
  config : String
  logLevel : Option LogLevel
  dryRun : Bool
  realtime : Bool
  deriving DecidableEq

/-- Why there are no options: what is wrong with the words, or what they ask for instead. -/
inductive Usage where
  | unknownArgument
  | invalidValue
  | repeated
  | unexpectedValue
  | help
  | version
  deriving DecidableEq

inductive Valued where
  | config | logLevel
  deriving DecidableEq

inductive Switch where
  | dryRun | realtime | help | version
  deriving DecidableEq

def ofName? (name : String) : Option (Valued ⊕ Switch) :=
  match name with
  | "config" => some (.inl .config)
  | "log-level" => some (.inl .logLevel)
  | "dry-run" => some (.inr .dryRun)
  | "realtime" => some (.inr .realtime)
  | "help" => some (.inr .help)
  | "version" => some (.inr .version)
  | _ => none

def ofLetter? (letter : Char) : Option Switch :=
  if letter = 'h' then some .help
  else if letter = 'V' then some .version
  else none

/-- What was read so far, and an option whose value is still to come or to be looked at. -/
structure State where
  config : Option String
  logLevel : Option LogLevel
  dryRun : Bool
  realtime : Bool
  pending : Option (Valued × Option String)

namespace State

def initial : State := ⟨none, none, false, false, none⟩

def assign (option : Valued) (value : String) (state : State) : Except Usage State :=
  match option with
  | .config =>
    if state.config.isSome then .error .repeated
    else if value.isEmpty then .error .invalidValue
    else .ok { state with config := some value }
  | .logLevel =>
    if state.logLevel.isSome then .error .repeated
    else
      match LogLevel.ofWord? value with
      | some level => .ok { state with logLevel := some level }
      | none => .error .invalidValue

def resolve (state : State) : Except Usage State :=
  match state.pending with
  | none => .ok state
  | some (_, none) => .error .invalidValue
  | some (option, some value) => { state with pending := none }.assign option value

def turn (switch : Switch) (state : State) : Except Usage State :=
  match state.resolve with
  | .error e => .error e
  | .ok state =>
    match switch with
    | .dryRun => if state.dryRun then .error .repeated else .ok { state with dryRun := true }
    | .realtime => if state.realtime then .error .repeated else .ok { state with realtime := true }
    | .help => .error .help
    | .version => .error .version

def take (option : Valued) (attached : Option String) (state : State) : Except Usage State :=
  match state.resolve with
  | .error e => .error e
  | .ok state =>
    match attached with
    | some value => state.assign option value
    | none => .ok { state with pending := some (option, none) }

def long (name : String) (attached : Option String) (state : State) : Except Usage State :=
  match ofName? name, attached with
  | some (.inl option), attached => state.take option attached
  | some (.inr _), some _ => .error .unexpectedValue
  | some (.inr switch), none => state.turn switch
  | none, _ => .error .unknownArgument

def value (word : String) (state : State) : Except Usage State :=
  match state.pending with
  | some (option, none) => .ok { state with pending := some (option, some word) }
  | _ => .error .unknownArgument

def word (word : String) (state : State) : Except Usage State :=
  match word.toList with
  | '-' :: '-' :: rest =>
    let name := rest.takeWhile (· != '=')
    let attached := match rest.drop name.length with
      | '=' :: value => some (String.ofList value)
      | _ => none
    state.long (String.ofList name) attached
  | '-' :: letter :: _ =>
    match ofLetter? letter with
    | some switch => state.turn switch
    | none => .error .unknownArgument
  | _ => state.value word

def finish (state : State) : Except Usage Options :=
  match state.resolve with
  | .error e => .error e
  | .ok state =>
    .ok ⟨state.config.getD "Timeline.toml", state.logLevel, state.dryRun, state.realtime⟩

/-- Reads the remaining words. After two dashes alone no options follow, and other words are not
known. -/
def words : List String → State → Except Usage Options
  | [], state => state.finish
  | word :: rest, state =>
    if word = "--" then
      if rest.isEmpty then state.finish else .error .unknownArgument
    else
      match state.word word with
      | .error e => .error e
      | .ok state => words rest state

end State

def Options.ofWords (words : List String) : Except Usage Options := State.initial.words words

end Choreo.CommandLine
