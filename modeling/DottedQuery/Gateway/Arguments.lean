/-!
# Command-line arguments

The service takes two options, each with a value: the address to listen on (`-l`, `--listen`)
and the file of its configuration (`-c`, `--config`). A value follows its option as the next
argument, or stands in the same one: `-lX`, `-l=X`, `--listen=X`.

The arguments are read from left to right. An option whose value is the next argument is
*pending* until the next option or the end, and is settled only then: without a value it is
refused, and so is an option that is given twice. An argument that is neither an option nor the
value of one is refused at once, pending or not.
-/

namespace DottedQuery

namespace Gateway

/-- What the service is started with. -/
structure Settings where
  /-- The address to listen on. -/
  listen : String
  /-- The file of the configuration. -/
  config : String
deriving DecidableEq, Repr

/-- The settings when nothing is said. -/
def Settings.default : Settings := ⟨"0.0.0.0:8080", "search.json"⟩

/-- Why arguments do not start the service. -/
inductive ArgumentError where
  /-- An argument means nothing. -/
  | unknownArgument : ArgumentError
  /-- An option has no value, or an empty one where that makes no sense. -/
  | invalidValue : ArgumentError
  /-- An option is given twice. -/
  | argumentConflict : ArgumentError
  /-- Help is asked for. -/
  | displayHelp : ArgumentError
  /-- A value is given to an option that takes none. -/
  | tooManyValues : ArgumentError
deriving DecidableEq, Repr

/-- An option with a value. -/
inductive Setting where
  /-- The address to listen on. -/
  | listen : Setting
  /-- The file of the configuration. -/
  | config : Setting
deriving DecidableEq, Repr

/-- What an argument that begins with a hyphen names. -/
inductive Flag where
  /-- An option with a value. -/
  | setting (s : Setting) : Flag
  /-- The request for help. -/
  | help : Flag
deriving DecidableEq, Repr

/-- An argument, taken by itself. -/
inductive Argument where
  /-- The mark after which no options follow. -/
  | separator : Argument
  /-- An option, with the value that stands in the same argument. -/
  | flag (f : Flag) (value : Option String) : Argument
  /-- Something that begins like an option and names none. -/
  | unknownFlag : Argument
  /-- Anything else. -/
  | plain (s : String) : Argument
deriving DecidableEq, Repr

namespace Argument

/-- The option with a long name. -/
def long? (name : List Char) : Option Flag :=
  match String.ofList name with
  | "listen" => some (.setting .listen)
  | "config" => some (.setting .config)
  | "help" => some .help
  | _ => none

/-- The option with a short name. -/
def short? : Char → Option Flag
  | 'l' => some (.setting .listen)
  | 'c' => some (.setting .config)
  | 'h' => some .help
  | _ => none

/-- The value after a short name in one argument; an equals sign before it is not part of it. -/
def attached : List Char → Option String
  | [] => none
  | '=' :: cs => some (String.ofList cs)
  | cs => some (String.ofList cs)

/-- The value after a long name in one argument. -/
def assigned : List Char → Option String
  | [] => none
  | _ :: cs => some (String.ofList cs)

/-- An argument, taken by itself. Short names may be run together; help, which takes no value,
does not look at what follows it. -/
def ofChars : List Char → Argument
  | ['-', '-'] => separator
  | '-' :: '-' :: cs =>
    match long? (cs.takeWhile fun c => c ≠ '=') with
    | none => unknownFlag
    | some f => flag f (assigned (cs.dropWhile fun c => c ≠ '='))
  | '-' :: c :: cs =>
    match short? c with
    | none => unknownFlag
    | some .help => flag .help none
    | some f => flag f (attached cs)
  | cs => plain (String.ofList cs)

end Argument

/-- The options read so far. -/
structure Progress where
  /-- The address to listen on, if it has been settled. -/
  listen : Option String
  /-- The file of the configuration, if it has been settled. -/
  config : Option String
  /-- The option that is pending, with its value if that has been read. -/
  pending : Option (Setting × Option String)

namespace Progress

/-- Nothing read. -/
def initial : Progress := ⟨none, none, none⟩

/-- The value of an option that has been settled. -/
def value? (p : Progress) : Setting → Option String
  | .listen => p.listen
  | .config => p.config

/-- Notes the value of an option. -/
def put (p : Progress) (value : String) : Setting → Progress
  | .listen => { p with listen := some value }
  | .config => { p with config := some value }

/-- Settles an option with its value. A file has to have a name. -/
def record (p : Progress) (s : Setting) (value : String) : Except ArgumentError Progress :=
  if (p.value? s).isSome then .error .argumentConflict
  else if s = .config ∧ value = "" then .error .invalidValue
  else .ok (p.put value s)

/-- Settles the option that is pending. -/
def settle (p : Progress) : Except ArgumentError Progress :=
  match p.pending with
  | none => .ok p
  | some (_, none) => .error .invalidValue
  | some (s, some value) => { p with pending := none }.record s value

/-- One argument read. -/
def step (p : Progress) : Argument → Except ArgumentError Progress
  | .separator => .ok p
  | .unknownFlag => .error .unknownArgument
  | .flag .help (some _) => .error .tooManyValues
  | .flag .help none =>
    match p.settle with
    | .error e => .error e
    | .ok _ => .error .displayHelp
  | .flag (.setting s) value =>
    match p.settle with
    | .error e => .error e
    | .ok p =>
      match value with
      | none => .ok { p with pending := some (s, none) }
      | some value => p.record s value
  | .plain value =>
    match p.pending with
    | some (s, none) => .ok { p with pending := some (s, some value) }
    | _ => .error .unknownArgument

/-- The settings that have been read, with defaults for what has not. -/
def settings (p : Progress) : Settings where
  listen := p.listen.getD Settings.default.listen
  config := p.config.getD Settings.default.config

/-- The arguments read one after another; nothing may follow the separator. -/
def run : Progress → List String → Except ArgumentError Progress
  | p, [] => p.settle
  | p, a :: as =>
    match Argument.ofChars a.toList with
    | .separator => if as.isEmpty then p.settle else .error .unknownArgument
    | argument =>
      match p.step argument with
      | .error e => .error e
      | .ok p => p.run as

end Progress

/-- **The settings that the arguments ask for**; the name of the program is not among them. -/
def Settings.ofArguments (arguments : List String) : Except ArgumentError Settings :=
  (Progress.initial.run arguments).map Progress.settings

end Gateway

end DottedQuery
