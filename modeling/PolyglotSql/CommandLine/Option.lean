import PolyglotSql.Text.Basic

/-!
# PolyglotSql.CommandLine.Option

Reading the options of a command. An option is written with two hyphens and its name, or with one
hyphen and its letter; letters of flags may share a hyphen. A value follows its option as the next
argument, unless that begins with a hyphen, or directly: behind an equals sign, or behind the letter.
Behind `--` there are no options.

A value that follows as an argument of its own is looked at only when the next option begins or the
arguments end, so that a mistake in between is noticed first.
-/

namespace PolyglotSql

/-- Why arguments are no command, or what they ask for in place of one. -/
inductive UsageFault where
  | helpWanted
  | versionWanted
  /-- There are no arguments at all. -/
  | nothingStated
  | missingSubcommand
  | missingArgument
  /-- A value is missing, or none of those that an option takes. -/
  | invalidValue
  /-- A value that stands for nothing. -/
  | refusedValue
  | repeatedOption
  | unknownArgument
  /-- A flag with a value. -/
  | tooManyValues
  | unknownSubcommand
deriving DecidableEq, Inhabited

inductive OptionKind where
  /-- It takes a value, which may be refused. -/
  | value (refused? : String → Option UsageFault)
  | flag
  | help
  | version

structure OptionForm where
  name : String
  letter : Option Char
  kind : OptionKind

/-- A command with its options and the subcommands that may follow them. -/
structure CommandForm where
  options : List OptionForm
  subcommands : List String

namespace CommandForm

def named? (c : CommandForm) (name : String) : Option OptionForm :=
  c.options.find? (·.name == name)

def lettered? (c : CommandForm) (letter : Char) : Option OptionForm :=
  c.options.find? (·.letter == some letter)

end CommandForm

/-- Options as they have been read so far. -/
structure OptionReading where
  /-- Names of options with their values; a flag has an empty value. -/
  found : List (String × String)
  /-- An option whose value is still to be looked at, or to come. -/
  pending : Option (OptionForm × Option String)

namespace OptionReading

def empty : OptionReading :=
  { found := [], pending := none }

def value? (r : OptionReading) (name : String) : Option String :=
  (r.found.find? (·.1 == name)).map (·.2)

def isSet (r : OptionReading) (name : String) : Bool :=
  (r.value? name).isSome

/-- Adds an option, which must not have been there. -/
def add (r : OptionReading) (name value : String) (refused : Option UsageFault) :
    Except UsageFault OptionReading :=
  if r.isSet name then .error .repeatedOption
  else match refused with
    | some fault => .error fault
    | none => .ok { r with found := r.found ++ [(name, value)] }

def addValue (r : OptionReading) (o : OptionForm) (value : String) :
    Except UsageFault OptionReading :=
  match o.kind with
  | .value refused? => r.add o.name value (refused? value)
  | _ => r.add o.name value none

/-- Looks at the value that is still to be looked at. -/
def settle (r : OptionReading) : Except UsageFault OptionReading :=
  match r.pending with
  | none => .ok r
  | some (_, none) => .error .invalidValue
  | some (o, some value) => ({ r with pending := none } : OptionReading).addValue o value

/-- Takes up an option that stands without a value directly behind it. -/
def takeBare (r : OptionReading) (o : OptionForm) : Except UsageFault OptionReading := do
  let r ← r.settle
  match o.kind with
  | .value _ => return { r with pending := some (o, none) }
  | .flag => r.add o.name "" none
  | .help => .error .helpWanted
  | .version => .error .versionWanted

/-- Takes up an option with a value directly behind it. -/
def takeAttached (r : OptionReading) (o : OptionForm) (value : String) :
    Except UsageFault OptionReading := do
  let r ← r.settle
  r.addValue o value

/-- Whether the next argument is the value of the last option. -/
def awaitsValue (r : OptionReading) : Bool :=
  match r.pending with
  | some (_, none) => true
  | _ => false

/-- Takes an argument as the value of the last option. -/
def supply (r : OptionReading) (value : String) : OptionReading :=
  { r with pending := r.pending.map fun p => (p.1, some value) }

def readLetters (c : CommandForm) : OptionReading → List Char → Except UsageFault OptionReading
  | r, [] => .ok r
  | r, letter :: rest => do
    match c.lettered? letter with
    | none => .error .unknownArgument
    | some o =>
      match o.kind, rest with
      | .value _, '=' :: value => r.takeAttached o (String.ofList value)
      | .value _, value@(_ :: _) => r.takeAttached o (String.ofList value)
      | _, rest =>
        let r ← r.takeBare o
        readLetters c r rest

def readName (c : CommandForm) (r : OptionReading) (s : List Char) :
    Except UsageFault OptionReading :=
  let (name, rest) := s.span (· ≠ '=')
  match c.named? (String.ofList name), rest with
  | none, _ => .error .unknownArgument
  | some o, [] => r.takeBare o
  | some o, _ :: value =>
    match o.kind with
    | .value _ => r.takeAttached o (String.ofList value)
    | _ => .error .tooManyValues

end OptionReading

namespace CommandForm

/-- What is wrong with an argument that is no option. -/
def misplaced (c : CommandForm) : UsageFault :=
  if c.subcommands.isEmpty then .unknownArgument else .unknownSubcommand

/-- What is wrong with arguments behind `--`, of which there should be none. -/
def readTrailing (c : CommandForm) (r : OptionReading) : List String → Except UsageFault OptionReading
  | [] => .ok r
  | s :: _ => .error (if c.subcommands.contains s then .unknownArgument else c.misplaced)

/-- Reads arguments up to the first subcommand: the options before it, and the subcommand with the
arguments behind it. -/
def read (c : CommandForm) : OptionReading → List String →
    Except UsageFault (OptionReading × Option (String × List String))
  | r, [] => .ok (r, none)
  | r, s :: rest =>
    if !r.awaitsValue && c.subcommands.contains s then .ok (r, some (s, rest))
    else match s.toList with
      | ['-', '-'] => return (← c.readTrailing r rest, none)
      | '-' :: '-' :: name => do read c (← r.readName c name) rest
      | '-' :: letters@(_ :: _) => do read c (← r.readLetters c letters) rest
      | _ => if r.awaitsValue then read c (r.supply s) rest else .error c.misplaced

end CommandForm
end PolyglotSql
