import DocLint.Text.Search

/-!
# Command line arguments

The arguments of the two commands. Words are read from left to right; an
option that takes a value waits for it and is settled by the next option or by
the end. The first fault that is met is the one that is told.
-/

set_option autoImplicit false

namespace DocLint

inductive UsageError where
  | unknownArgument
  | argumentConflict
  | invalidValue
  | valueValidation
  | tooManyValues
  | invalidSubcommand
  | missingSubcommand
  | displayHelp
  | displayVersion
  | displayHelpOnMissing
  deriving DecidableEq, Repr

structure CheckArguments where
  settingsPath : Option String := none
  format : String := "pretty"
  base : Option String := none
  staged : Bool := false
  context : Option Nat := none
  paths : List String := []
  deriving DecidableEq, Repr

structure InitArguments where
  output : String := "docguard.yaml"
  force : Bool := false
  deriving DecidableEq, Repr

inductive Command where
  | check (args : CheckArguments)
  | init (args : InitArguments)
  deriving DecidableEq, Repr

structure Invocation where
  verbosity : Nat
  command : Command
  deriving DecidableEq, Repr

namespace Arguments

inductive Flag where
  | verbose
  | help
  | version
  | config
  | format
  | base
  | staged
  | context
  | all
  | output
  | force
  deriving DecidableEq, Repr

namespace Flag

def long : Flag → String
  | .verbose => "verbose"
  | .help => "help"
  | .version => "version"
  | .config => "config"
  | .format => "format"
  | .base => "base"
  | .staged => "staged"
  | .context => "context"
  | .all => "all"
  | .output => "output"
  | .force => "force"

def short? : Flag → Option Char
  | .verbose => some 'v'
  | .help => some 'h'
  | .version => some 'V'
  | .config => some 'c'
  | .format => some 'f'
  | .output => some 'o'
  | _ => none

def takesValue : Flag → Bool
  | .config | .format | .base | .context | .all | .output => true
  | _ => false

def isList : Flag → Bool
  | .all => true
  | _ => false

def isPath : Flag → Bool
  | .config | .all | .output => true
  | _ => false

end Flag

def topFlags : List Flag := [.verbose, .help, .version]

def checkFlags : List Flag :=
  [.config, .format, .base, .staged, .context, .all, .verbose, .help]

def initFlags : List Flag := [.output, .force, .verbose, .help]

def number? (text : String) : Option Nat :=
  let cs := text.toList
  let digits := match cs with
    | '+' :: rest => rest
    | _ => cs
  if digits.isEmpty || !digits.all Char.isDigit then none
  else
    let n := digits.foldl (fun n d => 10 * n + (d.toNat - 48)) 0
    if n < UInt64.size then some n else none

/-- What is settled so far, and the option that waits for values. -/
structure Reading where
  given : List (Flag × List String) := []
  verbose : Nat := 0
  waiting : Option (Flag × List String) := none

namespace Reading

def has (r : Reading) (f : Flag) : Bool := r.given.any fun g => g.1 == f

def values (r : Reading) (f : Flag) : List String :=
  (r.given.filter fun g => g.1 == f).flatMap (·.2)

def verbosityLimit : Nat := 255

def valueError? (f : Flag) (value : String) : Option UsageError :=
  if f.isPath && value.isEmpty then some .invalidValue
  else if f == .context && (number? value).isNone then some .valueValidation
  else none

def give (r : Reading) (f : Flag) (values : List String) : Except UsageError Reading :=
  match f with
  | .help => .error .displayHelp
  | .version => .error .displayVersion
  | .verbose => .ok { r with verbose := min (r.verbose + 1) verbosityLimit }
  | _ =>
    if f.takesValue && values.isEmpty then .error .invalidValue
    else if !f.isList && r.has f then .error .argumentConflict
    else match values.findSome? (valueError? f) with
      | some e => .error e
      | none => .ok { r with given := r.given ++ [(f, values)] }

def settle (r : Reading) : Except UsageError Reading :=
  match r.waiting with
  | none => .ok r
  | some (f, values) => { r with waiting := none }.give f values

def complete (r : Reading) (f : Flag) (values : List String) : Except UsageError Reading :=
  match r.settle with
  | .ok r' => r'.give f values
  | .error e => .error e

def await (r : Reading) (f : Flag) : Except UsageError Reading :=
  r.settle.map fun r' => { r' with waiting := some (f, []) }

def wantsValue (r : Reading) : Bool :=
  match r.waiting with
  | some (f, values) => f.isList || values.isEmpty
  | none => false

def takeValue (r : Reading) (word : String) : Reading :=
  match r.waiting with
  | some (f, values) => { r with waiting := some (f, values ++ [word]) }
  | none => r

def long (flags : List Flag) (r : Reading) (body : List Char) : Except UsageError Reading :=
  let (name, value) := match Text.cutAt '=' body with
    | some (name, value) => (name, some (String.ofList value))
    | none => (body, none)
  match flags.find? fun f => f.long.toList == name with
  | none => .error .unknownArgument
  | some f =>
    match f.takesValue, value with
    | true, some v => r.complete f [v]
    | true, none => r.await f
    | false, some _ => .error .tooManyValues
    | false, none => r.complete f []

/-- Reads the letters behind one dash. An option that takes a value takes the rest of the word,
perhaps behind an equals sign. -/
def short (flags : List Flag) : Reading → List Char → Except UsageError Reading
  | r, [] => .ok r
  | r, c :: rest =>
    match flags.find? fun f => f.short? == some c with
    | none => .error .unknownArgument
    | some f =>
      if f.takesValue then
        match rest with
        | [] => r.await f
        | '=' :: value => r.complete f [String.ofList value]
        | value => r.complete f [String.ofList value]
      else match r.complete f [] with
        | .ok r' => short flags r' rest
        | .error e => .error e

end Reading

inductive Word where
  | escape
  | long (body : List Char)
  | short (letters : List Char)
  | plain
  deriving DecidableEq, Repr

def Word.ofText (word : String) : Word :=
  match word.toList with
  | ['-', '-'] => .escape
  | '-' :: '-' :: body => .long body
  | ['-'] => .plain
  | '-' :: letters => .short letters
  | _ => .plain

/-- Reads the words of a command. Behind two dashes only plain arguments may stand, and the
commands have none. -/
def readCommand (flags : List Flag) : Reading → List String → Except UsageError Reading
  | r, [] => r.settle
  | r, word :: rest =>
    match Word.ofText word with
    | .escape => if rest.isEmpty then r.settle else .error .unknownArgument
    | .long body => match r.long flags body with
      | .ok r' => readCommand flags r' rest
      | .error e => .error e
    | .short letters => match r.short flags letters with
      | .ok r' => readCommand flags r' rest
      | .error e => .error e
    | .plain =>
      if r.wantsValue then readCommand flags (r.takeValue word) rest
      else .error .unknownArgument

def readCheck (words : List String) : Except UsageError (CheckArguments × Nat) :=
  match readCommand checkFlags {} words with
  | .error e => .error e
  | .ok r =>
    if r.has .base && r.has .staged then .error .argumentConflict
    else .ok ({ settingsPath := (r.values .config).head?
                format := (r.values .format).headD "pretty"
                base := (r.values .base).head?
                staged := r.has .staged
                context := (r.values .context).head?.bind number?
                paths := r.values .all }, r.verbose)

def readInit (words : List String) : Except UsageError (InitArguments × Nat) :=
  (readCommand initFlags {} words).map fun r =>
    ({ output := (r.values .output).headD "docguard.yaml", force := r.has .force }, r.verbose)

inductive CommandName where
  | check
  | init
  | help
  deriving DecidableEq, Repr

def CommandName.ofText? : String → Option CommandName
  | "check" | "lint" => some .check
  | "init" => some .init
  | "help" => some .help
  | _ => none

def readHelp : List String → UsageError
  | [] => .displayHelp
  | [word] => if (CommandName.ofText? word).isSome then .displayHelp else .invalidSubcommand
  | _ => .invalidSubcommand

def verbosity (before behind : Nat) : Nat := if behind == 0 then before else behind

def noCommand (r : Reading) : UsageError :=
  if r.verbose == 0 then .displayHelpOnMissing else .missingSubcommand

def readTop : Reading → List String → Except UsageError Invocation
  | r, [] => .error (noCommand r)
  | r, word :: rest =>
    match CommandName.ofText? word with
    | some .help => .error (readHelp rest)
    | some .check => (readCheck rest).map fun c => ⟨verbosity r.verbose c.2, .check c.1⟩
    | some .init => (readInit rest).map fun c => ⟨verbosity r.verbose c.2, .init c.1⟩
    | none =>
      match Word.ofText word with
      | .escape => match rest with
        | [] => .error (noCommand r)
        | word :: _ => .error
          (if (CommandName.ofText? word).isSome then .unknownArgument else .invalidSubcommand)
      | .long body => match r.long topFlags body with
        | .ok r' => readTop r' rest
        | .error e => .error e
      | .short letters => match r.short topFlags letters with
        | .ok r' => readTop r' rest
        | .error e => .error e
      | .plain => .error .invalidSubcommand

end Arguments

def Invocation.parse (words : List String) : Except UsageError Invocation :=
  Arguments.readTop {} words

end DocLint
