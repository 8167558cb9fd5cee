import Dataflow.Compile.Session
import Dataflow.Text.Word

/-! # Arguments of the command line

`compile --spec FILE` compiles a specification; `--instantiate OP=N` asks for copies of the nested
specifications of an operator, and may be given several times; `--max-subflow-depth` limits how
deep copies nest, and `--compact` prints the report on one line.  The value of an option follows
it as the next argument or after an equals sign.

Arguments are read from left to right, and the first fault is reported.  A value that follows its
option is checked only when the next option or the end is reached, so an unknown argument just
after it is reported first. -/

namespace Dataflow.CommandLine

/-- An option with a value. -/
inductive ValueOption where
  | spec
  | instantiate
  | maxSubflowDepth
deriving DecidableEq, Repr

/-- How an option and its value are shown in a message. -/
def ValueOption.usage : ValueOption → String
  | .spec => "--spec <SPEC>"
  | .instantiate => "--instantiate <OP=N>"
  | .maxSubflowDepth => "--max-subflow-depth <MAX_SUBFLOW_DEPTH>"

/-- An option without a value. -/
inductive Switch where
  | compact
  | help
deriving DecidableEq, Repr

/-- Why a value does not suit its option. -/
inductive ValueError where
  /-- The value has no equals sign. -/
  | noCount (value : String)
  /-- Nothing stands before the equals sign. -/
  | noOperator (value : String)
  /-- What stands after the equals sign is not a number. -/
  | badCount (value : String) (source : Text.WordError)
  /-- The value is not a number. -/
  | badNumber (source : Text.WordError)
deriving DecidableEq, Repr

/-- The wording of an error. -/
def ValueError.message : ValueError → String
  | .noCount value => s!"expected OP=N, got '{value}'"
  | .noOperator value => s!"missing operator id in '{value}'"
  | .badCount value source => s!"invalid instance count in '{value}': {source.message}"
  | .badNumber source => source.message

/-- Why arguments are refused. -/
inductive UsageError where
  | noCommand
  | unknownCommand (name : String)
  | unexpected (argument : String)
  /-- An option has no value, or an empty one where that makes no sense. -/
  | missingValue (option : ValueOption)
  /-- A switch has a value. -/
  | spareValue (switch : String)
  /-- What may be given once is given again. -/
  | repeated (option : String)
  | missingSpec
  | invalidValue (option : ValueOption) (value : String) (source : ValueError)
deriving DecidableEq, Repr

/-- The wording of an error. -/
def UsageError.message : UsageError → String
  | .noCommand => "error: expected a command"
  | .unknownCommand name => s!"error: unrecognized command '{name}'"
  | .unexpected argument => s!"error: unexpected argument '{argument}'"
  | .missingValue option => s!"error: a value is required for '{option.usage}'"
  | .spareValue switch => s!"error: unexpected value for '{switch}'"
  | .repeated option => s!"error: '{option}' cannot be used multiple times"
  | .missingSpec => s!"error: '{ValueOption.spec.usage}' is required"
  | .invalidValue option value source =>
    s!"error: invalid value '{value}' for '{option.usage}': {source.message}"

/-- What is known of a compilation while its arguments are read. -/
structure Draft where
  spec : Option String
  /-- The operators to copy nested specifications of, each with the number of copies. -/
  instances : List (String × Nat)
  depthLimit : Option Nat
  compact : Bool
deriving DecidableEq, Repr

/-- What to compile, and how. -/
structure Options where
  spec : String
  /-- The operators to copy nested specifications of, each with the number of copies. -/
  instances : List (String × Nat)
  depthLimit : Nat
  compact : Bool
deriving DecidableEq, Repr

/-- What the arguments ask for. -/
inductive Command where
  | help
  | compile (options : Options)
deriving DecidableEq, Repr

/-! ## Values -/

/-- Reads `OP=N`; the operator ends at the first equals sign. -/
def readInstances (value : String) : Except ValueError (String × Nat) :=
  let cs := value.toList
  match cs.dropWhile (· != '=') with
  | [] => .error (.noCount value)
  | _ :: count =>
    match cs.takeWhile (· != '=') with
    | [] => .error (.noOperator value)
    | operator =>
      match Text.readWord count with
      | .ok n => .ok (String.ofList operator, n)
      | .error e => .error (.badCount value e)

namespace Draft

/-- The draft before the first argument. -/
def empty : Draft := ⟨none, [], none, false⟩

/-- Takes the value of an option. -/
def assign (d : Draft) (option : ValueOption) (value : String) : Except UsageError Draft :=
  match option with
  | .spec =>
    if d.spec.isSome then .error (.repeated option.usage)
    else if value.isEmpty then .error (.missingValue option)
    else .ok { d with spec := some value }
  | .instantiate =>
    match readInstances value with
    | .ok wanted => .ok { d with instances := d.instances ++ [wanted] }
    | .error e => .error (.invalidValue option value e)
  | .maxSubflowDepth =>
    if d.depthLimit.isSome then .error (.repeated option.usage)
    else
      match Text.readWord value.toList with
      | .ok n => .ok { d with depthLimit := some n }
      | .error e => .error (.invalidValue option value (.badNumber e))

/-- An option that has been met, with its value if that has been met too. -/
abbrev Pending := Option (ValueOption × Option String)

/-- Takes the option that is pending. -/
def settle (d : Draft) : Pending → Except UsageError Draft
  | none => .ok d
  | some (option, none) => .error (.missingValue option)
  | some (option, some value) => d.assign option value

/-- The options, once all arguments are read. -/
def finish (d : Draft) : Except UsageError Options :=
  match d.spec with
  | none => .error .missingSpec
  | some spec => .ok ⟨spec, d.instances, d.depthLimit.getD Session.standardLimit, d.compact⟩

end Draft

/-! ## Arguments -/

/-- The form of one argument. -/
inductive Argument where
  /-- Two dashes alone: only plain arguments follow. -/
  | escape
  /-- Two dashes and a name, perhaps with a value. -/
  | long (name : String) (value : Option String)
  /-- A dash and a letter, perhaps with a value. -/
  | short (letter : Char) (value : Option String)
  | plain
deriving DecidableEq, Repr

/-- The value after a letter: none when nothing follows, and without the equals sign if there is
one. -/
def letterValue : List Char → Option String
  | [] => none
  | '=' :: rest => some (String.ofList rest)
  | rest => some (String.ofList rest)

/-- The value after a name: what stands after the equals sign. -/
def nameValue : List Char → Option String
  | [] => none
  | _ :: rest => some (String.ofList rest)

/-- The form of an argument. -/
def Argument.ofText (text : String) : Argument :=
  match text.toList with
  | ['-', '-'] => .escape
  | '-' :: '-' :: cs =>
    .long (String.ofList (cs.takeWhile (· != '='))) (nameValue (cs.dropWhile (· != '=')))
  | '-' :: c :: cs => .short c (letterValue cs)
  | _ => .plain

/-- The options by their long names. -/
def longNames : List (String × (ValueOption ⊕ Switch)) := [
  ("spec", .inl .spec), ("instantiate", .inl .instantiate),
  ("max-subflow-depth", .inl .maxSubflowDepth), ("compact", .inr .compact), ("help", .inr .help)]

/-- The options by their letters. -/
def letters : List (Char × (ValueOption ⊕ Switch)) := [
  ('s', .inl .spec), ('i', .inl .instantiate), ('h', .inr .help)]

/-- Reads the arguments of a compilation. -/
def readCompile (d : Draft) (pending : Draft.Pending) :
    List String → Except UsageError Command
  | [] => do
    let d ← d.settle pending
    return .compile (← d.finish)
  | text :: rest =>
    match Argument.ofText text with
    | .escape =>
      match rest with
      | [] => do
        let d ← d.settle pending
        return .compile (← d.finish)
      | next :: _ => .error (.unexpected next)
    | .plain =>
      match pending with
      | some (option, none) => readCompile d (some (option, some text)) rest
      | _ => .error (.unexpected text)
    | .long name value =>
      match longNames.lookup name with
      | none => .error (.unexpected text)
      | some (.inr .help) =>
        if value.isSome then .error (.spareValue text) else (d.settle pending).map fun _ => .help
      | some (.inr .compact) =>
        if value.isSome then .error (.spareValue text)
        else do
          let d ← d.settle pending
          if d.compact then throw (.repeated text)
          readCompile { d with compact := true } none rest
      | some (.inl option) => do
        let d ← d.settle pending
        match value with
        | some value => readCompile (← d.assign option value) none rest
        | none => readCompile d (some (option, none)) rest
    | .short letter value =>
      match letters.lookup letter with
      | none => .error (.unexpected text)
      | some (.inr _) => (d.settle pending).map fun _ => .help
      | some (.inl option) => do
        let d ← d.settle pending
        match value with
        | some value => readCompile (← d.assign option value) none rest
        | none => readCompile d (some (option, none)) rest

/-- Reads the names of commands that help is asked for. -/
def readHelp : List String → Except UsageError Command
  | [] => .ok .help
  | [name] => if name ∈ ["compile", "help"] then .ok .help else .error (.unknownCommand name)
  | name :: next :: _ =>
    if name ∈ ["compile", "help"] then .error (.unknownCommand next)
    else .error (.unknownCommand name)

/-- Reads all arguments. -/
def Command.ofArguments : List String → Except UsageError Command
  | [] => .error .noCommand
  | "compile" :: rest => readCompile .empty none rest
  | "help" :: names => readHelp names
  | text :: _ =>
    match Argument.ofText text with
    | .long "help" none => .ok .help
    | .short 'h' _ => .ok .help
    | .plain => .error (.unknownCommand text)
    | _ => .error (.unexpected text)

end Dataflow.CommandLine
