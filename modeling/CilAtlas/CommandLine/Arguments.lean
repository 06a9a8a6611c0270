import CilAtlas.Text.Basic

/-!
# Options on a command line

A long option takes its value after an equals sign or from the next argument; a
short one from the rest of its argument or from the next one, and short flags
can stand together.  Two dashes alone end the options.  Names are never
abbreviated.
-/

namespace CilAtlas
namespace CommandLine

/-- An option with its names, and whether a value belongs to it. -/
structure OptionSpec (κ : Type) where
  key : κ
  names : List String
  takesValue : Bool

/-- Why a command line cannot be used. -/
inductive UsageError where
  | noSuchOption (name : Text)
  | noSuchCommand (name : Text)
  | valueMissing (name : Text)
  | valueNotAllowed (name : Text)
  | unexpectedArgument (value : Text)
  | invalidValue (name : String) (value : Text)
  | optionMissing (name : String)
deriving DecidableEq

/-- The wording of each error. -/
def UsageError.message : UsageError → Text
  | noSuchOption name => lit "No such option: " ++ name
  | noSuchCommand name => lit "No such command '" ++ name ++ lit "'."
  | valueMissing name => lit "Option '" ++ name ++ lit "' requires an argument."
  | valueNotAllowed name => lit "Option '" ++ name ++ lit "' does not take a value."
  | unexpectedArgument value => lit "Got unexpected extra argument (" ++ value ++ lit ")"
  | invalidValue name value =>
    lit "Invalid value for '" ++ lit name ++ lit "': '" ++ value ++ lit "'."
  | optionMissing name => lit "Missing option '" ++ lit name ++ lit "'."

/-- The options given, in order, and the arguments that are none. -/
structure Parsed (κ : Type) where
  options : List (κ × Text)
  rest : List Text

namespace Parsed

variable {κ : Type} [DecidableEq κ]

/-- Whether an option is given. -/
def has (parsed : Parsed κ) (key : κ) : Bool :=
  parsed.options.any (·.1 = key)

/-- All values of an option. -/
def values (parsed : Parsed κ) (key : κ) : List Text :=
  (parsed.options.filter (·.1 = key)).map (·.2)

/-- The value of an option; the last one given counts. -/
def value? (parsed : Parsed κ) (key : κ) : Option Text :=
  (parsed.values key).getLast?

end Parsed

variable {κ : Type}

/-- The option with the given name. -/
def specOf? (specs : List (OptionSpec κ)) (name : Text) : Option (OptionSpec κ) :=
  specs.find? fun spec => spec.names.any fun known => lit known = name

/-- Splits an argument at its first equals sign. -/
def splitValue (arg : Text) : Text × Option Text :=
  let name := arg.takeWhile (· ≠ CodePoint.ofChar '=')
  match arg.drop name.length with
  | [] => (name, none)
  | _ :: value => (name, some value)

/-- The short options that stand together in one argument, and the option at its
end that still needs a value. -/
def shortOptions (specs : List (OptionSpec κ)) :
    Text → Except UsageError (List (κ × Text) × Option κ)
  | [] => .ok ([], none)
  | c :: rest =>
    let name : Text := [CodePoint.ofChar '-', c]
    match specOf? specs name with
    | none => .error (.noSuchOption name)
    | some spec =>
      if spec.takesValue then
        .ok (if rest.isEmpty then ([], some spec.key) else ([(spec.key, rest)], none))
      else do
        let (others, pending) ← shortOptions specs rest
        return ((spec.key, []) :: others, pending)

/-- The options that one argument gives, and the one that still needs a value. -/
def optionsOf (specs : List (OptionSpec κ)) (arg : Text) :
    Except UsageError (List (κ × Text) × Option κ) :=
  let (name, value?) := splitValue arg
  let isLong := (Text.after? (lit "--") arg).isSome
  match if isLong then specOf? specs name else none with
  | some spec =>
    match spec.takesValue, value? with
    | true, some value => .ok ([(spec.key, value)], none)
    | true, none => .ok ([], some spec.key)
    | false, some _ => .error (.valueNotAllowed name)
    | false, none => .ok ([(spec.key, [])], none)
  | none => if isLong then .error (.noSuchOption name) else shortOptions specs (arg.drop 1)

/-- Whether an argument gives options. -/
def isOption (arg : Text) : Bool :=
  match arg with
  | c :: _ :: _ => c = CodePoint.ofChar '-'
  | _ => false

/-- Takes the options out of a command line.  When `mixed` is false, the first
argument that is no option ends them. -/
def parse (specs : List (OptionSpec κ)) (mixed : Bool) :
    List Text → Except UsageError (Parsed κ)
  | [] => .ok ⟨[], []⟩
  | arg :: args =>
    if arg = lit "--" then .ok ⟨[], args⟩
    else if isOption arg then
      match optionsOf specs arg with
      | .error e => .error e
      | .ok (given, none) => do
        let parsed ← parse specs mixed args
        return { parsed with options := given ++ parsed.options }
      | .ok (given, some pending) =>
        match args with
        | [] => .error (.valueMissing arg)
        | value :: args => do
          let parsed ← parse specs mixed args
          return { parsed with options := given ++ (pending, value) :: parsed.options }
    else if mixed then do
      let parsed ← parse specs mixed args
      return { parsed with rest := arg :: parsed.rest }
    else .ok ⟨[], arg :: args⟩
termination_by args => args.length

end CommandLine
end CilAtlas
