import Fieldmap.FieldType

/-!
# Options

The arguments of a run are flags and settings. A setting has a value, either in the
same argument or in the next one. Arguments are read from left to right and refused
at the first fault; only then are the options checked against each other.
-/

namespace Fieldmap.CommandLine

/-- An option without a value. -/
inductive Flag where
  | specify
  | dumpModel
  | verbose
  | help
  deriving DecidableEq, Repr

/-- An option with a value. -/
inductive Setting where
  | spec
  | format
  | override
  | output
  deriving DecidableEq, Repr

/-- An option that an argument can name. -/
inductive OptionName where
  | flag (flag : Flag)
  | setting (setting : Setting)
  deriving DecidableEq, Repr

namespace OptionName

/-- The option with a long name. -/
def ofLong? (name : String) : Option OptionName :=
  match name with
  | "specify" => some (.flag .specify)
  | "dump-model" => some (.flag .dumpModel)
  | "verbose" => some (.flag .verbose)
  | "help" => some (.flag .help)
  | "spec" => some (.setting .spec)
  | "format" => some (.setting .format)
  | "override" => some (.setting .override)
  | "output" => some (.setting .output)
  | _ => none

/-- The option with a letter. -/
def ofShort? (letter : Char) : Option OptionName :=
  match letter with
  | 'g' => some (.flag .specify)
  | 'v' => some (.flag .verbose)
  | 'h' => some (.flag .help)
  | 's' => some (.setting .spec)
  | 'f' => some (.setting .format)
  | 'o' => some (.setting .output)
  | _ => none

end OptionName

/-- Why arguments do not lead to a run. -/
inductive Refusal where
  /-- Help was asked for. -/
  | help
  | unknownOption (argument : String)
  | unexpectedArgument (argument : String)
  | missingValue (setting : Setting)
  | unexpectedValue (flag : Flag)
  | repeatedFlag (flag : Flag)
  | repeatedSetting (setting : Setting)
  | invalidOverride (value : String)
  /-- Two options exclude each other. -/
  | conflict
  /-- An option needs another one. -/
  | incomplete
  deriving DecidableEq, Repr

/-- What a run is to do. -/
structure Options where
  /-- Write a fieldmap for a dump format instead of tables for a specification. -/
  specify : Bool
  /-- Dump the records instead of generating tables. -/
  dumpModel : Bool
  verbose : Bool
  spec : Option String
  format : Option String
  output : Option String
  /-- The overrides in the order in which they were given. -/
  overrides : List (String × FieldType)
  deriving DecidableEq, Repr

namespace Options

/-- No option is given. -/
def empty : Options := ⟨false, false, false, none, none, none, []⟩

/-- The options with one flag more. No flag may be given twice. -/
def raise (options : Options) (flag : Flag) : Except Refusal Options :=
  match flag with
  | .specify =>
      if options.specify then .error (.repeatedFlag flag)
      else .ok { options with specify := true }
  | .dumpModel =>
      if options.dumpModel then .error (.repeatedFlag flag)
      else .ok { options with dumpModel := true }
  | .verbose =>
      if options.verbose then .error (.repeatedFlag flag)
      else .ok { options with verbose := true }
  | .help => .error .help

/-- The name and the type in the value of an override, around its first equals sign. -/
def overrideOf? (value : List Char) : Option (String × FieldType) :=
  if '=' ∈ value then
    (FieldType.ofName? (String.ofList ((value.dropWhile (· != '=')).drop 1))).map fun type =>
      (String.ofList (value.takeWhile (· != '=')), type)
  else none

/-- A path that is given for the first time and is not empty. -/
def path (setting : Setting) (given : Option String) (value : List Char) :
    Except Refusal (Option String) :=
  if value = [] then .error (.missingValue setting)
  else if given.isSome then .error (.repeatedSetting setting)
  else .ok (some (String.ofList value))

/-- The options with one setting more. Only overrides may be given repeatedly. -/
def set (options : Options) (setting : Setting) (value : List Char) :
    Except Refusal Options :=
  match setting with
  | .spec => do return { options with spec := ← path setting options.spec value }
  | .format => do return { options with format := ← path setting options.format value }
  | .output => do return { options with output := ← path setting options.output value }
  | .override =>
      match overrideOf? value with
      | none => .error (.invalidOverride (String.ofList value))
      | some entry => .ok { options with overrides := options.overrides ++ [entry] }

/-- The options behind the letters of one argument, and the setting that still needs
its value. What follows the letter of a setting is its value, behind an equals sign
or not. -/
def letters (argument : String) (options : Options) :
    List Char → Except Refusal (Options × Option Setting)
  | [] => .ok (options, none)
  | letter :: rest =>
      match OptionName.ofShort? letter with
      | none => .error (.unknownOption argument)
      | some (.flag flag) => do
          letters argument (← options.raise flag) rest
      | some (.setting setting) =>
          match rest with
          | [] => .ok (options, some setting)
          | '=' :: value => do return (← options.set setting value, none)
          | value => do return (← options.set setting value, none)

/-- The options behind an argument with a long name. -/
def long (argument : String) (options : Options) (text : List Char) :
    Except Refusal (Options × Option Setting) :=
  let name := String.ofList (text.takeWhile (· != '='))
  match OptionName.ofLong? name, text.dropWhile (· != '=') with
  | none, _ => .error (.unknownOption argument)
  | some (.flag flag), [] => do return (← options.raise flag, none)
  | some (.flag flag), _ :: _ => .error (.unexpectedValue flag)
  | some (.setting setting), [] => .ok (options, some setting)
  | some (.setting setting), _ :: value => do return (← options.set setting value, none)

/-- The options behind one argument, and the setting that still needs its value. -/
def argument (options : Options) (argument : String) :
    Except Refusal (Options × Option Setting) :=
  match argument.toList with
  | '-' :: '-' :: text => options.long argument text
  | '-' :: first :: rest => options.letters argument (first :: rest)
  | _ => .error (.unexpectedArgument argument)

/-- Whether an argument can be the value of the setting before it. A lone minus sign
can, but nothing else that looks like an option. -/
def isValue (argument : String) : Bool :=
  argument == "-" || argument.toList.head? != some '-'

/-- The options behind all arguments. Nothing may follow a double minus sign. -/
def readAll (options : Options) : List String → Except Refusal Options
  | [] => .ok options
  | argument :: rest =>
      if argument = "--" then
        match rest with
        | [] => .ok options
        | extra :: _ => .error (.unexpectedArgument extra)
      else
        match options.argument argument with
        | .error refusal => .error refusal
        | .ok (options, none) => options.readAll rest
        | .ok (options, some setting) =>
            match rest with
            | [] => .error (.missingValue setting)
            | value :: rest =>
                if isValue value then
                  match options.set setting value.toList with
                  | .error refusal => .error refusal
                  | .ok options => options.readAll rest
                else .error (.missingValue setting)

/-- Whether an option is given that makes no sense together with a dump format. -/
def forSpec (options : Options) : Bool :=
  options.spec.isSome || options.dumpModel

/-- Whether an option is given that makes sense only together with a dump format. -/
def forFormat (options : Options) : Bool :=
  options.format.isSome || !options.overrides.isEmpty

/-- Check the options against each other. Options for dump formats are let pass, and
have no effect, beside options for specifications. -/
def check (options : Options) : Except Refusal Options :=
  if options.specify && options.forSpec then .error .conflict
  else if options.forFormat && !options.specify && !options.forSpec then .error .incomplete
  else .ok options

/-- The options that some arguments give. -/
def ofArguments (arguments : List String) : Except Refusal Options := do
  (← empty.readAll arguments).check

end Options

end Fieldmap.CommandLine
