import VectorIcon.Config.Basic
import VectorIcon.Template.Builtin

/-!
# Command lines

Arguments are read from left to right: a word for a command, an option with its value, a flag, or the one
path that the command works on. Of several words for commands, or values for one option, the last holds. The
first argument that does not fit stops the reading.
-/

namespace VectorIcon.Cli

open Text

/-- What the program is asked to do. -/
inductive Command
  | help
  | convert
  | batch
  | info
  | templates
  | version
  deriving Repr, DecidableEq

/-- A command line. -/
structure Arguments where
  command : Command := .help
  input : Option String := none
  output : Option String := none
  name : Option String := none
  template : Option Template.Builtin := none
  configFile : Option FilePath := none
  changes : Config.Changes := {}
  lenient : Bool := false
  json : Bool := false
  dryRun : Bool := false
  overwrite : Bool := false
  namespaceFolders : Bool := true
  deriving Repr, DecidableEq

/-- Why a command line is refused. -/
inductive ArgumentError
  | wrongUsage
  | unknownTemplate (name : String)
  deriving Repr, DecidableEq

/-- The count that a text is: digits, perhaps after a plus, of a number that fits a word of 64 bits. -/
def readCount? (text : String) : Option Nat :=
  let digits := match text.toList with
    | '+' :: rest => rest
    | s => s
  if digits.isEmpty || !digits.all isDigit then none
  else
    let n := decimalNumber digits
    if n < UInt64.size then some n else none

/-- An option that takes a value. -/
inductive ValueOption
  | output
  | name
  | template
  | templateFile
  | multicolorTemplate
  | config
  | indent
  deriving Repr, DecidableEq

/-- The option that an argument is. -/
def ValueOption.ofArgument? : String → Option ValueOption
  | "--output" | "-o" => some .output
  | "--name" | "-n" => some .name
  | "--template" | "-t" => some .template
  | "--template-file" => some .templateFile
  | "--multicolor-template" => some .multicolorTemplate
  | "--config" => some .config
  | "--indent" => some .indent
  | _ => none

/-- The command line with an option set to a value. -/
def Arguments.setOption (a : Arguments) (option : ValueOption) (value : String) :
    Except ArgumentError Arguments :=
  match option with
  | .output => .ok { a with output := some value }
  | .name => .ok { a with name := some value }
  | .template =>
    match Template.Builtin.ofName? value with
    | some template => .ok { a with template := some template }
    | none => .error (.unknownTemplate value)
  | .templateFile => .ok { a with changes := { a.changes with template := some ⟨value⟩ } }
  | .multicolorTemplate =>
    .ok { a with changes := { a.changes with multicolorTemplate := some ⟨value⟩ } }
  | .config => .ok { a with configFile := some ⟨value⟩ }
  | .indent =>
    match readCount? value with
    | some n => .ok { a with changes := { a.changes with indentSize := some n } }
    | none => .error .wrongUsage

/-- The command that an argument is. -/
def Command.ofArgument? : String → Option Command
  | "convert" => some .convert
  | "batch" => some .batch
  | "info" => some .info
  | "templates" => some .templates
  | "version" | "--version" | "-V" => some .version
  | _ => none

/-- An option without a value. -/
inductive Flag
  | literalColors
  | noTrailingComma
  | flatImports
  | lenient
  | json
  | dryRun
  | overwrite
  | noNamespaceFolders
  deriving Repr, DecidableEq

/-- The flag that an argument is. -/
def Flag.ofArgument? : String → Option Flag
  | "--no-named-colors" => some .literalColors
  | "--no-trailing-comma" => some .noTrailingComma
  | "--flat-imports" => some .flatImports
  | "--lenient" => some .lenient
  | "--json" => some .json
  | "--dry-run" => some .dryRun
  | "--overwrite" => some .overwrite
  | "--no-namespace-dirs" => some .noNamespaceFolders
  | _ => none

/-- The command line with a flag set. -/
def Arguments.setFlag (a : Arguments) : Flag → Arguments
  | .literalColors => { a with changes := { a.changes with namedColors := some false } }
  | .noTrailingComma => { a with changes := { a.changes with trailingCommas := some false } }
  | .flatImports => { a with changes := { a.changes with groupImports := some false } }
  | .lenient => { a with lenient := true }
  | .json => { a with json := true }
  | .dryRun => { a with dryRun := true }
  | .overwrite => { a with overwrite := true }
  | .noNamespaceFolders => { a with namespaceFolders := false }

/-- The command line with its path set; there is only one. -/
def Arguments.setInput (a : Arguments) (path : String) : Except ArgumentError Arguments :=
  if a.input.isSome then .error .wrongUsage else .ok { a with input := some path }

/-- The command line with an argument that takes no value. -/
def Arguments.add (a : Arguments) (argument : String) : Except ArgumentError Arguments :=
  match Command.ofArgument? argument with
  | some command => .ok { a with command }
  | none =>
    match Flag.ofArgument? argument with
    | some flag => .ok (a.setFlag flag)
    | none =>
      if argument ≠ "-" ∧ argument.toList.head? = some '-' then .error .wrongUsage
      else a.setInput argument

/-- The command line with some more arguments. -/
def Arguments.addAll (a : Arguments) : List String → Except ArgumentError Arguments
  | [] => .ok a
  | argument :: rest =>
    match ValueOption.ofArgument? argument, rest with
    | none, rest => do
      let a ← a.add argument
      a.addAll rest
    | some _, [] => .error .wrongUsage
    | some option, value :: rest => do
      let a ← a.setOption option value
      a.addAll rest

/-- The command line of some arguments. -/
def Arguments.parse (arguments : List String) : Except ArgumentError Arguments :=
  ({} : Arguments).addAll arguments

end VectorIcon.Cli
