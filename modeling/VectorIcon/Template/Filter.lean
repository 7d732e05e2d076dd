import VectorIcon.Name.Case
import VectorIcon.Template.Value
import VectorIcon.Text.Letters
import VectorIcon.Text.Pieces

/-!
# Filters, tests and methods

What can stand behind a value: `value | filter`, `value is test` and `value.method()`. A filter for texts
takes the display of any value.

The filters are those for texts and for the order of a list (`filterNames`). Filters that change the kind of a
value (`list`, `int`, `float`, `string`, `bool`), take apart or put together lists and records (`unique`, `map`,
`items`, `select`, `batch` and others), count with numbers, or mark text (`escape`, `safe`) are left out: they
are unknown here.
-/

namespace VectorIcon.Template

open Text

/-- The arguments of a call, some with names. -/
abbrev Arguments := List (Option String × Value)

/-- The arguments, when none has a name. -/
def Arguments.positional? (arguments : Arguments) : Option (List Value) :=
  arguments.mapM fun argument => if argument.1.isSome then none else some argument.2

/-- A text for which every function on characters is a function. -/
def onText (f : List Char → List Char) (v : Value) : Value :=
  .text (String.ofList (f v.display.toList))

/-- A character that sets words apart in titles. -/
def endsTitleWord (c : Char) : Bool :=
  isBlank c || (0x21 ≤ c.toNat && c.toNat < 0x7F && !isAlphanumeric c)

/-- A text in which every word starts with a capital and goes on in small letters. -/
def titleAfter : Bool → List Char → List Char
  | _, [] => []
  | atStart, c :: rest =>
    if endsTitleWord c then c :: titleAfter true rest
    else (if atStart then capitalForm c else smallForm c) ++ titleAfter false rest

/-- A text that starts with a capital and goes on in small letters. -/
def sentence : List Char → List Char
  | [] => []
  | c :: rest => capitalForm c ++ toSmall rest

/-- A text whose lines after the first stand deeper. Lines without characters stay empty unless `blank` is
set, and one line end at the end of the text is dropped. -/
def indented (width : Nat) (first blank : Bool) (s : List Char) : List Char :=
  let lead := List.replicate width ' '
  let dropEnd (s : List Char) : List Char :=
    let s := if s.getLast? = some '\n' then s.dropLast else s
    if s.getLast? = some '\r' then s.dropLast else s
  let deeper (line : List Char) : List Char :=
    if line.isEmpty then (if blank then lead else []) else lead ++ line
  match (dropEnd s).splitOn '\n' with
  | [] => []
  | line :: rest =>
    dropEnd (['\n'].intercalate ((if first then deeper line else line) :: rest.map deeper) ++ ['\n'])

/-- The displays of some items with a text between them; the text does not follow an empty beginning. -/
def joined (between : String) (items : List Value) : String :=
  items.foldl (fun s item => (if s.isEmpty then s else s ++ between) ++ item.display) ""

/-- A text for sorting, by small letters. -/
def sortKey (v : Value) : Value :=
  match v with
  | .text value => .text (String.ofList (toSmall value.toList))
  | _ => v

/-- The truth of a named argument. -/
def flag (arguments : Arguments) (name : String) : Bool :=
  ((arguments.lookup (some name)).map Value.isTrue).getD false

/-- A list in order, without regard to capitals unless this is asked for. -/
def sorted (arguments : Arguments) (items : List Value) : List Value :=
  let part (v : Value) : Value :=
    match (arguments.lookup (some "attribute")).bind Value.text? with
    | some name => ((v.part name).toOption).getD .undefined
    | none => v
  let key (v : Value) : Value :=
    if flag arguments "case_sensitive" then part v else sortKey (part v)
  let ascending := items.mergeSort fun a b => ((key a).order (key b)).isLE
  if flag arguments "reverse" then ascending.reverse else ascending

/-- A count of characters or blanks. -/
def count? (v : Value) : Option Nat :=
  v.toIndex?.bind fun n => if 0 ≤ n then some n.toNat else none

/-- A filter without named arguments. -/
def plainFilter? (name : String) (v : Value) (arguments : List Value) : Option Value :=
  match name, arguments with
  | "upper", [] => some (onText toCapitals v)
  | "lower", [] => some (onText toSmall v)
  | "title", [] => some (onText (titleAfter true) v)
  | "capitalize", [] => some (onText sentence v)
  | "trim", [] => some (onText trim v)
  | "trim", [characters] =>
    some (onText (trimBy fun c => characters.display.toList.contains c) v)
  | "replace", [old, new] => some (onText (replaceAll old.display.toList new.display.toList) v)
  | "pascal_case", [] => some (onText Name.pascal v)
  | "camel_case", [] => some (onText Name.camel v)
  | "snake_case", [] => some (onText Name.snake v)
  | "indent", [width] =>
    (count? width).map fun width => onText (indented width false false) v
  | "indent", [width, first] =>
    (count? width).map fun width => onText (indented width first.isTrue false) v
  | "indent", [width, first, blank] =>
    (count? width).map fun width => onText (indented width first.isTrue blank.isTrue) v
  | "length", [] | "count", [] => v.length?.map fun n => .whole n
  | "default", [] | "d", [] => some (if v matches .undefined then .text "" else v)
  | "default", [other] | "d", [other] => some (if v matches .undefined then other else v)
  | "default", [other, lax] | "d", [other, lax] =>
    some (if v matches .undefined then other else if lax.isTrue && !v.isTrue then other else v)
  | "join", [] => v.items?.map fun items => .text (joined "" items)
  | "join", [between] => v.items?.map fun items => .text (joined between.display items)
  | "first", [] =>
    match v with
    | .undefined | .none => none
    | _ => v.items?.map fun items => items.head?.getD .undefined
  | "last", [] =>
    match v with
    | .undefined | .none | .record _ => none
    | _ => v.items?.map fun items => items.getLast?.getD .undefined
  | "reverse", [] =>
    match v with
    | .text _ => some (onText List.reverse v)
    | .undefined | .none => some v
    | _ => v.items?.map fun items => .list items.reverse
  | _, _ => none

/-- The names of filters. -/
def filterNames : List String :=
  ["upper", "lower", "title", "capitalize", "trim", "replace", "pascal_case", "camel_case", "snake_case",
    "indent", "length", "count", "default", "d", "join", "first", "last", "reverse", "sort"]

/-- The value of a filter. -/
def applyFilter (name : String) (v : Value) (arguments : Arguments) : Except Error Value :=
  if !filterNames.contains name then .error (.unknownFilter name)
  else
    let result := match name with
      | "sort" =>
        if arguments.all fun argument => argument.1.isSome then
          v.items?.map fun items => .list (sorted arguments items)
        else none
      | _ => arguments.positional?.bind (plainFilter? name v)
    match result with
    | some value => .ok value
    | none => .error (.badArguments name)

/-- The answer of a test without arguments. -/
def plainTest? (v : Value) : String → Option Bool
  | "defined" => some !(v matches .undefined)
  | "undefined" => some (v matches .undefined)
  | "none" => some (v matches .none)
  | "boolean" => some (v matches .boolean _)
  | "number" => some (v matches .whole _ | .decimal _)
  | "integer" => some (v matches .whole _)
  | "float" => some (v matches .decimal _)
  | "string" => some (v matches .text _)
  | "sequence" => some (v matches .list _)
  | "mapping" => some (v matches .record _)
  | "iterable" => some v.items?.isSome
  | "true" => some (v matches .boolean true)
  | "false" => some (v matches .boolean false)
  | "odd" => some (v.toInt?.any (· % 2 == 1))
  | "even" => some (v.toInt?.any (· % 2 == 0))
  | _ => none

/-- The answer of a test. -/
def applyTest (name : String) (v : Value) (arguments : Arguments) : Except Error Bool :=
  match plainTest? v name with
  | none => .error (.unknownTest name)
  | some answer => if arguments.isEmpty then .ok answer else .error (.badArguments name)

/-- The pieces of a text at a mark, at most as many cuts as asked for. -/
def splitValue (s mark : List Char) (cuts : Option Nat) : Value :=
  let pieces := splitAt mark s
  let kept := match cuts with
    | none => pieces
    | some n => pieces.take n ++ (if pieces.length ≤ n then [] else [mark.intercalate (pieces.drop n)])
  .list (kept.map fun piece => .text (String.ofList piece))

/-- A text starts or ends with one of some texts. -/
def matchesAny (test : List Char → Bool) (v : Value) : Option Value :=
  match v with
  | .text value => some (.boolean (test value.toList))
  | .list items => (items.mapM Value.text?).map fun texts => .boolean (texts.any fun t => test t.toList)
  | _ => none

/-- The value of a method of a text. -/
def textMethod? (s : List Char) (name : String) (arguments : List Value) : Option Value :=
  let text (s : List Char) : Value := .text (String.ofList s)
  match name, arguments with
  | "upper", [] => some (text (toCapitals s))
  | "lower", [] => some (text (toSmall s))
  | "title", [] => some (text (titleAfter true s))
  | "capitalize", [] => some (text (sentence s))
  | "strip", [] => some (text (trim s))
  | "lstrip", [] => some (text (s.dropWhile isBlank))
  | "rstrip", [] => some (text (dropEndWhile isBlank s))
  | "strip", [.text chars] => some (text (trimBy chars.toList.contains s))
  | "lstrip", [.text chars] => some (text (s.dropWhile chars.toList.contains))
  | "rstrip", [.text chars] => some (text (dropEndWhile chars.toList.contains s))
  | "replace", [.text old, .text new] => some (text (replaceAll old.toList new.toList s))
  | "split", [] | "split", [.none] =>
    some (.list ((fields isBlank s).map text))
  | "split", [.text mark] => some (splitValue s mark.toList none)
  | "split", [.text mark, cuts] => (count? cuts).map fun cuts => splitValue s mark.toList (some cuts)
  | "splitlines", [] => some (.list ((lines s).map text))
  | "startswith", [start] => matchesAny (fun t => t.isPrefixOf s) start
  | "endswith", [ending] => matchesAny (fun t => t.isSuffixOf s) ending
  | "join", [items] => items.items?.map fun items => .text (joined (String.ofList s) items)
  | "count", [.text part] => some (.whole ((splitAt part.toList s).length - 1 : Nat))
  | _, _ => none

/-- The value of a method of a record. -/
def recordMethod? (entries : List (Value × Value)) (name : String) (arguments : List Value) :
    Option Value :=
  match name, arguments with
  | "keys", [] => some (.list (entries.map Prod.fst))
  | "values", [] => some (.list (entries.map Prod.snd))
  | "items", [] => some (.list (entries.map fun entry => .list [entry.1, entry.2]))
  | "get", [key] => some ((Value.lookup? key entries).getD .none)
  | "get", [key, default] => some ((Value.lookup? key entries).getD default)
  | _, _ => none

/-- The value of a method that is no entry of the value. -/
def applyMethod (v : Value) (name : String) (arguments : Arguments) : Except Error Value :=
  let result := do
    let arguments ← arguments.positional?
    match v with
    | .text s => textMethod? s.toList name arguments
    | .record entries => recordMethod? entries name arguments
    | .list items =>
      match name, arguments with
      | "count", [item] => some (.whole ((items.filter item.same).length : Nat))
      | _, _ => none
    | _ => none
  match result with
  | some value => .ok value
  | none => .error (.unknownMethod name)

end VectorIcon.Template
