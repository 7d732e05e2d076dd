import VectorIcon.Number.Layout
import VectorIcon.Template.Error
import VectorIcon.Template.Tree

/-!
# Values of templates

The values that expressions have. A record keeps its entries in the order in which their keys were first
set. `display` is what an output writes; inside a list or a record a text is quoted.
-/

namespace VectorIcon.Template

/-- A function that a template can call without defining it. -/
inductive Function
  | range
  | record
  /-- The choice of one argument by the position in a loop. -/
  | cycle (index : Nat)
  deriving Repr, DecidableEq

/-- A value. A procedure knows how many frames of variables it was defined in. -/
inductive Value
  | undefined
  | none
  | boolean (value : Bool)
  | whole (value : Int)
  | decimal (value : Float)
  | text (value : String)
  | list (items : List Value)
  | record (entries : List (Value × Value))
  | function (f : Function)
  | procedure (name : String) (parameters : List (String × Option Expr)) (body : List Stmt) (depth : Nat)
  deriving Repr

namespace Value

instance : Inhabited Value := ⟨undefined⟩

/-- The value of a literal. -/
def ofLiteral : Literal → Value
  | .none => none
  | .boolean value => boolean value
  | .whole value => whole value
  | .decimal value => decimal value
  | .text value => text value

/-- The text of a value that is one. -/
def text? : Value → Option String
  | text value => some value
  | _ => Option.none

/-- A value counts as true. -/
def isTrue : Value → Bool
  | undefined | none => false
  | boolean value => value
  | whole value => value != 0
  | decimal value => value != 0
  | text value => !value.isEmpty
  | list items => !items.isEmpty
  | record entries => !entries.isEmpty
  | function _ | procedure .. => true

/-- A whole number as a double. -/
def wholeToFloat (n : Int) : Float :=
  if n < 0 then -Float.ofNat n.natAbs else Float.ofNat n.natAbs

/-- A number as a double; truth values count as 0 and 1. -/
def toFloat? : Value → Option Float
  | boolean value => some (if value then 1 else 0)
  | whole value => some (wholeToFloat value)
  | decimal value => some value
  | _ => Option.none

/-- A whole number; truth values count as 0 and 1. -/
def toInt? : Value → Option Int
  | boolean value => some (if value then 1 else 0)
  | whole value => some value
  | _ => Option.none

/-- The number that is meant by an index or a count: also a double without a fraction. -/
def toIndex? : Value → Option Int
  | decimal value =>
    match Number.nearestWhole? value with
    | some n => if wholeToFloat n == value then some n else Option.none
    | Option.none => Option.none
  | v => v.toInt?

mutual

/-- Two values are the same. Numbers are compared by what they count, records without regard to the order
of their entries. -/
def same : Value → Value → Bool
  | undefined, undefined => true
  | none, none => true
  | text a, text b => a == b
  | list as, list bs => sameItems as bs
  | record as, record bs => as.length == bs.length && sameEntries as bs
  | function a, function b => a == b
  | a, b =>
    match a.toInt?, b.toInt? with
    | some m, some n => m == n
    | _, _ =>
      match a.toFloat?, b.toFloat? with
      | some x, some y => x == y
      | _, _ => false

/-- Two lists have the same items. -/
def sameItems : List Value → List Value → Bool
  | [], [] => true
  | a :: as, b :: bs => a.same b && sameItems as bs
  | _, _ => false

/-- Every entry of the first list is in the second. -/
def sameEntries : List (Value × Value) → List (Value × Value) → Bool
  | [], _ => true
  | (key, value) :: rest, bs =>
    (bs.any fun b => key.same b.1 && value.same b.2) && sameEntries rest bs

end

/-- The place of a kind of values in the order of all values. -/
def rank : Value → Nat
  | undefined => 0
  | none => 1
  | boolean _ => 2
  | whole _ | decimal _ => 3
  | text _ => 4
  | list _ => 5
  | record _ => 6
  | function _ | procedure .. => 7

/-- The order of numbers. -/
def compareNumbers (a b : Value) : Ordering :=
  match a.toInt?, b.toInt? with
  | some m, some n => compare m n
  | _, _ =>
    match a.toFloat?, b.toFloat? with
    | some x, some y => if x < y then .lt else if y < x then .gt else .eq
    | _, _ => .eq

mutual

/-- The order of values: by kind, then by value. -/
def order : Value → Value → Ordering
  | text a, text b => compare a b
  | list as, list bs => orderItems as bs
  | record as, record bs => orderEntries as bs
  | a, b => (compare a.rank b.rank).then (compareNumbers a b)

/-- The order of lists, by the first items that differ. -/
def orderItems : List Value → List Value → Ordering
  | [], [] => .eq
  | [], _ :: _ => .lt
  | _ :: _, [] => .gt
  | a :: as, b :: bs => (a.order b).then (orderItems as bs)

/-- The order of records, by the first entries that differ. -/
def orderEntries : List (Value × Value) → List (Value × Value) → Ordering
  | [], [] => .eq
  | [], _ :: _ => .lt
  | _ :: _, [] => .gt
  | (a, x) :: as, (b, y) :: bs => ((a.order b).then (x.order y)).then (orderEntries as bs)

end

/-- A double; a whole one keeps a zero after the point. -/
def decimalText (value : Float) : String :=
  let digits := Number.display value
  if Number.isFinite value && !digits.toList.contains '.' then digits ++ ".0" else digits

/-- One character of a quoted text. -/
def quoteChar (quote c : Char) : List Char :=
  if c = quote ∨ c = '\\' then ['\\', c]
  else if c = '\n' then ['\\', 'n']
  else if c = '\r' then ['\\', 'r']
  else if c = '\t' then ['\\', 't']
  else [c]

/-- A text in single quotes, or in double ones when that saves an escape. -/
def quoted (value : String) : String :=
  let s := value.toList
  let quote := if s.contains '\x27' && !s.contains '"' then '"' else '\x27'
  String.ofList (quote :: s.flatMap (quoteChar quote) ++ [quote])

mutual

/-- A value as it is shown inside another one. -/
def shown : Value → String
  | undefined => "Undefined"
  | none => "None"
  | boolean value => if value then "True" else "False"
  | whole value => toString value
  | decimal value => decimalText value
  | text value => quoted value
  | list items => "[" ++ ", ".intercalate (shownItems items) ++ "]"
  | record entries => "\x7b" ++ ", ".intercalate (shownEntries entries) ++ "\x7d"
  | function _ => "function"
  | procedure name .. => "<macro " ++ name ++ ">"

/-- The items of a list as they are shown. -/
def shownItems : List Value → List String
  | [] => []
  | item :: items => item.shown :: shownItems items

/-- The entries of a record as they are shown. -/
def shownEntries : List (Value × Value) → List String
  | [] => []
  | (key, value) :: entries => (key.shown ++ ": " ++ value.shown) :: shownEntries entries

end

/-- A value as an output writes it. -/
def display : Value → String
  | undefined => ""
  | text value => value
  | v => v.shown

/-- The value under a key. -/
def lookup? (key : Value) : List (Value × Value) → Option Value
  | [] => Option.none
  | (k, v) :: rest => if k.same key then some v else lookup? key rest

/-- The entries with a value set under a key. -/
def insert (key value : Value) : List (Value × Value) → List (Value × Value)
  | [] => [(key, value)]
  | (k, v) :: rest => if k.same key then (k, value) :: rest else (k, v) :: insert key value rest

/-- A record of some entries; a later entry for a key takes the place of the earlier one. -/
def ofEntries (entries : List (Value × Value)) : Value :=
  record (entries.foldl (fun set entry => insert entry.1 entry.2 set) [])

/-- A record of named values. -/
def ofFields (fields : List (String × Value)) : Value :=
  record (fields.map fun field => (text field.1, field.2))

/-- The characters of a text as texts of their own. -/
def characters (s : String) : List Value :=
  s.toList.map fun c => text (String.singleton c)

/-- The values that a loop goes through: items, keys or characters. -/
def items? : Value → Option (List Value)
  | undefined | none => some []
  | list items => some items
  | record entries => some (entries.map Prod.fst)
  | text value => some (characters value)
  | _ => Option.none

/-- The number of items, keys or characters. -/
def length? : Value → Option Nat
  | list items => some items.length
  | record entries => some entries.length
  | text value => some value.length
  | _ => Option.none

/-- An item by its number; one below zero counts from the end. -/
def nth? (items : List Value) (n : Int) : Option Value :=
  if 0 ≤ n then items[n.toNat]?
  else if n.natAbs ≤ items.length then items[items.length - n.natAbs]? else Option.none

/-- A named part of a value, undefined when there is none. -/
def part (v : Value) (name : String) : Except Error Value :=
  match v with
  | undefined => .error .undefinedValue
  | record entries => .ok ((lookup? (text name) entries).getD undefined)
  | _ => .ok undefined

/-- A part of a value, undefined when there is none. -/
def item (v index : Value) : Except Error Value :=
  match v with
  | undefined => .error .undefinedValue
  | record entries => .ok ((lookup? index entries).getD undefined)
  | list items => .ok (((index.toIndex?).bind (nth? items)).getD undefined)
  | text _ => .ok ((do nth? (← v.items?) (← index.toIndex?)).getD undefined)
  | _ => .ok undefined

/-- A bound of a slice between zero and a length; one below zero counts from the end. -/
def clampBound (length : Nat) (n : Int) : Nat :=
  if n < 0 then (length + n).toNat else min n.toNat length

/-- The bound after an item between zero and a length. -/
def boundAfter (length : Nat) (n : Int) : Nat :=
  min ((if n < 0 then length + n else n) + 1).toNat length

/-- Every `step`-th of some items. -/
def everyNth {α : Type} (step : Nat) (items : List α) : List α :=
  (items.zipIdx.filter fun entry => entry.2 % step == 0).map Prod.fst

/-- A bound of a slice: nothing, or a number. -/
def bound? : Value → Option (Option Int)
  | undefined | none => some Option.none
  | v => v.toIndex?.map some

/-- The items from one bound to another, in steps. A step below zero goes from the end to the start, and
a bound then stands after the items that it shuts out. -/
def sliceItems (items : List Value) (start stop : Option Int) (step : Int) : List Value :=
  if 0 < step then
    let first := clampBound items.length (start.getD 0)
    let last := clampBound items.length (stop.getD items.length)
    everyNth step.natAbs ((items.take last).drop first)
  else
    let first := start.elim items.length (boundAfter items.length)
    let last := stop.elim 0 (boundAfter items.length)
    everyNth step.natAbs ((items.take first).drop last).reverse

/-- A slice of a list or a text. -/
def slice (v start stop step : Value) : Except Error Value :=
  match bound? start, bound? stop, bound? step with
  | some start, some stop, some step =>
    let step := step.getD 1
    if step = 0 then .error .badOperands
    else match v with
      | undefined | none => .ok (list [])
      | list items => .ok (list (sliceItems items start stop step))
      | text value =>
        .ok (text (String.join ((sliceItems (characters value) start stop step).map display)))
      | _ => .error .badOperands
  | _, _, _ => .error .badOperands

end Value

end VectorIcon.Template
