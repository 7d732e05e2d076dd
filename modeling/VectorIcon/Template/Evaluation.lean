import VectorIcon.Template.Filter
import VectorIcon.Template.Statement

/-!
# Evaluating templates

Variables live in frames, the innermost first. A template has one frame of its own above the variables that
it is given, a loop and a call have a frame each, a choice has none. A procedure sees the frames that it was
defined in, as they are when it is called, and its arguments.

Expressions and statements are evaluated by recursion on the tree, with a function that makes calls;
`call` gives that function for a bounded depth of calls.
-/

namespace VectorIcon.Template

/-- Variables with their values, the latest first. -/
abbrev Frame := List (String × Value)

/-- The value of a variable; undefined when no frame has it. -/
def valueOf (frames : List Frame) (name : String) : Value :=
  (frames.findSome? fun frame => frame.lookup name).getD .undefined

/-- The variable is set in some frame. -/
def isBound (frames : List Frame) (name : String) : Bool :=
  frames.any fun frame => (frame.lookup name).isSome

/-- The frames with a variable set in the innermost one. -/
def setVariable (frames : List Frame) (name : String) (v : Value) : List Frame :=
  match frames with
  | [] => [[(name, v)]]
  | frame :: outer => ((name, v) :: frame) :: outer

/-- A value, or the fault of operands that do not fit. -/
def orBadOperands (v : Option Value) : Except Error Value :=
  match v with
  | some v => .ok v
  | none => .error .badOperands

/-- A sum or a difference: whole as long as both numbers are. -/
def arithmetic (onWhole : Int → Int → Int) (onDecimal : Float → Float → Float) (a b : Value) :
    Option Value :=
  match a.toInt?, b.toInt? with
  | some m, some n => some (.whole (onWhole m n))
  | _, _ => do return .decimal (onDecimal (← a.toFloat?) (← b.toFloat?))

/-- The whole quotient of two doubles such that the remainder is not negative. -/
def quotient (x y : Float) : Float :=
  let whole := x / y - Number.remainder (x / y) 1
  if Number.remainder x y < 0 then (if 0 < y then whole - 1 else whole + 1) else whole

/-- A text or a list many times over. -/
def repeated? (v count : Value) : Option Value :=
  match v, count with
  | .text s, .whole n => if 0 ≤ n then some (.text (String.join (List.replicate n.toNat s))) else none
  | .list items, .whole n =>
    if 0 ≤ n then some (.list (List.replicate n.toNat items).flatten) else none
  | _, _ => none

/-- The value is in a container. -/
def containedIn (container v : Value) : Except Error Bool :=
  match container with
  | .undefined => .ok false
  | .text s => .ok (Text.occurs v.display.toList s.toList)
  | .list items => .ok (items.any v.same)
  | .record entries => .ok (Value.lookup? v entries).isSome
  | _ => .error .badOperands

/-- The value of an operator. -/
def applyOperator (operator : Operator) (a b : Value) : Except Error Value :=
  match operator with
  | .equal => .ok (.boolean (a.same b))
  | .unequal => .ok (.boolean !(a.same b))
  | .less => .ok (.boolean (a.order b).isLT)
  | .atMost => .ok (.boolean (a.order b).isLE)
  | .greater => .ok (.boolean (a.order b).isGT)
  | .atLeast => .ok (.boolean (a.order b).isGE)
  | .contained => (containedIn b a).map .boolean
  | .join => .ok (.text (a.display ++ b.display))
  | .plus =>
    match a, b with
    | .text s, .text t => .ok (.text (s ++ t))
    | .list as, .list bs => .ok (.list (as ++ bs))
    | _, _ => orBadOperands (arithmetic (· + ·) (· + ·) a b)
  | .minus => orBadOperands (arithmetic (· - ·) (· - ·) a b)
  | .times => orBadOperands
      (((repeated? a b).or (repeated? b a)).or (arithmetic (· * ·) (· * ·) a b))
  | .divide => orBadOperands do return .decimal ((← a.toFloat?) / (← b.toFloat?))
  | .divideWhole =>
    if b.toInt? = some 0 ∧ a.toInt?.isSome then .error .badOperands
    else orBadOperands (arithmetic (· / ·) quotient a b)
  | .remainder =>
    if b.toInt? = some 0 ∧ a.toInt?.isSome then .error .badOperands
    else orBadOperands (arithmetic (· % ·) Number.remainder a b)
  | .power => orBadOperands <|
      match a.toInt?, b.toInt? with
      | some m, some n => if 0 ≤ n ∧ n < 128 then some (.whole (m.pow n.toNat)) else none
      | _, _ => do return .decimal (Float.pow (← a.toFloat?) (← b.toFloat?))

/-- The opposite number. -/
def negated (v : Value) : Except Error Value :=
  match v with
  | .whole n => .ok (.whole (-n))
  | .decimal x => .ok (.decimal (-x))
  | _ => .error .badOperands

/-- The whole numbers from one to another in steps. -/
def rangeValues (start stop step : Int) : List Value :=
  let count := if 0 < step then (stop - start + step - 1) / step else (start - stop - step - 1) / (-step)
  (List.range count.toNat).map fun (k : Nat) => .whole (start + step * k)

/-- The value of a function that needs no definition. -/
def Function.apply (f : Function) (arguments : Arguments) : Except Error Value :=
  let numbers := arguments.positional?.bind fun values => values.mapM Value.toIndex?
  match f with
  | .range =>
    let values : Option (List Value) := match numbers with
      | some [stop] => some (rangeValues 0 stop 1)
      | some [start, stop] => some (rangeValues start stop 1)
      | some [start, stop, step] => if step = 0 then none else some (rangeValues start stop step)
      | _ => none
    match values with
    | some values =>
      if values.length ≤ 100000 then .ok (.list values) else .error (.badArguments "range")
    | none => .error (.badArguments "range")
  | .record =>
    let named := arguments.filterMap fun argument =>
      argument.1.map fun name => (Value.text name, argument.2)
    match arguments.filter fun argument => argument.1.isNone with
    | [] => .ok (Value.ofEntries named)
    | [(_, .record entries)] => .ok (Value.ofEntries (entries ++ named))
    | _ => .error (.badArguments "dict")
  | .cycle index =>
    match arguments.positional? with
    | some values => .ok ((values[index % values.length]?).getD .undefined)
    | none => .error (.badArguments "cycle")

/-- The functions that every template can call. -/
def functions : Frame :=
  [("range", .function .range), ("dict", .function .record)]

/-- What a loop says about its turn. -/
def loopValue (depth : Nat) (items : List Value) (index : Nat) : Value :=
  Value.ofFields [("index0", .whole index), ("index", .whole (index + 1)),
    ("length", .whole items.length), ("revindex", .whole (items.length - index : Nat)),
    ("revindex0", .whole (items.length - index - 1 : Nat)), ("first", .boolean (index == 0)),
    ("last", .boolean (index + 1 == items.length)), ("depth", .whole (depth + 1)),
    ("depth0", .whole depth),
    ("previtem", if index = 0 then .undefined else (items[index - 1]?).getD .undefined),
    ("nextitem", (items[index + 1]?).getD .undefined), ("cycle", .function (.cycle index))]

/-- The number of loops around a place. -/
def loopDepth (frames : List Frame) : Nat :=
  (frames.filter fun frame => (frame.lookup "loop").isSome).length

mutual

/-- The variables that a target binds for a value. -/
def bind : Target → Value → Except Error Frame
  | .name name, v => .ok [(name, v)]
  | .parts targets, .list items => bindAll targets items
  | .parts _, _ => .error .badTarget

/-- The variables that targets bind for as many values. -/
def bindAll : List Target → List Value → Except Error Frame
  | [], [] => .ok []
  | target :: targets, v :: vs => do
    let first ← bind target v
    return (← bindAll targets vs) ++ first
  | _, _ => .error .badTarget

end

/-- How calls are made. -/
abbrev Caller := List Frame → Value → Arguments → Except Error Value

/-- The call of a variable; one that is not set names no function. -/
def callVariable (caller : Caller) (frames : List Frame) (name : String) (arguments : Arguments) :
    Except Error Value :=
  if isBound frames name then caller frames (valueOf frames name) arguments
  else .error (.unknownFunction name)

/-- The call of a method: of an entry of a record, or of one that its kind of values has. -/
def callMethod (caller : Caller) (frames : List Frame) (v : Value) (name : String)
    (arguments : Arguments) : Except Error Value :=
  match v with
  | .record entries =>
    match Value.lookup? (.text name) entries with
    | some entry => caller frames entry arguments
    | none => applyMethod v name arguments
  | _ => applyMethod v name arguments

mutual

/-- The value of an expression. -/
def evaluate (caller : Caller) (frames : List Frame) : Expr → Except Error Value
  | .literal l => .ok (.ofLiteral l)
  | .variable name => .ok (valueOf frames name)
  | .list items => (evaluateAll caller frames items).map .list
  | .record entries => (evaluateEntries caller frames entries).map .ofEntries
  | .part e name => do (← evaluate caller frames e).part name
  | .item e index => do
    let v ← evaluate caller frames e
    v.item (← evaluate caller frames index)
  | .slice e start stop step => do
    let v ← evaluate caller frames e
    let start ← evaluateOptional caller frames start
    let stop ← evaluateOptional caller frames stop
    let step ← evaluateOptional caller frames step
    v.slice start stop step
  | .call (.variable name) arguments => do
    callVariable caller frames name (← evaluateArguments caller frames arguments)
  | .call (.part e name) arguments => do
    let v ← evaluate caller frames e
    callMethod caller frames v name (← evaluateArguments caller frames arguments)
  | .call e arguments => do
    let f ← evaluate caller frames e
    caller frames f (← evaluateArguments caller frames arguments)
  | .filter name e arguments => do
    let v ← evaluate caller frames e
    applyFilter name v (← evaluateArguments caller frames arguments)
  | .test name e arguments => do
    let v ← evaluate caller frames e
    return .boolean (← applyTest name v (← evaluateArguments caller frames arguments))
  | .negative e => do negated (← evaluate caller frames e)
  | .not e => do return .boolean !(← evaluate caller frames e).isTrue
  | .and a b => do
    let v ← evaluate caller frames a
    if v.isTrue then evaluate caller frames b else return v
  | .or a b => do
    let v ← evaluate caller frames a
    if v.isTrue then return v else evaluate caller frames b
  | .binary operator a b => do
    let v ← evaluate caller frames a
    applyOperator operator v (← evaluate caller frames b)
  | .choice condition yes no => do
    if (← evaluate caller frames condition).isTrue then evaluate caller frames yes
    else evaluateOptional caller frames no

/-- The value of an expression; undefined when there is none. -/
def evaluateOptional (caller : Caller) (frames : List Frame) : Option Expr → Except Error Value
  | none => .ok .undefined
  | some e => evaluate caller frames e

/-- The values of some expressions. -/
def evaluateAll (caller : Caller) (frames : List Frame) : List Expr → Except Error (List Value)
  | [] => .ok []
  | e :: rest => do
    let v ← evaluate caller frames e
    return v :: (← evaluateAll caller frames rest)

/-- The values of some entries. -/
def evaluateEntries (caller : Caller) (frames : List Frame) :
    List (Expr × Expr) → Except Error (List (Value × Value))
  | [] => .ok []
  | (key, value) :: rest => do
    let k ← evaluate caller frames key
    let v ← evaluate caller frames value
    return (k, v) :: (← evaluateEntries caller frames rest)

/-- The values of some arguments. -/
def evaluateArguments (caller : Caller) (frames : List Frame) :
    List (Option String × Expr) → Except Error Arguments
  | [] => .ok []
  | (name, e) :: rest => do
    let v ← evaluate caller frames e
    return (name, v) :: (← evaluateArguments caller frames rest)

end

/-- The items of a loop that meet its condition. -/
def keptItems (caller : Caller) (frames : List Frame) (target : Target) (condition : Option Expr)
    (items : List Value) : Except Error (List Value) :=
  match condition with
  | none => .ok items
  | some condition => items.filterM fun item => do
    let frame ← bind target item
    return (← evaluate caller (frame :: frames) condition).isTrue

/-- The value of a chain of filters. -/
def applyFilters (caller : Caller) (frames : List Frame) (v : Value)
    (filters : List (String × List (Option String × Expr))) : Except Error Value :=
  filters.foldlM (fun v filter => do
    applyFilter filter.1 v (← evaluateArguments caller frames filter.2)) v

mutual

/-- The text of a statement and the frames after it. -/
def run (caller : Caller) (frames : List Frame) : Stmt → Except Error (String × List Frame)
  | .text s => .ok (s, frames)
  | .output e => do return ((← evaluate caller frames e).display, frames)
  | .assign target e => do
    let bound ← bind target (← evaluate caller frames e)
    return ("", bound.foldr (fun entry frames => setVariable frames entry.1 entry.2) frames)
  | .capture name filters body => do
    let (s, frames) ← runAll caller frames body
    return ("", setVariable frames name (← applyFilters caller frames (.text s) filters))
  | .choose condition yes no => do
    if (← evaluate caller frames condition).isTrue then runAll caller frames yes
    else runAll caller frames no
  | .each target items condition body empty => do
    match (← evaluate caller frames items).items? with
    | none => .error .notIterable
    | some items =>
      let items ← keptItems caller frames target condition items
      if items.isEmpty then runAll caller frames empty
      else
        let depth := loopDepth frames
        let turn (state : String × Frame) (item : Value × Nat) : Except Error (String × Frame) := do
          let bound ← bind target item.1
          let frame := ("loop", loopValue depth items item.2) :: bound ++ state.2
          let (s, after) ← runAll caller (frame :: frames) body
          return (state.1 ++ s, after.head?.getD [])
        let (s, _) ← items.zipIdx.foldlM turn ("", [])
        return (s, frames)
  | .define name parameters body =>
    .ok ("", setVariable frames name (.procedure name parameters body frames.length))

/-- The text of some statements and the frames after them. -/
def runAll (caller : Caller) (frames : List Frame) : List Stmt → Except Error (String × List Frame)
  | [] => .ok ("", frames)
  | stmt :: rest => do
    let (s, frames) ← run caller frames stmt
    let (t, frames) ← runAll caller frames rest
    return (s ++ t, frames)

end

/-- The frame of a call: every parameter has its argument by place or by name, else its default. -/
def parameterFrame (caller : Caller) (frames : List Frame) (name : String) :
    List (String × Option Expr) → Arguments → Except Error Frame
  | [], [] => .ok []
  | [], _ :: _ => .error (.badArguments name)
  | (parameter, _) :: parameters, (none, v) :: arguments => do
    return (parameter, v) :: (← parameterFrame caller frames name parameters arguments)
  | (parameter, default) :: parameters, arguments => do
    let v ← match arguments.lookup (some parameter) with
      | some v => pure v
      | none => evaluateOptional caller frames default
    let rest := arguments.filter fun argument => argument.1 != some parameter
    return (parameter, v) :: (← parameterFrame caller frames name parameters rest)

/-- A call, with no more than some calls inside one another. -/
def call : Nat → Caller
  | _, _, .function f, arguments => f.apply arguments
  | 0, _, .procedure .., _ => .error .tooDeep
  | calls + 1, frames, .procedure name parameters body depth, arguments => do
    let outer := frames.drop (frames.length - depth)
    let frame ← parameterFrame (call calls) outer name parameters arguments
    let (s, _) ← runAll (call calls) (frame :: outer) body
    return .text s
  | _, _, _, _ => .error .badOperands

/-- The most calls inside one another. -/
def maxCalls : Nat := 100

/-- The text of a template that is read, and the variables that it sets. -/
def renderAll (stmts : List Stmt) (given : Frame) : Except Error (String × Frame) := do
  let (s, frames) ← runAll (call maxCalls) [[], given, functions] stmts
  return (s, frames.head?.getD [])

/-- The text of a template. -/
def render (tight : Bool) (template : String) (given : Frame) : Except Error String := do
  match read? tight template with
  | none => .error .malformed
  | some stmts => return (← renderAll stmts given).1

end VectorIcon.Template
