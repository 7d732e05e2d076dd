import VectorIcon.Template.Token
import VectorIcon.Template.Tree

/-!
# Reading expressions

Operators bind by level: a choice, `or`, `and`, `not`, comparisons, sums, joins, products, and last what
stands behind a value: its parts, calls, filters and tests. Every step of the readers takes one unit of
fuel; a list of tokens gets enough for all levels at each token.
-/

namespace VectorIcon.Template

/-- The tokens after a sign. -/
def skipSign? (mark : String) : List Token → Option (List Token)
  | .sign m :: rest => if m = mark then some rest else none
  | _ => none

/-- The tokens after a word. -/
def skipWord? (word : String) : List Token → Option (List Token)
  | .word w :: rest => if w = word then some rest else none
  | _ => none

/-- How strongly an operator binds. -/
inductive Level
  | either
  | both
  | negation
  | comparison
  | sum
  | joining
  | product
  | unary
  deriving Repr, DecidableEq

/-- The next stronger level. -/
def Level.next : Level → Level
  | .either => .both
  | .both => .negation
  | .negation => .comparison
  | .comparison => .sum
  | .sum => .joining
  | .joining => .product
  | .product => .unary
  | .unary => .unary

/-- The expression that an operator of a level makes of its operands, and the tokens after it. -/
def Level.operator? : Level → List Token → Option ((Expr → Expr → Expr) × List Token)
  | .either, .word "or" :: rest => some (.or, rest)
  | .both, .word "and" :: rest => some (.and, rest)
  | .comparison, .sign "==" :: rest => some (.binary .equal, rest)
  | .comparison, .sign "!=" :: rest => some (.binary .unequal, rest)
  | .comparison, .sign "<" :: rest => some (.binary .less, rest)
  | .comparison, .sign "<=" :: rest => some (.binary .atMost, rest)
  | .comparison, .sign ">" :: rest => some (.binary .greater, rest)
  | .comparison, .sign ">=" :: rest => some (.binary .atLeast, rest)
  | .comparison, .word "in" :: rest => some (.binary .contained, rest)
  | .comparison, .word "not" :: .word "in" :: rest =>
    some (fun a b => .not (.binary .contained a b), rest)
  | .sum, .sign "+" :: rest => some (.binary .plus, rest)
  | .sum, .sign "-" :: rest => some (.binary .minus, rest)
  | .joining, .sign "~" :: rest => some (.binary .join, rest)
  | .product, .sign "*" :: rest => some (.binary .times, rest)
  | .product, .sign "/" :: rest => some (.binary .divide, rest)
  | .product, .sign "//" :: rest => some (.binary .divideWhole, rest)
  | .product, .sign "%" :: rest => some (.binary .remainder, rest)
  | _, _ => none

/-- A test without parentheses takes the value that starts here as its argument. -/
def startsArgument : List Token → Bool
  | .word w :: _ => !(["and", "or", "else", "is"].contains w)
  | .text _ :: _ | .whole _ :: _ | .decimal _ :: _ => true
  | .sign mark :: _ => ["+", "-", "[", "\x7b"].contains mark
  | [] => false

/-- The value of a word that is no variable. -/
def literalWord? : String → Option Literal
  | "true" | "True" => some (.boolean true)
  | "false" | "False" => some (.boolean false)
  | "none" | "None" => some .none
  | _ => none

mutual

/-- A choice, or what binds stronger. -/
def readExpr? : Nat → List Token → Option (Expr × List Token)
  | 0, _ => none
  | fuel + 1, ts => do
    let (e, ts) ← readLevel? fuel .either ts
    readChoice? fuel e ts

/-- The conditions behind an expression. -/
def readChoice? : Nat → Expr → List Token → Option (Expr × List Token)
  | 0, _, _ => none
  | fuel + 1, e, ts =>
    match skipWord? "if" ts with
    | none => some (e, ts)
    | some ts => do
      let (condition, ts) ← readLevel? fuel .either ts
      match skipWord? "else" ts with
      | none => readChoice? fuel (.choice condition e none) ts
      | some ts =>
        let (other, ts) ← readExpr? fuel ts
        readChoice? fuel (.choice condition e (some other)) ts

/-- An expression whose operators are of a level or stronger. -/
def readLevel? : Nat → Level → List Token → Option (Expr × List Token)
  | 0, _, _ => none
  | fuel + 1, level, ts =>
    match level with
    | .negation =>
      match skipWord? "not" ts with
      | some ts => do
        let (e, ts) ← readLevel? fuel .negation ts
        return (.not e, ts)
      | none => readLevel? fuel .comparison ts
    | .unary => do
      let (e, ts) ← readSigned? fuel ts
      let (e, ts) ← readParts? fuel e ts
      readFilters? fuel e ts
    | _ => do
      let (e, ts) ← readLevel? fuel level.next ts
      readChain? fuel level e ts

/-- The operators of one level behind their first operand. -/
def readChain? : Nat → Level → Expr → List Token → Option (Expr × List Token)
  | 0, _, _, _ => none
  | fuel + 1, level, left, ts =>
    match level.operator? ts with
    | none => some (left, ts)
    | some (build, ts) => do
      let (right, ts) ← readLevel? fuel level.next ts
      readChain? fuel level (build left right) ts

/-- A value with minus signs before it. -/
def readSigned? : Nat → List Token → Option (Expr × List Token)
  | 0, _ => none
  | fuel + 1, ts =>
    match skipSign? "-" ts with
    | some ts => do
      let (e, ts) ← readSigned? fuel ts
      return (.negative e, ts)
    | none => do
      let (e, ts) ← readPrimary? fuel ts
      readPowers? fuel e ts

/-- The powers behind a value. -/
def readPowers? : Nat → Expr → List Token → Option (Expr × List Token)
  | 0, _, _ => none
  | fuel + 1, left, ts =>
    match skipSign? "**" ts with
    | none => some (left, ts)
    | some ts => do
      let (right, ts) ← readPrimary? fuel ts
      readPowers? fuel (.binary .power left right) ts

/-- The attributes, items and calls behind a value. -/
def readParts? : Nat → Expr → List Token → Option (Expr × List Token)
  | 0, _, _ => none
  | fuel + 1, e, ts =>
    match ts with
    | .sign "." :: .word name :: rest => readParts? fuel (.part e name) rest
    | .sign "." :: .whole n :: rest => readParts? fuel (.item e (.literal (.whole n))) rest
    | .sign "." :: _ => none
    | .sign "[" :: rest => do
      let (part, rest) ← readSubscript? fuel e rest
      readParts? fuel part rest
    | .sign "(" :: rest => do
      let (arguments, rest) ← readArguments? fuel rest
      readParts? fuel (.call e arguments) rest
    | _ => some (e, ts)

/-- An item or a slice, after the bracket. -/
def readSubscript? : Nat → Expr → List Token → Option (Expr × List Token)
  | 0, _, _ => none
  | fuel + 1, e, ts => do
    let (start, ts) ← readBound? fuel [":"] ts
    match skipSign? ":" ts with
    | none =>
      let index ← start
      let ts ← skipSign? "]" ts
      return (.item e index, ts)
    | some ts =>
      let (stop, ts) ← readBound? fuel ["]", ":"] ts
      match skipSign? ":" ts with
      | none =>
        let ts ← skipSign? "]" ts
        return (.slice e start stop none, ts)
      | some ts =>
        let (step, ts) ← readBound? fuel ["]"] ts
        let ts ← skipSign? "]" ts
        return (.slice e start stop step, ts)

/-- An expression, or nothing when one of the given signs stands in its place. -/
def readBound? : Nat → List String → List Token → Option (Option Expr × List Token)
  | 0, _, _ => none
  | fuel + 1, marks, ts =>
    if marks.any fun mark => (skipSign? mark ts).isSome then some (none, ts)
    else do
      let (e, ts) ← readExpr? fuel ts
      return (some e, ts)

/-- The arguments of a call, after the parenthesis. Those with names come last. -/
def readArguments? : Nat → List Token → Option (List (Option String × Expr) × List Token)
  | 0, _ => none
  | fuel + 1, ts =>
    match ts with
    | .sign ")" :: rest => some ([], rest)
    | .word name :: .sign "=" :: rest => do
      let (e, rest) ← readExpr? fuel rest
      let (more, rest) ← readMoreArguments? fuel rest
      if more.all fun argument => argument.1.isSome then return ((some name, e) :: more, rest) else none
    | _ => do
      let (e, ts) ← readExpr? fuel ts
      let (more, ts) ← readMoreArguments? fuel ts
      return ((none, e) :: more, ts)

/-- The arguments after one, with the sign before them. -/
def readMoreArguments? : Nat → List Token → Option (List (Option String × Expr) × List Token)
  | 0, _ => none
  | fuel + 1, ts =>
    match ts with
    | .sign ")" :: rest => some ([], rest)
    | .sign "," :: rest => readArguments? fuel rest
    | _ => none

/-- The filters and tests behind a value. -/
def readFilters? : Nat → Expr → List Token → Option (Expr × List Token)
  | 0, _, _ => none
  | fuel + 1, e, ts =>
    match ts with
    | .sign "|" :: .word name :: .sign "(" :: rest => do
      let (arguments, rest) ← readArguments? fuel rest
      readFilters? fuel (.filter name e arguments) rest
    | .sign "|" :: .word name :: rest => readFilters? fuel (.filter name e []) rest
    | .sign "|" :: _ => none
    | .word "is" :: .word "not" :: rest => do
      let (test, rest) ← readTest? fuel e rest
      readFilters? fuel (.not test) rest
    | .word "is" :: rest => do
      let (test, rest) ← readTest? fuel e rest
      readFilters? fuel test rest
    | _ => some (e, ts)

/-- A test after its word. -/
def readTest? : Nat → Expr → List Token → Option (Expr × List Token)
  | 0, _, _ => none
  | fuel + 1, e, ts =>
    match ts with
    | .word name :: .sign "(" :: rest => do
      let (arguments, rest) ← readArguments? fuel rest
      return (.test name e arguments, rest)
    | .word name :: rest =>
      if startsArgument rest then do
        let (argument, rest) ← readSigned? fuel rest
        let (argument, rest) ← readParts? fuel argument rest
        return (.test name e [(none, argument)], rest)
      else some (.test name e [], rest)
    | _ => none

/-- A literal, a variable, or something in brackets. -/
def readPrimary? : Nat → List Token → Option (Expr × List Token)
  | 0, _ => none
  | fuel + 1, ts =>
    match ts with
    | .word name :: rest =>
      match literalWord? name with
      | some literal => some (.literal literal, rest)
      | none => some (.variable name, rest)
    | .text value :: rest => some (.literal (.text value), rest)
    | .whole value :: rest => some (.literal (.whole value), rest)
    | .decimal value :: rest => some (.literal (.decimal value), rest)
    | .sign "(" :: .sign ")" :: rest => some (.list [], rest)
    | .sign "(" :: rest => do
      let (e, rest) ← readExpr? fuel rest
      match skipSign? "," rest with
      | none => return (e, ← skipSign? ")" rest)
      | some rest =>
        let (items, rest) ← readItems? fuel ")" rest
        return (.list (e :: items), rest)
    | .sign "[" :: rest => do
      let (items, rest) ← readItems? fuel "]" rest
      return (.list items, rest)
    | .sign "\x7b" :: rest => do
      let (entries, rest) ← readEntries? fuel rest
      return (.record entries, rest)
    | _ => none

/-- The items up to a closing sign. -/
def readItems? : Nat → String → List Token → Option (List Expr × List Token)
  | 0, _, _ => none
  | fuel + 1, mark, ts =>
    match skipSign? mark ts with
    | some ts => some ([], ts)
    | none => do
      let (e, ts) ← readExpr? fuel ts
      match skipSign? "," ts with
      | some ts =>
        let (items, ts) ← readItems? fuel mark ts
        return (e :: items, ts)
      | none => return ([e], ← skipSign? mark ts)

/-- The entries of a record up to its brace. -/
def readEntries? : Nat → List Token → Option (List (Expr × Expr) × List Token)
  | 0, _ => none
  | fuel + 1, ts =>
    match skipSign? "\x7d" ts with
    | some ts => some ([], ts)
    | none => do
      let (key, ts) ← readExpr? fuel ts
      let ts ← skipSign? ":" ts
      let (value, ts) ← readExpr? fuel ts
      match skipSign? "," ts with
      | some ts =>
        let (entries, ts) ← readEntries? fuel ts
        return ((key, value) :: entries, ts)
      | none => return ([(key, value)], ← skipSign? "\x7d" ts)

end

/-- Fuel for the readers of a list of tokens. -/
def fuelFor (ts : List Token) : Nat :=
  24 * (ts.length + 1)

/-- The expression at the start of some tokens, and the rest. -/
def expression? (ts : List Token) : Option (Expr × List Token) :=
  readExpr? (fuelFor ts) ts

/-- The expression without a condition at the start of some tokens, and the rest. -/
def plainExpression? (ts : List Token) : Option (Expr × List Token) :=
  readLevel? (fuelFor ts) .either ts

/-- The expression that some tokens are. -/
def wholeExpression? (ts : List Token) : Option Expr :=
  match expression? ts with
  | some (e, []) => some e
  | _ => none

end VectorIcon.Template
