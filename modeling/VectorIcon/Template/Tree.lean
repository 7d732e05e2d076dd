/-!
# Templates as trees

Expressions give values; statements give text and set variables.
-/

namespace VectorIcon.Template

/-- A sign between two operands, both of which are always evaluated. -/
inductive Operator
  | equal
  | unequal
  | less
  | atMost
  | greater
  | atLeast
  | contained
  | plus
  | minus
  | join
  | times
  | divide
  | divideWhole
  | remainder
  | power
  deriving Repr, DecidableEq

/-- A value that stands in a template. -/
inductive Literal
  | none
  | boolean (value : Bool)
  | whole (value : Nat)
  | decimal (value : Float)
  | text (value : String)
  deriving Repr, DecidableEq

/-- An expression. An argument of a call may have a name. -/
inductive Expr
  | literal (value : Literal)
  | variable (name : String)
  | list (items : List Expr)
  | record (entries : List (Expr × Expr))
  | part (of : Expr) (name : String)
  | item (of index : Expr)
  | slice (of : Expr) (start stop step : Option Expr)
  | call (callee : Expr) (arguments : List (Option String × Expr))
  | filter (name : String) (of : Expr) (arguments : List (Option String × Expr))
  | test (name : String) (of : Expr) (arguments : List (Option String × Expr))
  | negative (of : Expr)
  | not (of : Expr)
  | and (left right : Expr)
  | or (left right : Expr)
  | binary (operator : Operator) (left right : Expr)
  | choice (condition yes : Expr) (no : Option Expr)
  deriving Repr

/-- What a value is bound to: a name, or names for its items. -/
inductive Target
  | name (name : String)
  | parts (targets : List Target)
  deriving Repr

/-- A statement. -/
inductive Stmt
  | text (s : String)
  | output (e : Expr)
  | assign (target : Target) (e : Expr)
  | capture (name : String) (filters : List (String × List (Option String × Expr))) (body : List Stmt)
  | choose (condition : Expr) (yes no : List Stmt)
  | each (target : Target) (items : Expr) (condition : Option Expr) (body empty : List Stmt)
  | define (name : String) (parameters : List (String × Option Expr)) (body : List Stmt)
  deriving Repr

end VectorIcon.Template
