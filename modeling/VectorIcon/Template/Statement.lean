import VectorIcon.Template.Piece
import VectorIcon.Template.Expression

/-!
# Reading statements

The pieces of a template make a tree: a block that opens a body goes on to the block that ends it. A body
that is never ended, and an end without a body, make the template malformed.

The blocks of the language are choices, loops, bindings and macros (`readBlock?`). Its blocks for scopes
(`with`), filtered text (`filter`), calls with a body (`call`, `do`), escaping (`autoescape`) and parts of
other templates (`block`, `extends`, `include`, `import`, `from`) are left out: a template with one of them is
malformed here.
-/

namespace VectorIcon.Template

/-- The words that nothing can be bound to. -/
def reserved : List String :=
  ["true", "True", "false", "False", "none", "None", "loop", "self"]

/-- The name at the start of some tokens, and the rest. -/
def readName? : List Token → Option (String × List Token)
  | .word name :: rest => if reserved.contains name then none else some (name, rest)
  | _ => none

/-- Names with commas between them, and the rest. -/
def readNames? : Nat → List Token → Option (List Target × List Token)
  | 0, _ => none
  | fuel + 1, ts => do
    let (target, ts) ← match skipSign? "(" ts with
      | some ts => do
        let (targets, ts) ← readNames? fuel ts
        let ts ← skipSign? ")" ts
        pure (Target.parts targets, ts)
      | none => do
        let (name, ts) ← readName? ts
        pure (Target.name name, ts)
    match skipSign? "," ts with
    | none => return ([target], ts)
    | some ts =>
      let (targets, ts) ← readNames? fuel ts
      return (target :: targets, ts)

/-- What a value is bound to, and the rest. -/
def readTarget? (ts : List Token) : Option (Target × List Token) := do
  let (targets, ts) ← readNames? (ts.length + 1) ts
  match targets with
  | [target] => return (target, ts)
  | _ => return (.parts targets, ts)

/-- The parameters of a procedure after its parenthesis. One with a default is not followed by one
without. -/
def readParameters? : Nat → Bool → List Token → Option (List (String × Option Expr) × List Token)
  | 0, _, _ => none
  | fuel + 1, defaultsOnly, ts =>
    match skipSign? ")" ts with
    | some ts => some ([], ts)
    | none => do
      let (name, ts) ← readName? ts
      let (default, ts) ← match skipSign? "=" ts with
        | some ts => do
          let (e, ts) ← expression? ts
          pure (some e, ts)
        | none => if defaultsOnly then none else some (none, ts)
      match skipSign? "," ts with
      | some ts =>
        let (more, ts) ← readParameters? fuel default.isSome ts
        return ((name, default) :: more, ts)
      | none => return ([(name, default)], ← skipSign? ")" ts)

/-- Filters with their signs, to the end of the tag. -/
def readFilterChain? : Nat → List Token → Option (List (String × List (Option String × Expr)))
  | 0, _ => none
  | fuel + 1, ts =>
    match ts with
    | [] => some []
    | .sign "|" :: .word name :: .sign "(" :: rest => do
      let (arguments, rest) ← readArguments? (fuelFor rest) rest
      return (name, arguments) :: (← readFilterChain? fuel rest)
    | .sign "|" :: .word name :: rest => do
      return (name, []) :: (← readFilterChain? fuel rest)
    | _ => none

/-- A block that ends a body: its word, the tokens after it, and the pieces after it. -/
structure Stop where
  word : String
  tokens : List Token
  rest : List Piece

mutual

/-- The statements up to a block that starts with one of the given words. -/
def readBody? : Nat → List String → List Piece → Option (List Stmt × Stop)
  | 0, _, _ => none
  | _ + 1, _, [] => none
  | fuel + 1, stops, .text s :: rest => do
    let (stmts, stop) ← readBody? fuel stops rest
    return (.text s :: stmts, stop)
  | fuel + 1, stops, .output ts :: rest => do
    let e ← wholeExpression? ts
    let (stmts, stop) ← readBody? fuel stops rest
    return (.output e :: stmts, stop)
  | fuel + 1, stops, .block ts :: rest =>
    match ts with
    | .word word :: ts =>
      if stops.contains word then some ([], ⟨word, ts, rest⟩)
      else do
        let (stmt, rest) ← readBlock? fuel word ts rest
        let (stmts, stop) ← readBody? fuel stops rest
        return (stmt :: stmts, stop)
    | _ => none

/-- The statement that a block starts, and the pieces after it. -/
def readBlock? : Nat → String → List Token → List Piece → Option (Stmt × List Piece)
  | 0, _, _, _ => none
  | fuel + 1, word, ts, rest =>
    match word with
    | "if" => readChoose? fuel ts rest
    | "for" => do
      let (target, ts) ← readTarget? ts
      let ts ← skipWord? "in" ts
      let (items, ts) ← plainExpression? ts
      let condition ← match skipWord? "if" ts with
        | some ts => (wholeExpression? ts).map some
        | none => if ts.isEmpty then some none else none
      let (body, stop) ← readBody? fuel ["endfor", "else"] rest
      let (empty, stop) ← match stop.word with
        | "else" => if stop.tokens.isEmpty then readBody? fuel ["endfor"] stop.rest else none
        | _ => some ([], stop)
      if stop.tokens.isEmpty then return (.each target items condition body empty, stop.rest) else none
    | "set" => do
      let (target, ts) ← readTarget? ts
      match skipSign? "=" ts, target with
      | some ts, _ =>
        let e ← wholeExpression? ts
        return (.assign target e, rest)
      | none, .name name =>
        let filters ← readFilterChain? (ts.length + 1) ts
        let (body, stop) ← readBody? fuel ["endset"] rest
        if stop.tokens.isEmpty then return (.capture name filters body, stop.rest) else none
      | none, _ => none
    | "macro" => do
      let (name, ts) ← readName? ts
      let ts ← skipSign? "(" ts
      let (parameters, ts) ← readParameters? (ts.length + 1) false ts
      let (body, stop) ← readBody? fuel ["endmacro"] rest
      if ts.isEmpty && stop.tokens.isEmpty then return (.define name parameters body, stop.rest) else none
    | _ => none

/-- A choice after its word: the condition, the body, and the choices or the body for the other case. -/
def readChoose? : Nat → List Token → List Piece → Option (Stmt × List Piece)
  | 0, _, _ => none
  | fuel + 1, ts, rest => do
    let condition ← wholeExpression? ts
    let (yes, stop) ← readBody? fuel ["endif", "else", "elif"] rest
    match stop.word with
    | "elif" =>
      let (no, rest) ← readChoose? fuel stop.tokens stop.rest
      return (.choose condition yes [no], rest)
    | "else" =>
      let (no, last) ← readBody? fuel ["endif"] stop.rest
      if stop.tokens.isEmpty && last.tokens.isEmpty then return (.choose condition yes no, last.rest)
      else none
    | _ => if stop.tokens.isEmpty then return (.choose condition yes [], stop.rest) else none

end

/-- The end of a template, as a block without a word. -/
def endOfTemplate : Piece :=
  .block [.word ""]

/-- The statements of a template, in the tight layout or as it is written. -/
def read? (tight : Bool) (template : String) : Option (List Stmt) := do
  let pieces ← pieces? tight template
  let (stmts, stop) ← readBody? (3 * (pieces.length + 1)) [""] (pieces ++ [endOfTemplate])
  if stop.rest.isEmpty then return stmts else none

end VectorIcon.Template
