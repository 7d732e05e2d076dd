import VectorIcon.Text.Blank

/-!
# Words and letter case

A text is read as words: runs of ASCII letters and digits, cut again where a capital follows a small
letter, so that `homeIcon` and `home-icon` have the same words. The case conversions join these words.
-/

namespace VectorIcon.Name

open Text

/-- Two neighbours of one run that belong to one word. -/
def joins (a b : Char) : Bool :=
  !(a.isLower && b.isUpper)

/-- The words of a text. -/
def words (s : List Char) : List (List Char) :=
  (fields (fun c => !isAlphanumeric c) s).flatMap fun run => run.splitBy joins

/-- A word that starts with a capital and goes on in small letters. -/
def capitalize : List Char → List Char
  | [] => []
  | c :: rest => c.toUpper :: lower rest

/-- A text that starts with a small letter. -/
def lowerFirst : List Char → List Char
  | [] => []
  | c :: rest => c.toLower :: rest

/-- The words as in `HomeIcon`. -/
def pascal (s : List Char) : List Char :=
  (words s).flatMap capitalize

/-- The words as in `homeIcon`. -/
def camel (s : List Char) : List Char :=
  lowerFirst (pascal s)

/-- The words as in `home_icon`. -/
def snake (s : List Char) : List Char :=
  ['_'].intercalate ((words s).map lower)

/-- A text as in `HomeIcon`. -/
def pascalCase (text : String) : String :=
  String.ofList (pascal text.toList)

/-- A text as in `homeIcon`. -/
def camelCase (text : String) : String :=
  String.ofList (camel text.toList)

/-- A text as in `home_icon`. -/
def snakeCase (text : String) : String :=
  String.ofList (snake text.toList)

theorem words_nil : words [] = [] := by
  simp [words, fields]

example : pascalCase "home-icon 2go" = "HomeIcon2go" := by decide +kernel

example : camelCase "HTTPServer_a" = "httpserverA" := by decide +kernel

example : snakeCase "homeIcon--B" = "home_icon_b" := by decide +kernel

end VectorIcon.Name
