import VectorIcon.FileSystem.Path
import VectorIcon.Name.Case
import VectorIcon.Svg.Document

/-!
# Names of icons

A dotted name is a list of categories. The last one is the icon itself and the others are its namespace.
Each category is cleaned to letters and digits with single underscores between them.
-/

namespace VectorIcon

/-- A name: the text that it was read from, its categories, and the icon's own part. -/
structure Name where
  raw : String
  categories : List String
  own : String
  deriving Repr, DecidableEq

namespace Name

open Text

/-- The runs of letters and digits of a text, with an underscore between them. -/
def clean (s : List Char) : List Char :=
  ['_'].intercalate (fields (fun c => !isAlphanumeric c) s)

/-- The name that a text stands for, its categories set apart by a separator. -/
def ofText (text : String) (separator : Char := '.') : Name :=
  let categories := ((text.toList.splitOn separator).map clean).filter fun part => !part.isEmpty
  let categories := categories.map String.ofList
  ⟨text, categories, categories.getLast?.getD Svg.defaultName⟩

/-- The stem of a file name with underscores for hyphens and spaces. -/
def stemText (file : FilePath) : String :=
  match file.stem? with
  | some stem =>
    String.ofList (stem.toList.map fun c => if c = '-' ∨ c = ' ' then '_' else c)
  | none => ""

/-- The name that is given and not blank, else the one of a file. -/
def ofFile (file : FilePath) (given : Option String) (separator : Char := '.') : Name :=
  let given := (given.map fun name => trim name.toList).filter fun name => !name.isEmpty
  match given with
  | some name => ofText (String.ofList name) separator
  | none => ofText (stemText file) separator

/-- The categories before the last one. -/
def namespaceParts (n : Name) : List String :=
  n.categories.dropLast

/-- Parts with points between them. -/
def dotted (parts : List String) : String :=
  ".".intercalate parts

/-- Parts in the case of `Navigation.ArrowBack`. -/
def dottedPascal (parts : List String) : String :=
  dotted (parts.map pascalCase)

/-- Parts in the case of `navigation.ArrowBack`. -/
def dottedCamel : List String → String
  | [] => ""
  | first :: rest => dotted (camelCase first :: rest.map pascalCase)

/-- The namespace. -/
def namespaceText (n : Name) : String := dotted n.namespaceParts

/-- The namespace in the case of `Navigation`. -/
def namespacePascal (n : Name) : String := dottedPascal n.namespaceParts

/-- The namespace in the case of `navigation.Bar`. -/
def namespaceCamel (n : Name) : String := dottedCamel n.namespaceParts

/-- The icon's own part in the case of `ArrowBack`. -/
def ownPascal (n : Name) : String := pascalCase n.own

/-- The icon's own part in the case of `arrowBack`. -/
def ownCamel (n : Name) : String := camelCase n.own

/-- All categories. -/
def full (n : Name) : String := dotted n.categories

/-- All categories in the case of `Navigation.ArrowBack`. -/
def fullPascal (n : Name) : String := dottedPascal n.categories

/-- All categories in the case of `navigation.ArrowBack`. -/
def fullCamel (n : Name) : String := dottedCamel n.categories

end Name

end VectorIcon
