import VectorIcon.Icon.Palette
import VectorIcon.Kotlin.Builder
import VectorIcon.Template.Custom

/-!
# Templates with a table of colors

A multicolor template sets a variable `color_mappings`: a table whose keys are colors. An entry puts an
expression in the place of its color, or the name of a parameter whose default is the expression. The
template is used for the icons that are painted with at least one color of its table.
-/

namespace VectorIcon.Template

open Text

/-- The color of a key with six or eight digits; six digits are a solid color. -/
def keyColor? (key : String) : Option (String × Color) := do
  let digits ← after? ['#'] (trim key.toList)
  let word := UInt32.ofNat (← hexNumber? digits)
  if digits.length = 6 then
    return ("#" ++ Color.hexText 6 word, ⟨0xFF000000 ||| word⟩)
  else if digits.length = 8 then return ("#" ++ Color.hexText 8 word, ⟨word⟩)
  else none

/-- What stands in the place of a color. -/
inductive Mapping
  | direct (expression : String)
  | parameter (name default : String)
  deriving Repr, DecidableEq

/-- The text that stands in the place of a color. -/
def Mapping.substitution : Mapping → String
  | .direct expression => expression
  | .parameter name _ => name

/-- A part of an entry that is a text. -/
def textPart? (entry : Value) (name : String) : Option String :=
  (entry.part name).toOption.bind Value.text?

/-- The mapping that an entry of the table gives. -/
def Mapping.ofValue? (entry : Value) : Option Mapping :=
  match entry with
  | .text expression => some (.direct expression)
  | _ =>
    match (textPart? entry "replacement").or (textPart? entry "default_value") with
    | none => none
    | some replacement =>
      match textPart? entry "semantic_name" with
      | some name => some (.parameter name replacement)
      | none => some (.direct replacement)

/-- Mappings under the keys of their colors, in the order of the table. -/
abbrev Mappings := List (String × Mapping)

/-- The mappings with one set under a key. -/
def Mappings.insert (key : String) (mapping : Mapping) : Mappings → Mappings
  | [] => [(key, mapping)]
  | (k, m) :: rest => if k = key then (k, mapping) :: rest else (k, m) :: Mappings.insert key mapping rest

/-- The key and the mapping of an entry. -/
def Mappings.entry? (table key : Value) : Option (String × Mapping) := do
  let (normal, _) ← keyColor? (← key.text?)
  let entry ← (table.item key).toOption
  return (normal, ← Mapping.ofValue? entry)

/-- The mappings of a table. What is no color or has no replacement is left out. -/
def Mappings.ofValue (table : Value) : Mappings :=
  ((table.items?.getD []).filterMap (Mappings.entry? table)).foldl
    (fun mappings entry => Mappings.insert entry.1 entry.2 mappings) []

/-- The colors that are replaced and their texts. -/
def Mappings.overrides (mappings : Mappings) : List (Color × String) :=
  mappings.filterMap fun entry =>
    (keyColor? entry.1).map fun (_, color) => (color, entry.2.substitution)

/-- An icon is painted with the color of one of some keys. -/
def usesKey (icon : Icon) (keys : List String) : Bool :=
  keys.any fun key => (keyColor? key).any fun (normal, _) => icon.palette.contains normal

/-- The variables of a multicolor template. -/
def multicolorVariables (l : Layout) (p : Parts) (icon : Icon) (code : String) : Frame :=
  iconVariables l p ++
    [("build_code_with_color_params", .text code),
      ("used_colors", .list (icon.palette.map .text)),
      ("color_count", .whole icon.palette.length),
      ("is_multicolor", .boolean icon.isMulticolor)]

/-- A template that was read: of variables it makes a text and the variables that it sets, or it fails. -/
abbrev Rendering := Frame → Except Error (String × Frame)

/-- The text of a multicolor template that was read; nothing when its table names no color of the icon. -/
def renderMapped (rendering : Rendering) (l : Layout) (options : Kotlin.Options)
    (overrides : List (Color × String)) (icon : Icon) (name : Name) :
    Except Error (Option String) := do
  let code := Kotlin.builderCode options (.ofEntries overrides) icon
  let p : Parts := ⟨code, Kotlin.required icon, name⟩
  let (_, set) ← rendering (multicolorVariables l p icon code)
  match set.lookup "color_mappings" with
  | none => return none
  | some table =>
    let mappings := Mappings.ofValue table
    if usesKey icon (mappings.map Prod.fst) then
      let mapped := Kotlin.builderCode options (.ofEntries mappings.overrides) icon
      let (s, _) ← rendering (multicolorVariables l p icon mapped)
      return some s
    else return none

/-- The text of a multicolor template. -/
def renderMulticolor (l : Layout) (template : String) (options : Kotlin.Options)
    (overrides : List (Color × String)) (icon : Icon) (name : Name) : Except Error (Option String) :=
  match read? false template with
  | none => .error .malformed
  | some stmts => renderMapped (renderAll stmts) l options overrides icon name

end VectorIcon.Template
