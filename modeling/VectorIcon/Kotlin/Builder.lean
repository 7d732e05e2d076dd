import VectorIcon.Icon.Basic
import VectorIcon.Kotlin.Command
import VectorIcon.Kotlin.Import
import VectorIcon.Kotlin.Paint

/-!
# Code that builds an icon

`builderCode` writes an icon as one expression. Paths and groups are blocks; a block names its arguments
only when they differ from what it has without them. The lines of a block are made without indentation
and moved one level deeper by the block around it.
-/

namespace VectorIcon.Kotlin

open Icon

/-- The layout of generated code. -/
structure Options where
  indentSize : Nat := 2
  /-- The longest line on which the commands of a clip are put together. -/
  maxLineLength : Nat := 120
  namedColors : Bool := true
  trailingCommas : Bool := true
  deriving Repr, DecidableEq

/-- The blanks of one level. -/
def Options.indent (o : Options) : String :=
  String.ofList (List.replicate o.indentSize ' ')

/-- The layout of calls. -/
def Options.calls (o : Options) : CallStyle :=
  ⟨o.indent, o.trailingCommas⟩

/-- The name of a line end. -/
def capName : Cap → String
  | .butt => "Butt"
  | .round => "Round"
  | .square => "Square"

/-- The name of a line corner. -/
def joinName : Join → String
  | .miter => "Miter"
  | .round => "Round"
  | .bevel => "Bevel"

/-- The name of a fill rule. -/
def fillRuleName : FillRule → String
  | .nonZero => "NonZero"
  | .evenOdd => "EvenOdd"

/-- An argument on one line, unless it has its default. -/
def argumentUnless (isDefault : Bool) (label text : String) : List (List String) :=
  if isDefault then [] else [[label ++ " = " ++ text]]

/-- A paint as an argument, when there is one. -/
def paintArgument (options : Options) (colors : ColorStyle) (label : String) :
    Option Paint → List (List String)
  | none => []
  | some paint => [labelled (label ++ " = ") (paintLines options.calls colors paint)]

/-- The arguments of a path that differ from their defaults. -/
def outlineArguments (options : Options) (colors : ColorStyle) (o : Outline) : List (List String) :=
  paintArgument options colors "fill" o.fill
    ++ paintArgument options colors "stroke" o.stroke
    ++ argumentUnless (o.fillAlpha == 1) "fillAlpha" (floatLiteral o.fillAlpha)
    ++ argumentUnless (o.strokeAlpha == 1) "strokeAlpha" (floatLiteral o.strokeAlpha)
    ++ argumentUnless (o.lineWidth == 0) "strokeLineWidth" (floatLiteral o.lineWidth)
    ++ argumentUnless (o.cap == .butt) "strokeLineCap" ("StrokeCap." ++ capName o.cap)
    ++ argumentUnless (o.join == .miter) "strokeLineJoin" ("StrokeJoin." ++ joinName o.join)
    ++ argumentUnless (o.miterLimit == 4) "strokeLineMiter" (floatLiteral o.miterLimit)
    ++ argumentUnless (o.fillRule == .nonZero) "pathFillType"
      ("PathFillType." ++ fillRuleName o.fillRule)

/-- A clip on a single line. -/
def clipLine (clip : List (Path.Command Float)) : String :=
  "clipPathData = listOf(" ++ ", ".intercalate (clip.map pathNode) ++ ")"

/-- The entries of a clip, one to a line. -/
def clipEntries (indent : String) : List String → List String
  | [] => []
  | [last] => [indent ++ last]
  | entry :: rest => (indent ++ entry ++ ",") :: clipEntries indent rest

/-- The clip of a group as an argument at a depth: on one line when that line fits with a comma. -/
def clipArgument (options : Options) (depth : Nat) (clip : List (Path.Command Float)) :
    List (List String) :=
  if clip.isEmpty then []
  else if options.indentSize * depth + (clipLine clip).length + 1 ≤ options.maxLineLength then
    [[clipLine clip]]
  else ["clipPathData = listOf(" :: clipEntries options.indent (clip.map pathNode) ++ [")"]]

/-- The arguments of a group at a depth that differ from their defaults. -/
def placementArguments (options : Options) (depth : Nat) (p : Placement) : List (List String) :=
  (p.name.map fun name => ["name = " ++ stringLiteral name]).toList
    ++ argumentUnless (p.rotation == 0) "rotate" (floatLiteral p.rotation)
    ++ argumentUnless (p.pivotX == 0) "pivotX" (floatLiteral p.pivotX)
    ++ argumentUnless (p.pivotY == 0) "pivotY" (floatLiteral p.pivotY)
    ++ argumentUnless (p.scaleX == 1) "scaleX" (floatLiteral p.scaleX)
    ++ argumentUnless (p.scaleY == 1) "scaleY" (floatLiteral p.scaleY)
    ++ argumentUnless (p.translationX == 0) "translationX" (floatLiteral p.translationX)
    ++ argumentUnless (p.translationY == 0) "translationY" (floatLiteral p.translationY)
    ++ clipArgument options (depth + 1) p.clip

/-- The first lines of a block. -/
def blockHead (options : Options) (name : String) (arguments : List (List String)) : List String :=
  if arguments.isEmpty then [name ++ " \x7b"]
  else endedWith " \x7b" (options.calls.call name arguments)

/-- A block with a head and a body. -/
def block (options : Options) (head body : List String) : List String :=
  head ++ options.calls.nested body ++ ["\x7d"]

/-- The lines of a path. -/
def outlineLines (options : Options) (colors : ColorStyle) (o : Outline) : List String :=
  let arguments := if o.isStyled then outlineArguments options colors o else []
  block options (blockHead options "path" arguments) (o.commands.map builderCall)

mutual

/-- The lines of a part at a depth, without the indentation of that depth. -/
def nodeLines (options : Options) (colors : ColorStyle) (depth : Nat) : Node → List String
  | .path outline => outlineLines options colors outline
  | .group placement children =>
    block options (blockHead options "group" (placementArguments options depth placement))
      (nodesLines options colors (depth + 1) children)

/-- The lines of a list of parts at a depth. -/
def nodesLines (options : Options) (colors : ColorStyle) (depth : Nat) : List Node → List String
  | [] => []
  | node :: rest => nodeLines options colors depth node ++ nodesLines options colors depth rest

end

/-- The arguments of an icon. -/
def iconArguments (colors : ColorStyle) (icon : Icon) : List (List String) :=
  [["name = " ++ stringLiteral icon.name],
    ["defaultWidth = " ++ sizeLiteral icon.width],
    ["defaultHeight = " ++ sizeLiteral icon.height],
    ["viewportWidth = " ++ floatLiteral icon.viewportWidth],
    ["viewportHeight = " ++ floatLiteral icon.viewportHeight]]
    ++ (icon.tint.map fun tint => ["tintColor = " ++ colors.expression tint]).toList
    ++ (if icon.autoMirror then [["autoMirror = true"]] else [])

/-- The lines of the code of an icon. -/
def builderLines (options : Options) (overrides : Overrides) (icon : Icon) : List String :=
  let colors := ⟨options.namedColors, overrides⟩
  endedWith ".apply \x7b" (options.calls.call "ImageVector.Builder" (iconArguments colors icon))
    ++ options.calls.nested (nodesLines options colors 1 icon.nodes) ++ ["\x7d.build()"]

/-- The code of an icon. -/
def builderCode (options : Options) (overrides : Overrides) (icon : Icon) : String :=
  "\n".intercalate (builderLines options overrides icon)

/-- Code with the full names that it needs. -/
structure Generated where
  code : String
  imports : List String
  deriving Repr, DecidableEq

/-- The code of an icon with its imports. -/
def generate (options : Options) (overrides : Overrides) (icon : Icon) : Generated :=
  ⟨builderCode options overrides icon, required icon⟩

end VectorIcon.Kotlin
