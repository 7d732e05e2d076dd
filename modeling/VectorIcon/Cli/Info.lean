import VectorIcon.Cli.Convert
import VectorIcon.Json.Printer
import VectorIcon.Svg.Json

/-!
# Describing a drawing
-/

namespace VectorIcon.Cli

open Icon

/-- A paint in a few words. -/
def paintSummary : Paint → String
  | .solid color => Kotlin.colorExpression color true
  | .linear _ _ stops => "linear gradient (" ++ toString stops.length ++ " stops)"
  | .radial _ _ _ stops => "radial gradient (" ++ toString stops.length ++ " stops)"

/-- The lines about a part of an icon. -/
def nodeLines (index : Nat) : Node → List String
  | .path o =>
    ["  Path " ++ toString (index + 1) ++ ": " ++ toString o.commands.length ++ " commands"]
      ++ (o.fill.map fun paint => "    Fill: " ++ paintSummary paint).toList
      ++ (o.stroke.map fun paint => "    Stroke: " ++ paintSummary paint).toList
  | .group _ children =>
    ["  Group " ++ toString (index + 1) ++ ": " ++ toString children.length ++ " children"]

/-- The lines about an icon. -/
def iconLines (icon : Icon) : List String :=
  ["Dimensions: " ++ Number.display icon.width ++ "x" ++ Number.display icon.height ++ " dp",
    "Viewport: " ++ Number.display icon.viewportWidth ++ "x" ++ Number.display icon.viewportHeight,
    "Vector name: " ++ icon.name,
    "Auto-mirror: " ++ toString icon.autoMirror,
    "Nodes: " ++ toString icon.nodes.length ++ " (" ++ toString icon.pathCount ++ " paths)"]
    ++ icon.nodes.zipIdx.flatMap fun (node, index) => nodeLines index node

/-- The lines about warnings. -/
def warningLines (warnings : Warning.Log) : List String :=
  if warnings.isEmpty then []
  else ("Warnings: " ++ toString warnings.length) :: warnings.map fun w => "  - " ++ w.message

/-- What is printed about a drawing. -/
def description (a : Arguments) (drawing : Svg.Drawing) : List String :=
  if a.json then [drawing.toJson.pretty]
  else ("File: " ++ a.input.getD "-") :: iconLines drawing.icon ++ warningLines drawing.warnings

variable {m : Type → Type} [Monad m]

/-- Describes a drawing. -/
def runInfo (host : Host m) (a : Arguments) : ExceptT Error m Unit := do
  let text ← readInput host a
  match Svg.parse a.mode text with
  | .error error => throw (.conversion (.drawing error))
  | .ok drawing => (description a drawing).forM fun line => host.printLine line

end VectorIcon.Cli
