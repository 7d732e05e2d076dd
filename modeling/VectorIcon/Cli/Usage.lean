/-!
# The help text
-/

namespace VectorIcon.Cli

/-- How the program is used. -/
def usage : String :=
  "\n".intercalate
    ["svg2compose",
      "",
      "USAGE:",
      "svg2compose convert [-o <out>] [-n <name>] [-t <template>] [--template-file <path>] " ++
        "[--config <path>] [OPTIONS] [<path>|-]",
      "svg2compose batch <dir> [-o <out-dir>] [-t <template>] [--dry-run] [--overwrite] " ++
        "[--no-namespace-dirs] [--config <path>] [OPTIONS]",
      "svg2compose info [--json] [--lenient] [<path>|-]",
      "svg2compose templates",
      "svg2compose version",
      "",
      "OPTIONS:",
      "--lenient              drop malformed paths (with a warning) instead of failing",
      "--indent <n>           indentation width of the generated code",
      "--no-named-colors      always emit Color(0xAARRGGBB) literals",
      "--no-trailing-comma    omit trailing commas in argument lists",
      "--flat-imports         do not group imports by package",
      "--multicolor-template <path>",
      "template with a color_mappings table, used for icons painting a mapped color",
      "",
      "NOTES:",
      "- If <path> is omitted or '-', input is read from stdin.",
      "- convert prints Kotlin to stdout by default; use -o to write a file.",
      "- batch writes <out-dir>/<namespace>/<Name>.kt for every .svg under <dir>; subdirectories",
      "become the icon namespace. The default batch template is val_declaration.",
      "- Set RUST_LOG (e.g. RUST_LOG=debug) to see conversion diagnostics on stderr.",
      ""]

/-- The version of the program. -/
def version : String := "svg2compose 0.1.0"

end VectorIcon.Cli
