import SchemaTypes.Text.Ascii

/-!
# Help

What the program says about its commands.
-/

namespace SchemaTypes.CommandLine

/-- The name of the program and its version. -/
def versionText : String := "typegen 0.2.7\n"

/-- What there is help on. -/
inductive Page
  | program
  | generate
  | dialects
  | help
  deriving DecidableEq, Repr

namespace Page

open Text (openBrace closeBrace)

/-- What a command does. -/
def summary : Page → String
  | program => "Generate TypeScript types and zod validators from database metadata"
  | generate => "Generate a types module from introspected metadata"
  | dialects => "List supported dialects"
  | help => "Print this message or the help of the given subcommand(s)"

/-- How a command is called. -/
def usage : Page → String
  | program => "Usage: typegen [COMMAND]"
  | generate => "Usage: typegen generate [OPTIONS] --input <FILE>"
  | dialects => "Usage: typegen dialects"
  | help => "Usage: typegen help [COMMAND]..."

/-- What a command takes, by line. -/
def details : Page → List String
  | program =>
    ["Commands:",
     "  generate  " ++ generate.summary,
     "  dialects  " ++ dialects.summary,
     "  help      " ++ help.summary,
     "",
     "Options:",
     "  -h, --help     Print help",
     "  -V, --version  Print version"]
  | generate =>
    ["Options:",
     "  -i, --input <FILE>       Introspected database metadata (JSON)",
     "  -d, --dialect <DIALECT>  Database dialect: bigquery or clickhouse",
     "  -o, --out <FILE>         Output file; stdout when neither this nor `out_file` is set",
     "  -c, --config <FILE>      Config file [default: ./typegen.toml if present]",
     "      --type-only-imports  Emit `import type " ++ openBrace ++ " ... " ++ closeBrace
        ++ "` for imports",
     "  -h, --help               Print help"]
  | dialects =>
    ["Options:",
     "  -h, --help  Print help"]
  | help =>
    ["Arguments:",
     "  [COMMAND]...  Print help for the subcommand(s)"]

/-- The page, as it is printed. -/
def text (p : Page) : String :=
  String.join (([p.summary, "", p.usage, ""] ++ p.details).map (· ++ "\n"))

end Page

end SchemaTypes.CommandLine
