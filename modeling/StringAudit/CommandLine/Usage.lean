/-!
# The texts of the command line
-/

namespace StringAudit.CommandLine

/-- How the program is called. -/
def usage : String :=
  "usage: abandoned-strings [-h] [--storyboard] [--write] [--workers WORKERS]\n" ++
  "                         [--config CONFIG] [--json JSON_PATH] [--quiet]\n" ++
  "                         [roots ...]\n"

/-- What the program does, and what its arguments mean. -/
def help : String :=
  usage ++ "\n" ++
  "Find string identifiers in .strings files that no source file references.\n\n" ++
  "positional arguments:\n" ++
  "  roots              Root directories holding source and .strings files\n\n" ++
  "options:\n" ++
  "  -h, --help         show this help message and exit\n" ++
  "  --storyboard       Also search .storyboard files for references\n" ++
  "  --write            Rewrite .strings files without the abandoned identifiers\n" ++
  "  --workers WORKERS  Number of resource files scanned concurrently\n" ++
  "  --config CONFIG    YAML configuration file (default: ./abandoned_strings.yml\n" ++
  "                     if present)\n" ++
  "  --json JSON_PATH   Also write the result as JSON to this path\n" ++
  "  --quiet            Only print the report\n\n" ++
  "Default mode only reports. Add --write to remove abandoned identifiers from\n" ++
  "disk.\n"

/-- What is said of arguments that are refused. -/
def complaint (message : String) : String :=
  usage ++ "abandoned-strings: error: " ++ message ++ "\n"

/-- What is said when no root is given. -/
def rootsMissing : String :=
  "Please provide the root directory for source code files as a command line argument."

end StringAudit.CommandLine
