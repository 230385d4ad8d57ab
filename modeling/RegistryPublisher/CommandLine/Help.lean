import RegistryPublisher.CommandLine.Arguments

/-!
# Help

- `Halt.shown?` is the text that help or the version shows; a refused command line shows none.
-/

namespace RegistryPublisher

namespace Topic

/-- The options that every topic but `help` lists, in short form. -/
def optionLines : List String := [
  "      --registry <URL>  Registry base URL (overrides config and the stored login)",
  "  -q, --quiet           Quiet mode (errors only in logs)",
  "  -v, --verbose         Verbose mode (debug logging)"]

/-- The help on the program. -/
def programLines : List String := [
  "Publish MCP server descriptors to the registry",
  "",
  "Usage: mcp-publisher [OPTIONS] <COMMAND>",
  "",
  "Commands:",
  "  publish   Publish a server.json to the registry",
  "  validate  Validate a server.json without publishing",
  "  help      Print this message or the help of the given subcommand(s)",
  "",
  "Options:"] ++ optionLines ++ [
  "  -h, --help            Print help",
  "  -V, --version         Print version"]

/-- The short help on a command. -/
def commandLines (about name help : String) : List String := [
  about,
  "",
  "Usage: mcp-publisher " ++ name ++ " [OPTIONS] [FILE]",
  "",
  "Arguments:",
  "  [FILE]  Path to server.json file [default: server.json]",
  "",
  "Options:"] ++ optionLines ++ [
  "  -h, --help            " ++ help]

/-- The short help on publishing, which is the only one. -/
def publishLines : List String := commandLines "Publish a server.json to the registry" "publish" "Print help"

/-- The short help on validating. -/
def validateLines : List String :=
  commandLines "Validate a server.json without publishing" "validate" "Print help (see more with '--help')"

/-- The long help on validating. -/
def validateLongLines : List String := [
  "Validate a server.json file without publishing.",
  "",
  "The validate command performs exhaustive validation, reporting all issues at once.",
  "It validates JSON syntax, schema compliance, and semantic rules.",
  "",
  "Usage: mcp-publisher validate [OPTIONS] [FILE]",
  "",
  "Arguments:",
  "  [FILE]",
  "          Path to server.json file",
  "          ",
  "          [default: server.json]",
  "",
  "Options:",
  "      --registry <URL>",
  "          Registry base URL (overrides config and the stored login)",
  "",
  "  -q, --quiet",
  "          Quiet mode (errors only in logs)",
  "",
  "  -v, --verbose",
  "          Verbose mode (debug logging)",
  "",
  "  -h, --help",
  "          Print help (see a summary with '-h')"]

/-- The help on help. -/
def helpLines : List String := [
  "Print this message or the help of the given subcommand(s)",
  "",
  "Usage: mcp-publisher help [COMMAND]...",
  "",
  "Arguments:",
  "  [COMMAND]...  Print help for the subcommand(s)"]

/-- The lines of a topic. -/
def lines (long : Bool) : Topic → List String
  | program => programLines
  | command .publish => publishLines
  | command .validate => if long then validateLongLines else validateLines
  | help => helpLines

end Topic

/-- What a command line without a command shows on the standard output. -/
def Halt.shown? : Halt → Option String
  | help topic long => some (String.join ((topic.lines long).map (· ++ "\n")))
  | version => some "mcp-publisher 0.1.0\n"
  | refused _ => none

/-- Why a command line is refused, in words. -/
def Refusal.message : Refusal → String
  | invalidSubcommand => "unrecognized subcommand"
  | unknownArgument => "unexpected argument found"
  | repeatedArgument => "an argument cannot be used multiple times"
  | invalidValue => "a value is required and may not be empty"
  | tooManyValues => "unexpected value for a flag"
  | missingSubcommand => "a subcommand is required but was not provided"
  | missingArguments => "a subcommand is required but nothing was provided"

end RegistryPublisher
