import Phrasebook.Text.Pieces

/-! What the program says about its own arguments. -/
namespace Phrasebook.CommandLine

def version : String := "localetypes 0.4.1"

def usage : String := "Usage: localetypes [OPTIONS] <COMMAND>"

def commandHelp : List (String × String) := [
  ("generate","Regenerate the declaration file once"),
  ("check","Validate the plugin options against the locales directory"),
  ("resolve","Resolve an import specifier the way the plugin-enabled host would"),
  ("watch","Keep the declaration file current while locale files change"),
  ("help","Print this message")]

def optionHelp : List (String × String) := [
  ("    --json","Emit NDJSON events instead of human-readable output"),
  ("-v, --verbose...","Verbosity level (-v, -vv, -vvv)"),
  ("-c, --config <CONFIG>","Path to localetypes.toml (default: nearest one above the current directory)"),
  ("-h, --help","Print help"),
  ("-V, --version","Print version")]

/-- Two columns, the second as far to the right as the first is wide. -/
def table (rows : List (String × String)) : List String :=
  let width := rows.foldl (fun width row => max width row.1.length) 0
  rows.map fun (name,text) => "  " ++ name ++ String.join (List.replicate (width + 2 - name.length) " ") ++ text

def help : String :=
  Text.unlines ([usage,"","Commands:"] ++ table commandHelp ++ ["","Options:"] ++ table optionHelp)

/-- Arguments that make no sense are answered with the way to help. -/
def refusal : String := Text.unlines [usage,"","For more information, try '--help'."]

end Phrasebook.CommandLine
