import Fieldmap.CommandLine.Options
import Fieldmap.Text.Layout

/-!
# Help

What the program says about its own use: the help text, and why it refuses
arguments.
-/

namespace Fieldmap.CommandLine

/-- The text shown when help is asked for. -/
def helpText : String :=
  Text.unlines [
    "Generate JSON parser attribute tables from fieldmap specs, " ++
      "or fieldmaps from dump format strings",
    "",
    "Usage: jsongen [OPTIONS]",
    "",
    "Options:",
    "  -g, --specify               Compile a dump format string into a fieldmap " ++
      "instead of generating C",
    "  -s, --spec <SPEC>           Fieldmap spec file (defaults to the built-in AIS records)",
    "  -f, --format <FORMAT>       File holding the dump format string " ++
      "(defaults to the built-in AIS type 5 format)",
    "      --override <NAME=TYPE>  Force a field's type when compiling a format string, " ++
      "e.g. \x60epfd=uinteger\x60",
    "      --dump-model            Print the parsed records as JSON instead of generating C",
    "  -o, --output <OUTPUT>       Output file (if omitted, prints to stdout)",
    "  -v, --verbose               Log at debug level",
    "  -h, --help                  Print help"]

/-- The long name of a flag. -/
def Flag.name : Flag → String
  | specify => "--specify"
  | dumpModel => "--dump-model"
  | verbose => "--verbose"
  | help => "--help"

/-- The long name of a setting. -/
def Setting.name : Setting → String
  | spec => "--spec"
  | format => "--format"
  | override => "--override"
  | output => "--output"

/-- The wording of a refusal. -/
def Refusal.message : Refusal → String
  | help => "help was asked for"
  | unknownOption argument => "unknown option '" ++ argument ++ "'"
  | unexpectedArgument argument => "unexpected argument '" ++ argument ++ "'"
  | missingValue setting => setting.name ++ " needs a value"
  | unexpectedValue flag => flag.name ++ " takes no value"
  | repeatedFlag flag => flag.name ++ " is given twice"
  | repeatedSetting setting => setting.name ++ " is given twice"
  | invalidOverride value => "invalid override '" ++ value ++ "': expected NAME=TYPE"
  | conflict => "--specify cannot be used with --spec or --dump-model"
  | incomplete => "--format and --override need --specify"

end Fieldmap.CommandLine
