import Fieldmap.Spec.Compile
import Fieldmap.Text.Layout

/-!
# Built-in reports

The records of the AIS reports whose tables are kept by hand, and the dump format of
the AIS report with static and voyage data.
-/

namespace Fieldmap.Builtin

/-- The specification of the built-in records. -/
def spec : String := Text.unlines [
  "// AIS report fieldmaps: attribute, type and default per field.",
  "",
  "record json_ais1 \x7b",
  "    header \"\\tAIS_HEADER,\";",
  "    struct \"ais->type123\";",
  "    fieldmap (",
  "        // fieldname   type          default",
  "        (status,       uinteger,     0),",
  "        (turn,         integer,      AIS_TURN_NOT_AVAILABLE),",
  "        (speed,        uinteger,     SPEED_NOT_AVAILABLE),",
  "        (accuracy,     boolean,      false),",
  "        (lon,          integer,      AIS_LON_NOT_AVAILABLE),",
  "        (lat,          integer,      AIS_LAT_NOT_AVAILABLE),",
  "        (course,       uinteger,     AIS_COURSE_NOT_AVAILABLE),",
  "        (heading,      integer,      AIS_HEADING_NOT_AVAILABLE),",
  "        (second,       uinteger,     AIS_SEC_NOT_AVAILABLE),",
  "        (maneuver,     integer,      AIS_SEC_INOPERATIVE),",
  "        (raim,         boolean,      false),",
  "        (radio,        integer,      0),",
  "    )",
  "\x7d",
  "",
  "record json_ais4 \x7b",
  "    header \"\\tAIS_HEADER,\";",
  "    struct \"ais->type4\";",
  "    buffered (timestamp);",
  "    fieldmap (",
  "        // fieldname   type          default",
  "        (timestamp,    string,       None),",
  "        (accuracy,     boolean,      true),",
  "        (lon,          integer,      AIS_LON_NOT_AVAILABLE),",
  "        (lat,          integer,      AIS_LAT_NOT_AVAILABLE),",
  "        (epfd,         uinteger,     0),",
  "        (raim,         boolean,      false),",
  "        (radio,        integer,      0),",
  "    )",
  "\x7d"]

/-- The built-in dump format. -/
def format : String := String.intercalate "," [
  "\"imo\":%u",
  "\"ais_version\":%u",
  "\"callsign\":\"%s\"",
  "\"shipname\":\"%s\"",
  "\"shiptype\":\"%s\"",
  "\"to_bow\":%u",
  "\"to_stern\":%u",
  "\"to_port\":%u",
  "\"to_starboard\":%u",
  "\"epfd\":\"%u\"",
  "\"eta\":\"%02u-%02uT%02u:%02uZ\"",
  "\"draught\":%.1f",
  "\"destination\":\"%s\"",
  "\"dte\":%u"] ++ "\x7d\r\n"

/-- The built-in records. -/
def records : Traced Error (List Record) := Spec.compile spec

end Fieldmap.Builtin
