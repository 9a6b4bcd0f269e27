import CodeGauge.Failure
import CodeGauge.Text.Basic
import CodeGauge.Text.LowerCase

/-!
# Output formats
-/

namespace CodeGauge

/-- A format that results can be written in. -/
inductive OutputFormat where
  | text
  | json
  | sarif
  deriving DecidableEq

namespace OutputFormat

def name : OutputFormat → String
  | text => "text"
  | json => "json"
  | sarif => "sarif"

/-- The format of exactly this name. -/
def ofName? : String → Option OutputFormat
  | "text" => some text
  | "json" => some json
  | "sarif" => some sarif
  | _ => none

/-- The format meant by a text, in any case and with blanks around it. -/
def parse (given : String) : Except ConfigFault OutputFormat :=
  let bare := Text.lowerCase (Text.trim given)
  match ofName? bare with
  | some format => .ok format
  | none => .error (.unsupportedFormat bare)

end OutputFormat

end CodeGauge
