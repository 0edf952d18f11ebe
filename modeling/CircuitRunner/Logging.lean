import CircuitRunner.Text.Blank

/-! Settings of the log output. -/
namespace CircuitRunner

inductive LogFormat where
  | console
  | json
  deriving DecidableEq, Repr

namespace LogFormat

def text : LogFormat → String
  | .console => "Console"
  | .json => "Json"

/-- Any name but `json`, in whatever case and between blanks, means console output. -/
def parse (name : String) : LogFormat :=
  if (Text.trimChars name.toList).map Char.toLower == "json".toList then .json else .console

end LogFormat

structure Logging where
  level : String := "info"
  format : LogFormat := .console
  deriving DecidableEq, Repr

def Logging.ofEnvironment (lookup : String → Option String) : Logging where
  level := (lookup "RUST_LOG").getD "info"
  format := ((lookup "QLM_LOG_FORMAT").map LogFormat.parse).getD .console

end CircuitRunner
