import CodeGauge.Failure
import CodeGauge.Text.LowerCase

/-!
# Languages

The languages a source tree can be written in, their file extensions, and the files left out by
default.
-/

namespace CodeGauge

/-- A supported language. -/
inductive Language where
  | java
  | python
  | go
  | rust
  deriving DecidableEq

namespace Language

/-- Every language, in the order that settles ties. -/
def all : List Language := [java, python, go, rust]

def name : Language → String
  | java => "java"
  | python => "python"
  | go => "go"
  | rust => "rust"

/-- File extensions, without the dot. -/
def extensions : Language → List String
  | java => ["java"]
  | python => ["py"]
  | go => ["go"]
  | rust => ["rs"]

/-- Patterns of the files that an analysis leaves out unless it asks for tests. -/
def defaultExcludes : Language → List String
  | go => ["*_test.go"]
  | _ => []

/-- The language meant by a text, in any case and under common other names. -/
def parse (given : String) : Except ConfigFault Language :=
  match Text.lowerCase given with
  | "java" => .ok java
  | "python" | "py" => .ok python
  | "go" => .ok go
  | "rust" | "rs" => .ok rust
  | _ => .error (.unsupportedLanguage given)

end Language

end CodeGauge
