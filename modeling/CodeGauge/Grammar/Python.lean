import CodeGauge.Tree.Kind
import CodeGauge.Grammar.Concrete

/-!
# The grammar of Python

Whether a node is a parameter depends on where it stands, since parameters are plain identifiers and
patterns. Decorators stand beside the definition they belong to.
-/

namespace CodeGauge

namespace Python

/-- The kinds that are parameters when they stand in a parameter list. -/
def parameterKinds : List String :=
  ["identifier", "typed_parameter", "default_parameter", "typed_default_parameter",
    "list_splat_pattern", "dictionary_splat_pattern"]

def isParameter (s : Site) : Bool :=
  s.parentKind? == some "parameters" && parameterKinds.contains s.kind

/-- The kind of a node. -/
def classify (s : Site) : Kind :=
  if isParameter s then .parameter
  else match s.kind with
  | "module" => .compilationUnit
  | "import_statement" | "import_from_statement" | "future_import_statement" => .importDeclaration
  | "class_definition" => .typeDeclaration
  | "function_definition" => .operationDeclaration
  | "parameters" => .parameterList
  | "decorator" => .mark
  | "block" => .block
  | "if_statement" | "elif_clause" | "for_statement" | "while_statement" | "except_clause"
  | "conditional_expression" | "case_clause" | "for_in_clause" | "if_clause" => .branch
  | "boolean_operator" => .booleanOperator
  | kind => if kind.endsWith "_statement" then .statement else .other

/-- The dotted name of a decorator, called or not. -/
def markName? (source : ByteArray) (c : Concrete) : Option String :=
  match c.namedChildren with
  | [] => none
  | expression :: _ =>
    if expression.kind = "call" then
      (expression.childByField? "function").map (·.text source)
    else some (expression.text source)

/-- The type of a parameter, if it is written. -/
def parameterType (source : ByteArray) (p : Concrete) : String :=
  ((p.childByField? "type").map (·.text source)).getD "_"

/-- The decorators of the decorated definition around a node. -/
def attachedMarks (s : Site) : List Site :=
  match s.parent with
  | some parent =>
    if parent.kind = "decorated_definition" then parent.sites.filter (·.kind = "decorator") else []
  | none => []

end Python

end CodeGauge
