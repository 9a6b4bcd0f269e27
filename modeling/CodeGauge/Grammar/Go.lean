import CodeGauge.Tree.Kind
import CodeGauge.Text.Basic
import CodeGauge.Grammar.Concrete

/-!
# The grammar of Go

Receivers and results are written as parameter lists too; only the list under the field `parameters`
counts as one. A method stands outside its type and is owned by the type of its receiver.
-/

namespace CodeGauge

namespace Go

/-- The kind of a node. -/
def classify (s : Site) : Kind :=
  match s.kind with
  | "source_file" => .compilationUnit
  | "import_spec" => .importDeclaration
  | "type_spec" | "type_alias" => .typeDeclaration
  | "function_declaration" | "method_declaration" | "method_elem" => .operationDeclaration
  | "field_declaration" => .fieldDeclaration
  | "parameter_list" => if s.isField "parameters" then .parameterList else .other
  | "parameter_declaration" | "variadic_parameter_declaration" => .parameter
  | "block" => .block
  | "if_statement" | "for_statement" | "expression_case" | "type_case" | "communication_case" =>
    .branch
  | "binary_expression" => if s.node.isShortCircuit then .booleanOperator else .other
  | "short_var_declaration" | "var_declaration" | "const_declaration" => .statement
  | kind => if kind.endsWith "_statement" then .statement else .other

/-- The type of a parameter, with dots before it if it takes any number of arguments. -/
def parameterType (source : ByteArray) (p : Concrete) : String :=
  let type := ((p.childByField? "type").map (·.text source)).getD "_"
  if p.kind = "variadic_parameter_declaration" then "..." ++ type else type

/-- A receiver's type without pointers and type arguments: `Cache` for `*Cache[K]`. -/
def receiverTypeName (type : String) : String :=
  let bare := type.toList.dropWhile (· == '*')
  String.ofList (Text.trimChars (bare.takeWhile (· != '[')))

/-- The owner of a method: the type of its receiver. -/
def operationOwner? (source : ByteArray) (c : Concrete) : Option String :=
  if c.kind = "method_declaration" then do
    let receiver ← c.childByField? "receiver"
    let parameter ← receiver.namedChildren.find? (·.kind = "parameter_declaration")
    let type ← parameter.childByField? "type"
    return receiverTypeName (type.text source)
  else none

/-- The package of a file: the first package clause that holds a name. -/
def package? (source : ByteArray) (root : Concrete) : Option String :=
  Concrete.findFirst? (fun c =>
    if c.kind = "package_clause" then
      (c.namedChildren.find? (·.kind = "package_identifier")).map (·.text source)
    else none) [root]

end Go

end CodeGauge
