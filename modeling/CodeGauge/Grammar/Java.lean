import CodeGauge.Tree.Kind
import CodeGauge.Grammar.Concrete

/-!
# The grammar of Java

How the nodes of a Java syntax tree are classified, and where the names of Java declarations come
from. Everything in a file is named under its package.
-/

namespace CodeGauge

namespace Java

/-- The kind of a node. A case label counts as a branch if it has a value: `default` has none. -/
def classify (s : Site) : Kind :=
  match s.kind with
  | "program" => .compilationUnit
  | "import_declaration" => .importDeclaration
  | "class_declaration" | "interface_declaration" | "enum_declaration" | "record_declaration"
  | "annotation_type_declaration" => .typeDeclaration
  | "method_declaration" | "constructor_declaration" | "compact_constructor_declaration" =>
    .operationDeclaration
  | "field_declaration" | "constant_declaration" => .fieldDeclaration
  | "formal_parameters" => .parameterList
  | "formal_parameter" | "spread_parameter" => .parameter
  | "marker_annotation" | "annotation" => .mark
  | "block" | "constructor_body" | "switch_block" => .block
  | "if_statement" | "for_statement" | "enhanced_for_statement" | "while_statement"
  | "do_statement" | "catch_clause" | "ternary_expression" => .branch
  | "switch_label" => if s.node.namedChildren.isEmpty then .other else .branch
  | "binary_expression" => if s.node.isShortCircuit then .booleanOperator else .other
  | "local_variable_declaration" | "explicit_constructor_invocation" => .statement
  | kind => if kind.endsWith "_statement" then .statement else .other

/-- The type of a parameter. One without a type field takes any number of arguments, and its type
is its first child that is neither a modifier nor the name. -/
def parameterType (source : ByteArray) (p : Concrete) : String :=
  match p.childByField? "type" with
  | some type => type.text source
  | none =>
    let type := p.namedChildren.find? fun c =>
      c.kind != "modifiers" && c.kind != "variable_declarator"
    ((type.map (·.text source)).getD "_") ++ "..."

/-- The scope that a node opens though it declares nothing: an enum constant with a body, named by
the constant, and the body of an anonymous class, named by the class it extends. -/
def scopeSegment? (source : ByteArray) (s : Site) : Option String :=
  match s.kind with
  | "enum_constant" =>
    if (s.node.childByField? "body").isSome then s.node.fieldText? source "name" else none
  | "class_body" =>
    match s.parent with
    | some creation =>
      if creation.kind = "object_creation_expression" then
        (creation.fieldText? source "type").map ("new " ++ ·)
      else none
    | none => none
  | _ => none

/-- The package of a file: the first package declaration that holds a name. -/
def package? (source : ByteArray) (root : Concrete) : Option String :=
  Concrete.findFirst? (fun c =>
    if c.kind = "package_declaration" then
      (c.namedChildren.find? fun n => n.kind == "identifier" || n.kind == "scoped_identifier").map
        (·.text source)
    else none) [root]

end Java

end CodeGauge
