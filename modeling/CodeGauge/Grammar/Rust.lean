import CodeGauge.Tree.Kind
import CodeGauge.Grammar.Concrete

/-!
# The grammar of Rust

Attributes stand before the item they belong to, with nothing but attributes and comments between.
Implementation blocks are types, named like a qualified path.
-/

namespace CodeGauge

namespace Rust

/-- The kind of a node. -/
def classify (s : Site) : Kind :=
  match s.kind with
  | "source_file" => .compilationUnit
  | "use_declaration" | "extern_crate_declaration" => .importDeclaration
  | "struct_item" | "enum_item" | "union_item" | "trait_item" | "impl_item" => .typeDeclaration
  | "function_item" | "function_signature_item" => .operationDeclaration
  | "field_declaration" => .fieldDeclaration
  | "parameters" => .parameterList
  | "parameter" | "self_parameter" | "variadic_parameter" => .parameter
  | "attribute_item" => .mark
  | "block" => .block
  | "if_expression" | "match_arm" | "while_expression" | "loop_expression" | "for_expression" =>
    .branch
  | "binary_expression" => if s.node.isShortCircuit then .booleanOperator else .other
  | "expression_statement" | "let_declaration" => .statement
  | _ => .other

/-- The name of a declaration: `<Cache>` or `<Cache as Drop>` for an implementation block. -/
def declarationName? (source : ByteArray) (c : Concrete) : Option String :=
  if c.kind = "impl_item" then
    (c.fieldText? source "type").map fun type =>
      match c.fieldText? source "trait" with
      | some contract => "<" ++ type ++ " as " ++ contract ++ ">"
      | none => "<" ++ type ++ ">"
  else c.fieldText? source "name"

/-- The path of an attribute: `test`, `tokio::test`. -/
def markName? (source : ByteArray) (c : Concrete) : Option String := do
  let content ← c.namedChildren.head?
  let path ← content.namedChildren.head?
  return path.text source

/-- The type of a parameter; a receiver is its own type. -/
def parameterType (source : ByteArray) (p : Concrete) : String :=
  match p.kind with
  | "self_parameter" => p.text source
  | "variadic_parameter" => "..."
  | _ => (p.fieldText? source "type").getD "_"

/-- Inline modules scope what they declare. -/
def scopeSegment? (source : ByteArray) (s : Site) : Option String :=
  if s.kind = "mod_item" then s.node.fieldText? source "name" else none

/-- The attributes among the siblings before a node, nearest first, up to the first sibling that is
neither an attribute nor a comment; `found` holds the ones already passed. -/
def attributeRun (parent : Option Concrete) (found : List Site) : List Concrete → List Site
  | [] => found
  | c :: before =>
    if !c.isNamed then attributeRun parent found before
    else if c.kind = "attribute_item" then attributeRun parent (⟨c, parent, before⟩ :: found) before
    else if c.kind = "line_comment" ∨ c.kind = "block_comment" then
      attributeRun parent found before
    else found

/-- The attributes of an item, in source order. -/
def attachedMarks (s : Site) : List Site := attributeRun s.parent [] s.before

end Rust

end CodeGauge
