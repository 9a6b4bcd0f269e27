/-!
# Kinds of tree nodes

The closed classification that rules and metrics are written against. Every language's grammar is
mapped onto it, so nothing that counts ever asks which language it is counting.
-/

namespace CodeGauge

/-- What a node of a source tree is. -/
inductive Kind where
  /-- Root of a file. -/
  | compilationUnit
  | importDeclaration
  /-- Class, interface, enum, record, struct, trait or implementation block. -/
  | typeDeclaration
  /-- Method, constructor or function. -/
  | operationDeclaration
  | fieldDeclaration
  | parameterList
  | parameter
  /-- A mark attached to a declaration: `@Test`, `#[test]`, a decorator. -/
  | mark
  | block
  | statement
  /-- A decision point: conditional, loop, case, handler. -/
  | branch
  /-- A short-circuiting conjunction or disjunction. -/
  | booleanOperator
  | other
  deriving DecidableEq

namespace Kind

/-- Declarations are the nodes with a qualified name: types and operations. -/
def isDeclaration : Kind → Bool
  | typeDeclaration | operationDeclaration => true
  | _ => false

/-- The kind in words. -/
def label : Kind → String
  | compilationUnit => "compilation unit"
  | importDeclaration => "import declaration"
  | typeDeclaration => "type declaration"
  | operationDeclaration => "operation declaration"
  | fieldDeclaration => "field declaration"
  | parameterList => "parameter list"
  | parameter => "parameter"
  | mark => "annotation"
  | block => "block"
  | statement => "statement"
  | branch => "branch"
  | booleanOperator => "boolean operator"
  | other => "other"

end Kind

end CodeGauge
