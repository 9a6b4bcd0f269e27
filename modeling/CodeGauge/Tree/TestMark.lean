import CodeGauge.Tree.Node

/-!
# Test declarations

A declaration is taken for a test by its name, or by a test mark of its own. Marks are children of
the declaration, or sit one level down in a wrapper that has no kind of its own.
-/

namespace CodeGauge

namespace Node

/-- The marks that make a declaration a test, in any case. -/
def testMarks : List String := ["Test", "test", "isTest", "pytest", "tokio::test"]

/-- Equality up to the case of the letters of the Latin alphabet. -/
def sameLetters (a b : String) : Bool := a.toList.map Char.toLower == b.toList.map Char.toLower

/-- Whether a mark's name, its leading sigils dropped, is a test mark. -/
def isTestMarkName (name : String) : Bool :=
  let bare := String.ofList (name.toList.dropWhile fun c => c == '@' || c == '#')
  testMarks.any (sameLetters bare)

def hasTestName (n : Node) : Bool :=
  match n.name? with
  | some name => name.endsWith "Test" || name.endsWith "Tests" || name.startsWith "test"
  | none => false

/-- The marks of a declaration: its own children, then those in wrappers. -/
def marks (n : Node) : List Node :=
  n.childrenOfKind .mark ++ (n.childrenOfKind .other).flatMap (·.childrenOfKind .mark)

/-- Whether a declaration is a test by its name or by one of its marks. -/
def isTest (n : Node) : Bool :=
  n.isDeclaration && (n.hasTestName || (n.marks.filterMap (·.name?)).any isTestMarkName)

end Node

end CodeGauge
