import CodeGauge.Language
import CodeGauge.Path
import CodeGauge.Grammar.Java
import CodeGauge.Grammar.Python
import CodeGauge.Grammar.Go
import CodeGauge.Grammar.Rust

/-!
# One interface to four grammars

What lowering asks of a language: the kind of a node where it stands, the names of declarations,
marks, parameters and scopes, and the marks that belong to a declaration but stand outside it.
-/

namespace CodeGauge

namespace Language

/-- The kind of a node where it stands. -/
def classify : Language → Site → Kind
  | java => Java.classify
  | python => Python.classify
  | go => Go.classify
  | rust => Rust.classify

/-- The simple name of a type or operation declaration. -/
def declarationName? (language : Language) (source : ByteArray) (c : Concrete) : Option String :=
  match language with
  | rust => Rust.declarationName? source c
  | _ => c.fieldText? source "name"

/-- The name of a mark. -/
def markName? (language : Language) (source : ByteArray) (c : Concrete) : Option String :=
  match language with
  | python => Python.markName? source c
  | rust => Rust.markName? source c
  | _ => c.fieldText? source "name"

/-- The type of a parameter as it stands in the qualified name of its operation. -/
def parameterType : Language → ByteArray → Concrete → String
  | java => Java.parameterType
  | python => Python.parameterType
  | go => Go.parameterType
  | rust => Rust.parameterType

/-- The owner of an operation that is declared outside its type. -/
def operationOwner? (language : Language) (source : ByteArray) (c : Concrete) : Option String :=
  match language with
  | go => Go.operationOwner? source c
  | _ => none

/-- The scope opened by a node that declares nothing itself. -/
def scopeSegment? (language : Language) (source : ByteArray) (s : Site) : Option String :=
  match language with
  | java => Java.scopeSegment? source s
  | rust => Rust.scopeSegment? source s
  | _ => none

/-- The marks that belong to a declaration but stand outside it, in source order. -/
def attachedMarks (language : Language) (s : Site) : List Site :=
  match language with
  | python => Python.attachedMarks s
  | rust => Rust.attachedMarks s
  | _ => []

/-- What everything declared in a file is named under. -/
def moduleName (language : Language) (source : ByteArray) (root : Concrete) (path : String) :
    String :=
  match language with
  | java => (Java.package? source root).getD ""
  | go => (Go.package? source root).getD (Path.moduleName path)
  | python | rust => Path.moduleName path

/-- The types of the parameters in the parameter lists of an operation. -/
def parameterTypes (language : Language) (source : ByteArray) (op : Concrete) : List String :=
  let lists := op.sites.filter (language.classify · = .parameterList)
  lists.flatMap fun list =>
    (list.node.sites.filter (language.classify · = .parameter)).map fun p =>
      language.parameterType source p.node

/-! ## Attached marks stand beside their declaration -/

/-- A sibling of a site, or the site itself. -/
def Beside (s a : Site) : Prop :=
  a.node ∈ s.before ∨ ∃ parent, s.parent = some parent ∧ a.node ∈ parent.children

theorem mem_attributeRun {parent : Option Concrete} {found : List Site} {before : List Concrete}
    {a : Site} (h : a ∈ Rust.attributeRun parent found before) :
    a ∈ found ∨ (a.kind = "attribute_item" ∧ a.node ∈ before) := by
  induction before generalizing found with
  | nil => exact .inl (by simpa [Rust.attributeRun] using h)
  | cons c before ih =>
    simp only [Rust.attributeRun] at h
    split at h
    · rcases ih h with h | ⟨hk, h⟩
      · exact .inl h
      · exact .inr ⟨hk, by simp [h]⟩
    · split at h
      · rename_i hk
        rcases ih h with h | ⟨hk', h⟩
        · rcases List.mem_cons.1 h with rfl | h
          · exact .inr ⟨hk, by simp⟩
          · exact .inl h
        · exact .inr ⟨hk', by simp [h]⟩
      · split at h
        · rcases ih h with h | ⟨hk, h⟩
          · exact .inl h
          · exact .inr ⟨hk, by simp [h]⟩
        · exact .inl h

/-- An attached mark is a mark, and stands beside the declaration. -/
theorem classify_attachedMarks {language : Language} {s a : Site}
    (h : a ∈ language.attachedMarks s) : language.classify a = .mark ∧ Beside s a := by
  cases language with
  | java | go => simp [attachedMarks] at h
  | python =>
    simp only [attachedMarks, Python.attachedMarks] at h
    split at h
    · rename_i parent hp
      split at h
      · rename_i hk
        obtain ⟨hs, hd⟩ := List.mem_filter.1 h
        obtain ⟨ha, hn, -⟩ := Concrete.mem_sites hs
        refine ⟨?_, .inr ⟨parent, hp, hn⟩⟩
        have hd : a.kind = "decorator" := by simpa using hd
        simp [classify, Python.classify, Python.isParameter, Site.parentKind?, ha, hk, hd]
      · simp at h
    · simp at h
  | rust =>
    rcases mem_attributeRun h with h | ⟨hk, h⟩
    · simp at h
    · exact ⟨by simp [classify, Rust.classify, hk], .inl h⟩

end Language

end CodeGauge
