/-
# Entries of an outline

Each top-level declaration of a file contributes entries to its outline: declarations, imports and
issues, in source order. What a declaration contributes does not depend on the others. How the
entries are stored is a matter for the file.
-/
import GoOutline.Outline.Import
import GoOutline.Outline.Members

namespace GoOutline

/-- A contribution to the outline of a file. -/
inductive Entry where
  | decl (d : Decl)
  | imported (i : Import)
  | issue (i : Issue)

namespace Source

/-- The documentation of a spec; a spec that stands alone can have that of the declaration. -/
def GeneralDecl.specDoc (g : GeneralDecl) (doc : Option Lines) : Lines :=
  (doc.or (if g.grouped then none else g.doc)).getD []

/-- The issue of a spec that has no place in the declaration. -/
def GeneralDecl.misplacedSpec (g : GeneralDecl) : Entry := .issue (.unexpected (.spec g.group))

/-! ## Imports -/

/-- The import of a spec. -/
def ImportSpec.entry (g : GeneralDecl) (s : ImportSpec) : Entry :=
  .imported ⟨s.name, unquote s.path, g.specDoc s.doc, s.comment⟩

/-! ## Constants and variables -/

/-- The value at position `i`. A single value stands for all names. -/
def valueAt (values : List String) (i : Nat) : String :=
  match values with
  | [] => ""
  | [only] => only
  | many => many[i]?.getD ""

/-- The issue of a spec with several values, but not one for each name. -/
def ValueSpec.countIssue? (s : ValueSpec) : Option Issue :=
  if 1 < s.values.length ∧ s.values.length ≠ s.names.length then
    some (.valueCount (s.names.headD "") s.names.length s.values.length)
  else none

/-- A constant in a constant declaration, otherwise a variable. -/
def GeneralDecl.valueDecl (g : GeneralDecl) (d : ValueDecl) : Decl :=
  match g.group with
  | .consts => .const d
  | _ => .var d

/-- The declarations of a spec, all of type `type`. -/
def ValueSpec.entries (file : FileId) (g : GeneralDecl) (type : String) (s : ValueSpec) :
    List Entry :=
  let values := s.values.map Expr.text
  s.countIssue?.toList.map .issue ++ s.names.zipIdx.map fun (name, i) =>
    .decl (g.valueDecl { name, file, doc := g.specDoc s.doc, type, value := valueAt values i })

/-- The entries of the specs of a constant or variable declaration. A spec without a type takes that
of the nearest typed spec before it, which `carried` holds. -/
def valueEntries (file : FileId) (g : GeneralDecl) (carried : String) : List Spec → List Entry
  | [] => []
  | .value s :: specs =>
    let type := s.type.elim carried TypeExpr.text
    s.entries file g type ++ valueEntries file g type specs
  | _ :: specs => g.misplacedSpec :: valueEntries file g carried specs

/-! ## Types -/

/-- The declaration of a type, with the issues of its members. -/
def TypeSpec.outline (file : FileId) (g : GeneralDecl) (s : TypeSpec) : Decl × List Issue :=
  let header : Header := ⟨s.name, file, g.specDoc s.doc⟩
  let (typeParams, issues) := outlineTypeParams s.typeParams
  match s.type with
  | .struct entries =>
    let (fields, fieldIssues) := outlineFields .struct entries
    (.struct { header with fields, typeParams }, issues ++ fieldIssues)
  | .interface elems =>
    let members := outlineInterface file elems
    (.interface { header with methods := members.methods, embeds := members.embeds, typeParams },
      issues ++ members.issues)
  | type =>
    (.type { header with underlying := type.text, isAlias := s.isAlias, typeParams }, issues)

/-- The entries of a type spec. -/
def TypeSpec.entries (file : FileId) (g : GeneralDecl) (s : TypeSpec) : List Entry :=
  let (decl, issues) := s.outline file g
  issues.map .issue ++ [.decl decl]

/-- The entries of a spec of a type declaration. An alias of an instantiated type declares nothing. -/
def GeneralDecl.typeEntries (file : FileId) (g : GeneralDecl) : Spec → List Entry
  | .type s => s.entries file g
  | .badType => [.issue (.unexpected .badType)]
  | .instanceAlias => []
  | _ => [g.misplacedSpec]

/-! ## Declarations -/

/-- The entries of a general declaration. -/
def GeneralDecl.entries (file : FileId) (g : GeneralDecl) : List Entry :=
  match g.group with
  | .imports => g.specs.map fun
    | .imported s => s.entry g
    | _ => g.misplacedSpec
  | .types => g.specs.flatMap (g.typeEntries file)
  | .consts => valueEntries file g "" g.specs
  | .vars => valueEntries file g "" g.specs

/-- The declaration of a function or method, with the issues of its members. -/
def FuncDecl.outline (file : FileId) (f : FuncDecl) : Decl × List Issue :=
  let header : Header := ⟨f.name, file, f.doc⟩
  let (fields, issues) := outlineSignature f.signature
  match f.receiver with
  | none =>
    let (typeParams, paramIssues) := outlineTypeParams f.typeParams
    (.func { header with typeParams, params := fields.params, results := fields.results },
      issues ++ paramIssues)
  | some recv =>
    let (receiver, receiverTypeParams, recvIssues) := outlineReceiver recv
    (.method { header with typeParams := ∅, params := fields.params, results := fields.results
                           receiver := some receiver, receiverTypeParams }, issues ++ recvIssues)

/-- The entries of a function or method. -/
def FuncDecl.entries (file : FileId) (f : FuncDecl) : List Entry :=
  let (decl, issues) := f.outline file
  issues.map .issue ++ [.decl decl]

/-- The entries of a top-level declaration. -/
def TopDecl.entries (file : FileId) : TopDecl → List Entry
  | .general g => g.entries file
  | .func f => f.entries file
  | .bad => [.issue (.unexpected .badDecl)]

end Source

end GoOutline
