/-
# Outlines of files

The outline of a file stores the entries of its declarations. First every declaration gets the key
under which it is filed; then imports and declarations go into ordered maps, where the first one of
a key keeps its place. A later declaration of the same key is reported, and the policy decides
whether it takes over the place.
-/
import GoOutline.Outline.Entry
import GoOutline.Source.OfTree

namespace GoOutline

/-- What happens to a declaration whose key is in use. Both policies report it. -/
inductive Redeclaration where
  | keepFirst | replace
deriving DecidableEq, Repr

/-- The outline of a file. -/
structure File where
  id : FileId
  path : String
  comments : List (List String)
  doc : List String
  imports : OrderedMap Import := ∅
  decls : OrderedMap Decl := ∅
  issues : List Issue := []

/-! ## Keys -/

/-- An entry ready to be stored. -/
inductive Filing where
  | decl (key : String) (d : Decl)
  | imported (i : Import)
  | issue (i : Issue)

/-- The key of a repeatable declaration that was there `n` times before. -/
def repeatedKey (key : String) (n : Nat) : String := if n = 0 then key else indexedKey key n

/-- Gives every declaration its key. Repeatable declarations are numbered from the second one of a
key on; `seen` holds the keys of those before. -/
def fileUnder (seen : List String) : List Entry → List Filing
  | [] => []
  | .decl d :: entries =>
    if d.mayRepeat then
      .decl (repeatedKey d.key (seen.count d.key)) d :: fileUnder (d.key :: seen) entries
    else .decl d.key d :: fileUnder seen entries
  | .imported i :: entries => .imported i :: fileUnder seen entries
  | .issue i :: entries => .issue i :: fileUnder seen entries

/-! ## Storing -/

namespace File

/-- Records an issue. -/
def report (f : File) (i : Issue) : File := { f with issues := f.issues ++ [i] }

/-- Stores an import under its path. -/
def addImport (f : File) (i : Import) : File :=
  match f.imports.insertNew i.path i with
  | .ok (_, imports) => { f with imports }
  | .error _ => f.report (.redeclared i.path)

/-- Stores a declaration under a key. -/
def addDecl (policy : Redeclaration) (f : File) (key : String) (d : Decl) : File :=
  match f.decls.insertNew key d with
  | .ok (_, decls) => { f with decls }
  | .error d =>
    match policy with
    | .keepFirst => f.report (.redeclared key)
    | .replace => { f.report (.redeclared key) with decls := f.decls.replace key d }

/-- Stores one entry. -/
def store (policy : Redeclaration) (f : File) : Filing → File
  | .decl key d => f.addDecl policy key d
  | .imported i => f.addImport i
  | .issue i => f.report i

/-- The issue of a file that belongs to another package than expected. -/
def packageIssue? (expected : String) (src : Source.File) : Option Issue :=
  if src.package = expected then none else some (.packageMismatch expected src.package)

/-- The outline of a source file that is to belong to package `package`. -/
def ofSource (policy : Redeclaration) (id : FileId) (path package : String)
    (src : Source.File) : File :=
  let blank : File :=
    { id, path, comments := src.comments, doc := src.doc
      issues := (packageIssue? package src).toList }
  (fileUnder [] (src.decls.flatMap (Source.TopDecl.entries id))).foldl (store policy) blank

/-- The outline of a tree. -/
def ofTree (policy : Redeclaration) (id : FileId) (package : String) (t : Tree) : File :=
  ofSource policy id t.path package t.sourceFile

/-- The declaration stored under a key. -/
def decl? (f : File) (key : String) : Option Decl := f.decls.get? key

/-- The import that a selector refers to. -/
def resolveImport (f : File) (selector : String) : Option Import :=
  GoOutline.resolveImport f.imports.values selector

end File

end GoOutline
