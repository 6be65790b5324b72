/-
# Basic types behind names

The name of a type, as it is written in some file, leads to the basic type or type literal below it.
A qualified name is looked up through the imports of the file, a plain one in the scopes of all
packages. A name that no scope declares can still be that of a predeclared type.
-/
import GoOutline.Program.Basic

namespace GoOutline.Program

/-- The type that a name refers to, as far as the universe knows. -/
def lookupType? (p : Program) (u : TypeUniverse) (id : FileId) (name : String) :
    Option TypeRef :=
  if '.' ∈ name.toList then do
    let (_, ident) ← splitSelector name
    let file ← p.file? id
    let pkg ← file.resolveImport name
    u.lookup? pkg.path ident
  else p.packages.values.findSome? fun pkg => u.lookup? pkg.path name

/-- The text of the type below the one that a name refers to. -/
def basicType? (p : Program) (id : FileId) (name : String) : Option String :=
  match p.types.bind fun u => (p.lookupType? u id name).map fun t => u.fixpoint? t with
  | some text => text
  | none => if isBasicType name then some name else none

end GoOutline.Program
