/-
# Programs

A program is a number of outlined packages, in the order in which they were loaded, and possibly
what a type checker found out about them.
-/
import GoOutline.Outline.File
import GoOutline.Program.TypeUniverse

namespace GoOutline

/-- An outlined package with all problems that were reported for it. -/
structure Package where
  id : Nat
  name : String
  path : String
  files : OrderedMap File
  errors : List Diagnostic

namespace Package

/-- The file with the given path. -/
def file? (p : Package) (path : String) : Option File := p.files.get? path

/-- The declarations of all files in order. -/
def decls (p : Package) : List Decl := p.files.values.flatMap fun f => f.decls.values

/-- The declaration that the first file with such a key has stored under it. -/
def decl? (p : Package) (key : String) : Option Decl := p.files.values.findSome? (·.decl? key)

end Package

/-- A loaded program. -/
structure Program where
  packages : OrderedMap Package := ∅
  types : Option TypeUniverse := none

namespace Program

/-- The package with the given path. -/
def package? (p : Program) (path : String) : Option Package := p.packages.get? path

/-- The package with the given position. -/
def packageById? (p : Program) (id : Nat) : Option Package := (p.packages.entry? id).map Prod.snd

/-- The file with the given id. -/
def file? (p : Program) (id : FileId) : Option File := do
  let pkg ← p.packageById? id.package
  (pkg.files.entry? id.index).map Prod.snd

/-- The package that the file with the given id belongs to. The file itself need not exist. -/
def packageOf? (p : Program) (id : FileId) : Option Package := p.packageById? id.package

/-- The file of a declaration. -/
def fileOf? (p : Program) (d : Decl) : Option File := p.file? d.file

/-- The declarations of all packages in order. -/
def decls (p : Program) : List Decl := p.packages.values.flatMap Package.decls

/-- The declarations of one package, none if it is not loaded. -/
def packageDecls (p : Program) (path : String) : List Decl :=
  ((p.package? path).map Package.decls).getD []

end Program

end GoOutline
