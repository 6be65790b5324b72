/-
# Loading

Packages are loaded one after the other. A load fails as a whole at the first package that was
supplied before, that has errors although none are tolerated, or that has two files with the same
path; these are checked in this order.
-/
import GoOutline.Program.Basic

namespace GoOutline

/-- How packages with errors are treated. -/
inductive LoadMode where
  /-- A package with errors fails the load. -/
  | strict
  /-- The errors are kept with the package. -/
  | lenient
deriving DecidableEq, Repr

/-- The choices that a load leaves open. -/
structure Config where
  mode : LoadMode := .lenient
  redeclaration : Redeclaration := .keepFirst
deriving DecidableEq, Repr

/-- A package to be loaded: its trees, and what was reported for it as a whole. -/
structure PackageInput where
  name : String
  path : String
  trees : List Tree
  errors : List Diagnostic

/-- The errors of the package followed by those of its files. -/
def PackageInput.allErrors (p : PackageInput) : List Diagnostic :=
  p.errors ++ p.trees.flatMap Tree.diagnostics

/-- Why a load failed. -/
inductive LoadError where
  | packageErrors (path : String) (errors : List Diagnostic)
  | duplicatePackage (path : String)
  | duplicateFile (package file : String)
deriving DecidableEq, Repr

/-- The text of a load error. -/
def LoadError.message : LoadError → String
  | .packageErrors path errors =>
    "package " ++ path ++ " has " ++ toString errors.length ++ " load error(s)"
  | .duplicatePackage path => "package " ++ path ++ " supplied more than once"
  | .duplicateFile package file =>
    "file " ++ file ++ " supplied more than once for package " ++ package

/-- Outlines the trees of package `id` and adds them to its files. -/
def loadFiles (config : Config) (id : Nat) (input : PackageInput) (files : OrderedMap File) :
    List Tree → Except LoadError (OrderedMap File)
  | [] => .ok files
  | tree :: trees =>
    let file := File.ofTree config.redeclaration ⟨id, files.size⟩ input.name tree
    match files.insertNew tree.path file with
    | .ok (_, files) => loadFiles config id input files trees
    | .error _ => .error (.duplicateFile input.path tree.path)

/-- Loads one package, which gets the position `id`. -/
def loadPackage (config : Config) (id : Nat) (input : PackageInput) : Except LoadError Package := do
  let errors := input.allErrors
  if config.mode = .strict ∧ errors ≠ [] then throw (.packageErrors input.path errors)
  let files ← loadFiles config id input ∅ input.trees
  return { id, name := input.name, path := input.path, files, errors }

/-- Loads packages after those that are already there. -/
def loadPackages (config : Config) (packages : OrderedMap Package) :
    List PackageInput → Except LoadError (OrderedMap Package)
  | [] => .ok packages
  | input :: inputs =>
    if fresh : packages.contains input.path = false then do
      let package ← loadPackage config packages.size input
      loadPackages config (packages.push input.path package fresh) inputs
    else .error (.duplicatePackage input.path)

/-- Loads a program. -/
def load (config : Config) (types : Option TypeUniverse) (inputs : List PackageInput) :
    Except LoadError Program := do
  return { packages := ← loadPackages config ∅ inputs, types }

end GoOutline
