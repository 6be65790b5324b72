/-
# Imports

An import binds a package to a name: the one that is written, or else one that the path suggests.
A selector `pkg.Name` is resolved through these names.
-/
import GoOutline.Text.Cut

namespace GoOutline

/-- An import of an outline. Without a written name `name` is empty. -/
structure Import where
  name : String
  path : String
  doc : List String
  comment : List String
deriving DecidableEq, Repr

/-! ## Written paths -/

/-- The text inside a pair of quotes `q`. -/
def insideQuotes (q : Char) : List Char → Option (List Char)
  | [] => none
  | c :: cs => if c = q ∧ cs.getLast? = some q then some cs.dropLast else none

/-- A path without the double quotes or back quotes around it. -/
def unquote (raw : String) : String :=
  ((insideQuotes '"' raw.toList).or (insideQuotes '\x60' raw.toList)).elim raw String.ofList

/-! ## Names that a path suggests -/

/-- The segments of a path, the last one first. -/
def reverseSegments (path : String) : List (List Char) := (cutAll '/' path.toList).reverse

/-- Whether a segment is a version: a letter and then digits, at least one. -/
def isVersion : List Char → Bool
  | [] => false
  | c :: cs => c.isAlpha && !cs.isEmpty && cs.all Char.isDigit

/-- The last segment of a path. -/
def lastSegment (path : String) : String := String.ofList ((reverseSegments path).headD [])

/-- The segment before the last one, if that is a version. -/
def segmentBeforeVersion? (path : String) : Option String :=
  match reverseSegments path with
  | last :: previous :: _ => if isVersion last then some (String.ofList previous) else none
  | _ => none

namespace Import

/-- The written name. -/
def alias? (i : Import) : Option String := if i.name = "" then none else some i.name

/-- Whether the names of the package are taken over without a qualifier. -/
def isDot (i : Import) : Bool := i.name == "."

/-- Whether the package is imported for its effects only. -/
def isBlank (i : Import) : Bool := i.name == "_"

/-- The name that the path suggests. -/
def defaultName (i : Import) : String :=
  (segmentBeforeVersion? i.path).getD (lastSegment i.path)

/-- Whether the written name is `pkg`. -/
def isNamed (pkg : String) (i : Import) : Bool := !i.isDot && !i.isBlank && i.alias? == some pkg

/-- Whether the import has no written name and its path, not being versioned, ends in `pkg`. -/
def endsIn (pkg : String) (i : Import) : Bool :=
  i.alias?.isNone && (segmentBeforeVersion? i.path).isNone && lastSegment i.path == pkg

/-- Whether the import has no written name and its path ends in `pkg` and a version. -/
def endsInVersionOf (pkg : String) (i : Import) : Bool :=
  i.alias?.isNone && segmentBeforeVersion? i.path == some pkg

end Import

/-! ## Selectors -/

/-- The two sides of the first dot, if neither is empty. -/
def splitSelector (selector : String) : Option (String × String) :=
  match cutText '.' selector with
  | some (pkg, name) => if pkg = "" ∨ name = "" then none else some (pkg, name)
  | none => none

/-- The import that the package side of a selector refers to. A written name goes before the last
segment of a path, and that before the segment in front of a version. -/
def resolveImport (imports : List Import) (selector : String) : Option Import := do
  let (pkg, _) ← splitSelector selector
  (imports.find? (Import.isNamed pkg)).or <|
    (imports.find? (Import.endsIn pkg)).or (imports.find? (Import.endsInVersionOf pkg))

end GoOutline
