/-
# Type universes

What a type checker found out about the types of a program: entries with a text and, for named
types, the type they are defined over, and for each package a scope that maps names to entries.
Links need not lead anywhere and may run in circles.
-/
import GoOutline.OrderedMap

namespace GoOutline

/-- The number of an entry. -/
structure TypeRef where
  index : Nat
deriving DecidableEq, Repr

/-- A type with its text and the type below it. -/
structure TypeEntry where
  text : String
  underlying : Option TypeRef
deriving DecidableEq, Repr

/-- The types declared in a package, by name. -/
abbrev Scope := OrderedMap TypeRef

/-- Types and scopes. -/
structure TypeUniverse where
  entries : Array TypeEntry := #[]
  scopes : OrderedMap Scope := ∅

namespace TypeUniverse

/-! ## Entries -/

/-- Adds a named type over `underlying`. -/
def named (u : TypeUniverse) (text : String) (underlying : Option TypeRef) :
    TypeRef × TypeUniverse :=
  (⟨u.entries.size⟩, { u with entries := u.entries.push ⟨text, underlying⟩ })

/-- Adds a basic type or type literal, which is its own underlying type. -/
def literal (u : TypeUniverse) (text : String) : TypeRef × TypeUniverse :=
  u.named text (some ⟨u.entries.size⟩)

/-- Changes the type below an entry; nothing happens if there is no such entry. -/
def setUnderlying (u : TypeUniverse) (t underlying : TypeRef) : TypeUniverse :=
  { u with entries := u.entries.modify t.index fun e => { e with underlying := some underlying } }

/-- The text of an entry. -/
def text? (u : TypeUniverse) (t : TypeRef) : Option String := u.entries[t.index]?.map TypeEntry.text

/-- The type below an entry. -/
def underlying? (u : TypeUniverse) (t : TypeRef) : Option TypeRef :=
  u.entries[t.index]?.bind TypeEntry.underlying

/-! ## Scopes -/

/-- The scope of a package. -/
def scope? (u : TypeUniverse) (path : String) : Option Scope := u.scopes.get? path

/-- The scope of a package, which is empty if there is none yet. -/
def scopeOrEmpty (u : TypeUniverse) (path : String) : Scope := (u.scope? path).getD ∅

/-- Makes sure that a package has a scope. -/
def openScope (u : TypeUniverse) (path : String) : TypeUniverse :=
  { u with scopes := u.scopes.replace path (u.scopeOrEmpty path) }

/-- Declares a name in the scope of a package. A name that is declared again keeps its place. -/
def declare (u : TypeUniverse) (path name : String) (t : TypeRef) : TypeUniverse :=
  { u with scopes := u.scopes.replace path ((u.scopeOrEmpty path).replace name t) }

/-- The type that a package declares under a name. -/
def lookup? (u : TypeUniverse) (path name : String) : Option TypeRef := do
  (← u.scope? path).get? name

/-! ## Underlying types -/

/-- Follows the links from `t`, at most `n` of them, up to a type that has no other below it. -/
def follow (u : TypeUniverse) : Nat → TypeRef → TypeRef
  | 0, t => t
  | n + 1, t =>
    match u.underlying? t with
    | some next => if next = t then t else u.follow n next
    | none => t

/-- The text of the type at the end of the links from `t`. A chain of links that is longer than the
number of entries never ends. -/
def fixpoint? (u : TypeUniverse) (t : TypeRef) : Option String :=
  u.text? (u.follow (u.entries.size + 1) t)

end TypeUniverse

/-! ## Predeclared types -/

/-- The names of Go's basic types. -/
def basicTypes : List String :=
  ["bool", "byte", "complex64", "complex128", "float32", "float64", "int", "int8", "int16",
    "int32", "int64", "rune", "string", "uint", "uint8", "uint16", "uint32", "uint64", "uintptr"]

/-- Whether a name is that of a basic type. -/
def isBasicType (name : String) : Bool := basicTypes.contains name

end GoOutline
