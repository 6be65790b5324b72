/-
# Declarations of an outline

The outline of a package says what its files declare, with types, values and constraints as text.
Packages own files, files own declarations, declarations own fields. The way up is by position: a
declaration records the id of its file.
-/
import GoOutline.OrderedMap

namespace GoOutline

/-- A file by its position: that of its package, and its own within the package. -/
structure FileId where
  package : Nat
  index : Nat
deriving DecidableEq, Repr

/-- A struct field, parameter, result, type parameter, embedded element or receiver. -/
structure Field where
  name : String := ""
  type : String := ""
  tag : Option String := none
  /-- The entry binds no name. -/
  unnamed : Bool := false
  /-- The receiver is a pointer; its type is recorded without it. -/
  pointer : Bool := false
  variadic : Bool := false
  doc : List String := []
  comment : List String := []
deriving DecidableEq, Repr

/-- Fields by key. -/
abbrev Fields := OrderedMap Field

/-- What every declaration has. -/
structure Header where
  name : String
  file : FileId
  doc : List String
deriving DecidableEq, Repr

/-- A variable or constant. Type and value are empty where the source gives none. -/
structure ValueDecl extends Header where
  type : String
  value : String
deriving DecidableEq, Repr

/-- A type that is neither a struct nor an interface. -/
structure TypeDecl extends Header where
  underlying : String
  isAlias : Bool
  typeParams : Fields

/-- A struct type. -/
structure StructDecl extends Header where
  fields : Fields
  typeParams : Fields

/-- A function. -/
structure FuncDecl extends Header where
  typeParams : Fields
  params : Fields
  results : Fields

/-- A method of a type or, without a receiver, of an interface. -/
structure MethodDecl extends FuncDecl where
  receiver : Option Field
  receiverTypeParams : Fields

/-- An interface type. -/
structure InterfaceDecl extends Header where
  methods : OrderedMap MethodDecl
  embeds : Fields
  typeParams : Fields

/-- A declaration. -/
inductive Decl where
  | var (d : ValueDecl)
  | const (d : ValueDecl)
  | type (d : TypeDecl)
  | func (d : FuncDecl)
  | method (d : MethodDecl)
  | struct (d : StructDecl)
  | interface (d : InterfaceDecl)

/-! ## Structs and methods -/

/-- The names of the fields that have one. -/
def StructDecl.fieldNames (d : StructDecl) : List String :=
  (d.fields.values.filter fun f => !f.unnamed).map Field.name

/-- The embedded fields. -/
def StructDecl.embedded (d : StructDecl) : List Field := d.fields.values.filter Field.unnamed

/-- Whether the method belongs to an interface. -/
def MethodDecl.isInterfaceMethod (d : MethodDecl) : Bool := d.receiver.isNone

/-- The name of a method with that of its receiver type in front. -/
def MethodDecl.key (d : MethodDecl) : String :=
  match d.receiver with
  | some r => r.type ++ "." ++ d.name
  | none => d.name

/-! ## Kinds -/

/-- The kinds of declarations. -/
inductive DeclKind where
  | var | const | type | func | method | struct | interface
deriving DecidableEq, Repr

namespace DeclKind

/-- All kinds. -/
def all : List DeclKind := [.var, .const, .type, .func, .method, .struct, .interface]

/-- The name of a kind. -/
def label : DeclKind → String
  | .var => "var"
  | .const => "const"
  | .type => "type"
  | .func => "func"
  | .method => "method"
  | .struct => "struct"
  | .interface => "interface"

/-- What a declaration of a kind consists of. -/
abbrev Payload : DeclKind → Type
  | .var => ValueDecl
  | .const => ValueDecl
  | .type => TypeDecl
  | .func => FuncDecl
  | .method => MethodDecl
  | .struct => StructDecl
  | .interface => InterfaceDecl

/-- The header of a declaration of a kind. -/
def header : (k : DeclKind) → k.Payload → Header
  | .var, d => d.toHeader
  | .const, d => d.toHeader
  | .type, d => d.toHeader
  | .func, d => d.toHeader
  | .method, d => d.toHeader
  | .struct, d => d.toHeader
  | .interface, d => d.toHeader

end DeclKind

namespace Decl

/-- The kind of a declaration. -/
def kind : Decl → DeclKind
  | .var _ => .var
  | .const _ => .const
  | .type _ => .type
  | .func _ => .func
  | .method _ => .method
  | .struct _ => .struct
  | .interface _ => .interface

/-- The declaration as one of kind `k`, if it is. -/
def as? : (k : DeclKind) → Decl → Option k.Payload
  | .var, .var d => some d
  | .const, .const d => some d
  | .type, .type d => some d
  | .func, .func d => some d
  | .method, .method d => some d
  | .struct, .struct d => some d
  | .interface, .interface d => some d
  | _, _ => none

/-- A declaration is one of its own kind and of no other. -/
theorem as?_eq_none_iff {k : DeclKind} {d : Decl} : d.as? k = none ↔ d.kind ≠ k := by
  cases k <;> cases d <;> simp [as?, kind]

/-- The header of a declaration. -/
def header : Decl → Header
  | .var d => d.toHeader
  | .const d => d.toHeader
  | .type d => d.toHeader
  | .func d => d.toHeader
  | .method d => d.toHeader
  | .struct d => d.toHeader
  | .interface d => d.toHeader

/-- The name of a declaration. -/
def name (d : Decl) : String := d.header.name

/-- The file of a declaration. -/
def file (d : Decl) : FileId := d.header.file

/-- The documentation of a declaration. -/
def doc (d : Decl) : List String := d.header.doc

/-- The type of a variable or constant, or the type that a type is defined as. -/
def declaredType? : Decl → Option String
  | .var d => some d.type
  | .const d => some d.type
  | .type d => some d.underlying
  | _ => none

/-- The key of a declaration, unless it repeats. -/
def key : Decl → String
  | .method d => d.key
  | d => d.name

/-- Whether a file may contain the declaration more than once: the blank name, and functions called
`init`. -/
def mayRepeat : Decl → Bool
  | .func d => d.name == "init" || d.name == "_"
  | d => d.name == "_"

end Decl

end GoOutline
