/-
# Source forms

The declarations of a file as nested data: names are strings, comments are lists of lines, and a
part stands inside the whole it belongs to. Types and expressions contain each other (a type through
the length of an array, an expression through conversions and literals), so they are defined
together with their parts.
-/
import GoOutline.Tree.Vocabulary

namespace GoOutline.Source

/-- The lines of a comment. -/
abbrev Lines := List String

/-! ## Types and expressions -/

mutual

/-- A type expression. -/
inductive TypeExpr where
  | named (pkg : Option String) (name : String) (args : List TypeExpr)
  | pointer (elem : TypeExpr)
  /-- An array type; without a length it is inferred. -/
  | array (length : Option Expr) (elem : TypeExpr)
  | slice (elem : TypeExpr)
  | map (key val : TypeExpr)
  | chan (dir : ChanDir) (elem : TypeExpr)
  | struct (fields : List Field)
  | interface (elems : List InterfaceElem)
  | func (sig : Signature)
  | paren (inner : TypeExpr)
  | bad

/-- An expression. -/
inductive Expr where
  | ident (name : String)
  | literal (kind : LiteralKind) (text : String)
  | funcLit (sig : Signature) (body : String)
  | composite (type : Option TypeExpr) (elems : List KeyedElem)
  | index (base : Expr) (args : List Operand)
  | paren (inner : Expr)
  | selector (base : Expr) (name : String)
  | slice (base : Expr) (low high max : Option Expr)
  /-- A type assertion; without a type it is that of a type switch. -/
  | typeAssert (base : Expr) (type : Option TypeExpr)
  | call (callee : Operand) (typeArg : Option TypeExpr) (args : List Expr) (spread : Bool)
  | unary (op : UnaryOp) (operand : Expr)
  | binary (left : Expr) (op : BinaryOp) (right : Expr)
  | bad

/-- An expression or a type. -/
inductive Operand where
  | expr (e : Expr)
  | type (t : TypeExpr)

/-- A key or value of a composite literal: an expression, or elements in braces of their own. -/
inductive Element where
  | expr (e : Expr)
  | braces (elems : List KeyedElem)

/-- What stands before the colon of an element of a composite literal. -/
inductive Key where
  | none
  | field (name : String)
  | element (e : Element)

/-- An element of a composite literal. -/
inductive KeyedElem where
  | mk (key : Key) (value : Element)

/-- Parameters and results. -/
inductive Signature where
  | mk (params : List Field) (results : Results)

/-- The results of a signature. A single result without a name stands without parentheses, whether it
is held as a type or as a list. -/
inductive Results where
  | none
  /-- A type that is held for itself. -/
  | bare (type : TypeExpr)
  /-- A list of one entry, which has no names. -/
  | single (field : Field)
  /-- Any other list. -/
  | list (fields : List Field)

/-- An entry of a field or parameter list. -/
inductive Field where
  | mk (names : List String) (variadic : Bool) (type : TypeExpr) (tag : Option String)
      (embedded : Bool) (doc comment : Lines)

/-- A term `T` or, with a tilde, `~T`. -/
inductive TypeTerm where
  | mk (tilde : Bool) (type : TypeExpr)

/-- An element of an interface type. -/
inductive InterfaceElem where
  | method (doc : Lines) (name : String) (sig : Signature)
  | union (terms : List TypeTerm)

end

namespace Signature

/-- The parameters. -/
def params : Signature → List Field
  | .mk params _ => params

/-- The results. -/
def results : Signature → Results
  | .mk _ results => results

end Signature

/-- The type without the parentheses around it. -/
def TypeExpr.stripParens : TypeExpr → TypeExpr
  | .paren inner => inner.stripParens
  | other => other

/-! ## Declarations -/

/-- What a type parameter has to satisfy. -/
inductive Constraint where
  | any
  | union (terms : List TypeTerm)
  | interface (type : TypeExpr)

/-- Type parameters that share a constraint. -/
structure TypeParamDecl where
  names : List String
  constraint : Constraint

/-- One import. Without a name of its own the package keeps its default name. The path is as
written, with its quotes. -/
structure ImportSpec where
  doc : Option Lines
  name : String
  path : String
  comment : Lines

/-- Names of constants or variables with their type and values. -/
structure ValueSpec where
  doc : Option Lines
  names : List String
  type : Option TypeExpr
  values : List Expr

/-- The definition of a type. -/
structure TypeSpec where
  doc : Option Lines
  name : String
  typeParams : List TypeParamDecl
  type : TypeExpr
  isAlias : Bool

/-- One spec of a general declaration. Nothing more is known of a spec that defines nothing than the
reason for it. -/
inductive Spec where
  | imported (spec : ImportSpec)
  | value (spec : ValueSpec)
  | type (spec : TypeSpec)
  /-- The definition of a type as one that could not be understood. -/
  | badType
  /-- An alias of a named type with type arguments. -/
  | instanceAlias
  /-- A spec that belongs into a declaration of another kind. -/
  | misplaced

/-- Whether a spec defines something without documentation of its own. -/
def Spec.lacksDoc : Spec → Bool
  | .imported s => s.doc.isNone
  | .value s => s.doc.isNone
  | .type s => s.doc.isNone
  | _ => false

/-- An import, constant, type or variable declaration. Its documentation is that of a spec which
stands alone and lacks its own. -/
structure GeneralDecl where
  doc : Option Lines
  group : DeclGroup
  grouped : Bool
  specs : List Spec

/-- The receiver of a method with the names that it binds in brackets. -/
structure Receiver where
  name : String
  type : TypeExpr
  typeParams : List String

/-- A function or, with a receiver, a method. A method has no type parameters but those that its
receiver binds. -/
structure FuncDecl where
  doc : Lines
  receiver : Option Receiver
  name : String
  typeParams : List TypeParamDecl
  signature : Signature

/-- A declaration at the top of a file. -/
inductive TopDecl where
  | general (decl : GeneralDecl)
  | func (decl : FuncDecl)
  | bad

/-- What a source file declares. -/
structure File where
  package : String
  doc : Lines
  comments : List Lines
  decls : List TopDecl

end GoOutline.Source
