/-
# Nodes

The tree of a file is not nested: its nodes lie in arenas, one for each sort of node, and refer to
each other by id. Sequences of children lie in shared buffers, one for each sort of item, and a
node holds a reference to its stretch of the buffer.

A node keeps the spans of the names, literals and tags in it. The extent of the node itself is
kept beside it in the arena.
-/
import GoOutline.Text.Span
import GoOutline.Text.Symbols
import GoOutline.Tree.Vocabulary

namespace GoOutline

/-! ## References -/

/-- The sorts of nodes that have an arena. -/
inductive NodeSort where
  | decl | expr | type | signature | func | field | typeParams | typeParamDecl | comment
  | commentGroup
deriving DecidableEq, Repr

/-- The number of a node within the arena of its sort. -/
structure Id (s : NodeSort) where
  index : Nat
deriving DecidableEq, Repr

abbrev DeclId := Id .decl
abbrev ExprId := Id .expr
abbrev TypeId := Id .type
abbrev SignatureId := Id .signature
abbrev FuncId := Id .func
abbrev FieldId := Id .field
abbrev TypeParamsId := Id .typeParams
abbrev TypeParamDeclId := Id .typeParamDecl
abbrev CommentId := Id .comment
abbrev CommentGroupId := Id .commentGroup

/-- The sorts of items that have a buffer. -/
inductive ListSort where
  | idents | exprs | types | fields | specs | keyedElems | topDecls | typeTerms | interfaceElems
  | typeParamDecls | comments | commentGroups | operands
deriving DecidableEq, Repr

/-- A stretch of the buffer of a sort of items. -/
structure ListRef (l : ListSort) where
  start : Nat
  length : Nat
deriving DecidableEq, Repr, Inhabited

namespace ListRef

variable {l : ListSort}

/-- The position after the last item, counted in 32 bits. -/
def stop (r : ListRef l) : Nat := (r.start + r.length) % UInt32.size

/-- Whether the reference claims no items. -/
def isEmpty (r : ListRef l) : Bool := r.length == 0

end ListRef

/-! ## Small parts -/

/-- An occurrence of a name. -/
structure Ident where
  symbol : Symbol
  span : Span
deriving DecidableEq, Repr

/-- A block in braces. Only the braces are known, not what stands between them. -/
structure Block where
  leftBrace : Span
  rightBrace : Span
deriving DecidableEq, Repr

/-- The extent of a block. -/
def Block.span (b : Block) : Span := b.leftBrace.cover b.rightBrace

/-! ## Comments -/

/-- One comment; its text is the text of its extent. -/
structure CommentNode where
  style : CommentStyle
deriving DecidableEq, Repr

/-- Comments that stand together. -/
structure CommentGroupNode where
  comments : ListRef .comments
deriving DecidableEq, Repr

/-! ## Types -/

/-- The length of an array type. -/
inductive ArrayLengthNode where
  | expr (e : ExprId)
  | inferred
deriving DecidableEq, Repr

/-- A type expression. -/
inductive TypeNode where
  | named (pkg : Option Ident) (name : Ident) (args : ListRef .types)
  | pointer (elem : TypeId)
  | array (length : ArrayLengthNode) (elem : TypeId)
  | slice (elem : TypeId)
  | map (key val : TypeId)
  | chan (dir : ChanDir) (elem : TypeId)
  | struct (fields : ListRef .fields)
  | interface (elems : ListRef .interfaceElems)
  | func (sig : SignatureId)
  | paren (inner : TypeId)
  | bad
deriving DecidableEq, Repr

/-- Whether a type is a named type with type arguments. -/
def TypeNode.isInstantiated : TypeNode → Bool
  | .named _ _ args => !args.isEmpty
  | _ => false

/-- A term `T` or `~T` of a union. -/
structure TypeTermNode where
  tilde : Option Span
  type : TypeId
deriving DecidableEq, Repr

/-- An element of an interface type: a method, or an embedded type or union. -/
inductive InterfaceElemNode where
  | method (doc : Option CommentGroupId) (name : Ident) (sig : SignatureId)
  | union (terms : ListRef .typeTerms)
deriving DecidableEq, Repr

/-- What a type parameter has to satisfy. -/
inductive ConstraintNode where
  | any (span : Span)
  | union (terms : ListRef .typeTerms)
  | interface (type : TypeId)
deriving DecidableEq, Repr

/-- Type parameters that share a constraint. -/
structure TypeParamDeclNode where
  names : ListRef .idents
  constraint : ConstraintNode
deriving DecidableEq, Repr

/-- A type parameter list in brackets. -/
structure TypeParamsNode where
  params : ListRef .typeParamDecls
deriving DecidableEq, Repr

/-! ## Fields and signatures -/

/-- An entry of a field or parameter list, which may bind any number of names. -/
structure FieldNode where
  names : ListRef .idents
  ellipsis : Option Span
  type : TypeId
  tag : Option Span
  embedded : Bool
  doc : Option CommentGroupId
  comment : Option CommentGroupId
deriving DecidableEq, Repr

/-- The results of a signature, as a list in parentheses or as a bare type. -/
inductive ResultsNode where
  | list (fields : ListRef .fields)
  | type (type : TypeId)
deriving DecidableEq, Repr

/-- Parameters and results of a function. -/
structure SignatureNode where
  params : ListRef .fields
  results : Option ResultsNode
deriving DecidableEq, Repr

/-! ## Expressions -/

/-- The part of a composite literal in braces. -/
structure LiteralNode where
  leftBrace : Span
  elems : ListRef .keyedElems
  rightBrace : Span
deriving DecidableEq, Repr

/-- The key of an element of a composite literal. -/
inductive KeyNode where
  | field (name : Ident)
  | expr (e : ExprId)
  | literal (value : LiteralNode)
deriving DecidableEq, Repr

/-- The value of an element of a composite literal. -/
inductive ElementNode where
  | expr (e : ExprId)
  | literal (value : LiteralNode)
deriving DecidableEq, Repr

/-- An element of a composite literal. -/
structure KeyedNode where
  key : Option KeyNode
  value : ElementNode
deriving DecidableEq, Repr

/-- A place that takes an expression or a type: a callee or an argument in brackets. -/
inductive OperandNode where
  | expr (e : ExprId)
  | type (t : TypeId)
deriving DecidableEq, Repr

/-- An expression. -/
inductive ExprNode where
  | ident (name : Ident)
  | literal (kind : LiteralKind) (raw : Span)
  | funcLit (sig : SignatureId) (body : Block)
  | composite (type : Option TypeId) (value : LiteralNode)
  | index (base : ExprId) (args : ListRef .operands)
  | paren (inner : ExprId)
  | selector (base : ExprId) (name : Ident)
  | slice (base : ExprId) (low high max : Option ExprId)
  | typeAssert (base : ExprId) (type : Option TypeId)
  | call (callee : OperandNode) (typeArg : Option TypeId) (args : ListRef .exprs) (spread : Bool)
  | unary (op : UnaryOp) (operand : ExprId)
  | binary (left : ExprId) (op : BinaryOp) (right : ExprId)
  | bad
deriving DecidableEq, Repr

/-! ## Declarations -/

/-- The name that an import spec gives to its package. -/
inductive ImportName where
  | dot (span : Span)
  | blank (span : Span)
  | name (name : Ident)
deriving DecidableEq, Repr

/-- One import. -/
structure ImportSpecNode where
  doc : Option CommentGroupId
  name : Option ImportName
  path : Span
  comment : Option CommentGroupId
deriving DecidableEq, Repr

/-- Names of constants or variables with their type and values. -/
structure ValueSpecNode where
  doc : Option CommentGroupId
  names : ListRef .idents
  type : Option TypeId
  values : ListRef .exprs
deriving DecidableEq, Repr

/-- The definition of a type. -/
structure TypeSpecNode where
  doc : Option CommentGroupId
  name : Ident
  typeParams : Option TypeParamsId
  assign : Option Span
  type : TypeId
  isAlias : Bool
deriving DecidableEq, Repr

/-- One spec of a general declaration. -/
inductive SpecNode where
  | imported (spec : ImportSpecNode)
  | value (spec : ValueSpecNode)
  | type (spec : TypeSpecNode)
deriving DecidableEq, Repr

/-- An import, constant, type or variable declaration. -/
structure GeneralDeclNode where
  doc : Option CommentGroupId
  group : DeclGroup
  grouped : Bool
  specs : ListRef .specs
deriving DecidableEq, Repr

/-- A declaration other than that of a function. -/
inductive DeclNode where
  | general (decl : GeneralDeclNode)
  | bad
deriving DecidableEq, Repr

/-- The names bound in brackets by a receiver. -/
structure ReceiverParamsNode where
  leftBracket : Span
  names : ListRef .idents
  rightBracket : Span
deriving DecidableEq, Repr

/-- The receiver of a method. -/
structure ReceiverNode where
  span : Span
  name : Option Ident
  type : TypeId
  typeParams : Option ReceiverParamsNode
deriving DecidableEq, Repr

/-- The declaration of a function or method. -/
structure FuncNode where
  doc : Option CommentGroupId
  receiver : Option ReceiverNode
  name : Ident
  typeParams : Option TypeParamsId
  signature : SignatureId
  body : Option Block
deriving DecidableEq, Repr

/-- A declaration at the top of a file. -/
inductive TopDeclNode where
  | decl (id : DeclId)
  | func (id : FuncId)
deriving DecidableEq, Repr

/-! ## What arenas and buffers hold -/

/-- The nodes of a sort. -/
abbrev NodeSort.Node : NodeSort → Type
  | .decl => DeclNode
  | .expr => ExprNode
  | .type => TypeNode
  | .signature => SignatureNode
  | .func => FuncNode
  | .field => FieldNode
  | .typeParams => TypeParamsNode
  | .typeParamDecl => TypeParamDeclNode
  | .comment => CommentNode
  | .commentGroup => CommentGroupNode

/-- The items of a sort. -/
abbrev ListSort.Item : ListSort → Type
  | .idents => Ident
  | .exprs => ExprId
  | .types => TypeId
  | .fields => FieldId
  | .specs => SpecNode
  | .keyedElems => KeyedNode
  | .topDecls => TopDeclNode
  | .typeTerms => TypeTermNode
  | .interfaceElems => InterfaceElemNode
  | .typeParamDecls => TypeParamDeclId
  | .comments => CommentId
  | .commentGroups => CommentGroupId
  | .operands => OperandNode

end GoOutline
