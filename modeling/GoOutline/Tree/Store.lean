/-
# The node store

Everything that a tree under construction and a finished tree have in common: the source text, the
arenas with their nodes, the buffers with their lists, and the symbol table.

Arenas and buffers are reached through their sort, so allocating a node and pushing a list are one
definition each, whatever the sort.
-/
import GoOutline.Tree.Node

namespace GoOutline

/-! ## One arena, one buffer -/

/-- Nodes with their extents, numbered in the order of allocation. -/
structure Arena (α : Type) where
  slots : Array (α × Span) := #[]

namespace Arena

variable {α : Type}

instance : Inhabited (Arena α) := ⟨{}⟩

/-- The number of nodes. -/
def size (a : Arena α) : Nat := a.slots.size

/-- Appends a node, which gets the number `a.size`. -/
def push (a : Arena α) (node : α) (span : Span) : Arena α := ⟨a.slots.push (node, span)⟩

/-- The node with number `i`. -/
def node? (a : Arena α) (i : Nat) : Option α := a.slots[i]?.map Prod.fst

/-- The extent of the node with number `i`. -/
def span? (a : Arena α) (i : Nat) : Option Span := a.slots[i]?.map Prod.snd

/-- Changes the node with number `i` and keeps its extent. -/
def modify (a : Arena α) (i : Nat) (f : α → α) : Arena α :=
  ⟨a.slots.modify i fun (node, span) => (f node, span)⟩

end Arena

/-- The items of a buffer that a reference covers. A reference that does not lie inside the buffer
covers none. -/
def readBuffer {l : ListSort} {α : Type} (items : Array α) (r : ListRef l) : List α :=
  if r.start ≤ r.stop ∧ r.stop ≤ items.size then (items.extract r.start r.stop).toList else []

/-! ## All arenas -/

/-- The arenas of a file. -/
structure Nodes where
  decls : Arena DeclNode := {}
  exprs : Arena ExprNode := {}
  types : Arena TypeNode := {}
  signatures : Arena SignatureNode := {}
  funcs : Arena FuncNode := {}
  fields : Arena FieldNode := {}
  typeParams : Arena TypeParamsNode := {}
  typeParamDecls : Arena TypeParamDeclNode := {}
  comments : Arena CommentNode := {}
  commentGroups : Arena CommentGroupNode := {}

namespace Nodes

/-- The arena of a sort. -/
def arena (n : Nodes) : (s : NodeSort) → Arena s.Node
  | .decl => n.decls
  | .expr => n.exprs
  | .type => n.types
  | .signature => n.signatures
  | .func => n.funcs
  | .field => n.fields
  | .typeParams => n.typeParams
  | .typeParamDecl => n.typeParamDecls
  | .comment => n.comments
  | .commentGroup => n.commentGroups

/-- Changes the arena of one sort. -/
def modify (n : Nodes) : (s : NodeSort) → (Arena s.Node → Arena s.Node) → Nodes
  | .decl, f => { n with decls := f n.decls }
  | .expr, f => { n with exprs := f n.exprs }
  | .type, f => { n with types := f n.types }
  | .signature, f => { n with signatures := f n.signatures }
  | .func, f => { n with funcs := f n.funcs }
  | .field, f => { n with fields := f n.fields }
  | .typeParams, f => { n with typeParams := f n.typeParams }
  | .typeParamDecl, f => { n with typeParamDecls := f n.typeParamDecls }
  | .comment, f => { n with comments := f n.comments }
  | .commentGroup, f => { n with commentGroups := f n.commentGroups }

@[simp] theorem arena_modify (n : Nodes) (s : NodeSort) (f : Arena s.Node → Arena s.Node) :
    (n.modify s f).arena s = f (n.arena s) := by
  cases s <;> rfl

theorem arena_modify_of_ne (n : Nodes) {s t : NodeSort} (h : t ≠ s)
    (f : Arena s.Node → Arena s.Node) : (n.modify s f).arena t = n.arena t := by
  cases s <;> cases t <;> first | rfl | exact absurd rfl h

end Nodes

/-! ## All buffers -/

/-- The buffers of a file. -/
structure Lists where
  idents : Array Ident := #[]
  exprs : Array ExprId := #[]
  types : Array TypeId := #[]
  fields : Array FieldId := #[]
  specs : Array SpecNode := #[]
  keyedElems : Array KeyedNode := #[]
  topDecls : Array TopDeclNode := #[]
  typeTerms : Array TypeTermNode := #[]
  interfaceElems : Array InterfaceElemNode := #[]
  typeParamDecls : Array TypeParamDeclId := #[]
  comments : Array CommentId := #[]
  commentGroups : Array CommentGroupId := #[]
  operands : Array OperandNode := #[]

namespace Lists

/-- The buffer of a sort. -/
def buffer (x : Lists) : (l : ListSort) → Array l.Item
  | .idents => x.idents
  | .exprs => x.exprs
  | .types => x.types
  | .fields => x.fields
  | .specs => x.specs
  | .keyedElems => x.keyedElems
  | .topDecls => x.topDecls
  | .typeTerms => x.typeTerms
  | .interfaceElems => x.interfaceElems
  | .typeParamDecls => x.typeParamDecls
  | .comments => x.comments
  | .commentGroups => x.commentGroups
  | .operands => x.operands

/-- Appends items to the buffer of one sort. -/
def append (x : Lists) : (l : ListSort) → List l.Item → Lists
  | .idents, items => { x with idents := x.idents.appendList items }
  | .exprs, items => { x with exprs := x.exprs.appendList items }
  | .types, items => { x with types := x.types.appendList items }
  | .fields, items => { x with fields := x.fields.appendList items }
  | .specs, items => { x with specs := x.specs.appendList items }
  | .keyedElems, items => { x with keyedElems := x.keyedElems.appendList items }
  | .topDecls, items => { x with topDecls := x.topDecls.appendList items }
  | .typeTerms, items => { x with typeTerms := x.typeTerms.appendList items }
  | .interfaceElems, items => { x with interfaceElems := x.interfaceElems.appendList items }
  | .typeParamDecls, items => { x with typeParamDecls := x.typeParamDecls.appendList items }
  | .comments, items => { x with comments := x.comments.appendList items }
  | .commentGroups, items => { x with commentGroups := x.commentGroups.appendList items }
  | .operands, items => { x with operands := x.operands.appendList items }

/-- Appends a list to its buffer and refers to it. -/
def push (x : Lists) (l : ListSort) (items : List l.Item) : ListRef l × Lists :=
  (⟨(x.buffer l).size, items.length⟩, x.append l items)

/-- The items of a list. -/
def read {l : ListSort} (x : Lists) (r : ListRef l) : List l.Item := readBuffer (x.buffer l) r

@[simp] theorem buffer_append (x : Lists) (l : ListSort) (items : List l.Item) :
    (x.append l items).buffer l = x.buffer l ++ items := by
  cases l <;> rfl

theorem buffer_append_of_ne (x : Lists) {l k : ListSort} (h : k ≠ l) (items : List l.Item) :
    (x.append l items).buffer k = x.buffer k := by
  cases l <;> cases k <;> first | rfl | exact absurd rfl h

end Lists

/-! ## The store -/

/-- Source text, nodes, lists and symbols of one file. -/
structure Store where
  source : String := ""
  nodes : Nodes := {}
  lists : Lists := {}
  symbols : SymbolTable := .empty

namespace Store

variable {s : NodeSort} {l : ListSort}

/-- The node with the given id. -/
def node? (st : Store) (id : Id s) : Option s.Node := (st.nodes.arena s).node? id.index

/-- The extent of the node with the given id. -/
def span? (st : Store) (id : Id s) : Option Span := (st.nodes.arena s).span? id.index

/-- The items of a list. -/
def list (st : Store) (r : ListRef l) : List l.Item := st.lists.read r

/-- The source text of a span. -/
def text (st : Store) (span : Span) : String := span.text st.source

/-- The name of a symbol. -/
def name (st : Store) (sym : Symbol) : String := st.symbols.resolve sym

/-- The names in a list of occurrences. -/
def names (st : Store) (r : ListRef .idents) : List String :=
  (st.list r).map fun n => st.name n.symbol

/-- The lines of a comment group, unless one of its comments is missing. -/
def lines? (st : Store) (group : CommentGroupId) : Option (List String) := do
  let group ← st.node? group
  (st.list group.comments).mapM fun c => (st.span? c).map st.text

end Store

end GoOutline
