/-
# Reading source forms from a tree

The nodes of a tree are put together again into nested source forms by following ids and list
references. In a tree that was built step by step every reference leads to something older, so this
comes to an end. An edited tree may contain circles; a bound on the number of nested nodes, which no
circle-free tree exceeds, cuts them off.

Only what is outlined is read. Specs that stand in the wrong place, definitions of types that define
nothing, and type parameters given to a method are passed over, whatever is in them. The comments of
entries and methods are looked up only where these become members of a declaration. Where a type is
merely shown, or where documentation gives way to another, comments are passed over as well.

Reading fails where a reference leads nowhere or the bound is exceeded. A declaration that cannot be
read counts as bad.
-/
import GoOutline.Source.Basic
import GoOutline.Tree.Basic

namespace GoOutline

namespace Store

/-- The lines of a comment group that may be left out. -/
def optLines? (st : Store) (group : Option CommentGroupId) : Option (Option Source.Lines) :=
  group.mapM st.lines?

/-- The lines of a comment group, none if it is left out. -/
def docLines? (st : Store) (group : Option CommentGroupId) : Option Source.Lines :=
  (·.getD []) <$> st.optLines? group

/-- No lines, whatever the comment group: it is not looked up. -/
def noLines (_ : Option CommentGroupId) : Option Source.Lines := some []

/-! ## Types and expressions

What lies between two types or expressions (fields, signatures, unions, elements of literals) is
read with given readers for the types and expressions in it, so that only types, expressions and
literals count as nested. The comments of entries and methods also have a given reader, `noLines`
where they are not looked up. -/

/-- Reads an entry of a field or parameter list. -/
def readField (st : Store) (lines : Option CommentGroupId → Option Source.Lines)
    (type : TypeId → Option Source.TypeExpr) (id : FieldId) : Option Source.Field := do
  let f ← st.node? id
  return .mk (st.names f.names) f.ellipsis.isSome (← type f.type) (f.tag.map st.text) f.embedded
    (← lines f.doc) (← lines f.comment)

/-- Reads the results of a signature. -/
def readResults (st : Store) (lines : Option CommentGroupId → Option Source.Lines)
    (type : TypeId → Option Source.TypeExpr) : Option ResultsNode → Option Source.Results
  | none => return .none
  | some (.type t) => return .bare (← type t)
  | some (.list fields) =>
    match st.list fields with
    | [only] => do
      let node : FieldNode ← st.node? only
      let field ← st.readField lines type only
      return if node.names.isEmpty then .single field else .list [field]
    | fields => return .list (← fields.mapM (st.readField lines type))

/-- Reads a signature. -/
def readSignature (st : Store) (lines : Option CommentGroupId → Option Source.Lines)
    (type : TypeId → Option Source.TypeExpr) (id : SignatureId) : Option Source.Signature := do
  let sig ← st.node? id
  return .mk (← (st.list sig.params).mapM (st.readField lines type))
    (← st.readResults lines type sig.results)

/-- Reads a union. -/
def readUnion (st : Store) (type : TypeId → Option Source.TypeExpr) (terms : ListRef .typeTerms) :
    Option (List Source.TypeTerm) :=
  (st.list terms).mapM fun t => return .mk t.tilde.isSome (← type t.type)

/-- Reads an element of an interface type. -/
def readInterfaceElem (st : Store) (lines : Option CommentGroupId → Option Source.Lines)
    (type : TypeId → Option Source.TypeExpr) : InterfaceElemNode → Option Source.InterfaceElem
  | .method doc name sig =>
    return .method (← lines doc) (st.name name.symbol) (← st.readSignature lines type sig)
  | .union terms => return .union (← st.readUnion type terms)

/-- Reads an expression or a type. -/
def readOperand (expr : ExprId → Option Source.Expr) (type : TypeId → Option Source.TypeExpr) :
    OperandNode → Option Source.Operand
  | .expr e => return .expr (← expr e)
  | .type t => return .type (← type t)

/-- Reads a value of a composite literal. -/
def readElement (expr : ExprId → Option Source.Expr)
    (elems : LiteralNode → Option (List Source.KeyedElem)) : ElementNode → Option Source.Element
  | .expr e => return .expr (← expr e)
  | .literal v => return .braces (← elems v)

/-- Reads a key of a composite literal. -/
def readKey (st : Store) (expr : ExprId → Option Source.Expr)
    (elems : LiteralNode → Option (List Source.KeyedElem)) : Option KeyNode → Option Source.Key
  | none => return .none
  | some (.field name) => return .field (st.name name.symbol)
  | some (.expr e) => return .element (.expr (← expr e))
  | some (.literal v) => return .element (.braces (← elems v))

/-- Reads an element of a composite literal. -/
def readKeyed (st : Store) (expr : ExprId → Option Source.Expr)
    (elems : LiteralNode → Option (List Source.KeyedElem)) (e : KeyedNode) :
    Option Source.KeyedElem := do
  return .mk (← st.readKey expr elems e.key) (← readElement expr elems e.value)

mutual

/-- Reads a type that is shown, with at most `n` nested nodes. -/
def readType (st : Store) : (n : Nat) → TypeId → Option Source.TypeExpr
  | 0, _ => none
  | n + 1, id => do
    match ← st.node? id with
    | .named pkg name args =>
      let args ← (st.list args).mapM fun t => st.readType n t
      return .named (pkg.map fun p => st.name p.symbol) (st.name name.symbol) args
    | .pointer elem => return .pointer (← st.readType n elem)
    | .array .inferred elem => return .array none (← st.readType n elem)
    | .array (.expr length) elem =>
      return .array (some (← st.readExpr n length)) (← st.readType n elem)
    | .slice elem => return .slice (← st.readType n elem)
    | .map key val => return .map (← st.readType n key) (← st.readType n val)
    | .chan dir elem => return .chan dir (← st.readType n elem)
    | .struct fields =>
      return .struct (← (st.list fields).mapM (st.readField noLines fun t => st.readType n t))
    | .interface elems =>
      return .interface
        (← (st.list elems).mapM (st.readInterfaceElem noLines fun t => st.readType n t))
    | .func sig => return .func (← st.readSignature noLines (fun t => st.readType n t) sig)
    | .paren inner => return .paren (← st.readType n inner)
    | .bad => return .bad

/-- Reads an expression, with at most `n` nested nodes. -/
def readExpr (st : Store) : (n : Nat) → ExprId → Option Source.Expr
  | 0, _ => none
  | n + 1, id => do
    match ← st.node? id with
    | .ident name => return .ident (st.name name.symbol)
    | .literal kind raw => return .literal kind (st.text raw)
    | .funcLit sig body =>
      return .funcLit (← st.readSignature noLines (fun t => st.readType n t) sig) (st.text body.span)
    | .composite type value =>
      return .composite (← type.mapM fun t => st.readType n t) (← st.readElems n value)
    | .index base args =>
      return .index (← st.readExpr n base) (← (st.list args).mapM
        (readOperand (fun e => st.readExpr n e) fun t => st.readType n t))
    | .paren inner => return .paren (← st.readExpr n inner)
    | .selector base name => return .selector (← st.readExpr n base) (st.name name.symbol)
    | .slice base low high max =>
      return .slice (← st.readExpr n base) (← low.mapM fun e => st.readExpr n e)
        (← high.mapM fun e => st.readExpr n e) (← max.mapM fun e => st.readExpr n e)
    | .typeAssert base type =>
      return .typeAssert (← st.readExpr n base) (← type.mapM fun t => st.readType n t)
    | .call callee typeArg args spread =>
      let callee ← readOperand (fun e => st.readExpr n e) (fun t => st.readType n t) callee
      return .call callee (← typeArg.mapM fun t => st.readType n t)
        (← (st.list args).mapM fun e => st.readExpr n e) spread
    | .unary op operand => return .unary op (← st.readExpr n operand)
    | .binary left op right => return .binary (← st.readExpr n left) op (← st.readExpr n right)
    | .bad => return .bad

/-- Reads the elements of a composite literal. -/
def readElems (st : Store) : (n : Nat) → LiteralNode → Option (List Source.KeyedElem)
  | 0, _ => none
  | n + 1, value =>
    (st.list value.elems).mapM (st.readKeyed (fun e => st.readExpr n e) fun v => st.readElems n v)

end

/-- A bound on the nesting of nodes: a chain of nodes, each inside the one before, passes through
every type, every expression and every element of a literal at most once. -/
def depth (st : Store) : Nat :=
  st.nodes.types.size + st.nodes.exprs.size + st.lists.keyedElems.size + 1

/-- The type with the given id, without the comments in it. -/
def type? (st : Store) (id : TypeId) : Option Source.TypeExpr := st.readType st.depth id

/-- The expression with the given id. -/
def expr? (st : Store) (id : ExprId) : Option Source.Expr := st.readExpr st.depth id

/-- The signature with the given id as that of a function. -/
def signature? (st : Store) (id : SignatureId) : Option Source.Signature :=
  st.readSignature st.docLines? st.type? id

/-- The type with the given id as one that is defined. The entries of a struct and the elements of an
interface are members of what is defined, so their comments are looked up. -/
def definedType? (st : Store) (id : TypeId) : Option Source.TypeExpr := do
  match ← st.node? id with
  | .struct fields =>
    return .struct (← (st.list fields).mapM (st.readField st.docLines? st.type?))
  | .interface elems =>
    return .interface (← (st.list elems).mapM (st.readInterfaceElem st.docLines? st.type?))
  | _ => st.type? id

/-! ## Declarations -/

/-- Reads a constraint. -/
def constraint? (st : Store) : ConstraintNode → Option Source.Constraint
  | .any _ => return .any
  | .union terms => return .union (← st.readUnion st.type? terms)
  | .interface type => return .interface (← st.type? type)

/-- Reads a type parameter list, which is empty if it is left out. -/
def typeParams? (st : Store) : Option TypeParamsId → Option (List Source.TypeParamDecl)
  | none => return []
  | some id => do
    let params ← st.node? id
    (st.list params.params).mapM fun (decl : TypeParamDeclId) => do
      let decl ← st.node? decl
      return ⟨st.names decl.names, ← st.constraint? decl.constraint⟩

/-- The name that an import gives to its package; a missing name is empty. -/
def importName (st : Store) : Option ImportName → String
  | none => ""
  | some (.dot _) => "."
  | some (.blank _) => "_"
  | some (.name name) => st.name name.symbol

/-- Reads an import. -/
def importSpec? (st : Store) (s : ImportSpecNode) : Option Source.ImportSpec := do
  return ⟨← st.optLines? s.doc, st.importName s.name, st.text s.path, ← st.docLines? s.comment⟩

/-- Reads constants or variables. -/
def valueSpec? (st : Store) (s : ValueSpecNode) : Option Source.ValueSpec := do
  let type ← s.type.mapM st.type?
  let values ← (st.list s.values).mapM st.expr?
  return ⟨← st.optLines? s.doc, st.names s.names, type, values⟩

/-- Reads a type spec. Where it defines nothing, neither its type parameters nor what is inside its
type are looked at. -/
def typeSpec? (st : Store) (s : TypeSpecNode) : Option Source.Spec := do
  let type : TypeNode ← st.node? s.type
  if type = .bad then return .badType
  else if s.isAlias && type.isInstantiated then return .instanceAlias
  else
    let typeParams ← st.typeParams? s.typeParams
    let type ← st.definedType? s.type
    return .type ⟨← st.optLines? s.doc, st.name s.name.symbol, typeParams, type, s.isAlias⟩

/-- Reads a spec of a declaration of the given group. A spec of another kind is not looked into. -/
def spec? (st : Store) : DeclGroup → SpecNode → Option Source.Spec
  | .imports, .imported s => return .imported (← st.importSpec? s)
  | .consts, .value s => return .value (← st.valueSpec? s)
  | .vars, .value s => return .value (← st.valueSpec? s)
  | .types, .type s => st.typeSpec? s
  | _, _ => return .misplaced

/-- Reads a receiver. -/
def receiver? (st : Store) (r : ReceiverNode) : Option Source.Receiver := do
  return ⟨r.name.elim "" fun n => st.name n.symbol, ← st.type? r.type,
    r.typeParams.elim [] fun p => st.names p.names⟩

/-- Reads the declaration of a function or method. -/
def func? (st : Store) (id : FuncId) : Option Source.FuncDecl := do
  let f ← st.node? id
  let typeParams ← if f.receiver.isSome then pure [] else st.typeParams? f.typeParams
  return ⟨← st.docLines? f.doc, ← f.receiver.mapM st.receiver?, st.name f.name.symbol, typeParams,
    ← st.signature? f.signature⟩

/-- Reads the documentation of a declaration with the given specs. It is looked up only if it goes to
one of them. -/
def generalDoc? (st : Store) (d : GeneralDeclNode) (specs : List Source.Spec) :
    Option (Option Source.Lines) :=
  if !d.grouped && specs.any Source.Spec.lacksDoc then st.optLines? d.doc else some none

/-- Reads a top-level declaration. -/
def topDecl? (st : Store) : TopDeclNode → Option Source.TopDecl
  | .func id => return .func (← st.func? id)
  | .decl id => do
    match ← st.node? id with
    | .general d =>
      let specs ← (st.list d.specs).mapM (st.spec? d.group)
      return .general ⟨← st.generalDoc? d specs, d.group, d.grouped, specs⟩
    | .bad => return .bad

end Store

/-- The source file of a tree. -/
def Tree.sourceFile (t : Tree) : Source.File where
  package := t.packageName
  doc := (t.docLines? t.root.doc).getD []
  comments := t.commentGroups.map fun g => (t.lines? g).getD []
  decls := t.topDecls.map fun d => (t.topDecl? d).getD .bad

end GoOutline
