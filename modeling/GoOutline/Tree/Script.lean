/-
# Construction scripts

A script describes a file as a list of construction steps. The result of a step goes into the
register with the step's number, and later steps name their parts by register. So a script can only
refer to what was built before, and any part may be used as often as one likes.

Running a script fails where a register is missing or holds something of another sort.
-/
import GoOutline.Tree.Builder.Decl
import GoOutline.Tree.Builder.Expr

namespace GoOutline

/-! ## Registers -/

/-- The result of a construction step. -/
inductive Register where
  | none
  | ident (name : Ident)
  | idents (names : ListRef .idents)
  | group (id : CommentGroupId)
  | type (id : TypeId)
  | expr (id : ExprId)
  | term (term : TypeTermNode)
  | elem (elem : InterfaceElemNode)
  | constraint (c : ConstraintNode)
  | typeParams (id : TypeParamsId)
  | field (id : FieldId)
  | signature (id : SignatureId)
  | keyed (elem : KeyedNode)
  | literalValue (value : LiteralNode)
  | spec (spec : SpecNode)
  | decl (id : DeclId)
  | receiver (recv : ReceiverNode)
  | func (id : FuncId)
deriving DecidableEq, Repr

namespace Register

/-- The comment group in the register. -/
def group? : Register → Option CommentGroupId
  | .group id => some id
  | _ => Option.none

/-- The type in the register. -/
def type? : Register → Option TypeId
  | .type id => some id
  | _ => Option.none

/-- The expression in the register. -/
def expr? : Register → Option ExprId
  | .expr id => some id
  | _ => Option.none

/-- The term in the register. -/
def term? : Register → Option TypeTermNode
  | .term t => some t
  | _ => Option.none

/-- The interface element in the register. -/
def elem? : Register → Option InterfaceElemNode
  | .elem e => some e
  | _ => Option.none

/-- The constraint in the register. -/
def constraint? : Register → Option ConstraintNode
  | .constraint c => some c
  | _ => Option.none

/-- The type parameter list in the register. -/
def typeParams? : Register → Option TypeParamsId
  | .typeParams id => some id
  | _ => Option.none

/-- The field in the register. -/
def field? : Register → Option FieldId
  | .field id => some id
  | _ => Option.none

/-- The signature in the register. -/
def signature? : Register → Option SignatureId
  | .signature id => some id
  | _ => Option.none

/-- The element of a literal in the register. -/
def keyed? : Register → Option KeyedNode
  | .keyed e => some e
  | _ => Option.none

/-- The spec in the register. -/
def spec? : Register → Option SpecNode
  | .spec s => some s
  | _ => Option.none

/-- The declaration in the register. -/
def decl? : Register → Option DeclId
  | .decl id => some id
  | _ => Option.none

/-- The receiver in the register. -/
def receiver? : Register → Option ReceiverNode
  | .receiver r => some r
  | _ => Option.none

/-- The function in the register. -/
def func? : Register → Option FuncId
  | .func id => some id
  | _ => Option.none

/-- An expression or a type, whichever the register holds. -/
def operand? : Register → Option OperandNode
  | .expr e => some (.expr e)
  | .type t => some (.type t)
  | _ => Option.none

/-- A key of a composite literal. -/
def key? : Register → Option KeyNode
  | .expr e => some (.expr e)
  | .literalValue v => some (.literal v)
  | _ => Option.none

/-- A value of a composite literal. -/
def element? : Register → Option ElementNode
  | .expr e => some (.expr e)
  | .literalValue v => some (.literal v)
  | _ => Option.none

end Register

/-- The results of all steps so far. -/
abbrev Registers := Array Register

namespace Registers

variable {α : Type}

/-- The content of one register, seen through `view`. -/
def one (regs : Registers) (view : Register → Option α) (i : Nat) : Option α := regs[i]? >>= view

/-- The contents of several registers. -/
def all (regs : Registers) (view : Register → Option α) (is : List Nat) : Option (List α) :=
  is.mapM (regs.one view)

/-- The content of a register that may be left out. -/
def opt (regs : Registers) (view : Register → Option α) (i : Option Nat) : Option (Option α) :=
  i.mapM (regs.one view)

end Registers

/-! ## Steps -/

/-- A construction step. Numbers are registers. -/
inductive Step where
  | comment (lines : List String)
  | fileDoc (lines : List String)
  | ident (name : String)
  | idents (names : List String)
  | named (name : String)
  | instantiated (name : String) (args : List Nat)
  | pointer (elem : Nat)
  | slice (elem : Nat)
  | parenType (inner : Nat)
  | array (length : String) (elem : Nat)
  | map (key val : Nat)
  | chan (dir : ChanDir) (elem : Nat)
  | funcType (sig : Nat)
  | struct (fields : List Nat)
  | interface (elems : List Nat)
  | badType
  | methodElem (doc : List String) (name : String) (sig : Nat)
  | embedElem (terms : List Nat)
  | term (type : Nat)
  | tilde (type : Nat)
  | anyConstraint
  | unionConstraint (terms : List Nat)
  | interfaceConstraint (type : Nat)
  | typeParams (decls : List (List String × Nat))
  | field (names : List String) (type : Nat)
  | variadic (names : List String) (type : Nat)
  | embedded (type : Nat)
  | tag (field : Nat) (raw : String)
  | fieldDoc (field : Nat) (lines : List String)
  | fieldComment (field : Nat) (lines : List String)
  | signature (params results : List Nat)
  | signatureReturning (params : List Nat) (result : Nat)
  | identExpr (name : String)
  | literal (kind : LiteralKind) (raw : String)
  | selector (base : Nat) (name : String)
  | call (callee : Nat) (args : List Nat)
  | callSpread (callee : Nat) (args : List Nat)
  | conversion (type arg : Nat)
  | builtin (name : String) (type : Nat) (args : List Nat)
  | unary (op : UnaryOp) (operand : Nat)
  | binary (left : Nat) (op : BinaryOp) (right : Nat)
  | paren (inner : Nat)
  | index (base : Nat) (args : List Nat)
  | sliceExpr (base : Nat) (low high max : Option Nat)
  | typeAssert (base type : Nat)
  | keyed (field : String) (value : Nat)
  | keyedExpr (key value : Nat)
  | element (value : Nat)
  | literalValue (elems : List Nat)
  | keyValue (key : Option Nat) (value : Nat)
  | composite (type : Option Nat) (elems : List Nat)
  | funcLit (sig : Nat) (body : String)
  | badExpr
  | importSpec (name : Option String) (path : String)
  | importRaw (name : Option String) (raw : String)
  | importSpan (spec : Nat) (path : Span)
  | valueSpec (names : List String) (type : Option Nat) (values : List Nat)
  | typeSpec (name : String) (type : Nat)
  | aliasSpec (name : String) (type : Nat)
  | genericTypeSpec (name : String) (params type : Nat)
  | specAlias (spec : Nat) (isAlias : Bool)
  | withDoc (spec : Nat) (lines : List String)
  | withComment (spec : Nat) (lines : List String)
  | decl (group : DeclGroup) (spec : Nat)
  | declGroup (group : DeclGroup) (specs : List Nat)
  | declDoc (decl : Nat) (lines : List String)
  | badDecl
  | receiver (name : Option String) (type : Nat)
  | genericReceiver (name : Option String) (type : Nat) (params : List String)
  | func (name : String) (sig : Nat)
  | genericFunc (name : String) (params sig : Nat)
  | method (recv : Nat) (name : String) (sig : Nat)
  | funcDoc (func : Nat) (lines : List String)
  | diagnostic (d : Diagnostic)
deriving Repr

/-- The spec with its path read from another span; only imports have one. -/
def SpecNode.withPath (path : Span) : SpecNode → SpecNode
  | .imported s => .imported { s with path }
  | other => other

/-- The spec marked as alias or not; only type specs have the mark. -/
def SpecNode.markAlias (isAlias : Bool) : SpecNode → SpecNode
  | .type s => .type { s with isAlias }
  | other => other

namespace Step

open Builder

/-- What a step does, if its registers hold what it needs. -/
def action (regs : Registers) : Step → Option (Build Register)
  | .comment lines => some (.group <$> commentGroup lines)
  | .fileDoc lines => some (do Builder.fileDoc lines; return .none)
  | .ident name => some (.ident <$> Builder.ident name)
  | .idents names => some (.idents <$> Builder.idents names)
  | .named name => some (.type <$> Builder.named name)
  | .instantiated name args => do
    let args ← regs.all Register.type? args
    return .type <$> Builder.instantiated name args
  | .pointer elem => do
    let elem ← regs.one Register.type? elem
    return .type <$> Builder.pointer elem
  | .slice elem => do
    let elem ← regs.one Register.type? elem
    return .type <$> Builder.slice elem
  | .parenType inner => do
    let inner ← regs.one Register.type? inner
    return .type <$> Builder.parenType inner
  | .array length elem => do
    let elem ← regs.one Register.type? elem
    return .type <$> Builder.array length elem
  | .map key val => do
    let key ← regs.one Register.type? key
    let val ← regs.one Register.type? val
    return .type <$> Builder.map key val
  | .chan dir elem => do
    let elem ← regs.one Register.type? elem
    return .type <$> Builder.chan dir elem
  | .funcType sig => do
    let sig ← regs.one Register.signature? sig
    return .type <$> Builder.funcType sig
  | .struct fields => do
    let fields ← regs.all Register.field? fields
    return .type <$> Builder.struct fields
  | .interface elems => do
    let elems ← regs.all Register.elem? elems
    return .type <$> Builder.interface elems
  | .badType => some (.type <$> Builder.badType)
  | .methodElem doc name sig => do
    let sig ← regs.one Register.signature? sig
    return .elem <$> Builder.methodElem doc name sig
  | .embedElem terms => do
    let terms ← regs.all Register.term? terms
    return .elem <$> Builder.embedElem terms
  | .term type => do
    let type ← regs.one Register.type? type
    return return .term ⟨none, type⟩
  | .tilde type => do
    let type ← regs.one Register.type? type
    return .term <$> Builder.tilde type
  | .anyConstraint => some (.constraint <$> Builder.anyConstraint)
  | .unionConstraint terms => do
    let terms ← regs.all Register.term? terms
    return .constraint <$> Builder.unionConstraint terms
  | .interfaceConstraint type => do
    let type ← regs.one Register.type? type
    return return .constraint (.interface type)
  | .typeParams decls => do
    let decls ← decls.mapM fun (names, c) => do
      return (names, ← regs.one Register.constraint? c)
    return .typeParams <$> Builder.typeParams decls
  | .field names type => do
    let type ← regs.one Register.type? type
    return .field <$> Builder.field names type
  | .variadic names type => do
    let type ← regs.one Register.type? type
    return .field <$> Builder.variadic names type
  | .embedded type => do
    let type ← regs.one Register.type? type
    return .field <$> Builder.embedded type
  | .tag f raw => do
    let f ← regs.one Register.field? f
    return do Builder.tag f raw; return .field f
  | .fieldDoc f lines => do
    let f ← regs.one Register.field? f
    return do Builder.fieldDoc f lines; return .field f
  | .fieldComment f lines => do
    let f ← regs.one Register.field? f
    return do Builder.fieldComment f lines; return .field f
  | .signature params results => do
    let params ← regs.all Register.field? params
    let results ← regs.all Register.field? results
    return .signature <$> Builder.signature params results
  | .signatureReturning params result => do
    let params ← regs.all Register.field? params
    let result ← regs.one Register.type? result
    return .signature <$> Builder.signatureReturning params result
  | .identExpr name => some (.expr <$> Builder.identExpr name)
  | .literal kind raw => some (.expr <$> Builder.literal kind raw)
  | .selector base name => do
    let base ← regs.one Register.expr? base
    return .expr <$> Builder.selector base name
  | .call callee args => do
    let callee ← regs.one Register.expr? callee
    let args ← regs.all Register.expr? args
    return .expr <$> Builder.call callee args
  | .callSpread callee args => do
    let callee ← regs.one Register.expr? callee
    let args ← regs.all Register.expr? args
    return .expr <$> Builder.callSpread callee args
  | .conversion type arg => do
    let type ← regs.one Register.type? type
    let arg ← regs.one Register.expr? arg
    return .expr <$> Builder.conversion type arg
  | .builtin name type args => do
    let type ← regs.one Register.type? type
    let args ← regs.all Register.expr? args
    return .expr <$> Builder.builtin name type args
  | .unary op operand => do
    let operand ← regs.one Register.expr? operand
    return .expr <$> Builder.unary op operand
  | .binary left op right => do
    let left ← regs.one Register.expr? left
    let right ← regs.one Register.expr? right
    return .expr <$> Builder.binary left op right
  | .paren inner => do
    let inner ← regs.one Register.expr? inner
    return .expr <$> Builder.paren inner
  | .index base args => do
    let base ← regs.one Register.expr? base
    let args ← regs.all Register.operand? args
    return .expr <$> Builder.index base args
  | .sliceExpr base low high max => do
    let base ← regs.one Register.expr? base
    let low ← regs.opt Register.expr? low
    let high ← regs.opt Register.expr? high
    let max ← regs.opt Register.expr? max
    return .expr <$> Builder.sliceExpr base low high max
  | .typeAssert base type => do
    let base ← regs.one Register.expr? base
    let type ← regs.one Register.type? type
    return .expr <$> Builder.typeAssert base type
  | .keyed name value => do
    let value ← regs.one Register.expr? value
    return .keyed <$> Builder.keyed name value
  | .keyedExpr key value => do
    let key ← regs.one Register.expr? key
    let value ← regs.one Register.expr? value
    return return .keyed ⟨some (.expr key), .expr value⟩
  | .element value => do
    let value ← regs.one Register.expr? value
    return return .keyed ⟨none, .expr value⟩
  | .literalValue elems => do
    let elems ← regs.all Register.keyed? elems
    return .literalValue <$> Builder.literalValue elems
  | .keyValue key value => do
    let key ← regs.opt Register.key? key
    let value ← regs.one Register.element? value
    return return .keyed ⟨key, value⟩
  | .composite type elems => do
    let type ← regs.opt Register.type? type
    let elems ← regs.all Register.keyed? elems
    return .expr <$> Builder.composite type elems
  | .funcLit sig body => do
    let sig ← regs.one Register.signature? sig
    return .expr <$> Builder.funcLit sig body
  | .badExpr => some (.expr <$> Builder.badExpr)
  | .importSpec name path => some (.spec <$> Builder.importSpec name path)
  | .importRaw name raw => some do
    let spec ← Builder.importSpec name ""
    let path ← Builder.ident raw
    return .spec (spec.withPath path.span)
  | .importSpan spec path => do
    let spec ← regs.one Register.spec? spec
    return return .spec (spec.withPath path)
  | .valueSpec names type values => do
    let type ← regs.opt Register.type? type
    let values ← regs.all Register.expr? values
    return .spec <$> Builder.valueSpec names type values
  | .typeSpec name type => do
    let type ← regs.one Register.type? type
    return .spec <$> Builder.typeSpec name none type false
  | .aliasSpec name type => do
    let type ← regs.one Register.type? type
    return .spec <$> Builder.typeSpec name none type true
  | .genericTypeSpec name params type => do
    let params ← regs.one Register.typeParams? params
    let type ← regs.one Register.type? type
    return .spec <$> Builder.typeSpec name (some params) type false
  | .specAlias spec isAlias => do
    let spec ← regs.one Register.spec? spec
    return return .spec (spec.markAlias isAlias)
  | .withDoc spec lines => do
    let spec ← regs.one Register.spec? spec
    return .spec <$> Builder.withDoc spec lines
  | .withComment spec lines => do
    let spec ← regs.one Register.spec? spec
    return .spec <$> Builder.withComment spec lines
  | .decl group spec => do
    let spec ← regs.one Register.spec? spec
    return .decl <$> Builder.decl group spec
  | .declGroup group specs => do
    let specs ← regs.all Register.spec? specs
    return .decl <$> Builder.declGroup group specs
  | .declDoc d lines => do
    let d ← regs.one Register.decl? d
    return do Builder.declDoc d lines; return .decl d
  | .badDecl => some (.decl <$> Builder.badDecl)
  | .receiver name type => do
    let type ← regs.one Register.type? type
    return .receiver <$> Builder.receiver name type
  | .genericReceiver name type params => do
    let type ← regs.one Register.type? type
    return .receiver <$> Builder.genericReceiver name type params
  | .func name sig => do
    let sig ← regs.one Register.signature? sig
    return .func <$> Builder.func none name none sig
  | .genericFunc name params sig => do
    let params ← regs.one Register.typeParams? params
    let sig ← regs.one Register.signature? sig
    return .func <$> Builder.func none name (some params) sig
  | .method recv name sig => do
    let recv ← regs.one Register.receiver? recv
    let sig ← regs.one Register.signature? sig
    return .func <$> Builder.func (some recv) name none sig
  | .funcDoc fn lines => do
    let fn ← regs.one Register.func? fn
    return do Builder.funcDoc fn lines; return .func fn
  | .diagnostic d => some (do Builder.diagnostic d; return .none)

end Step

/-! ## Runs -/

/-- A script in the middle of its run. -/
structure Progress where
  builder : Builder
  registers : Registers := #[]

namespace Progress

/-- Runs one step and puts its result into the next register. -/
def advance (p : Progress) (step : Step) : Option Progress := do
  let action ← step.action p.registers
  let (result, builder) := action.run p.builder
  return ⟨builder, p.registers.push result⟩

/-- Runs a list of steps. -/
def run (p : Progress) (steps : List Step) : Option Progress := steps.foldlM advance p

end Progress

end GoOutline
