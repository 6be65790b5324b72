/-
# Building expressions
-/
import GoOutline.Tree.Builder.Type

namespace GoOutline.Builder

/-- A name as expression. -/
def identExpr (name : String) : Build ExprId := do
  let name ← ident name
  alloc .expr (.ident name) name.span

/-- A selection `base.name`. -/
def selector (base : ExprId) (name : String) : Build ExprId := do
  let _ ← pushText "."
  let name ← ident name
  alloc .expr (.selector base name) ((← spanOf base).cover name.span)

/-- The extent of an operand. -/
def spanOfOperand : OperandNode → Build Span
  | .expr e => spanOf e
  | .type t => spanOf t

/-- A call, conversion or use of a builtin function. -/
def applied (callee : OperandNode) (typeArg : Option TypeId) (args : List ExprId)
    (spread : Bool) : Build ExprId := do
  let _ ← pushText "("
  let args ← pushList .exprs args
  if spread then
    let _ ← pushText "..."
  let right ← pushText ")"
  alloc .expr (.call callee typeArg args spread) ((← spanOfOperand callee).cover right)

/-- A call `callee(args)`. -/
def call (callee : ExprId) (args : List ExprId) : Build ExprId :=
  applied (.expr callee) none args false

/-- A call `callee(args...)`. -/
def callSpread (callee : ExprId) (args : List ExprId) : Build ExprId :=
  applied (.expr callee) none args true

/-- A conversion `type(arg)`. -/
def conversion (type : TypeId) (arg : ExprId) : Build ExprId :=
  applied (.type type) none [arg] false

/-- A builtin function with a type as its first argument. -/
def builtin (name : String) (type : TypeId) (args : List ExprId) : Build ExprId := do
  let callee ← identExpr name
  applied (.expr callee) (some type) args false

/-- A unary operation. -/
def unary (op : UnaryOp) (operand : ExprId) : Build ExprId := do
  let sign ← pushText op.token
  alloc .expr (.unary op operand) (sign.cover (← spanOf operand))

/-- A binary operation. -/
def binary (left : ExprId) (op : BinaryOp) (right : ExprId) : Build ExprId := do
  let _ ← pushText op.token
  alloc .expr (.binary left op right) ((← spanOf left).cover (← spanOf right))

/-- An expression in parentheses. -/
def paren (inner : ExprId) : Build ExprId := do
  let left ← pushText "("
  let right ← pushText ")"
  alloc .expr (.paren inner) (left.cover right)

/-- An index or instantiation `base[args]`. -/
def index (base : ExprId) (args : List OperandNode) : Build ExprId := do
  let _ ← pushText "["
  let args ← pushList .operands args
  let right ← pushText "]"
  alloc .expr (.index base args) ((← spanOf base).cover right)

/-- A slice expression `base[low:high:max]`. -/
def sliceExpr (base : ExprId) (low high max : Option ExprId) : Build ExprId := do
  let _ ← pushText "["
  let right ← pushText "]"
  alloc .expr (.slice base low high max) ((← spanOf base).cover right)

/-- A type assertion `base.(type)`. -/
def typeAssert (base : ExprId) (type : TypeId) : Build ExprId := do
  let _ ← pushText ".("
  let right ← pushText ")"
  alloc .expr (.typeAssert base (some type)) ((← spanOf base).cover right)

/-- An element `field: value` of a composite literal. -/
def keyed (field : String) (value : ExprId) : Build KeyedNode := do
  return ⟨some (.field (← ident field)), .expr value⟩

/-- The part of a composite literal in braces. -/
def literalValue (elems : List KeyedNode) : Build LiteralNode := do
  let left ← pushText "\x7b"
  let elems ← pushList .keyedElems elems
  return ⟨left, elems, ← pushText "\x7d"⟩

/-- A composite literal. -/
def composite (type : Option TypeId) (elems : List KeyedNode) : Build ExprId := do
  let value ← literalValue elems
  let start ← match type with
    | some t => spanOf t
    | none => pure value.leftBrace
  alloc .expr (.composite type value) (start.cover value.rightBrace)

/-- A function literal; the text of its body has the braces at its ends. -/
def funcLit (sig : SignatureId) (body : String) : Build ExprId := do
  let word ← pushText "func"
  let body ← pushText body
  let block : Block := ⟨⟨body.start, body.start + 1⟩, ⟨body.stop - 1, body.stop⟩⟩
  alloc .expr (.funcLit sig block) (word.cover body)

/-- An expression that could not be understood. -/
def badExpr : Build ExprId := do
  let span ← pushText "<bad>"
  alloc .expr .bad span

end GoOutline.Builder
