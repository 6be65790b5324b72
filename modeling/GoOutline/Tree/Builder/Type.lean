/-
# Building types, fields and signatures
-/
import GoOutline.Text.Cut
import GoOutline.Tree.Builder.Basic

namespace GoOutline.Builder

/-- A basic literal. -/
def literal (kind : LiteralKind) (raw : String) : Build ExprId := do
  let span ← pushText raw
  alloc .expr (.literal kind span) span

/-! ## Types -/

/-- A named type with type arguments. The part of the name before its first dot, if there is one,
is the package. -/
def instantiated (name : String) (args : List TypeId) : Build TypeId := do
  let (pkg, name) ← match cutText '.' name with
    | some (pkg, rest) => pure (some (← ident pkg), ← ident rest)
    | none => pure (none, ← ident name)
  let own := pkg.elim name.span fun p => p.span.cover name.span
  let span ← match args.getLast? with
    | some last => pure (own.cover (← spanOf last))
    | none => pure own
  alloc .type (.named pkg name (← pushList .types args)) span

/-- A named type. -/
def named (name : String) : Build TypeId := instantiated name []

/-- A pointer type. -/
def pointer (elem : TypeId) : Build TypeId := do
  let star ← pushText "*"
  alloc .type (.pointer elem) (star.cover (← spanOf elem))

/-- A slice type. -/
def slice (elem : TypeId) : Build TypeId := do
  let brackets ← pushText "[]"
  alloc .type (.slice elem) (brackets.cover (← spanOf elem))

/-- An array type; the length `...` is inferred. -/
def array (length : String) (elem : TypeId) : Build TypeId := do
  let bracket ← pushText "["
  let length ← if length = "..." then do
      let _ ← pushText "..."
      pure ArrayLengthNode.inferred
    else ArrayLengthNode.expr <$> literal .int length
  alloc .type (.array length elem) (bracket.cover (← spanOf elem))

/-- A map type. -/
def map (key val : TypeId) : Build TypeId := do
  let word ← pushText "map"
  alloc .type (.map key val) (word.cover (← spanOf val))

/-- A channel type. -/
def chan (dir : ChanDir) (elem : TypeId) : Build TypeId := do
  let word ← pushText "chan"
  alloc .type (.chan dir elem) (word.cover (← spanOf elem))

/-- A type in parentheses. -/
def parenType (inner : TypeId) : Build TypeId := do
  let left ← pushText "("
  let right ← pushText ")"
  alloc .type (.paren inner) (left.cover right)

/-- A function type. -/
def funcType (sig : SignatureId) : Build TypeId := do
  let word ← pushText "func"
  alloc .type (.func sig) (word.cover (← spanOf sig))

/-- A struct type. -/
def struct (fields : List FieldId) : Build TypeId := do
  let left ← pushText "struct \x7b"
  let fields ← pushList .fields fields
  let right ← pushText "\x7d"
  alloc .type (.struct fields) (left.cover right)

/-- An interface type. -/
def interface (elems : List InterfaceElemNode) : Build TypeId := do
  let left ← pushText "interface \x7b"
  let elems ← pushList .interfaceElems elems
  let right ← pushText "\x7d"
  alloc .type (.interface elems) (left.cover right)

/-- A type that could not be understood. -/
def badType : Build TypeId := do
  let span ← pushText "<bad>"
  alloc .type .bad span

/-! ## Interface elements and constraints -/

/-- A method of an interface, with documentation if there are lines for it. -/
def methodElem (doc : List String) (name : String) (sig : SignatureId) :
    Build InterfaceElemNode := do
  let doc ← commentGroup? doc
  return .method doc (← ident name) sig

/-- An embedded interface or union. -/
def embedElem (terms : List TypeTermNode) : Build InterfaceElemNode :=
  .union <$> pushList .typeTerms terms

/-- A term `~T`. -/
def tilde (type : TypeId) : Build TypeTermNode := do
  return ⟨some (← pushText "~"), type⟩

/-- The constraint `any`. -/
def anyConstraint : Build ConstraintNode := .any <$> pushText "any"

/-- A union as constraint. -/
def unionConstraint (terms : List TypeTermNode) : Build ConstraintNode :=
  .union <$> pushList .typeTerms terms

/-- Type parameters that share a constraint. Without names they take the extent `bracket`. -/
def typeParamDecl (bracket : Span) (names : List String) (constraint : ConstraintNode) :
    Build TypeParamDeclId := do
  let names ← idents names
  alloc .typeParamDecl ⟨names, constraint⟩ ((← firstSpan? names).getD bracket)

/-- A type parameter list. -/
def typeParams (decls : List (List String × ConstraintNode)) : Build TypeParamsId := do
  let left ← pushText "["
  let ids ← decls.mapM fun (names, constraint) => typeParamDecl left names constraint
  let params ← pushList .typeParamDecls ids
  let right ← pushText "]"
  alloc .typeParams ⟨params⟩ (left.cover right)

/-! ## Fields and signatures -/

/-- An entry of a field or parameter list. -/
def fieldEntry (names : List String) (variadic : Bool) (type : TypeId) (embedded : Bool) :
    Build FieldId := do
  let names ← idents names
  let ellipsis ← if variadic then some <$> pushText "..." else pure none
  let typeSpan ← spanOf type
  let span := (← firstSpan? names).elim typeSpan fun first => first.cover typeSpan
  alloc .field ⟨names, ellipsis, type, none, embedded, none, none⟩ span

/-- A field or parameter that binds any number of names. -/
def field (names : List String) (type : TypeId) : Build FieldId :=
  fieldEntry names false type false

/-- A parameter `names ...type`. -/
def variadic (names : List String) (type : TypeId) : Build FieldId :=
  fieldEntry names true type false

/-- An embedded field of a struct. -/
def embedded (type : TypeId) : Build FieldId := fieldEntry [] false type true

/-- Attaches a struct tag, written with its quotes. -/
def tag (id : FieldId) (raw : String) : Build Unit := do
  let span ← pushText raw
  update id fun f => { f with tag := some span }

/-- Attaches documentation to a field. -/
def fieldDoc (id : FieldId) (lines : List String) : Build Unit := do
  let doc ← commentGroup? lines
  update id fun f => { f with doc }

/-- Attaches a trailing comment to a field. -/
def fieldComment (id : FieldId) (lines : List String) : Build Unit := do
  let comment ← commentGroup? lines
  update id fun f => { f with comment }

/-- A field list in parentheses with its two parentheses. -/
def fieldList (fields : List FieldId) : Build (Span × ListRef .fields × Span) := do
  let left ← pushText "("
  let fields ← pushList .fields fields
  return (left, fields, ← pushText ")")

/-- A signature with a list of results, which is left out when it is empty. -/
def signature (params results : List FieldId) : Build SignatureId := do
  let (left, params, right) ← fieldList params
  if results.isEmpty then
    alloc .signature ⟨params, none⟩ (left.cover right)
  else
    let (_, results, right) ← fieldList results
    alloc .signature ⟨params, some (.list results)⟩ (left.cover right)

/-- A signature with one result type outside parentheses. -/
def signatureReturning (params : List FieldId) (result : TypeId) : Build SignatureId := do
  let (left, params, _) ← fieldList params
  alloc .signature ⟨params, some (.type result)⟩ (left.cover (← spanOf result))

end GoOutline.Builder
