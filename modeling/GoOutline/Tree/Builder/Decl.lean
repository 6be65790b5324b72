/-
# Building declarations
-/
import GoOutline.Tree.Builder.Type

namespace GoOutline.Builder

/-! ## Specs -/

/-- The name given to an imported package: `.`, `_` or an identifier. -/
def importName (name : String) : Build ImportName := do
  let span ← pushText name
  if name = "." then return .dot span
  else if name = "_" then return .blank span
  else return .name ⟨← intern name, span⟩

/-- An import of `path`, which is written in double quotes. -/
def importSpec (name : Option String) (path : String) : Build SpecNode := do
  let name ← name.mapM importName
  let path ← pushText ("\"" ++ path ++ "\"")
  return .imported ⟨none, name, path, none⟩

/-- Constants or variables. -/
def valueSpec (names : List String) (type : Option TypeId) (values : List ExprId) :
    Build SpecNode := do
  let names ← idents names
  return .value ⟨none, names, type, ← pushList .exprs values⟩

/-- A type definition, or with `isAlias` an alias. -/
def typeSpec (name : String) (typeParams : Option TypeParamsId) (type : TypeId)
    (isAlias : Bool) : Build SpecNode := do
  let name ← ident name
  let assign ← if isAlias then some <$> pushText "=" else pure none
  return .type ⟨none, name, typeParams, assign, type, isAlias⟩

/-- The spec with other documentation. -/
def withDoc (spec : SpecNode) (lines : List String) : Build SpecNode := do
  let doc ← commentGroup? lines
  return match spec with
    | .imported s => .imported { s with doc }
    | .value s => .value { s with doc }
    | .type s => .type { s with doc }

/-- The spec with another trailing comment, which only an import can have. -/
def withComment (spec : SpecNode) (lines : List String) : Build SpecNode := do
  let comment ← commentGroup? lines
  return match spec with
    | .imported s => .imported { s with comment }
    | other => other

/-! ## Declarations -/

/-- Appends a declaration to the top level of the file. -/
def declare (decl : TopDeclNode) : Build Unit :=
  modify fun b => { b with decls := b.decls.push decl }

/-- A declaration with one spec. -/
def decl (group : DeclGroup) (spec : SpecNode) : Build DeclId := do
  let word ← pushText group.keyword
  let specs ← pushList .specs [spec]
  let id ← alloc .decl (.general ⟨none, group, false, specs⟩) word
  declare (.decl id)
  return id

/-- A declaration with its specs in parentheses. -/
def declGroup (group : DeclGroup) (specs : List SpecNode) : Build DeclId := do
  let word ← pushText group.keyword
  let _ ← pushText "("
  let specs ← pushList .specs specs
  let right ← pushText ")"
  let id ← alloc .decl (.general ⟨none, group, true, specs⟩) (word.cover right)
  declare (.decl id)
  return id

/-- Attaches documentation to a general declaration. -/
def declDoc (id : DeclId) (lines : List String) : Build Unit := do
  let doc ← commentGroup? lines
  update id fun
    | .general d => .general { d with doc }
    | .bad => .bad

/-- A declaration that could not be understood. -/
def badDecl : Build DeclId := do
  let span ← pushText "<bad>"
  let id ← alloc .decl .bad span
  declare (.decl id)
  return id

/-! ## Functions and methods -/

/-- The receiver of a method. -/
def receiver (name : Option String) (type : TypeId) : Build ReceiverNode := do
  let left ← pushText "("
  let name ← name.mapM ident
  let right ← pushText ")"
  return ⟨left.cover right, name, type, none⟩

/-- A receiver that binds type parameters in brackets. -/
def genericReceiver (name : Option String) (type : TypeId) (params : List String) :
    Build ReceiverNode := do
  let recv ← receiver name type
  let left ← pushText "["
  let names ← idents params
  let right ← pushText "]"
  return { recv with typeParams := some ⟨left, names, right⟩ }

/-- A function or method. -/
def func (receiver : Option ReceiverNode) (name : String) (typeParams : Option TypeParamsId)
    (signature : SignatureId) : Build FuncId := do
  let word ← pushText "func"
  let name ← ident name
  let left ← pushText "\x7b"
  let right ← pushText "\x7d"
  let id ← alloc .func ⟨none, receiver, name, typeParams, signature, some ⟨left, right⟩⟩
    (word.cover right)
  declare (.func id)
  return id

/-- Attaches documentation to a function or method. -/
def funcDoc (id : FuncId) (lines : List String) : Build Unit := do
  let doc ← commentGroup? lines
  update id fun f => { f with doc }

end GoOutline.Builder
