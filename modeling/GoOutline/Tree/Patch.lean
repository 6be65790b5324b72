/-
# Patches

Edits of a finished tree, which reach states that no construction leads to: lists outside their
buffer, names without a text, parts exchanged for others. A patch for another variant of a node
than the one it finds changes nothing.
-/
import GoOutline.Tree.Script

namespace GoOutline

/-- An edit of a finished tree. Nodes are named by the register that holds them. -/
inductive Patch where
  | source (text : String)
  | rootName (sym : Symbol)
  | rootDecls (decls : ListRef .topDecls)
  | rootComments (comments : ListRef .commentGroups)
  | rootDoc (group : Option Nat)
  | embedded (field : Nat) (value : Bool)
  | ellipsis (field : Nat) (value : Bool)
  | fieldNames (field : Nat) (names : ListRef .idents)
  | fieldType (field type : Nat)
  | tagSpan (field : Nat) (span : Span)
  | resultsNone (sig : Nat)
  | resultsEmpty (sig : Nat)
  | arrayLength (type expr : Nat)
  | typeSymbol (type : Nat) (sym : Symbol)
  | assertTypeSwitch (expr : Nat)
  | callSpread (expr : Nat) (value : Bool)
  | callTypeArg (expr : Nat) (type : Option Nat)
  | funcTypeParams (func params : Nat)
  | funcNoBody (func : Nat)
  | declGrouped (decl : Nat) (value : Bool)
deriving Repr

/-- Changes a node of a tree. -/
def Tree.update {s : NodeSort} (t : Tree) (id : Id s) (f : s.Node → s.Node) : Tree :=
  { t with nodes := t.nodes.modify s (·.modify id.index f) }

namespace Patch

/-- The edited tree, if the registers hold what the patch needs. -/
def apply (regs : Registers) (t : Tree) : Patch → Option Tree
  | .source text => some { t with source := text }
  | .rootName sym => some { t with root.packageName := sym }
  | .rootDecls decls => some { t with root.decls := decls }
  | .rootComments comments => some { t with root.comments := comments }
  | .rootDoc group => do
    let doc ← regs.opt Register.group? group
    return { t with root.doc := doc }
  | .embedded field value => do
    let field ← regs.one Register.field? field
    return t.update field fun f => { f with embedded := value }
  | .ellipsis field value => do
    let field ← regs.one Register.field? field
    return t.update field fun f => { f with ellipsis := if value then some default else none }
  | .fieldNames field names => do
    let field ← regs.one Register.field? field
    return t.update field fun f => { f with names }
  | .fieldType field type => do
    let field ← regs.one Register.field? field
    let type ← regs.one Register.type? type
    return t.update field fun f => { f with type }
  | .tagSpan field span => do
    let field ← regs.one Register.field? field
    return t.update field fun f => { f with tag := some span }
  | .resultsNone sig => do
    let sig ← regs.one Register.signature? sig
    return t.update sig fun s => { s with results := none }
  | .resultsEmpty sig => do
    let sig ← regs.one Register.signature? sig
    return t.update sig fun s => { s with results := some (.list default) }
  | .arrayLength type expr => do
    let type ← regs.one Register.type? type
    let expr ← regs.one Register.expr? expr
    return t.update type fun
      | .array _ elem => .array (.expr expr) elem
      | other => other
  | .typeSymbol type sym => do
    let type ← regs.one Register.type? type
    return t.update type fun
      | .named pkg name args => .named pkg { name with symbol := sym } args
      | other => other
  | .assertTypeSwitch expr => do
    let expr ← regs.one Register.expr? expr
    return t.update expr fun
      | .typeAssert base _ => .typeAssert base none
      | other => other
  | .callSpread expr value => do
    let expr ← regs.one Register.expr? expr
    return t.update expr fun
      | .call callee typeArg args _ => .call callee typeArg args value
      | other => other
  | .callTypeArg expr type => do
    let expr ← regs.one Register.expr? expr
    let type ← regs.opt Register.type? type
    return t.update expr fun
      | .call callee _ args spread => .call callee type args spread
      | other => other
  | .funcTypeParams func params => do
    let func ← regs.one Register.func? func
    let params ← regs.one Register.typeParams? params
    return t.update func fun f => { f with typeParams := some params }
  | .funcNoBody func => do
    let func ← regs.one Register.func? func
    return t.update func fun f => { f with body := none }
  | .declGrouped decl value => do
    let decl ← regs.one Register.decl? decl
    return t.update decl fun
      | .general d => .general { d with grouped := value }
      | .bad => .bad

end Patch

/-- A file given as construction steps and later edits. -/
structure FileScript where
  path : String
  package : String
  steps : List Step
  patches : List Patch := []
deriving Repr

namespace FileScript

/-- The script before its first step. -/
def begin (f : FileScript) : Progress := ⟨.start f.path f.package, #[]⟩

/-- The tree after a complete run of the steps, with all patches applied. -/
def complete (f : FileScript) (p : Progress) : Option Tree :=
  f.patches.foldlM (fun t patch => patch.apply p.registers t) p.builder.finish

/-- The tree that the script describes. -/
def tree (f : FileScript) : Option Tree := f.begin.run f.steps >>= f.complete

end FileScript

end GoOutline
