/-
# Building trees

A builder allocates the nodes of a tree one by one. Everything with a text (names, literals,
comments, keywords, punctuation) is appended to a source text of its own, one line each, so that
every span can be read back.

Building only ever appends: nodes, lists, symbols and source text that are there stay as they are.
The exceptions are tags and documentation, which are attached to a node after it was allocated.
-/
import GoOutline.Tree.Basic

namespace GoOutline

/-- A tree under construction. -/
structure Builder extends Store where
  path : String
  packageSpan : Span := default
  packageName : Symbol := default
  decls : Array TopDeclNode := #[]
  commentGroups : Array CommentGroupId := #[]
  doc : Option CommentGroupId := none
  diagnostics : Array Diagnostic := #[]

/-- A step of construction with a result. -/
abbrev Build (α : Type) := StateM Builder α

namespace Builder

/-! ## Text, nodes and lists -/

/-- Appends a line to the source; the span leaves out the line end. -/
def pushText (text : String) : Build Span := fun b =>
  let start := b.source.utf8ByteSize
  (⟨start, start + text.utf8ByteSize⟩, { b with source := b.source ++ text ++ "\n" })

/-- Appends a node to the arena of its sort. -/
def alloc (s : NodeSort) (node : s.Node) (span : Span) : Build (Id s) := fun b =>
  (⟨(b.nodes.arena s).size⟩, { b with nodes := b.nodes.modify s (·.push node span) })

/-- Changes a node in place. -/
def update {s : NodeSort} (id : Id s) (f : s.Node → s.Node) : Build Unit := fun b =>
  ((), { b with nodes := b.nodes.modify s (·.modify id.index f) })

/-- Appends a list to the buffer of its sort. -/
def pushList (l : ListSort) (items : List l.Item) : Build (ListRef l) := fun b =>
  let (ref, lists) := b.lists.push l items
  (ref, { b with lists })

/-- The number of a name. -/
def intern (name : String) : Build Symbol := fun b =>
  let (sym, symbols) := b.symbols.intern name
  (sym, { b with symbols })

/-- The extent of a node. -/
def spanOf {s : NodeSort} (id : Id s) : Build Span := fun b => ((b.span? id).getD default, b)

/-! ## Names -/

/-- An occurrence of a name. -/
def ident (name : String) : Build Ident := do
  let span ← pushText name
  return ⟨← intern name, span⟩

/-- A list of names. -/
def idents (names : List String) : Build (ListRef .idents) := do
  pushList .idents (← names.mapM ident)

/-- The span of the first name in a list. -/
def firstSpan? (names : ListRef .idents) : Build (Option Span) := fun b =>
  ((b.list names).head?.map Ident.span, b)

/-! ## Comments -/

/-- The style of a comment: what opens with `/*` is a block. -/
def commentStyle (line : String) : CommentStyle :=
  match line.toList with
  | '/' :: '*' :: _ => .block
  | _ => .line

/-- One comment of a group. -/
def comment (line : String) : Build CommentId := do
  let span ← pushText line
  alloc .comment ⟨commentStyle line⟩ span

/-- A comment group, which is also listed among the comments of the file. -/
def commentGroup (lines : List String) : Build CommentGroupId := do
  let ids ← lines.mapM comment
  let span ← match ids.head?, ids.getLast? with
    | some first, some last => pure ((← spanOf first).cover (← spanOf last))
    | _, _ => pure default
  let id ← alloc .commentGroup ⟨← pushList .comments ids⟩ span
  modify fun b => { b with commentGroups := b.commentGroups.push id }
  return id

/-- A comment group, if there are lines for one. -/
def commentGroup? (lines : List String) : Build (Option CommentGroupId) :=
  if lines.isEmpty then pure none else some <$> commentGroup lines

/-- Sets the documentation of the file. -/
def fileDoc (lines : List String) : Build Unit := do
  let doc ← commentGroup? lines
  modify fun b => { b with doc }

/-- Records a diagnostic. -/
def diagnostic (d : Diagnostic) : Build Unit :=
  modify fun b => { b with diagnostics := b.diagnostics.push d }

/-! ## Beginning and end -/

/-- A builder for a file with the given package clause. -/
def start (path package : String) : Builder :=
  let clause : Build Unit := do
    let packageSpan ← pushText "package"
    let name ← ident package
    modify fun b => { b with packageSpan, packageName := name.symbol }
  (clause.run { path }).2

/-- The finished tree. -/
def finish (b : Builder) : Tree :=
  let (decls, lists) := b.lists.push .topDecls b.decls.toList
  let (comments, lists) := lists.push .commentGroups b.commentGroups.toList
  { b.toStore with
    lists
    path := b.path
    root := ⟨b.packageSpan, b.packageName, decls, comments, b.doc⟩
    diagnostics := b.diagnostics.toList }

end Builder

end GoOutline
