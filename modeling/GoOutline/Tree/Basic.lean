/-
# Trees

A finished tree is a store with a root: the package clause, the top-level declarations, all comment
groups of the file, and its documentation.
-/
import GoOutline.Text.Diagnostic
import GoOutline.Tree.Store

namespace GoOutline

/-- The root of a file. -/
structure Root where
  packageSpan : Span
  packageName : Symbol
  decls : ListRef .topDecls
  comments : ListRef .commentGroups
  doc : Option CommentGroupId
deriving DecidableEq, Repr

/-- The tree of one file, with what its parser reported. -/
structure Tree extends Store where
  path : String
  root : Root
  diagnostics : List Diagnostic

namespace Tree

/-- The name in the package clause. -/
def packageName (t : Tree) : String := t.name t.root.packageName

/-- The top-level declarations in source order. -/
def topDecls (t : Tree) : List TopDeclNode := t.list t.root.decls

/-- The comment groups of the file. -/
def commentGroups (t : Tree) : List CommentGroupId := t.list t.root.comments

end Tree

end GoOutline
