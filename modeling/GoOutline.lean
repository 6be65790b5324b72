import GoOutline.OrderedMap
import GoOutline.Outline.Decl
import GoOutline.Outline.Entry
import GoOutline.Outline.File
import GoOutline.Outline.Import
import GoOutline.Outline.Issue
import GoOutline.Outline.Members
import GoOutline.Program.Basic
import GoOutline.Program.BasicType
import GoOutline.Program.Load
import GoOutline.Program.Query
import GoOutline.Program.TypeUniverse
import GoOutline.Source.Basic
import GoOutline.Source.OfTree
import GoOutline.Source.Printer
import GoOutline.Text.Cut
import GoOutline.Text.Diagnostic
import GoOutline.Text.Span
import GoOutline.Text.Symbols
import GoOutline.Tree.Basic
import GoOutline.Tree.Builder.Basic
import GoOutline.Tree.Builder.Decl
import GoOutline.Tree.Builder.Expr
import GoOutline.Tree.Builder.Type
import GoOutline.Tree.Node
import GoOutline.Tree.Patch
import GoOutline.Tree.Script
import GoOutline.Tree.Store
import GoOutline.Tree.Vocabulary
import GoOutline.Proofs.OrderedMap
import GoOutline.Proofs.OrderedMap.Operations
import GoOutline.Proofs.Outline.Alike
import GoOutline.Proofs.Outline.Borders
import GoOutline.Proofs.Outline.BoundNames
import GoOutline.Proofs.Outline.Declarations
import GoOutline.Proofs.Outline.Faultless
import GoOutline.Proofs.Outline.FieldFlags
import GoOutline.Proofs.Outline.FieldLists
import GoOutline.Proofs.Outline.Imports
import GoOutline.Proofs.Outline.InterfaceMembers
import GoOutline.Proofs.Outline.Keys
import GoOutline.Proofs.Outline.Malformed
import GoOutline.Proofs.Outline.Numbering
import GoOutline.Proofs.Outline.Receivers
import GoOutline.Proofs.Outline.Regrouping
import GoOutline.Proofs.Outline.Relocation
import GoOutline.Proofs.Outline.Repeatable
import GoOutline.Proofs.Outline.Selectors
import GoOutline.Proofs.Outline.SingleResult
import GoOutline.Proofs.Outline.ValueGroups
import GoOutline.Proofs.Program.BackReferences
import GoOutline.Proofs.Program.BasicType
import GoOutline.Proofs.Program.Independence
import GoOutline.Proofs.Program.Load
import GoOutline.Proofs.Program.MethodSet
import GoOutline.Proofs.Program.Queries
import GoOutline.Proofs.Program.TypeFilter
import GoOutline.Proofs.Program.Underlying
import GoOutline.Proofs.Sequence
import GoOutline.Proofs.Source.Built
import GoOutline.Proofs.Source.ExprTokens
import GoOutline.Proofs.Source.Form
import GoOutline.Proofs.Source.Readability
import GoOutline.Proofs.Source.Reading
import GoOutline.Proofs.Source.Rendering
import GoOutline.Proofs.Source.Token
import GoOutline.Proofs.Source.Total
import GoOutline.Proofs.Source.TypeTokens
import GoOutline.Proofs.Text.Place
import GoOutline.Proofs.Text.Symbols
import GoOutline.Proofs.Tree.AppendOnly
import GoOutline.Proofs.Tree.Builder.Decl
import GoOutline.Proofs.Tree.Builder.Expr
import GoOutline.Proofs.Tree.Builder.Frame
import GoOutline.Proofs.Tree.Builder.Logic
import GoOutline.Proofs.Tree.Builder.Recovered
import GoOutline.Proofs.Tree.Builder.Step
import GoOutline.Proofs.Tree.Builder.Type
import GoOutline.Proofs.Tree.Growth
import GoOutline.Proofs.Tree.Order
import GoOutline.Proofs.Tree.Reading
import GoOutline.Proofs.Tree.Recovery
import GoOutline.Proofs.Tree.Reference
import GoOutline.Proofs.Tree.Run
