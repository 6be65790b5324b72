/-
# Diagnostics

Problems that a parser or a type checker reported for a file or a package.
-/
import GoOutline.Text.Span

namespace GoOutline

/-- Which stage reported the problem. -/
inductive DiagnosticKind where
  | parse
  | typeCheck
deriving DecidableEq, Repr

/-- The name of a kind in messages. -/
def DiagnosticKind.label : DiagnosticKind → String
  | .parse => "syntax error"
  | .typeCheck => "type error"

/-- A reported problem. -/
structure Diagnostic where
  kind : DiagnosticKind
  span : Span
  text : String
deriving DecidableEq, Repr

/-- The one-line form of a diagnostic: kind, place and text. -/
def Diagnostic.message (d : Diagnostic) : String :=
  d.kind.label ++ " at " ++ toString d.span.start ++ ".." ++ toString d.span.stop ++ ": " ++ d.text

end GoOutline
