/-
# Printing types and expressions

Types and expressions are printed on one line with Go's usual spacing. The text of literals and of
function bodies is taken over as it is.
-/
import GoOutline.Source.Basic

namespace GoOutline.Source

/-- Texts with a separator between them. -/
def joinWith (sep : String) : List String → String
  | [] => ""
  | [text] => text
  | text :: next :: rest => text ++ sep ++ joinWith sep (next :: rest)

/-- What opens a channel type. -/
def chanWord : ChanDir → String
  | .both => "chan "
  | .send => "chan<- "
  | .recv => "<-chan "

/-- Type arguments in brackets, or nothing if there are none. -/
def argsText (args : List String) : String :=
  if args.isEmpty then "" else "[" ++ joinWith ", " args ++ "]"

/-- Names in front of the type they belong to. -/
def namesText (names : List String) : String :=
  if names.isEmpty then "" else joinWith ", " names ++ " "

/-- A mark that is there or not. -/
def markText (mark : String) (present : Bool) : String := if present then mark else ""

mutual

/-- The text of a type. -/
def TypeExpr.text : TypeExpr → String
  | .named none name args => name ++ argsText (typeTexts args)
  | .named (some pkg) name args => pkg ++ "." ++ name ++ argsText (typeTexts args)
  | .pointer elem => "*" ++ elem.text
  | .array none elem => "[...]" ++ elem.text
  | .array (some length) elem => "[" ++ length.text ++ "]" ++ elem.text
  | .slice elem => "[]" ++ elem.text
  | .map key val => "map[" ++ key.text ++ "]" ++ val.text
  | .chan dir elem => chanWord dir ++ elem.text
  | .struct fields => "struct\x7b" ++ joinWith "; " (structFieldTexts fields) ++ "\x7d"
  | .interface elems => "interface\x7b" ++ joinWith "; " (elemTexts elems) ++ "\x7d"
  | .func sig => "func" ++ sig.text
  | .paren inner => "(" ++ inner.text ++ ")"
  | .bad => "BadType"

/-- The texts of several types. -/
def typeTexts : List TypeExpr → List String
  | [] => []
  | t :: ts => t.text :: typeTexts ts

/-- The text of a type that may be left out. -/
def optTypeText : Option TypeExpr → String
  | none => ""
  | some t => t.text

/-- The text of an expression. -/
def Expr.text : Expr → String
  | .ident name => name
  | .literal _ text => text
  | .funcLit sig body => "func" ++ sig.text ++ " " ++ body
  | .composite type elems =>
    optTypeText type ++ "\x7b" ++ joinWith ", " (keyedTexts elems) ++ "\x7d"
  | .index base args => base.text ++ "[" ++ joinWith ", " (operandTexts args) ++ "]"
  | .paren inner => "(" ++ inner.text ++ ")"
  | .selector base name => base.text ++ "." ++ name
  | .slice base low high max =>
    base.text ++ "[" ++ optExprText low ++ ":" ++ optExprText high ++
      (match max with
        | none => ""
        | some e => ":" ++ e.text) ++ "]"
  | .typeAssert base none => base.text ++ ".(type)"
  | .typeAssert base (some type) => base.text ++ ".(" ++ type.text ++ ")"
  | .call callee none args spread =>
    callee.text ++ "(" ++ joinWith ", " (exprTexts args) ++ markText "..." spread ++ ")"
  | .call callee (some type) args spread =>
    callee.text ++ "(" ++ joinWith ", " (type.text :: exprTexts args) ++
      markText "..." spread ++ ")"
  | .unary op operand => op.token ++ operand.text
  | .binary left op right => left.text ++ " " ++ op.token ++ " " ++ right.text
  | .bad => "BadExpr"

/-- The texts of several expressions. -/
def exprTexts : List Expr → List String
  | [] => []
  | e :: es => e.text :: exprTexts es

/-- The text of an expression that may be left out. -/
def optExprText : Option Expr → String
  | none => ""
  | some e => e.text

/-- The text of an expression or a type. -/
def Operand.text : Operand → String
  | .expr e => e.text
  | .type t => t.text

/-- The texts of several operands. -/
def operandTexts : List Operand → List String
  | [] => []
  | x :: xs => x.text :: operandTexts xs

/-- The text of a key or value of a composite literal. -/
def Element.text : Element → String
  | .expr e => e.text
  | .braces elems => "\x7b" ++ joinWith ", " (keyedTexts elems) ++ "\x7d"

/-- The text of an element of a composite literal. -/
def KeyedElem.text : KeyedElem → String
  | .mk .none value => value.text
  | .mk (.field name) value => name ++ ": " ++ value.text
  | .mk (.element key) value => key.text ++ ": " ++ value.text

/-- The texts of several elements of a composite literal. -/
def keyedTexts : List KeyedElem → List String
  | [] => []
  | e :: es => e.text :: keyedTexts es

/-- The text of a signature, without the word before it. -/
def Signature.text : Signature → String
  | .mk params results => "(" ++ joinWith ", " (paramTexts params) ++ ")" ++ results.text

/-- The text of results, with a blank in front if there are any. -/
def Results.text : Results → String
  | .none => ""
  | .bare type => " " ++ type.text
  | .single field => " " ++ field.paramText
  | .list [] => ""
  | .list (field :: fields) =>
    " (" ++ joinWith ", " (field.paramText :: paramTexts fields) ++ ")"

/-- The text of an entry of a parameter list, which shows no tag. -/
def Field.paramText : Field → String
  | .mk names variadic type _ _ _ _ =>
    namesText names ++ markText "..." variadic ++ type.text

/-- The texts of several entries of a parameter list. -/
def paramTexts : List Field → List String
  | [] => []
  | f :: fs => f.paramText :: paramTexts fs

/-- The text of an entry of a struct type. -/
def Field.structText : Field → String
  | .mk names variadic type tag _ _ _ =>
    namesText names ++ markText "..." variadic ++ type.text ++ tag.elim "" (" " ++ ·)

/-- The texts of several entries of a struct type. -/
def structFieldTexts : List Field → List String
  | [] => []
  | f :: fs => f.structText :: structFieldTexts fs

/-- The text of a term. -/
def TypeTerm.text : TypeTerm → String
  | .mk tilde type => markText "~" tilde ++ type.text

/-- The texts of several terms. -/
def termTexts : List TypeTerm → List String
  | [] => []
  | t :: ts => t.text :: termTexts ts

/-- The text of an element of an interface type. -/
def InterfaceElem.text : InterfaceElem → String
  | .method _ name sig => name ++ sig.text
  | .union terms => joinWith " | " (termTexts terms)

/-- The texts of several elements of an interface type. -/
def elemTexts : List InterfaceElem → List String
  | [] => []
  | e :: es => e.text :: elemTexts es

end

/-- The text of a union. -/
def unionText (terms : List TypeTerm) : String := joinWith " | " (termTexts terms)

/-- The text of a constraint. -/
def Constraint.text : Constraint → String
  | .any => "any"
  | .union terms => unionText terms
  | .interface type => type.text

end GoOutline.Source
