/-
# Operators and keywords

The fixed words of Go that the tree refers to.
-/
namespace GoOutline

/-- Unary operators. -/
inductive UnaryOp where
  | add | sub | not | xor | deref | addr | recv
deriving DecidableEq, Repr

/-- The Go spelling of a unary operator. -/
def UnaryOp.token : UnaryOp → String
  | .add => "+"
  | .sub => "-"
  | .not => "!"
  | .xor => "^"
  | .deref => "*"
  | .addr => "&"
  | .recv => "<-"

/-- Binary operators. -/
inductive BinaryOp where
  | add | sub | mul | div | mod | and | or | xor | shl | shr | andNot | logicalAnd | logicalOr
  | eq | ne | lt | le | gt | ge
deriving DecidableEq, Repr

/-- The Go spelling of a binary operator. -/
def BinaryOp.token : BinaryOp → String
  | .add => "+"
  | .sub => "-"
  | .mul => "*"
  | .div => "/"
  | .mod => "%"
  | .and => "&"
  | .or => "|"
  | .xor => "^"
  | .shl => "<<"
  | .shr => ">>"
  | .andNot => "&^"
  | .logicalAnd => "&&"
  | .logicalOr => "||"
  | .eq => "=="
  | .ne => "!="
  | .lt => "<"
  | .le => "<="
  | .gt => ">"
  | .ge => ">="

/-- The four kinds of general declarations. -/
inductive DeclGroup where
  | imports | consts | types | vars
deriving DecidableEq, Repr

/-- The keyword that opens a general declaration. -/
def DeclGroup.keyword : DeclGroup → String
  | .imports => "import"
  | .consts => "const"
  | .types => "type"
  | .vars => "var"

/-- Directions of a channel type. -/
inductive ChanDir where
  | both | send | recv
deriving DecidableEq, Repr

/-- Kinds of basic literals. -/
inductive LiteralKind where
  | int | float | imag | rune | string
deriving DecidableEq, Repr

/-- Styles of comments. -/
inductive CommentStyle where
  | line | block
deriving DecidableEq, Repr

end GoOutline
