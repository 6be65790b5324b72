/-
# Forms of types and expressions

A form is the abstract tree of a type, an expression or a part of one, as it is built up call by
call, together with the text that is expected of it. Forms know nothing of nodes, lists and spans.
They come in sorts; the forms of a list and of an optional part are sorts of their own, so that all
functions on forms are plain recursions.
-/
import GoOutline.Tree.Node

namespace GoOutline

/-- The sorts of forms. -/
inductive FormSort where
  | type | expr | operand | key | element | keyed | literal | field | signature | term | elem
  | list (s : FormSort)
  | opt (s : FormSort)

/-- The trees that can be built. -/
inductive Form : FormSort → Type where
  | nil {s : FormSort} : Form (.list s)
  | cons {s : FormSort} (x : Form s) (xs : Form (.list s)) : Form (.list s)
  | absent {s : FormSort} : Form (.opt s)
  | present {s : FormSort} (x : Form s) : Form (.opt s)
  /-- A type by its name, which may contain dots, with type arguments. -/
  | named (name : String) (args : Form (.list .type)) : Form .type
  | pointer (elem : Form .type) : Form .type
  | slice (elem : Form .type) : Form .type
  /-- An array type; the length is a literal or three dots. -/
  | array (length : String) (elem : Form .type) : Form .type
  | map (key val : Form .type) : Form .type
  | chan (dir : ChanDir) (elem : Form .type) : Form .type
  | func (sig : Form .signature) : Form .type
  | parenType (inner : Form .type) : Form .type
  | struct (fields : Form (.list .field)) : Form .type
  | interface (elems : Form (.list .elem)) : Form .type
  | badType : Form .type
  | method (name : String) (sig : Form .signature) : Form .elem
  | union (terms : Form (.list .term)) : Form .elem
  | term (tilde : Bool) (type : Form .type) : Form .term
  | field (names : List String) (variadic : Bool) (type : Form .type) (tag : Option String) :
      Form .field
  | signature (params results : Form (.list .field)) : Form .signature
  | returning (params : Form (.list .field)) (result : Form .type) : Form .signature
  | ident (name : String) : Form .expr
  | literal (kind : LiteralKind) (raw : String) : Form .expr
  | selector (base : Form .expr) (name : String) : Form .expr
  | call (callee : Form .expr) (args : Form (.list .expr)) (spread : Bool) : Form .expr
  | conversion (type : Form .type) (arg : Form .expr) : Form .expr
  | builtin (name : String) (type : Form .type) (args : Form (.list .expr)) : Form .expr
  | unary (op : UnaryOp) (operand : Form .expr) : Form .expr
  | binary (left : Form .expr) (op : BinaryOp) (right : Form .expr) : Form .expr
  | paren (inner : Form .expr) : Form .expr
  | index (base : Form .expr) (args : Form (.list .operand)) : Form .expr
  | sliceExpr (base : Form .expr) (low high max : Form (.opt .expr)) : Form .expr
  | typeAssert (base : Form .expr) (type : Form .type) : Form .expr
  | composite (type : Form (.opt .type)) (elems : Form (.list .keyed)) : Form .expr
  | funcLit (sig : Form .signature) (body : String) : Form .expr
  | badExpr : Form .expr
  | exprOperand (e : Form .expr) : Form .operand
  | typeOperand (t : Form .type) : Form .operand
  /-- Elements of a composite literal in braces of their own. -/
  | braces (elems : Form (.list .keyed)) : Form .literal
  | exprKey (e : Form .expr) : Form .key
  | literalKey (v : Form .literal) : Form .key
  | exprElement (e : Form .expr) : Form .element
  | literalElement (v : Form .literal) : Form .element
  | fieldValue (name : String) (value : Form .expr) : Form .keyed
  | keyValue (key : Form (.opt .key)) (value : Form .element) : Form .keyed

/-- What stands for a form in a tree. -/
abbrev FormSort.Value : FormSort → Type
  | .type => TypeId
  | .expr => ExprId
  | .operand => OperandNode
  | .key => KeyNode
  | .element => ElementNode
  | .keyed => KeyedNode
  | .literal => LiteralNode
  | .field => FieldId
  | .signature => SignatureId
  | .term => TypeTermNode
  | .elem => InterfaceElemNode
  | .list s => List s.Value
  | .opt s => Option s.Value

/-! ## Expected texts -/

/-- The text of an entry of a field or parameter list, with the tag that is shown in a struct. -/
structure FieldText where
  /-- The entry binds no name. -/
  anonymous : Bool
  entry : String
  tag : Option String

/-- The text of an entry of a struct. -/
def FieldText.tagged (t : FieldText) : String := t.entry ++ t.tag.elim "" (" " ++ ·)

/-- The kind of text that is expected of a form. -/
abbrev FormSort.Text : FormSort → Type
  | .field => FieldText
  | .list s => List s.Text
  | .opt s => Option s.Text
  | _ => String

/-- Texts in brackets, if there are any. -/
def bracketed (texts : List String) : String :=
  if texts = [] then "" else "[" ++ ", ".intercalate texts ++ "]"

/-- Names with a blank after them, if there are any. -/
def spaced (names : List String) : String :=
  if names = [] then "" else ", ".intercalate names ++ " "

/-- A parameter list in parentheses. -/
def parenthesized (fields : List FieldText) : String :=
  "(" ++ ", ".intercalate (fields.map FieldText.entry) ++ ")"

/-- The results of a signature: nothing, one entry without a name as it is, or a list in
parentheses. -/
def resultsText : List FieldText → String
  | [] => ""
  | [result] => " " ++ if result.anonymous then result.entry else parenthesized [result]
  | results => " " ++ parenthesized results

/-- The words of a channel type. -/
def channelWords : ChanDir → String
  | .both => "chan"
  | .send => "chan<-"
  | .recv => "<-chan"

namespace Form

/-- The text that is expected of a form. -/
@[simp] def text : {s : FormSort} → Form s → s.Text
  | _, .nil => []
  | _, .cons x xs => x.text :: xs.text
  | _, .absent => none
  | _, .present x => some x.text
  | _, .named name args => name ++ bracketed args.text
  | _, .pointer elem => "*" ++ elem.text
  | _, .slice elem => "[]" ++ elem.text
  | _, .array length elem => "[" ++ length ++ "]" ++ elem.text
  | _, .map key val => "map[" ++ key.text ++ "]" ++ val.text
  | _, .chan dir elem => channelWords dir ++ " " ++ elem.text
  | _, .func sig => "func" ++ sig.text
  | _, .parenType inner => "(" ++ inner.text ++ ")"
  | _, .struct fields =>
    "struct\x7b" ++ "; ".intercalate (fields.text.map FieldText.tagged) ++ "\x7d"
  | _, .interface elems => "interface\x7b" ++ "; ".intercalate elems.text ++ "\x7d"
  | _, .badType => "BadType"
  | _, .method name sig => name ++ sig.text
  | _, .union terms => " | ".intercalate terms.text
  | _, .term tilde type => (if tilde then "~" else "") ++ type.text
  | _, .field names variadic type tag =>
    ⟨names.isEmpty, spaced names ++ (if variadic then "..." else "") ++ type.text, tag⟩
  | _, .signature params results =>
    parenthesized params.text ++ resultsText results.text
  | _, .returning params result => parenthesized params.text ++ " " ++ result.text
  | _, .ident name => name
  | _, .literal _ raw => raw
  | _, .selector base name => base.text ++ "." ++ name
  | _, .call callee args spread =>
    callee.text ++ "(" ++ ", ".intercalate args.text ++ (if spread then "..." else "") ++ ")"
  | _, .conversion type arg => type.text ++ "(" ++ arg.text ++ ")"
  | _, .builtin name type args => name ++ "(" ++ ", ".intercalate (type.text :: args.text) ++ ")"
  | _, .unary op operand => op.token ++ operand.text
  | _, .binary left op right => left.text ++ " " ++ op.token ++ " " ++ right.text
  | _, .paren inner => "(" ++ inner.text ++ ")"
  | _, .index base args => base.text ++ "[" ++ ", ".intercalate args.text ++ "]"
  | _, .sliceExpr base low high max =>
    base.text ++ "[" ++ low.text.getD "" ++ ":" ++ high.text.getD "" ++
      max.text.elim "" (":" ++ ·) ++ "]"
  | _, .typeAssert base type => base.text ++ ".(" ++ type.text ++ ")"
  | _, .composite type elems =>
    type.text.getD "" ++ "\x7b" ++ ", ".intercalate elems.text ++ "\x7d"
  | _, .funcLit sig body => "func" ++ sig.text ++ " " ++ body
  | _, .badExpr => "BadExpr"
  | _, .exprOperand e => e.text
  | _, .typeOperand t => t.text
  | _, .braces elems => "\x7b" ++ ", ".intercalate elems.text ++ "\x7d"
  | _, .exprKey e => e.text
  | _, .literalKey v => v.text
  | _, .exprElement e => e.text
  | _, .literalElement v => v.text
  | _, .fieldValue name value => name ++ ": " ++ value.text
  | _, .keyValue key value => key.text.elim "" (· ++ ": ") ++ value.text

end Form

end GoOutline
