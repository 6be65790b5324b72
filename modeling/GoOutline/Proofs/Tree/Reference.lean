/-
# References

Nodes and the items of lists refer to other nodes by id, and to lists by their stretch of a buffer.
This file says, sort by sort, what a node or an item refers to, and what it means that a reference
leads to something: the id is smaller than the size of its arena, the stretch lies inside its buffer.
Symbols and spans do not count as references, since a symbol or a span that leads nowhere only has
the empty text.
-/
import GoOutline.Tree.Script
import Mathlib.Tactic.Common

namespace GoOutline

/-- What a node or an item of a list refers to. -/
inductive Reference where
  | node (s : NodeSort) (id : Id s)
  | list (l : ListSort) (r : ListRef l)

/-- The reference to a node. -/
def Id.ref {s : NodeSort} (id : Id s) : Reference := .node s id

/-- The references of an id that may be left out. -/
def Id.optRefs {s : NodeSort} (id : Option (Id s)) : List Reference := id.toList.map Id.ref

/-- The reference to a list. -/
def ListRef.ref {l : ListSort} (r : ListRef l) : Reference := .list l r

/-! ## What a node refers to -/

/-- The references of a length of an array type. -/
def ArrayLengthNode.refs : ArrayLengthNode → List Reference
  | .expr e => [e.ref]
  | .inferred => []

/-- The references of a type. -/
def TypeNode.refs : TypeNode → List Reference
  | .named _ _ args => [args.ref]
  | .pointer elem => [elem.ref]
  | .array length elem => elem.ref :: length.refs
  | .slice elem => [elem.ref]
  | .map key val => [key.ref, val.ref]
  | .chan _ elem => [elem.ref]
  | .struct fields => [fields.ref]
  | .interface elems => [elems.ref]
  | .func sig => [sig.ref]
  | .paren inner => [inner.ref]
  | .bad => []

/-- The references of a term of a union. -/
def TypeTermNode.refs (t : TypeTermNode) : List Reference := [t.type.ref]

/-- The references of an element of an interface type. -/
def InterfaceElemNode.refs : InterfaceElemNode → List Reference
  | .method doc _ sig => sig.ref :: Id.optRefs doc
  | .union terms => [terms.ref]

/-- The references of a constraint. -/
def ConstraintNode.refs : ConstraintNode → List Reference
  | .any _ => []
  | .union terms => [terms.ref]
  | .interface type => [type.ref]

/-- The references of an entry of a field list. -/
def FieldNode.refs (f : FieldNode) : List Reference :=
  f.names.ref :: f.type.ref :: (Id.optRefs f.doc ++ Id.optRefs f.comment)

/-- The references of the results of a signature. -/
def ResultsNode.refs : ResultsNode → List Reference
  | .list fields => [fields.ref]
  | .type t => [t.ref]

/-- The references of a signature. -/
def SignatureNode.refs (sig : SignatureNode) : List Reference :=
  sig.params.ref :: sig.results.elim [] ResultsNode.refs

/-- The references of the part of a composite literal in braces. -/
def LiteralNode.refs (v : LiteralNode) : List Reference := [v.elems.ref]

/-- The references of a key of a composite literal. -/
def KeyNode.refs : KeyNode → List Reference
  | .field _ => []
  | .expr e => [e.ref]
  | .literal v => v.refs

/-- The references of a value of a composite literal. -/
def ElementNode.refs : ElementNode → List Reference
  | .expr e => [e.ref]
  | .literal v => v.refs

/-- The references of an element of a composite literal. -/
def KeyedNode.refs (e : KeyedNode) : List Reference := e.key.elim [] KeyNode.refs ++ e.value.refs

/-- The references of an expression or a type. -/
def OperandNode.refs : OperandNode → List Reference
  | .expr e => [e.ref]
  | .type t => [t.ref]

/-- The references of an expression. -/
def ExprNode.refs : ExprNode → List Reference
  | .ident _ => []
  | .literal _ _ => []
  | .funcLit sig _ => [sig.ref]
  | .composite type value => Id.optRefs type ++ value.refs
  | .index base args => [base.ref, args.ref]
  | .paren inner => [inner.ref]
  | .selector base _ => [base.ref]
  | .slice base low high max => base.ref :: (Id.optRefs low ++ Id.optRefs high ++ Id.optRefs max)
  | .typeAssert base type => base.ref :: Id.optRefs type
  | .call callee typeArg args _ => args.ref :: (callee.refs ++ Id.optRefs typeArg)
  | .unary _ operand => [operand.ref]
  | .binary left _ right => [left.ref, right.ref]
  | .bad => []

/-- The references of a spec. -/
def SpecNode.refs : SpecNode → List Reference
  | .imported s => Id.optRefs s.doc ++ Id.optRefs s.comment
  | .value s => s.names.ref :: s.values.ref :: (Id.optRefs s.doc ++ Id.optRefs s.type)
  | .type s => s.type.ref :: (Id.optRefs s.doc ++ Id.optRefs s.typeParams)

/-- The references of a declaration other than that of a function. -/
def DeclNode.refs : DeclNode → List Reference
  | .general d => d.specs.ref :: Id.optRefs d.doc
  | .bad => []

/-- The references of a receiver. -/
def ReceiverNode.refs (r : ReceiverNode) : List Reference :=
  r.type.ref :: r.typeParams.elim [] fun p => [p.names.ref]

/-- The references of a function or method. -/
def FuncNode.refs (f : FuncNode) : List Reference :=
  f.signature.ref ::
    (Id.optRefs f.doc ++ f.receiver.elim [] ReceiverNode.refs ++ Id.optRefs f.typeParams)

/-- The references of a top-level declaration. -/
def TopDeclNode.refs : TopDeclNode → List Reference
  | .decl id => [id.ref]
  | .func id => [id.ref]

/-- The references of a node of a sort. -/
def NodeSort.refs : (s : NodeSort) → s.Node → List Reference
  | .decl, n => DeclNode.refs n
  | .expr, n => ExprNode.refs n
  | .type, n => TypeNode.refs n
  | .signature, n => SignatureNode.refs n
  | .func, n => FuncNode.refs n
  | .field, n => FieldNode.refs n
  | .typeParams, n => [n.params.ref]
  | .typeParamDecl, n => n.names.ref :: n.constraint.refs
  | .comment, _ => []
  | .commentGroup, n => [n.comments.ref]

/-- The references of an item of a sort. -/
def ListSort.refs : (l : ListSort) → l.Item → List Reference
  | .idents, _ => []
  | .exprs, e => [Id.ref e]
  | .types, t => [Id.ref t]
  | .fields, f => [Id.ref f]
  | .specs, s => SpecNode.refs s
  | .keyedElems, e => KeyedNode.refs e
  | .topDecls, d => TopDeclNode.refs d
  | .typeTerms, t => TypeTermNode.refs t
  | .interfaceElems, e => InterfaceElemNode.refs e
  | .typeParamDecls, d => [Id.ref d]
  | .comments, c => [Id.ref c]
  | .commentGroups, g => [Id.ref g]
  | .operands, x => OperandNode.refs x

/-- The references of the result of a construction step. -/
def Register.refs : Register → List Reference
  | .none => []
  | .ident _ => []
  | .idents names => [names.ref]
  | .group id => [id.ref]
  | .type id => [id.ref]
  | .expr id => [id.ref]
  | .term t => t.refs
  | .elem e => e.refs
  | .constraint c => c.refs
  | .typeParams id => [id.ref]
  | .field id => [id.ref]
  | .signature id => [id.ref]
  | .keyed e => e.refs
  | .literalValue v => v.refs
  | .spec s => s.refs
  | .decl id => [id.ref]
  | .receiver r => r.refs
  | .func id => [id.ref]

/-! ## References that lead to something -/

/-- The reference leads to something in the store. -/
def Reference.In (st : Store) : Reference → Prop
  | .node s id => id.index < (st.nodes.arena s).size
  | .list l r => r.start + r.length ≤ (st.lists.buffer l).size

/-- All the given references lead to something in the store. -/
def Store.Sound (st : Store) (refs : List Reference) : Prop := ∀ r ∈ refs, r.In st

namespace Store

variable {st : Store} {s : NodeSort} {r : Reference} {refs refs' : List Reference}

@[simp] lemma sound_nil : st.Sound [] := by simp [Sound]

@[simp] lemma sound_cons : st.Sound (r :: refs) ↔ r.In st ∧ st.Sound refs := by simp [Sound]

@[simp] lemma sound_append : st.Sound (refs ++ refs') ↔ st.Sound refs ∧ st.Sound refs' := by
  simp only [Sound, List.mem_append, or_imp, forall_and]

lemma Sound.one (h : r.In st) : st.Sound [r] := sound_cons.2 ⟨h, sound_nil⟩

lemma Sound.two {r' : Reference} (h : r.In st) (h' : r'.In st) : st.Sound [r, r'] :=
  sound_cons.2 ⟨h, .one h'⟩

@[simp] lemma sound_optRefs_none : st.Sound (Id.optRefs (none : Option (Id s))) := sound_nil

@[simp] lemma sound_optRefs_some {id : Id s} : st.Sound (Id.optRefs (some id)) ↔ id.ref.In st := by
  simp [Id.optRefs]

end Store

end GoOutline
