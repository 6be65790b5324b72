/-
# What a reading consists of

A source form that was read from a tree tells which node it comes from and what was read from the
parts of the node. This is said here once for each kind of form that several properties are about.

For types it is a relation between nodes and types with one rule for each kind of node, which is used
in two ways. Given the node, only the rule for this kind of node applies, and given the type, only
the rule that gives such a type.
-/
import GoOutline.Source.OfTree
import Mathlib.Tactic.Lemma

namespace GoOutline.Store

open Source (TypeExpr)

variable {st : Store}

/-! ## Types -/

section

variable {n : Nat} {id elem : TypeId} {x y : TypeExpr}

/-- The type is what the node says, where the parts of the node are read with at most `n` nested
nodes. -/
inductive ReadsType (st : Store) (n : Nat) : TypeNode → TypeExpr → Prop
  | named {pkg : Option Ident} {name : Ident} {args : ListRef .types} {xs : List TypeExpr}
    (hargs : (st.list args).mapM (fun t => st.readType n t) = some xs) :
    ReadsType st n (.named pkg name args)
      (.named (pkg.map fun p => st.name p.symbol) (st.name name.symbol) xs)
  | pointer {elem : TypeId} {x : TypeExpr} (helem : st.readType n elem = some x) :
    ReadsType st n (.pointer elem) (.pointer x)
  | inferredArray {elem : TypeId} {x : TypeExpr} (helem : st.readType n elem = some x) :
    ReadsType st n (.array .inferred elem) (.array none x)
  | array {length : ExprId} {elem : TypeId} {e : Source.Expr} {x : TypeExpr}
    (hlength : st.readExpr n length = some e) (helem : st.readType n elem = some x) :
    ReadsType st n (.array (.expr length) elem) (.array (some e) x)
  | slice {elem : TypeId} {x : TypeExpr} (helem : st.readType n elem = some x) :
    ReadsType st n (.slice elem) (.slice x)
  | map {key val : TypeId} {x y : TypeExpr} (hkey : st.readType n key = some x)
    (hval : st.readType n val = some y) : ReadsType st n (.map key val) (.map x y)
  | chan {dir : ChanDir} {elem : TypeId} {x : TypeExpr} (helem : st.readType n elem = some x) :
    ReadsType st n (.chan dir elem) (.chan dir x)
  | struct {fields : ListRef .fields} {xs : List Source.Field}
    (hfields : (st.list fields).mapM (st.readField noLines fun t => st.readType n t) = some xs) :
    ReadsType st n (.struct fields) (.struct xs)
  | interface {elems : ListRef .interfaceElems} {xs : List Source.InterfaceElem}
    (helems : (st.list elems).mapM (st.readInterfaceElem noLines fun t => st.readType n t) =
      some xs) :
    ReadsType st n (.interface elems) (.interface xs)
  | func {sig : SignatureId} {x : Source.Signature}
    (hsig : st.readSignature noLines (fun t => st.readType n t) sig = some x) :
    ReadsType st n (.func sig) (.func x)
  | paren {inner : TypeId} {x : TypeExpr} (hinner : st.readType n inner = some x) :
    ReadsType st n (.paren inner) (.paren x)
  | bad : ReadsType st n .bad .bad

/-- A type is read from a node, with one nested node less for its parts. -/
lemma readType_parts (hx : st.readType n id = some x) :
    ∃ m node, n = m + 1 ∧ st.node? id = some node ∧ st.ReadsType m node x := by
  cases n with
  | zero => simp [readType] at hx
  | succ m =>
    obtain ⟨node, hnode, hx⟩ := Option.bind_eq_some_iff.1 hx
    refine ⟨m, node, rfl, hnode, ?_⟩
    cases node with
    | named pkg name args =>
      obtain ⟨xs, hxs, hx⟩ := Option.bind_eq_some_iff.1 hx
      obtain rfl := Option.some.inj hx
      exact .named hxs
    | pointer elem =>
      obtain ⟨y, hy, hx⟩ := Option.bind_eq_some_iff.1 hx
      obtain rfl := Option.some.inj hx
      exact .pointer hy
    | array length elem =>
      cases length with
      | inferred =>
        obtain ⟨y, hy, hx⟩ := Option.bind_eq_some_iff.1 hx
        obtain rfl := Option.some.inj hx
        exact .inferredArray hy
      | expr length =>
        obtain ⟨e, he, hx⟩ := Option.bind_eq_some_iff.1 hx
        obtain ⟨y, hy, hx⟩ := Option.bind_eq_some_iff.1 hx
        obtain rfl := Option.some.inj hx
        exact .array he hy
    | slice elem =>
      obtain ⟨y, hy, hx⟩ := Option.bind_eq_some_iff.1 hx
      obtain rfl := Option.some.inj hx
      exact .slice hy
    | map key val =>
      obtain ⟨y, hy, hx⟩ := Option.bind_eq_some_iff.1 hx
      obtain ⟨z, hz, hx⟩ := Option.bind_eq_some_iff.1 hx
      obtain rfl := Option.some.inj hx
      exact .map hy hz
    | chan dir elem =>
      obtain ⟨y, hy, hx⟩ := Option.bind_eq_some_iff.1 hx
      obtain rfl := Option.some.inj hx
      exact .chan hy
    | struct fields =>
      obtain ⟨xs, hxs, hx⟩ := Option.bind_eq_some_iff.1 hx
      obtain rfl := Option.some.inj hx
      exact .struct hxs
    | interface elems =>
      obtain ⟨xs, hxs, hx⟩ := Option.bind_eq_some_iff.1 hx
      obtain rfl := Option.some.inj hx
      exact .interface hxs
    | func sig =>
      obtain ⟨s, hs, hx⟩ := Option.bind_eq_some_iff.1 hx
      obtain rfl := Option.some.inj hx
      exact .func hs
    | paren inner =>
      obtain ⟨y, hy, hx⟩ := Option.bind_eq_some_iff.1 hx
      obtain rfl := Option.some.inj hx
      exact .paren hy
    | bad =>
      obtain rfl := Option.some.inj hx
      exact .bad

lemma readType_parts_of_node {node : TypeNode} (hnode : st.node? id = some node)
    (hx : st.readType n id = some x) : ∃ m, n = m + 1 ∧ st.ReadsType m node x := by
  obtain ⟨m, node', rfl, hnode', hreads⟩ := readType_parts hx
  obtain rfl := Option.some.inj (hnode'.symm.trans hnode)
  exact ⟨m, rfl, hreads⟩

end

/-! ## Entries of lists -/

lemma readField_parts {lines : Option CommentGroupId → Option Source.Lines}
    {type : TypeId → Option TypeExpr} {id : FieldId} {x : Source.Field}
    (hx : st.readField lines type id = some x) :
    ∃ f t doc comment, st.node? id = some f ∧ type f.type = some t ∧
      lines f.doc = some doc ∧ lines f.comment = some comment ∧
      x = .mk (st.names f.names) f.ellipsis.isSome t (f.tag.map st.text) f.embedded doc comment := by
  obtain ⟨f, hf, hx⟩ := Option.bind_eq_some_iff.1 hx
  obtain ⟨t, ht, hx⟩ := Option.bind_eq_some_iff.1 hx
  obtain ⟨doc, hdoc, hx⟩ := Option.bind_eq_some_iff.1 hx
  obtain ⟨comment, hcomment, hx⟩ := Option.bind_eq_some_iff.1 hx
  exact ⟨f, t, doc, comment, hf, ht, hdoc, hcomment, (Option.some.inj hx).symm⟩

/-! ## Specs -/

/-- The type is what the node says where a type is defined as it. -/
inductive ReadsDefined (st : Store) (id : TypeId) : TypeNode → TypeExpr → Prop
  | struct {fields : ListRef .fields} {xs : List Source.Field}
    (hfields : (st.list fields).mapM (st.readField st.docLines? st.type?) = some xs) :
    ReadsDefined st id (.struct fields) (.struct xs)
  | interface {elems : ListRef .interfaceElems} {xs : List Source.InterfaceElem}
    (helems : (st.list elems).mapM (st.readInterfaceElem st.docLines? st.type?) = some xs) :
    ReadsDefined st id (.interface elems) (.interface xs)
  | shown {node : TypeNode} {x : TypeExpr} (hstruct : ∀ fields, node ≠ .struct fields)
    (hinterface : ∀ elems, node ≠ .interface elems) (hx : st.type? id = some x) :
    ReadsDefined st id node x

lemma definedType?_parts {id : TypeId} {x : TypeExpr} (hx : st.definedType? id = some x) :
    ∃ node, st.node? id = some node ∧ st.ReadsDefined id node x := by
  obtain ⟨node, hnode, hx⟩ := Option.bind_eq_some_iff.1 hx
  refine ⟨node, hnode, ?_⟩
  cases node with
  | struct fields =>
    obtain ⟨xs, hxs, hx⟩ := Option.bind_eq_some_iff.1 hx
    obtain rfl := Option.some.inj hx
    exact .struct hxs
  | interface elems =>
    obtain ⟨xs, hxs, hx⟩ := Option.bind_eq_some_iff.1 hx
    obtain rfl := Option.some.inj hx
    exact .interface hxs
  | _ => exact .shown nofun nofun hx

lemma valueSpec?_parts {s : ValueSpecNode} {x : Source.ValueSpec} (hx : st.valueSpec? s = some x) :
    s.type.mapM st.type? = some x.type ∧ (st.list s.values).mapM st.expr? = some x.values ∧
      st.optLines? s.doc = some x.doc ∧ x.names = st.names s.names := by
  obtain ⟨type, htype, hx⟩ := Option.bind_eq_some_iff.1 hx
  obtain ⟨values, hvalues, hx⟩ := Option.bind_eq_some_iff.1 hx
  obtain ⟨doc, hdoc, hx⟩ := Option.bind_eq_some_iff.1 hx
  obtain rfl := Option.some.inj hx
  exact ⟨htype, hvalues, hdoc, rfl⟩

/-- The spec is what a type spec says whose type is the given node. -/
inductive ReadsTypeSpec (st : Store) (s : TypeSpecNode) : TypeNode → Source.Spec → Prop
  | badType : ReadsTypeSpec st s .bad .badType
  | instanceAlias {node : TypeNode} (hbad : node ≠ .bad)
    (halias : (s.isAlias && node.isInstantiated) = true) : ReadsTypeSpec st s node .instanceAlias
  | type {node : TypeNode} {x : Source.TypeSpec} (hbad : node ≠ .bad)
    (halias : (s.isAlias && node.isInstantiated) = false) (hdoc : st.optLines? s.doc = some x.doc)
    (hname : x.name = st.name s.name.symbol)
    (hparams : st.typeParams? s.typeParams = some x.typeParams)
    (htype : st.definedType? s.type = some x.type) (hisAlias : x.isAlias = s.isAlias) :
    ReadsTypeSpec st s node (.type x)

lemma typeSpec?_parts {s : TypeSpecNode} {x : Source.Spec} (hx : st.typeSpec? s = some x) :
    ∃ node, st.node? s.type = some node ∧ st.ReadsTypeSpec s node x := by
  obtain ⟨node, hnode, hx⟩ := Option.bind_eq_some_iff.1 hx
  refine ⟨node, hnode, ?_⟩
  split at hx
  · next hbad =>
    obtain rfl := Option.some.inj hx
    rw [hbad]
    exact .badType
  · next hbad =>
    split at hx
    · next halias =>
      obtain rfl := Option.some.inj hx
      exact .instanceAlias hbad halias
    · next halias =>
      obtain ⟨params, hparams, hx⟩ := Option.bind_eq_some_iff.1 hx
      obtain ⟨type, htype, hx⟩ := Option.bind_eq_some_iff.1 hx
      obtain ⟨doc, hdoc, hx⟩ := Option.bind_eq_some_iff.1 hx
      obtain rfl := Option.some.inj hx
      exact .type hbad (Bool.eq_false_iff.2 halias) hdoc rfl hparams htype rfl

/-! ## Declarations -/

lemma receiver?_parts {r : ReceiverNode} {x : Source.Receiver} (hx : st.receiver? r = some x) :
    st.type? r.type = some x.type ∧ x.name = r.name.elim "" (fun i => st.name i.symbol) ∧
      x.typeParams = r.typeParams.elim [] fun p => st.names p.names := by
  obtain ⟨type, htype, hx⟩ := Option.bind_eq_some_iff.1 hx
  obtain rfl := Option.some.inj hx
  exact ⟨htype, rfl, rfl⟩

/-- The function is what the node says. A function with a receiver has no type parameters. -/
structure ReadsFunc (st : Store) (f : FuncNode) (x : Source.FuncDecl) : Prop where
  doc : st.docLines? f.doc = some x.doc
  receiver : f.receiver.mapM st.receiver? = some x.receiver
  name : x.name = st.name f.name.symbol
  typeParams : (if f.receiver.isSome then some [] else st.typeParams? f.typeParams) =
    some x.typeParams
  signature : st.signature? f.signature = some x.signature

lemma ReadsFunc.receiver_eq_none {f : FuncNode} {x : Source.FuncDecl} (h : st.ReadsFunc f x)
    (hr : f.receiver = none) : x.receiver = none := by
  simpa [hr, eq_comm] using h.receiver

lemma ReadsFunc.exists_receiver {f : FuncNode} {x : Source.FuncDecl} (h : st.ReadsFunc f x)
    {r : ReceiverNode} (hr : f.receiver = some r) :
    ∃ y, st.receiver? r = some y ∧ x.receiver = some y := by
  have hreceiver := h.receiver
  rw [hr, Option.mapM_some] at hreceiver
  obtain ⟨y, hy, hx⟩ := Option.map_eq_some_iff.1 hreceiver
  exact ⟨y, hy, hx.symm⟩

lemma func?_parts {id : FuncId} {x : Source.FuncDecl} (hx : st.func? id = some x) :
    ∃ f, st.node? id = some f ∧ st.ReadsFunc f x := by
  obtain ⟨f, hf, hx⟩ := Option.bind_eq_some_iff.1 hx
  refine ⟨f, hf, ?_⟩
  -- what follows the type parameters is read in the same way whether or not they are looked at
  cases hmethod : f.receiver.isSome
  all_goals
    simp only [hmethod, Bool.false_eq_true, if_false, if_true] at hx
    obtain ⟨params, hparams, hx⟩ := Option.bind_eq_some_iff.1 hx
    obtain ⟨doc, hdoc, hx⟩ := Option.bind_eq_some_iff.1 hx
    obtain ⟨recv, hrecv, hx⟩ := Option.bind_eq_some_iff.1 hx
    obtain ⟨sig, hsig, hx⟩ := Option.bind_eq_some_iff.1 hx
    obtain rfl := Option.some.inj hx
    exact ⟨hdoc, hrecv, rfl, by rwa [hmethod], hsig⟩

lemma func?_parts_of_node {id : FuncId} {f : FuncNode} (hf : st.node? id = some f)
    {x : Source.FuncDecl} (hx : st.func? id = some x) : st.ReadsFunc f x := by
  obtain ⟨f', hf', hreads⟩ := func?_parts hx
  obtain rfl := Option.some.inj (hf'.symm.trans hf)
  exact hreads

lemma topDecl?_func {id : FuncId} {x : Source.TopDecl} (hx : st.topDecl? (.func id) = some x) :
    ∃ f, st.func? id = some f ∧ x = .func f := by
  obtain ⟨f, hf, hx⟩ := Option.bind_eq_some_iff.1 hx
  exact ⟨f, hf, (Option.some.inj hx).symm⟩

lemma topDecl?_decl {id : DeclId} {x : Source.TopDecl} (hx : st.topDecl? (.decl id) = some x) :
    st.node? id = some .bad ∧ x = .bad ∨
      ∃ g specs doc, st.node? id = some (.general g) ∧
        (st.list g.specs).mapM (st.spec? g.group) = some specs ∧
        st.generalDoc? g specs = some doc ∧
        x = .general ⟨doc, g.group, g.grouped, specs⟩ := by
  obtain ⟨node, hnode, hx⟩ := Option.bind_eq_some_iff.1 hx
  cases node with
  | bad => exact .inl ⟨hnode, (Option.some.inj hx).symm⟩
  | general g =>
    obtain ⟨specs, hspecs, hx⟩ := Option.bind_eq_some_iff.1 hx
    obtain ⟨doc, hdoc, hx⟩ := Option.bind_eq_some_iff.1 hx
    exact .inr ⟨g, specs, doc, hnode, hspecs, hdoc, (Option.some.inj hx).symm⟩

end GoOutline.Store
