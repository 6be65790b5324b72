/-
# Reading a built tree never fails

In a tree that was built step by step every reference leads to something, and the bound on the nesting
of nodes is never exceeded: each type, each expression and each list of elements of a literal raises
the bound by one at least, and what is nested inside it was there before. So all types, expressions
and declarations can be read.
-/
import GoOutline.Proofs.Tree.Order
import GoOutline.Proofs.Tree.Run

namespace GoOutline

namespace Store

variable {l : ListSort} {T : FieldId → Prop} {b st : Store} {n : Nat}

/-! ## Comments -/

lemma Closed.lines?_isSome (h : st.Closed) {g : CommentGroupId} (hg : g.ref.In st) :
    ∃ lines, st.lines? g = some lines := by
  obtain ⟨node, hnode⟩ := ((st.nodes.arena .commentGroup).lt_size_iff g.index).1 hg
  have hcomments : ∀ c ∈ st.list node.comments, ∃ line, (st.span? c).map st.text = some line := by
    intro c hc
    have hin := (sound_cons.1 (h.lists .comments c (mem_buffer_of_mem_list hc))).1
    obtain ⟨sp, hsp⟩ := ((st.nodes.arena .comment).lt_size_iff_span? c.index).1 hin
    exact ⟨st.text sp, by rw [show st.span? c = some sp from hsp]; rfl⟩
  obtain ⟨lines, hlines⟩ := List.exists_mapM_eq_some hcomments
  exact ⟨lines, by simp [lines?, show st.node? g = some node from hnode, hlines]⟩

lemma Closed.optLines?_isSome (h : st.Closed) {doc : Option CommentGroupId}
    (hdoc : st.Sound (Id.optRefs doc)) : ∃ lines, st.optLines? doc = some lines := by
  cases doc with
  | none => exact ⟨none, rfl⟩
  | some g =>
    obtain ⟨lines, hlines⟩ := h.lines?_isSome (sound_optRefs_some.1 hdoc)
    exact ⟨some lines, by simp [optLines?, hlines]⟩

/-- The reader of comments gives something for every comment group that is there. -/
def ReadsLines (st : Store) (lines : Option CommentGroupId → Option Source.Lines) : Prop :=
  ∀ doc : Option CommentGroupId, st.Sound (Id.optRefs doc) → ∃ x, lines doc = some x

lemma Closed.readsLines (h : st.Closed) : st.ReadsLines st.docLines? := by
  intro doc hdoc
  obtain ⟨lines, hlines⟩ := h.optLines?_isSome hdoc
  exact ⟨lines.getD [], by simp [docLines?, hlines]⟩

lemma readsLines_noLines : st.ReadsLines noLines := fun _ _ => ⟨[], rfl⟩

/-- The reader of types gives something for every type that is there. -/
def ReadsTypes (b : Store) (type : TypeId → Option Source.TypeExpr) : Prop :=
  ∀ id : TypeId, id.ref.In b → ∃ x, type id = some x

/-! ## What lies between types and expressions -/

/-- In the store `st`, what is in the store `b` can be read with at most `n` nested nodes. -/
structure Reads (b st : Store) (n : Nat) : Prop where
  type : b.ReadsTypes fun id => st.readType n id
  expr : ∀ id : ExprId, id.ref.In b → ∃ x, st.readExpr n id = some x
  elems : ∀ v : LiteralNode, v.elems.ref.In b → ∃ xs, st.readElems n v = some xs

/-- The store `st` is a closed one that has come from the closed store `b`. -/
structure Follows (b st : Store) : Prop where
  grows : Grows True (fun _ => True) b st
  before : b.Closed
  after : st.Closed

/-- The items of a list that was there refer to what was there. -/
lemma Follows.items_sound (h : Follows b st) {r : ListRef l} (hr : r.ref.In b) :
    ∀ i ∈ st.list r, b.Sound (l.refs i) := by
  intro i hi
  rw [h.grows.list_eq hr] at hi
  exact h.before.lists l i (mem_buffer_of_mem_list hi)

section Between

variable {lines : Option CommentGroupId → Option Source.Lines}
  {type : TypeId → Option Source.TypeExpr}

lemma Follows.readField (h : Follows b st) (hlines : st.ReadsLines lines)
    (htype : b.ReadsTypes type) {id : FieldId} (hid : id.ref.In b) :
    ∃ x, st.readField lines type id = some x := by
  obtain ⟨f, hf⟩ := ((b.nodes.arena .field).lt_size_iff id.index).1 hid
  obtain ⟨tag, doc, comment, hf', -⟩ := h.grows.field? hf
  have hrefs := h.before.nodes .field id f hf
  have hrefs' := h.after.nodes .field id _ hf'
  simp only [NodeSort.refs, FieldNode.refs, sound_cons, sound_append] at hrefs hrefs'
  obtain ⟨x, hx⟩ := htype f.type hrefs.2.1
  obtain ⟨docs, hdocs⟩ := hlines doc hrefs'.2.2.1
  obtain ⟨comments, hcomments⟩ := hlines comment hrefs'.2.2.2
  exact ⟨_, by simp [Store.readField, hf', hx, hdocs, hcomments]; rfl⟩

lemma Follows.readFields (h : Follows b st) (hlines : st.ReadsLines lines)
    (htype : b.ReadsTypes type) {r : ListRef .fields} (hr : r.ref.In b) :
    ∃ xs, (st.list r).mapM (st.readField lines type) = some xs := by
  refine List.exists_mapM_eq_some fun f hf => h.readField hlines htype ?_
  exact (sound_cons.1 (h.items_sound hr f hf)).1

lemma Follows.readResults (h : Follows b st) (hlines : st.ReadsLines lines)
    (htype : b.ReadsTypes type) {r : Option ResultsNode}
    (hr : b.Sound (r.elim [] ResultsNode.refs)) : ∃ x, st.readResults lines type r = some x := by
  rcases r with _ | fields | t
  · exact ⟨.none, rfl⟩
  · have hin : fields.ref.In b := (sound_cons.1 hr).1
    obtain ⟨xs, hxs⟩ := h.readFields hlines htype hin
    have hitems := h.items_sound hin
    rw [Store.readResults]
    -- a single entry is read for itself, since it is shown without parentheses if it has no name
    split
    · next only hlist =>
      obtain ⟨x, hx⟩ := h.readField hlines htype (sound_cons.1 (hitems only (by simp [hlist]))).1
      obtain ⟨f, hf⟩ := ((st.nodes.arena .field).lt_size_iff only.index).1
        (h.grows.reference (sound_cons.1 (hitems only (by simp [hlist]))).1)
      exact ⟨_, by simp [show st.node? only = some f from hf, hx]; rfl⟩
    · exact ⟨_, by simp [hxs]; rfl⟩
  · obtain ⟨x, hx⟩ := htype t (sound_cons.1 hr).1
    exact ⟨_, by simp [Store.readResults, hx]; rfl⟩

lemma Follows.readSignature (h : Follows b st) (hlines : st.ReadsLines lines)
    (htype : b.ReadsTypes type) {id : SignatureId} (hid : id.ref.In b) :
    ∃ x, st.readSignature lines type id = some x := by
  obtain ⟨sig, hsig⟩ := ((b.nodes.arena .signature).lt_size_iff id.index).1 hid
  have hrefs := h.before.nodes .signature id sig hsig
  simp only [NodeSort.refs, SignatureNode.refs, sound_cons] at hrefs
  obtain ⟨params, hparams⟩ := h.readFields hlines htype hrefs.1
  obtain ⟨results, hresults⟩ := h.readResults hlines htype hrefs.2
  have hnode : st.node? id = some sig := h.grows.node?_fixed hsig rfl
  exact ⟨_, by simp [Store.readSignature, hnode, hparams, hresults]; rfl⟩

lemma Follows.readUnion (h : Follows b st) (htype : b.ReadsTypes type)
    {terms : ListRef .typeTerms} (hterms : terms.ref.In b) :
    ∃ xs, st.readUnion type terms = some xs := by
  refine List.exists_mapM_eq_some fun t ht => ?_
  obtain ⟨x, hx⟩ := htype t.type (sound_cons.1 (h.items_sound hterms t ht)).1
  exact ⟨_, by simp [hx]; rfl⟩

lemma Follows.readInterfaceElem (h : Follows b st) (hlines : st.ReadsLines lines)
    (htype : b.ReadsTypes type) {e : InterfaceElemNode} (he : b.Sound e.refs) :
    ∃ x, st.readInterfaceElem lines type e = some x := by
  cases e with
  | method doc name sig =>
    simp only [InterfaceElemNode.refs, sound_cons] at he
    obtain ⟨docs, hdocs⟩ := hlines doc (h.grows.sound he.2)
    obtain ⟨x, hx⟩ := h.readSignature hlines htype he.1
    exact ⟨_, by simp [Store.readInterfaceElem, hdocs, hx]; rfl⟩
  | union terms =>
    obtain ⟨xs, hxs⟩ := h.readUnion htype (sound_cons.1 he).1
    exact ⟨_, by simp [Store.readInterfaceElem, hxs]; rfl⟩

end Between

lemma Reads.readOperand (h : Reads b st n) {x : OperandNode} (hx : b.Sound x.refs) :
    ∃ y, Store.readOperand (fun e => st.readExpr n e) (fun t => st.readType n t) x = some y := by
  cases x with
  | expr e =>
    obtain ⟨y, hy⟩ := h.expr e (sound_cons.1 hx).1
    exact ⟨_, by simp [Store.readOperand, hy]; rfl⟩
  | type t =>
    obtain ⟨y, hy⟩ := h.type t (sound_cons.1 hx).1
    exact ⟨_, by simp [Store.readOperand, hy]; rfl⟩

lemma Reads.readElement (h : Reads b st n) {e : ElementNode} (he : b.Sound e.refs) :
    ∃ y, Store.readElement (fun e => st.readExpr n e) (fun v => st.readElems n v) e = some y := by
  cases e with
  | expr e =>
    obtain ⟨y, hy⟩ := h.expr e (sound_cons.1 he).1
    exact ⟨_, by simp [Store.readElement, hy]; rfl⟩
  | literal v =>
    obtain ⟨y, hy⟩ := h.elems v (sound_cons.1 he).1
    exact ⟨_, by simp [Store.readElement, hy]; rfl⟩

lemma Reads.readKey (h : Reads b st n) {k : Option KeyNode} (hk : b.Sound (k.elim [] KeyNode.refs)) :
    ∃ y, st.readKey (fun e => st.readExpr n e) (fun v => st.readElems n v) k = some y := by
  rcases k with _ | name | e | v
  · exact ⟨.none, rfl⟩
  · exact ⟨_, rfl⟩
  · obtain ⟨y, hy⟩ := h.expr e (sound_cons.1 hk).1
    exact ⟨_, by simp [Store.readKey, hy]; rfl⟩
  · obtain ⟨y, hy⟩ := h.elems v (sound_cons.1 hk).1
    exact ⟨_, by simp [Store.readKey, hy]; rfl⟩

lemma Reads.readKeyed (h : Reads b st n) {e : KeyedNode} (he : b.Sound e.refs) :
    ∃ y, st.readKeyed (fun e => st.readExpr n e) (fun v => st.readElems n v) e = some y := by
  rw [KeyedNode.refs, sound_append] at he
  obtain ⟨k, hk⟩ := h.readKey he.1
  obtain ⟨v, hv⟩ := h.readElement he.2
  exact ⟨_, by simp [Store.readKeyed, hk, hv]; rfl⟩

lemma Reads.optType (h : Reads b st n) {id : Option TypeId} (hid : b.Sound (Id.optRefs id)) :
    ∃ x, id.mapM (fun t => st.readType n t) = some x := by
  cases id with
  | none => exact ⟨none, rfl⟩
  | some id =>
    obtain ⟨x, hx⟩ := h.type id (sound_optRefs_some.1 hid)
    exact ⟨some x, by simp [hx]⟩

lemma Reads.optExpr (h : Reads b st n) {id : Option ExprId} (hid : b.Sound (Id.optRefs id)) :
    ∃ x, id.mapM (fun e => st.readExpr n e) = some x := by
  cases id with
  | none => exact ⟨none, rfl⟩
  | some id =>
    obtain ⟨x, hx⟩ := h.expr id (sound_optRefs_some.1 hid)
    exact ⟨some x, by simp [hx]⟩

/-! ## One more node -/

/-- A type whose parts were there can be read with one more nested node. -/
lemma Reads.type_succ (h : Reads b st n) (hf : Follows b st) {id : TypeId} {node : TypeNode}
    (hid : st.node? id = some node) (hrefs : b.Sound node.refs) :
    ∃ x, st.readType (n + 1) id = some x := by
  cases node with
  | named pkg name args =>
    have hargs : ∀ t ∈ st.list args, ∃ x, st.readType n t = some x := fun t ht =>
      h.type t (sound_cons.1 (hf.items_sound (sound_cons.1 hrefs).1 t ht)).1
    obtain ⟨xs, hxs⟩ := List.exists_mapM_eq_some hargs
    exact ⟨_, by simp [readType, hid, hxs]; rfl⟩
  | pointer elem =>
    obtain ⟨x, hx⟩ := h.type elem (sound_cons.1 hrefs).1
    exact ⟨_, by simp [readType, hid, hx]; rfl⟩
  | array length elem =>
    simp only [TypeNode.refs, sound_cons] at hrefs
    obtain ⟨x, hx⟩ := h.type elem hrefs.1
    cases length with
    | inferred => exact ⟨_, by simp [readType, hid, hx]; rfl⟩
    | expr e =>
      obtain ⟨y, hy⟩ := h.expr e (sound_cons.1 hrefs.2).1
      exact ⟨_, by simp [readType, hid, hx, hy]; rfl⟩
  | slice elem =>
    obtain ⟨x, hx⟩ := h.type elem (sound_cons.1 hrefs).1
    exact ⟨_, by simp [readType, hid, hx]; rfl⟩
  | map key val =>
    simp only [TypeNode.refs, sound_cons] at hrefs
    obtain ⟨x, hx⟩ := h.type key hrefs.1
    obtain ⟨y, hy⟩ := h.type val hrefs.2.1
    exact ⟨_, by simp [readType, hid, hx, hy]; rfl⟩
  | chan dir elem =>
    obtain ⟨x, hx⟩ := h.type elem (sound_cons.1 hrefs).1
    exact ⟨_, by simp [readType, hid, hx]; rfl⟩
  | struct fields =>
    obtain ⟨xs, hxs⟩ := hf.readFields readsLines_noLines h.type (sound_cons.1 hrefs).1
    exact ⟨_, by simp [readType, hid, hxs]; rfl⟩
  | interface elems =>
    obtain ⟨xs, hxs⟩ := List.exists_mapM_eq_some fun e he =>
      hf.readInterfaceElem readsLines_noLines h.type (hf.items_sound (sound_cons.1 hrefs).1 e he)
    exact ⟨_, by simp [readType, hid, hxs]; rfl⟩
  | func sig =>
    obtain ⟨x, hx⟩ := hf.readSignature readsLines_noLines h.type (sound_cons.1 hrefs).1
    exact ⟨_, by simp [readType, hid, hx]; rfl⟩
  | paren inner =>
    obtain ⟨x, hx⟩ := h.type inner (sound_cons.1 hrefs).1
    exact ⟨_, by simp [readType, hid, hx]; rfl⟩
  | bad => exact ⟨.bad, by simp [readType, hid]⟩

/-- An expression whose parts were there can be read with one more nested node. -/
lemma Reads.expr_succ (h : Reads b st n) (hf : Follows b st) {id : ExprId} {node : ExprNode}
    (hid : st.node? id = some node) (hrefs : b.Sound node.refs) :
    ∃ x, st.readExpr (n + 1) id = some x := by
  cases node with
  | ident name => exact ⟨_, by simp [readExpr, hid]; rfl⟩
  | literal kind raw => exact ⟨_, by simp [readExpr, hid]; rfl⟩
  | funcLit sig body =>
    obtain ⟨x, hx⟩ := hf.readSignature readsLines_noLines h.type (sound_cons.1 hrefs).1
    exact ⟨_, by simp [readExpr, hid, hx]; rfl⟩
  | composite type value =>
    simp only [ExprNode.refs, sound_append] at hrefs
    obtain ⟨x, hx⟩ := h.optType hrefs.1
    obtain ⟨ys, hys⟩ := h.elems value (sound_cons.1 hrefs.2).1
    exact ⟨_, by simp [readExpr, hid, hx, hys]; rfl⟩
  | index base args =>
    simp only [ExprNode.refs, sound_cons] at hrefs
    obtain ⟨x, hx⟩ := h.expr base hrefs.1
    obtain ⟨ys, hys⟩ := List.exists_mapM_eq_some fun y hy =>
      h.readOperand (hf.items_sound hrefs.2.1 y hy)
    exact ⟨_, by simp [readExpr, hid, hx, hys]; rfl⟩
  | paren inner =>
    obtain ⟨x, hx⟩ := h.expr inner (sound_cons.1 hrefs).1
    exact ⟨_, by simp [readExpr, hid, hx]; rfl⟩
  | selector base name =>
    obtain ⟨x, hx⟩ := h.expr base (sound_cons.1 hrefs).1
    exact ⟨_, by simp [readExpr, hid, hx]; rfl⟩
  | slice base low high max =>
    simp only [ExprNode.refs, sound_cons, sound_append] at hrefs
    obtain ⟨hbase, ⟨hlow, hhigh⟩, hmax⟩ := hrefs
    obtain ⟨x, hx⟩ := h.expr base hbase
    obtain ⟨lo, hlo⟩ := h.optExpr hlow
    obtain ⟨hi, hhi⟩ := h.optExpr hhigh
    obtain ⟨mx, hmx⟩ := h.optExpr hmax
    exact ⟨_, by simp [readExpr, hid, hx, hlo, hhi, hmx]; rfl⟩
  | typeAssert base type =>
    simp only [ExprNode.refs, sound_cons] at hrefs
    obtain ⟨x, hx⟩ := h.expr base hrefs.1
    obtain ⟨y, hy⟩ := h.optType hrefs.2
    exact ⟨_, by simp [readExpr, hid, hx, hy]; rfl⟩
  | call callee typeArg args spread =>
    simp only [ExprNode.refs, sound_cons, sound_append] at hrefs
    obtain ⟨x, hx⟩ := h.readOperand hrefs.2.1
    obtain ⟨y, hy⟩ := h.optType hrefs.2.2
    have hargs : ∀ e ∈ st.list args, ∃ x, st.readExpr n e = some x := fun e he =>
      h.expr e (sound_cons.1 (hf.items_sound hrefs.1 e he)).1
    obtain ⟨zs, hzs⟩ := List.exists_mapM_eq_some hargs
    exact ⟨_, by simp [readExpr, hid, hx, hy, hzs]; rfl⟩
  | unary op operand =>
    obtain ⟨x, hx⟩ := h.expr operand (sound_cons.1 hrefs).1
    exact ⟨_, by simp [readExpr, hid, hx]; rfl⟩
  | binary left op right =>
    simp only [ExprNode.refs, sound_cons] at hrefs
    obtain ⟨x, hx⟩ := h.expr left hrefs.1
    obtain ⟨y, hy⟩ := h.expr right hrefs.2.1
    exact ⟨_, by simp [readExpr, hid, hx, hy]; rfl⟩
  | bad => exact ⟨.bad, by simp [readExpr, hid]⟩

/-- Elements whose parts were there can be read with one more nested node. -/
lemma Reads.elems_succ (h : Reads b st n) {v : LiteralNode}
    (hitems : ∀ e ∈ st.list v.elems, b.Sound e.refs) : ∃ xs, st.readElems (n + 1) v = some xs := by
  obtain ⟨xs, hxs⟩ := List.exists_mapM_eq_some fun e he => h.readKeyed (hitems e he)
  exact ⟨xs, by simp only [readElems, hxs]⟩

/-! ## All nodes -/

/-- Of what counts for the bound on nested nodes, nothing goes away. -/
lemma Grows.counted_le {c : Prop} (h : Grows c T b st) :
    b.nodes.types.size ≤ st.nodes.types.size ∧ b.nodes.exprs.size ≤ st.nodes.exprs.size ∧
      b.lists.keyedElems.size ≤ st.lists.keyedElems.size :=
  ⟨h.size_le .type, h.size_le .expr, h.buffer_size_le .keyedElems⟩

lemma Grows.depth_le {c : Prop} (h : Grows c T b st) : b.depth ≤ st.depth := by
  obtain ⟨htypes, hexprs, helems⟩ := h.counted_le
  simp only [depth]
  omega

/-- Whatever has a place in `b` that it did not have in `a` makes room for one more nested node. -/
lemma Grows.depth_lt {a : Store} {c : Prop} (h : Grows c T a b)
    (hnew : (∃ id : TypeId, id.ref.In b ∧ ¬id.ref.In a) ∨ (∃ id : ExprId, id.ref.In b ∧ ¬id.ref.In a) ∨
      ∃ r : ListRef .keyedElems, r.ref.In b ∧ ¬r.ref.In a) : a.depth < b.depth := by
  obtain ⟨htypes, hexprs, helems⟩ := h.counted_le
  simp only [depth]
  rcases hnew with ⟨id, hb, ha⟩ | ⟨id, hb, ha⟩ | ⟨r, hb, ha⟩
  all_goals
    simp only [Id.ref, ListRef.ref, Reference.In, Nodes.arena, Lists.buffer] at hb ha
    omega

/-- With the bound of a store that has grown from nothing, everything in it can be read, also when
the store has grown further. -/
theorem Grows.reads (h : Grows True (fun _ => True) {} b) :
    ∀ st, Grows True (fun _ => True) b st → ∀ n, b.depth ≤ n → Reads b st n := by
  refine Grows.fresh_induction
    (P := fun b => ∀ st, Grows True (fun _ => True) b st → ∀ n, b.depth ≤ n → Reads b st n) ?_ ?_ h
  · intro st hgrow n hn
    refine ⟨fun id hid => absurd hid (Nat.not_lt_zero _),
      fun id hid => absurd hid (Nat.not_lt_zero _), fun v hv => ?_⟩
    obtain ⟨m, rfl⟩ : ∃ m, n = m + 1 := ⟨n - 1, by simp only [depth] at hn; omega⟩
    have hlist : st.list v.elems = [] := by
      rw [hgrow.list_eq hv]
      exact List.eq_nil_iff_forall_not_mem.2 fun e he =>
        not_mem_buffer_empty (l := .keyedElems) e (mem_buffer_of_mem_list he)
    exact ⟨[], by simp [readElems, hlist]⟩
  · intro a b ha hstep hfresh ih st hgrow n hn
    have hst := hstep.trans hgrow
    have hfollow : Follows a st := ⟨hst, ha, hst.closed ha⟩
    have hold : Reads a st n := ih st hst n (Nat.le_trans hstep.depth_le hn)
    -- with room for one more node, what is new can be read from what was there
    have hroom : a.depth < b.depth → ∃ m, n = m + 1 ∧ Reads a st m := fun hlt =>
      ⟨n - 1, by omega, ih st hst (n - 1) (by omega)⟩
    refine ⟨fun id hid => ?_, fun id hid => ?_, fun v hv => ?_⟩
    · by_cases hin : id.ref.In a
      · exact hold.type id hin
      obtain ⟨m, rfl, hm⟩ := hroom (hstep.depth_lt (.inl ⟨id, hid, hin⟩))
      obtain ⟨node, hnode⟩ := ((b.nodes.arena .type).lt_size_iff id.index).1 hid
      have hrefs := (hfresh.nodes .type id node hnode).resolve_left hin
      exact hm.type_succ hfollow (hgrow.node?_fixed hnode rfl) hrefs
    · by_cases hin : id.ref.In a
      · exact hold.expr id hin
      obtain ⟨m, rfl, hm⟩ := hroom (hstep.depth_lt (.inr (.inl ⟨id, hid, hin⟩)))
      obtain ⟨node, hnode⟩ := ((b.nodes.arena .expr).lt_size_iff id.index).1 hid
      have hrefs := (hfresh.nodes .expr id node hnode).resolve_left hin
      exact hm.expr_succ hfollow (hgrow.node?_fixed hnode rfl) hrefs
    · by_cases hin : v.elems.ref.In a
      · exact hold.elems v hin
      obtain ⟨m, rfl, hm⟩ := hroom (hstep.depth_lt (.inr (.inr ⟨v.elems, hv, hin⟩)))
      refine hm.elems_succ fun e he => ?_
      rw [hgrow.list_eq hv] at he
      exact hfresh.lists .keyedElems e (mem_buffer_of_mem_list he)

/-! ## Declarations -/

/-- All types and expressions of a closed store can be read. -/
structure Legible (st : Store) : Prop where
  closed : st.Closed
  reads : Reads st st st.depth

namespace Legible

lemma follows (h : st.Legible) : Follows st st := ⟨.refl, h.closed, h.closed⟩

lemma type? (h : st.Legible) {id : TypeId} (hid : id.ref.In st) : ∃ x, st.type? id = some x :=
  h.reads.type id hid

lemma expr? (h : st.Legible) {id : ExprId} (hid : id.ref.In st) : ∃ x, st.expr? id = some x :=
  h.reads.expr id hid

lemma signature? (h : st.Legible) {id : SignatureId} (hid : id.ref.In st) :
    ∃ x, st.signature? id = some x :=
  h.follows.readSignature h.closed.readsLines h.reads.type hid

lemma definedType? (h : st.Legible) {id : TypeId} (hid : id.ref.In st) :
    ∃ x, st.definedType? id = some x := by
  obtain ⟨node, hnode⟩ := ((st.nodes.arena .type).lt_size_iff id.index).1 hid
  have hrefs := h.closed.nodes .type id node hnode
  have hlines := h.closed.readsLines
  rw [Store.definedType?, show st.node? id = some node from hnode]
  cases node with
  | struct fields =>
    obtain ⟨xs, hxs⟩ := h.follows.readFields hlines (fun _ => h.type?) (sound_cons.1 hrefs).1
    exact ⟨_, by simp [hxs]; rfl⟩
  | interface elems =>
    obtain ⟨xs, hxs⟩ := List.exists_mapM_eq_some fun e he => h.follows.readInterfaceElem hlines
      (fun _ => h.type?) (h.follows.items_sound (sound_cons.1 hrefs).1 e he)
    exact ⟨_, by simp [hxs]; rfl⟩
  | _ => exact h.type? hid

lemma constraint? (h : st.Legible) {k : ConstraintNode} (hk : st.Sound k.refs) :
    ∃ x, st.constraint? k = some x := by
  cases k with
  | any sp => exact ⟨.any, rfl⟩
  | union terms =>
    have htype : ∀ id : TypeId, id.ref.In st → ∃ x, st.type? id = some x := fun _ => h.type?
    obtain ⟨xs, hxs⟩ := h.follows.readUnion htype (sound_cons.1 hk).1
    exact ⟨_, by simp [Store.constraint?, hxs]; rfl⟩
  | interface type =>
    obtain ⟨x, hx⟩ := h.type? (sound_cons.1 hk).1
    exact ⟨_, by simp [Store.constraint?, hx]; rfl⟩

lemma typeParams? (h : st.Legible) {id : Option TypeParamsId} (hid : st.Sound (Id.optRefs id)) :
    ∃ x, st.typeParams? id = some x := by
  cases id with
  | none => exact ⟨[], rfl⟩
  | some id =>
    obtain ⟨params, hparams⟩ :=
      ((st.nodes.arena .typeParams).lt_size_iff id.index).1 (sound_optRefs_some.1 hid)
    have hlist := (sound_cons.1 (h.closed.nodes .typeParams id params hparams)).1
    have hdecls : ∀ d ∈ st.list params.params, ∃ x, (do
        let decl : TypeParamDeclNode ← st.node? d
        return (⟨st.names decl.names, ← st.constraint? decl.constraint⟩ : Source.TypeParamDecl)) =
          some x := by
      intro d hd
      have hin := (sound_cons.1 (h.follows.items_sound hlist d hd)).1
      obtain ⟨decl, hdecl⟩ := ((st.nodes.arena .typeParamDecl).lt_size_iff d.index).1 hin
      have hrefs := h.closed.nodes .typeParamDecl d decl hdecl
      simp only [NodeSort.refs, sound_cons] at hrefs
      obtain ⟨x, hx⟩ := h.constraint? hrefs.2
      exact ⟨_, by simp [show st.node? d = some decl from hdecl, hx]; rfl⟩
    obtain ⟨xs, hxs⟩ := List.exists_mapM_eq_some hdecls
    exact ⟨xs, by simpa [Store.typeParams?, show st.node? id = some params from hparams] using hxs⟩

lemma optType? (h : st.Legible) {id : Option TypeId} (hid : st.Sound (Id.optRefs id)) :
    ∃ x, id.mapM st.type? = some x :=
  h.reads.optType hid

lemma exprs? (h : st.Legible) {r : ListRef .exprs} (hr : r.ref.In st) :
    ∃ xs, (st.list r).mapM st.expr? = some xs :=
  List.exists_mapM_eq_some fun e he => h.expr? (sound_cons.1 (h.follows.items_sound hr e he)).1

lemma typeSpec? (h : st.Legible) {s : TypeSpecNode} (hs : st.Sound (SpecNode.type s).refs) :
    ∃ x, st.typeSpec? s = some x := by
  simp only [SpecNode.refs, sound_cons, sound_append] at hs
  obtain ⟨node, hnode⟩ := ((st.nodes.arena .type).lt_size_iff s.type.index).1 hs.1
  obtain ⟨params, hparams⟩ := h.typeParams? hs.2.2
  obtain ⟨type, htype⟩ := h.definedType? hs.1
  obtain ⟨doc, hdoc⟩ := h.closed.optLines?_isSome hs.2.1
  rw [Store.typeSpec?, show st.node? s.type = some node from hnode]
  simp only [Option.bind_eq_bind, Option.bind_some]
  split
  · exact ⟨_, rfl⟩
  split
  · exact ⟨_, rfl⟩
  · exact ⟨_, by simp [hparams, htype, hdoc]; rfl⟩

lemma spec? (h : st.Legible) (group : DeclGroup) {s : SpecNode} (hs : st.Sound s.refs) :
    ∃ x, st.spec? group s = some x := by
  cases s with
  | imported s =>
    simp only [SpecNode.refs, sound_append] at hs
    obtain ⟨doc, hdoc⟩ := h.closed.optLines?_isSome hs.1
    obtain ⟨comment, hcomment⟩ := h.closed.readsLines s.comment hs.2
    cases group <;> exact ⟨_, by simp [Store.spec?, Store.importSpec?, hdoc, hcomment]; rfl⟩
  | value s =>
    simp only [SpecNode.refs, sound_cons, sound_append] at hs
    obtain ⟨doc, hdoc⟩ := h.closed.optLines?_isSome hs.2.2.1
    obtain ⟨type, htype⟩ := h.optType? hs.2.2.2
    obtain ⟨values, hvalues⟩ := h.exprs? hs.2.1
    cases group <;> exact ⟨_, by simp [Store.spec?, Store.valueSpec?, hdoc, htype, hvalues]; rfl⟩
  | type s =>
    obtain ⟨x, hx⟩ := h.typeSpec? hs
    cases group <;> exact ⟨_, by simp [Store.spec?, hx]; rfl⟩

lemma receiver? (h : st.Legible) {r : ReceiverNode} (hr : st.Sound r.refs) :
    ∃ x, st.receiver? r = some x := by
  obtain ⟨type, htype⟩ := h.type? (sound_cons.1 hr).1
  exact ⟨_, by simp [Store.receiver?, htype]; rfl⟩

lemma func? (h : st.Legible) {id : FuncId} (hid : id.ref.In st) : ∃ x, st.func? id = some x := by
  obtain ⟨f, hf⟩ := ((st.nodes.arena .func).lt_size_iff id.index).1 hid
  have hrefs := h.closed.nodes .func id f hf
  simp only [NodeSort.refs, FuncNode.refs, sound_cons, sound_append] at hrefs
  obtain ⟨sig, hsig⟩ := h.signature? hrefs.1
  obtain ⟨doc, hdoc⟩ := h.closed.readsLines f.doc hrefs.2.1.1
  obtain ⟨params, hparams⟩ := h.typeParams? hrefs.2.2
  have hnode : st.node? id = some f := hf
  cases hrecv : f.receiver with
  | none => exact ⟨_, by simp [Store.func?, hnode, hrecv, hparams, hdoc, hsig]; rfl⟩
  | some r =>
    rw [hrecv] at hrefs
    obtain ⟨x, hx⟩ := h.receiver? hrefs.2.1.2
    exact ⟨_, by simp [Store.func?, hnode, hrecv, hx, hdoc, hsig]; rfl⟩

lemma generalDoc? (h : st.Legible) {g : GeneralDeclNode} (hdoc : st.Sound (Id.optRefs g.doc))
    (specs : List Source.Spec) : ∃ x, st.generalDoc? g specs = some x := by
  rw [Store.generalDoc?]
  split
  · exact h.closed.optLines?_isSome hdoc
  · exact ⟨none, rfl⟩

lemma topDecl? (h : st.Legible) {d : TopDeclNode} (hd : st.Sound d.refs) :
    ∃ x, st.topDecl? d = some x := by
  cases d with
  | func id =>
    obtain ⟨f, hf⟩ := h.func? (sound_cons.1 hd).1
    exact ⟨_, by simp [Store.topDecl?, hf]; rfl⟩
  | decl id =>
    obtain ⟨node, hnode⟩ := ((st.nodes.arena .decl).lt_size_iff id.index).1 (sound_cons.1 hd).1
    have hnode : st.node? id = some node := hnode
    cases node with
    | bad => exact ⟨.bad, by simp [Store.topDecl?, hnode]⟩
    | general g =>
      have hrefs := h.closed.nodes .decl id _ hnode
      simp only [NodeSort.refs, DeclNode.refs, sound_cons] at hrefs
      obtain ⟨specs, hspecs⟩ := List.exists_mapM_eq_some fun s hs =>
        h.spec? g.group (h.follows.items_sound hrefs.1 s hs)
      obtain ⟨doc, hdoc⟩ := h.generalDoc? hrefs.2 specs
      exact ⟨_, by simp [Store.topDecl?, hnode, hdoc, hspecs]; rfl⟩

end Legible

end Store

/-! ## Built trees -/

/-- Following the references of the tree meets neither a gap nor a circle, and all that is read from
the tree is there: the source file shows no declaration as bad and no comment as empty for want of
something to read. -/
structure Tree.Total (t : Tree) : Prop where
  root : t.toStore.Sound (t.root.decls.ref :: t.root.comments.ref :: Id.optRefs t.root.doc)
  closed : t.toStore.Closed
  acyclic : WellFounded t.toStore.Inside
  stripParens : WellFounded fun inner outer : TypeId => t.node? outer = some (.paren inner)
  types : ∀ id : TypeId, id.ref.In t.toStore → ∃ x, t.type? id = some x
  exprs : ∀ id : ExprId, id.ref.In t.toStore → ∃ x, t.expr? id = some x
  signatures : ∀ id : SignatureId, id.ref.In t.toStore → ∃ x, t.signature? id = some x
  groups : ∀ id : CommentGroupId, id.ref.In t.toStore → ∃ lines, t.lines? id = some lines
  decls : t.topDecls.map t.topDecl? = t.sourceFile.decls.map some
  comments : t.commentGroups.map t.lines? = t.sourceFile.comments.map some
  doc : t.docLines? t.root.doc = some t.sourceFile.doc

/-- A partial reading that gives something for each member of a list never needs the default. -/
lemma map_eq_map_getD {α β : Type} {f : α → Option β} {xs : List α} (d : β)
    (h : ∀ x ∈ xs, ∃ y, f x = some y) : xs.map f = (xs.map fun x => (f x).getD d).map some := by
  rw [List.map_map]
  refine List.map_congr_left fun x hx => ?_
  obtain ⟨y, hy⟩ := h x hx
  simp [hy]

/-- Whatever a finished tree refers to can be read. -/
lemma Progress.legible_finish {path package : String} {steps : List Step} {p : Progress}
    (h : (Progress.mk (.start path package) #[]).run steps = some p) :
    p.builder.finish.toStore.Legible := by
  obtain ⟨-, hran⟩ := ran_of_start h
  have hgrows := hran.tree_grows
  exact ⟨hgrows.closed Store.closed_empty, hgrows.reads _ .refl _ (Nat.le_refl _)⟩

/-- Every declaration of a finished tree can be read. -/
lemma Progress.topDecl?_finish {path package : String} {steps : List Step} {p : Progress}
    (h : (Progress.mk (.start path package) #[]).run steps = some p) :
    ∀ d ∈ p.builder.finish.topDecls, (p.builder.finish.topDecl? d).isSome := by
  have hlegible := legible_finish h
  intro d hd
  have hsound := (Builder.finish_decls p.builder).sound
  obtain ⟨x, hx⟩ := hlegible.topDecl? (hlegible.follows.items_sound hsound d hd)
  rw [hx]
  rfl

/-- Nothing is missing in a tree that a script has built. -/
theorem Builder.finish_total {path package : String} {steps : List Step} {p : Progress}
    (hrun : (Progress.mk (.start path package) #[]).run steps = some p) :
    p.builder.finish.Total := by
  obtain ⟨-, hran⟩ := Progress.ran_of_start hrun
  have hgrows := hran.tree_grows
  have hlegible := Progress.legible_finish hrun
  have hclosed := hlegible.closed
  have hdoc : p.builder.finish.toStore.Documents p.builder.finish.root.doc :=
    (hran.finish_grows (T := fun _ => True)).documents hran.documents
  have hdecls := (finish_decls p.builder).sound
  have hcomments := (finish_comments p.builder).sound
  refine ⟨?_, hclosed, hgrows.wellFounded, ?_, fun _ => hlegible.type?, fun _ => hlegible.expr?,
    fun _ => hlegible.signature?, fun _ => hclosed.lines?_isSome, ?_, ?_, ?_⟩
  · simp only [Store.sound_cons]
    exact ⟨hdecls, hcomments, hdoc.sound⟩
  · -- a pair of parentheses refers to what is between them
    refine Subrelation.wf ?_ (InvImage.wf (fun id : TypeId => id.ref) hgrows.wellFounded)
    intro inner outer hparen
    exact Store.mem_contents_node.2 ⟨_, hparen, by simp [NodeSort.refs, TypeNode.refs]⟩
  · refine map_eq_map_getD .bad fun d hd => hlegible.topDecl? ?_
    exact hlegible.follows.items_sound hdecls d hd
  · refine map_eq_map_getD [] fun g hg => hclosed.lines?_isSome ?_
    exact (Store.sound_cons.1 (hlegible.follows.items_sound hcomments g hg)).1
  · obtain ⟨lines, hlines⟩ := hclosed.readsLines _ hdoc.sound
    rw [Tree.sourceFile, hlines]
    rfl

/-- The script of a type whose field gets documentation after the struct around it was built. -/
def Step.documentedLate : List Step :=
  [.named "int", .field ["x"] 0, .struct [1], .parenType 2, .fieldDoc 1 ["// X is late."],
    .typeSpec "P" 3, .decl .types 5]

theorem Builder.documentedLate_total :
    ∃ p, (Progress.mk (.start "a.go" "main") #[]).run Step.documentedLate = some p ∧
      p.builder.finish.Total := by
  have hrun : ((Progress.mk (.start "a.go" "main") #[]).run Step.documentedLate).isSome := by
    decide +kernel
  obtain ⟨p, hp⟩ := Option.isSome_iff_exists.1 hrun
  exact ⟨p, hp, finish_total hp⟩

end GoOutline
