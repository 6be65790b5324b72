/-
# Two forms of a single result

A signature with one result that has no name can hold it in two forms: as a type, or as a list of one
entry that says nothing but the type. A tree may use both, and each signature may change from one to
the other. The two forms are read as different results, which are printed and outlined each in its own
way, and they look alike. So whatever contains such a signature, near or deep inside, looks alike as
well: at every bound on the nesting, all that is read from the two trees is related part by part.

The list form needs an entry, which the other form does without. So the two trees may also differ in
the entries that are left over, as long as all other lists have the entries that they had.
-/
import GoOutline.Proofs.Outline.Alike
import GoOutline.Proofs.Tree.AppendOnly
import GoOutline.Proofs.Tree.Reading
import GoOutline.Tree.Patch

namespace GoOutline

open Source (TypeExpr)

/-! ## Changes of form -/

namespace Store

/-- The list has a single entry, and this entry says nothing but its type. -/
def ListsOnly (st : Store) (r : ListRef .fields) (type : TypeId) : Prop :=
  ∃ (id : FieldId) (names : ListRef .idents), st.list r = [id] ∧ names.isEmpty = true ∧
    st.node? id = some ⟨names, none, type, none, false, none, none⟩

/-- The list has the same entries in both stores. -/
structure SameEntries (st st' : Store) (r : ListRef .fields) : Prop where
  list : st'.list r = st.list r
  node : ∀ id ∈ st.list r, st'.node? id = st.node? id

/-- The results are one result without a name, in one of its two forms. -/
inductive IsSingle (st : Store) (type : TypeId) : ResultsNode → Prop
  | type : IsSingle st type (.type type)
  | list {r : ListRef .fields} (h : st.ListsOnly r type) : IsSingle st type (.list r)

/-- The results are the same up to the form of a single one. -/
inductive SameResults (st st' : Store) : Option ResultsNode → Option ResultsNode → Prop
  | none : SameResults st st' none none
  | list {r : ListRef .fields} (h : st.SameEntries st' r) :
    SameResults st st' (some (.list r)) (some (.list r))
  | single {type : TypeId} {res res' : ResultsNode} (h : st.IsSingle type res)
    (h' : st'.IsSingle type res') : SameResults st st' (some res) (some res')

/-- The parameters are the same, and so are the results up to their form. -/
structure SameSignature (st st' : Store) (sig sig' : SignatureNode) : Prop where
  params : sig'.params = sig.params
  entries : st.SameEntries st' sig.params
  results : st.SameResults st' sig.results sig'.results

/-- The store `st'` is `st` with some of the single results in the other form. -/
structure Reforms (st st' : Store) : Prop where
  source : st'.source = st.source
  symbols : st'.symbols = st.symbols
  arena : ∀ s : NodeSort, s ≠ .signature → s ≠ .field → st'.nodes.arena s = st.nodes.arena s
  buffer : ∀ l : ListSort, l ≠ .fields → st'.lists.buffer l = st.lists.buffer l
  signatures : ∀ id : SignatureId,
    Option.Rel (st.SameSignature st') (st.node? id) (st'.node? id)
  /-- The entries of struct types are what they were. -/
  structs : ∀ (id : TypeId) (r : ListRef .fields), st.node? id = some (.struct r) →
    st.SameEntries st' r

/-! ## Reading in both stores -/

lemma names_eq_nil (st : Store) {r : ListRef .idents} (h : r.isEmpty = true) : st.names r = [] := by
  have hlength : r.length = 0 := by simpa [ListRef.isEmpty] using h
  have hstop := stop_le r
  have hnone : r.stop - r.start = 0 := by omega
  rw [names, list_eq, hnone]
  split <;> rfl

/-- In a list a single result is an entry that says nothing but its type, in whichever form it is
held. -/
lemma IsSingle.readResults {st : Store} {type : TypeId → Option TypeExpr} {t : TypeId}
    {res : ResultsNode} (h : st.IsSingle t res)
    {lines : Option CommentGroupId → Option Source.Lines} (hlines : lines none = some []) :
    ∃ form : TypeExpr → Source.Results,
      (∀ x, (form x).listed = .single (.mk [] false x none false [] [])) ∧
      st.readResults lines type (some res) = (type t).map form := by
  cases h with
  | type =>
    refine ⟨.bare, fun _ => rfl, ?_⟩
    rw [Store.readResults]
    cases type t <;> rfl
  | list h =>
    obtain ⟨id, names, hlist, hempty, hnode⟩ := h
    refine ⟨fun x => .single (.mk [] false x none false [] []), fun _ => rfl, ?_⟩
    simp only [Store.readResults, readField, hlist, hnode, hlines, Option.bind_eq_bind,
      Option.bind_some, st.names_eq_nil hempty, hempty, if_true]
    cases type t <;> rfl

/-- The two readers give results that look alike, wherever they give any. -/
def ReadAlike {ι α : Type} (R : α → α → Prop) (read read' : ι → Option α) : Prop :=
  ∀ i, Option.Rel R (read i) (read' i)

namespace Reforms

variable {st st' : Store}

lemma node?_eq (h : st.Reforms st') {s : NodeSort} (hsig : s ≠ .signature) (hfield : s ≠ .field)
    (id : Id s) : st'.node? id = st.node? id := by
  rw [node?, node?, h.arena s hsig hfield]

lemma list_eq (h : st.Reforms st') {l : ListSort} (hl : l ≠ .fields) (r : ListRef l) :
    st'.list r = st.list r := by
  rw [list, list, Lists.read, Lists.read, h.buffer l hl]

lemma text_eq (h : st.Reforms st') : st'.text = st.text := by
  funext span
  rw [text, text, h.source]

lemma name_eq (h : st.Reforms st') : st'.name = st.name := by
  funext sym
  rw [name, name, h.symbols]

lemma names_eq (h : st.Reforms st') : st'.names = st.names := by
  funext r
  rw [names, names, h.list_eq (by simp), h.name_eq]

lemma lines?_eq (h : st.Reforms st') : st'.lines? = st.lines? := by
  funext group
  have hspan (id : CommentId) : st'.span? id = st.span? id := by
    rw [span?, span?, h.arena .comment (by simp) (by simp)]
  simp only [lines?, h.node?_eq (s := .commentGroup) (by simp) (by simp), hspan, h.text_eq,
    h.list_eq (l := .comments) (by simp)]

lemma optLines?_eq (h : st.Reforms st') : st'.optLines? = st.optLines? := by
  funext group
  rw [optLines?, optLines?, h.lines?_eq]

lemma docLines?_eq (h : st.Reforms st') : st'.docLines? = st.docLines? := by
  funext group
  rw [docLines?, docLines?, h.optLines?_eq]

/-! What lies between types is read with readers for the types in it. If these read types that look
alike, then so does all that contains them. -/

section Reader

variable {lines : Option CommentGroupId → Option Source.Lines}
  {type type' : TypeId → Option TypeExpr}

lemma readField (h : st.Reforms st') (htype : ReadAlike TypeExpr.Alike type type')
    {id : FieldId} (hnode : st'.node? id = st.node? id) :
    Option.Rel Source.Field.Alike (st.readField lines type id) (st'.readField lines type' id) := by
  rw [Store.readField, Store.readField, hnode, h.names_eq, h.text_eq]
  refine .bind_same _ fun f => (htype f.type).bind fun x y hxy => ?_
  exact .bind_same _ fun doc => .bind_same _ fun comment => .some (.mk hxy.text)

lemma readFields (h : st.Reforms st') (lines : Option CommentGroupId → Option Source.Lines)
    (htype : ReadAlike TypeExpr.Alike type type') {r : ListRef .fields}
    (hr : st.SameEntries st' r) :
    Option.Rel (List.Forall₂ Source.Field.Alike) ((st.list r).mapM (st.readField lines type))
      ((st'.list r).mapM (st'.readField lines type')) := by
  rw [hr.list]
  exact .mapM fun id hid => h.readField htype (hr.node id hid)

lemma readResults_list (h : st.Reforms st')
    (htype : ReadAlike TypeExpr.Alike type type') {r : ListRef .fields}
    (hr : st.SameEntries st' r) :
    Option.Rel Source.Results.Alike (st.readResults lines type (some (.list r)))
      (st'.readResults lines type' (some (.list r))) := by
  have hread := h.readFields lines htype hr
  have hnode := hr.node
  rw [hr.list] at hread
  simp only [Store.readResults, hr.list]
  generalize st.list r = ids at hread hnode
  rcases ids with _ | ⟨only, _ | ⟨next, rest⟩⟩
  · exact .some (.refl _)
  · simp only [hnode only (by simp)]
    refine .bind_same _ fun node => ?_
    refine (h.readField htype (hnode only (by simp))).bind fun f f' hf => .some ?_
    split
    · exact .single hf
    · exact .list (.cons hf .nil)
  · exact hread.bind fun fs fs' hfs => .some (.list hfs)

/-- A single result looks alike in its two forms. -/
lemma readResults_single (htype : ReadAlike TypeExpr.Alike type type')
    (hlines : lines none = some []) {t : TypeId} {res res' : ResultsNode} (hres : st.IsSingle t res)
    (hres' : st'.IsSingle t res') :
    Option.Rel Source.Results.Alike (st.readResults lines type (some res))
      (st'.readResults lines type' (some res')) := by
  obtain ⟨form, hform, hread⟩ := hres.readResults hlines
  obtain ⟨form', hform', hread'⟩ := hres'.readResults hlines
  rw [hread, hread']
  refine (htype t).map fun x y hxy => ?_
  have hlisted : (form x).listed.Alike (form' y).listed := by
    rw [hform, hform']
    exact .single (.mk hxy.text)
  exact (Source.Results.Alike.listed _).trans (hlisted.trans (Source.Results.Alike.listed _).symm)

lemma readSignature (h : st.Reforms st') (htype : ReadAlike TypeExpr.Alike type type')
    (hlines : lines none = some []) :
    ReadAlike Source.Signature.Alike (st.readSignature lines type)
      (st'.readSignature lines type') := by
  intro id
  refine (h.signatures id).bind fun sig sig' hsig => ?_
  rw [hsig.params]
  refine (h.readFields lines htype hsig.entries).bind fun params params' hparams => ?_
  refine Option.Rel.bind ?_ fun results results' hresults => .some (.mk' hparams hresults)
  have hresults := hsig.results
  generalize sig.results = res, sig'.results = res' at hresults
  cases hresults with
  | none => exact .some (.refl _)
  | list hr => exact h.readResults_list htype hr
  | single hres hres' => exact readResults_single htype hlines hres hres'

lemma readUnion (h : st.Reforms st') (htype : ReadAlike TypeExpr.Alike type type') :
    ReadAlike (fun ts us => Source.unionText us = Source.unionText ts) (st.readUnion type)
      (st'.readUnion type') := by
  intro terms
  have hterms : Option.Rel (List.Forall₂ fun t u => Source.TypeTerm.text u = Source.TypeTerm.text t)
      (st.readUnion type terms) (st'.readUnion type' terms) := by
    rw [Store.readUnion, Store.readUnion, h.list_eq (by simp)]
    refine .mapM fun t _ => (htype t.type).bind fun x y hxy => .some ?_
    rw [Source.TypeTerm.text, Source.TypeTerm.text, hxy.text]
  refine hterms.mono fun ts us htexts => ?_
  rw [Source.unionText, Source.unionText, Source.termTexts_eq, Source.termTexts_eq,
    htexts.map_eq fun _ _ => id]

lemma readInterfaceElem (h : st.Reforms st') (htype : ReadAlike TypeExpr.Alike type type')
    (hlines : lines none = some []) :
    ReadAlike Source.InterfaceElem.Alike (st.readInterfaceElem lines type)
      (st'.readInterfaceElem lines type') := by
  intro e
  cases e with
  | method doc name sig =>
    rw [Store.readInterfaceElem, Store.readInterfaceElem, h.name_eq]
    refine .bind_same _ fun doc => (h.readSignature htype hlines sig).bind fun s s' hs => ?_
    exact .some (.method doc _ hs)
  | union terms => exact (h.readUnion htype terms).bind fun ts us htexts => .some (.union htexts)

variable {expr expr' : ExprId → Option Source.Expr}
  {elems elems' : LiteralNode → Option (List Source.KeyedElem)}

lemma readOperand (htype : ReadAlike TypeExpr.Alike type type')
    (hexpr : ReadAlike Source.Expr.Alike expr expr') :
    ReadAlike Source.Operand.Alike (Store.readOperand expr type) (Store.readOperand expr' type') := by
  intro x
  cases x with
  | expr e => exact (hexpr e).bind fun a b hab => .some ⟨hab.text⟩
  | type t => exact (htype t).bind fun a b hab => .some ⟨hab.text⟩

lemma readElement (hexpr : ReadAlike Source.Expr.Alike expr expr')
    (helems : ReadAlike (List.Forall₂ Source.KeyedElem.Alike) elems elems') :
    ReadAlike Source.Element.Alike (Store.readElement expr elems)
      (Store.readElement expr' elems') := by
  intro e
  cases e with
  | expr e => exact (hexpr e).bind fun a b hab => .some ⟨hab.text⟩
  | literal v => exact (helems v).bind fun xs ys hxs => .some (Source.KeyedElem.Alike.braces hxs)

lemma readKey (h : st.Reforms st') (hexpr : ReadAlike Source.Expr.Alike expr expr')
    (helems : ReadAlike (List.Forall₂ Source.KeyedElem.Alike) elems elems') :
    ReadAlike Source.Key.Alike (st.readKey expr elems) (st'.readKey expr' elems') := by
  intro key
  rcases key with _ | (name | e | v)
  · exact .some fun _ => ⟨rfl⟩
  · rw [Store.readKey, Store.readKey, h.name_eq]
    exact .some fun _ => ⟨rfl⟩
  · exact (hexpr e).bind fun a b hab => .some (Source.Element.Alike.key ⟨hab.text⟩)
  · exact (helems v).bind fun xs ys hxs => .some (Source.KeyedElem.Alike.braces hxs).key

lemma readKeyed (h : st.Reforms st') (hexpr : ReadAlike Source.Expr.Alike expr expr')
    (helems : ReadAlike (List.Forall₂ Source.KeyedElem.Alike) elems elems') :
    ReadAlike Source.KeyedElem.Alike (st.readKeyed expr elems) (st'.readKeyed expr' elems') := by
  intro e
  refine (h.readKey hexpr helems e.key).bind fun k k' hk => ?_
  refine (readElement hexpr helems e.value).bind fun v v' hv => .some ⟨?_⟩
  exact (hv.value k').text.trans (hk v).text

end Reader

/-! At every bound on the nesting the same is read, up to what looks alike. One more level of nesting
is one use of the lemmas above for the parts of each kind of node. -/

lemma readType_succ (h : st.Reforms st') {n : Nat}
    (htype : ReadAlike TypeExpr.Alike (st.readType n) (st'.readType n))
    (hexpr : ReadAlike Source.Expr.Alike (st.readExpr n) (st'.readExpr n)) :
    ReadAlike TypeExpr.Alike (st.readType (n + 1)) (st'.readType (n + 1)) := by
  intro id
  rw [readType, readType, h.node?_eq (by simp) (by simp)]
  cases hnode : st.node? id with
  | none => exact .none
  | some node =>
    cases node with
    | named pkg name args =>
      simp only [Option.bind_eq_bind, Option.bind_some, h.name_eq, h.list_eq (l := .types) (by simp)]
      refine (Option.Rel.mapM fun t _ => htype t).bind fun xs ys hxs => .some ?_
      exact TypeExpr.alike_named (TypeExpr.Alike.typeTexts hxs)
    | pointer elem => exact (htype elem).bind fun x y hxy => .some hxy.pointer
    | array length elem =>
      cases length with
      | inferred =>
        refine (htype elem).bind fun x y hxy => .some (TypeExpr.alike_of_text rfl rfl ?_)
        simp only [TypeExpr.text, hxy.text]
      | expr length =>
        refine (hexpr length).bind fun e e' he => ?_
        refine (htype elem).bind fun x y hxy => .some (TypeExpr.alike_of_text rfl rfl ?_)
        simp only [TypeExpr.text, he.text, hxy.text]
    | slice elem =>
      refine (htype elem).bind fun x y hxy => .some (TypeExpr.alike_of_text rfl rfl ?_)
      simp only [TypeExpr.text, hxy.text]
    | map key val =>
      refine (htype key).bind fun k k' hk => (htype val).bind fun v v' hv => ?_
      refine .some (TypeExpr.alike_of_text rfl rfl ?_)
      simp only [TypeExpr.text, hk.text, hv.text]
    | chan dir elem =>
      refine (htype elem).bind fun x y hxy => .some (TypeExpr.alike_of_text rfl rfl ?_)
      simp only [TypeExpr.text, hxy.text]
    | struct fields =>
      have hfields := h.readFields noLines htype (h.structs id fields hnode)
      exact hfields.bind fun xs ys hxs => .some (TypeExpr.alike_struct hxs)
    | interface elems =>
      simp only [Option.bind_eq_bind, Option.bind_some, h.list_eq (l := .interfaceElems) (by simp)]
      refine (Option.Rel.mapM fun e _ => h.readInterfaceElem htype rfl e).bind fun xs ys hxs => ?_
      exact .some (TypeExpr.alike_interface hxs)
    | func sig =>
      refine (h.readSignature htype rfl sig).bind fun s s' hs => ?_
      refine .some (TypeExpr.alike_of_text rfl rfl ?_)
      simp only [TypeExpr.text, hs.text]
    | paren inner => exact (htype inner).bind fun x y hxy => .some hxy.paren
    | bad => exact .some (TypeExpr.alike_of_text rfl rfl rfl)

lemma readExpr_succ (h : st.Reforms st') {n : Nat}
    (htype : ReadAlike TypeExpr.Alike (st.readType n) (st'.readType n))
    (hexpr : ReadAlike Source.Expr.Alike (st.readExpr n) (st'.readExpr n))
    (helems : ReadAlike (List.Forall₂ Source.KeyedElem.Alike) (st.readElems n) (st'.readElems n)) :
    ReadAlike Source.Expr.Alike (st.readExpr (n + 1)) (st'.readExpr (n + 1)) := by
  intro id
  rw [readExpr, readExpr, h.node?_eq (by simp) (by simp)]
  refine .bind_same _ fun node => ?_
  cases node with
  | ident name =>
    simp only [h.name_eq]
    exact .some ⟨rfl⟩
  | literal kind raw =>
    simp only [h.text_eq]
    exact .some ⟨rfl⟩
  | funcLit sig body =>
    simp only [h.text_eq]
    refine (h.readSignature htype rfl sig).bind fun s s' hs => .some ⟨?_⟩
    simp only [Source.Expr.text, hs.text]
  | composite type value =>
    refine (Option.Rel.optMapM type htype).bind fun t t' ht => ?_
    refine (helems value).bind fun es es' hes => .some ⟨?_⟩
    simp only [Source.Expr.text, Source.KeyedElem.Alike.keyedTexts hes, TypeExpr.Alike.optTypeText ht]
  | index base args =>
    simp only [h.list_eq (l := .operands) (by simp)]
    refine (hexpr base).bind fun b b' hb => ?_
    refine (Option.Rel.mapM fun x _ => readOperand htype hexpr x).bind fun xs ys hxs => .some ⟨?_⟩
    simp only [Source.Expr.text, hb.text, Source.Operand.Alike.operandTexts hxs]
  | paren inner =>
    refine (hexpr inner).bind fun e e' he => .some ⟨?_⟩
    simp only [Source.Expr.text, he.text]
  | selector base name =>
    simp only [h.name_eq]
    refine (hexpr base).bind fun b b' hb => .some ⟨?_⟩
    simp only [Source.Expr.text, hb.text]
  | slice base low high max =>
    refine (hexpr base).bind fun b b' hb => ?_
    refine (Option.Rel.optMapM low hexpr).bind fun l l' hl => ?_
    refine (Option.Rel.optMapM high hexpr).bind fun r r' hr => ?_
    refine (Option.Rel.optMapM max hexpr).bind fun m m' hm => .some ⟨?_⟩
    have hlow := Source.Expr.Alike.optExprText hl
    have hhigh := Source.Expr.Alike.optExprText hr
    cases hm with
    | none => simp only [Source.Expr.text, hb.text, hlow, hhigh]
    | some he => simp only [Source.Expr.text, hb.text, hlow, hhigh, he.text]
  | typeAssert base type =>
    refine (hexpr base).bind fun b b' hb => ?_
    refine (Option.Rel.optMapM type htype).bind fun t t' ht => .some ⟨?_⟩
    cases ht with
    | none => simp only [Source.Expr.text, hb.text]
    | some ht => simp only [Source.Expr.text, hb.text, ht.text]
  | call callee typeArg args spread =>
    simp only [h.list_eq (l := .exprs) (by simp)]
    refine (readOperand htype hexpr callee).bind fun c c' hc => ?_
    refine (Option.Rel.optMapM typeArg htype).bind fun t t' ht => ?_
    refine (Option.Rel.mapM fun e _ => hexpr e).bind fun xs ys hxs => .some ⟨?_⟩
    have hargs := Source.Expr.Alike.exprTexts hxs
    cases ht with
    | none => simp only [Source.Expr.text, hc.text, hargs]
    | some ht => simp only [Source.Expr.text, hc.text, ht.text, hargs]
  | unary op operand =>
    refine (hexpr operand).bind fun e e' he => .some ⟨?_⟩
    simp only [Source.Expr.text, he.text]
  | binary left op right =>
    refine (hexpr left).bind fun a a' ha => (hexpr right).bind fun b b' hb => .some ⟨?_⟩
    simp only [Source.Expr.text, ha.text, hb.text]
  | bad => exact .some ⟨rfl⟩

lemma reads (h : st.Reforms st') (n : Nat) :
    ReadAlike TypeExpr.Alike (st.readType n) (st'.readType n) ∧
      ReadAlike Source.Expr.Alike (st.readExpr n) (st'.readExpr n) ∧
      ReadAlike (List.Forall₂ Source.KeyedElem.Alike) (st.readElems n) (st'.readElems n) := by
  induction n with
  | zero => exact ⟨fun _ => .none, fun _ => .none, fun _ => .none⟩
  | succ n ih =>
    obtain ⟨htype, hexpr, helems⟩ := ih
    refine ⟨h.readType_succ htype hexpr, h.readExpr_succ htype hexpr helems, fun v => ?_⟩
    rw [readElems, readElems, h.list_eq (by simp)]
    exact .mapM fun e _ => h.readKeyed hexpr helems e

lemma depth_eq (h : st.Reforms st') : st'.depth = st.depth := by
  have htypes : st'.nodes.types = st.nodes.types := h.arena .type (by simp) (by simp)
  have hexprs : st'.nodes.exprs = st.nodes.exprs := h.arena .expr (by simp) (by simp)
  have helems : st'.lists.keyedElems = st.lists.keyedElems := h.buffer .keyedElems (by simp)
  rw [depth, depth, htypes, hexprs, helems]

lemma type? (h : st.Reforms st') : ReadAlike TypeExpr.Alike st.type? st'.type? := by
  intro id
  rw [Store.type?, Store.type?, h.depth_eq]
  exact (h.reads st.depth).1 id

lemma expr? (h : st.Reforms st') : ReadAlike Source.Expr.Alike st.expr? st'.expr? := by
  intro id
  rw [Store.expr?, Store.expr?, h.depth_eq]
  exact (h.reads st.depth).2.1 id

/-- Members of a type that is defined look alike, comments included. -/
lemma definedType? (h : st.Reforms st') :
    ReadAlike TypeExpr.Alike st.definedType? st'.definedType? := by
  intro id
  have hlines : st.docLines? none = some [] := rfl
  rw [Store.definedType?, Store.definedType?, h.node?_eq (by simp) (by simp), h.docLines?_eq]
  cases hnode : st.node? id with
  | none => exact .none
  | some node =>
    cases node with
    | struct fields =>
      have hfields := h.readFields st.docLines? h.type? (h.structs id fields hnode)
      exact hfields.bind fun xs ys hxs => .some (TypeExpr.alike_struct hxs)
    | interface elems =>
      simp only [Option.bind_eq_bind, Option.bind_some, h.list_eq (l := .interfaceElems) (by simp)]
      have helem (e : InterfaceElemNode) := h.readInterfaceElem h.type? hlines e
      refine (Option.Rel.mapM fun e _ => helem e).bind fun xs ys hxs => ?_
      exact .some (TypeExpr.alike_interface hxs)
    | _ => exact h.type? id

/-! ## Declarations -/

lemma constraint? (h : st.Reforms st') :
    ReadAlike (fun x y => Source.Constraint.text y = Source.Constraint.text x) st.constraint?
      st'.constraint? := by
  intro c
  cases c with
  | any => exact .some rfl
  | union terms => exact (h.readUnion h.type? terms).bind fun ts us htexts => .some htexts
  | interface type => exact (h.type? type).bind fun x y hxy => .some hxy.text

lemma typeParams? (h : st.Reforms st') :
    ReadAlike (List.Forall₂ Source.TypeParamDecl.Alike) st.typeParams? st'.typeParams? := by
  intro id
  cases id with
  | none => exact .some .nil
  | some id =>
    rw [Store.typeParams?, Store.typeParams?, h.node?_eq (by simp) (by simp)]
    refine .bind_same _ fun params => ?_
    rw [h.list_eq (by simp)]
    refine .mapM fun decl _ => ?_
    rw [h.node?_eq (by simp) (by simp), h.names_eq]
    exact .bind_same _ fun d => (h.constraint? d.constraint).bind fun c c' hc => .some ⟨rfl, hc⟩

lemma valueSpec? (h : st.Reforms st') :
    ReadAlike Source.ValueSpec.Alike st.valueSpec? st'.valueSpec? := by
  intro s
  rw [Store.valueSpec?, Store.valueSpec?, h.list_eq (by simp), h.optLines?_eq, h.names_eq]
  refine (Option.Rel.optMapM s.type h.type?).bind fun t t' ht => ?_
  refine (Option.Rel.mapM fun e _ => h.expr? e).bind fun vs vs' hvs => ?_
  refine .bind_same _ fun doc => .some ⟨rfl, rfl, ?_, ?_⟩
  · exact ht.map_eq fun x y hxy => hxy.text
  · exact hvs.map_eq fun e e' he => he.text

lemma typeSpec? (h : st.Reforms st') :
    ReadAlike Source.Spec.Alike st.typeSpec? st'.typeSpec? := by
  intro s
  rw [Store.typeSpec?, Store.typeSpec?, h.node?_eq (by simp) (by simp), h.optLines?_eq, h.name_eq]
  refine .bind_same _ fun node => ?_
  split
  · exact .some (.refl _)
  · split
    · exact .some (.refl _)
    · refine (h.typeParams? s.typeParams).bind fun ps ps' hps => ?_
      refine (h.definedType? s.type).bind fun t t' ht => .bind_same _ fun doc => ?_
      exact .some (.type (.mk' hps ht))

lemma importSpec?_eq (h : st.Reforms st') : st'.importSpec? = st.importSpec? := by
  have hname : st'.importName = st.importName := by
    funext name
    rcases name with _ | (_ | _ | _)
    · rfl
    · rfl
    · rfl
    · rw [importName, importName, h.name_eq]
  funext s
  simp only [importSpec?, hname, h.optLines?_eq, h.docLines?_eq, h.text_eq]

lemma spec? (h : st.Reforms st') (group : DeclGroup) :
    ReadAlike Source.Spec.Alike (st.spec? group) (st'.spec? group) := by
  intro s
  have himport (s : ImportSpecNode) : Option.Rel Source.Spec.Alike
      (st.spec? .imports (.imported s)) (st'.spec? .imports (.imported s)) := by
    rw [Store.spec?, Store.spec?, h.importSpec?_eq]
    exact .bind_same _ fun x => .some (.refl _)
  cases group <;> cases s <;> first
    | exact .some (.refl _)
    | exact himport _
    | exact (h.valueSpec? _).bind fun x y hxy => .some (.value hxy)
    | exact h.typeSpec? _

lemma generalDoc?_eq (h : st.Reforms st') (g : GeneralDeclNode) {specs specs' : List Source.Spec}
    (hspecs : List.Forall₂ Source.Spec.Alike specs specs') :
    st'.generalDoc? g specs' = st.generalDoc? g specs := by
  rw [generalDoc?, generalDoc?, Source.Spec.Alike.any_lacksDoc hspecs, h.optLines?_eq]

lemma receiver? (h : st.Reforms st') :
    ReadAlike Source.Receiver.Alike st.receiver? st'.receiver? := by
  intro r
  rw [Store.receiver?, Store.receiver?, h.name_eq, h.names_eq]
  exact (h.type? r.type).bind fun x y hxy => .some ⟨rfl, hxy, rfl⟩

lemma func? (h : st.Reforms st') : ReadAlike Source.FuncDecl.Alike st.func? st'.func? := by
  intro id
  rw [Store.func?, Store.func?, h.node?_eq (by simp) (by simp), h.docLines?_eq, h.name_eq]
  refine .bind_same _ fun f => ?_
  have hsig : Option.Rel Source.Signature.Alike (st.signature? f.signature)
      (st'.signature? f.signature) := by
    rw [signature?, signature?, h.docLines?_eq]
    exact h.readSignature h.type? rfl f.signature
  -- what follows the type parameters is read in the same way whether or not they are looked at
  dsimp only
  split
  · simp only [Option.pure_def, Option.bind_eq_bind, Option.bind_some]
    refine .bind_same _ fun doc => (Option.Rel.optMapM f.receiver h.receiver?).bind fun r r' hr => ?_
    exact hsig.bind fun sig sig' hsig => .some ⟨rfl, hr, rfl, .nil, hsig⟩
  · refine (h.typeParams? f.typeParams).bind fun ps ps' hps => .bind_same _ fun doc => ?_
    refine (Option.Rel.optMapM f.receiver h.receiver?).bind fun r r' hr => ?_
    exact hsig.bind fun sig sig' hsig => .some ⟨rfl, hr, rfl, hps, hsig⟩

lemma topDecl? (h : st.Reforms st') :
    ReadAlike Source.TopDecl.Alike st.topDecl? st'.topDecl? := by
  intro d
  cases d with
  | func id =>
    refine (h.func? id).bind fun f f' hf => .some fun file => ?_
    simp only [Source.TopDecl.entries, Source.FuncDecl.entries, hf.outline]
  | decl id =>
    rw [Store.topDecl?, Store.topDecl?, h.node?_eq (by simp) (by simp)]
    refine .bind_same _ fun node => ?_
    cases node with
    | bad => exact .some fun _ => rfl
    | general g =>
      simp only [h.list_eq (l := .specs) (by simp)]
      refine (Option.Rel.mapM fun s _ => h.spec? g.group s).bind fun xs ys hxs => ?_
      rw [h.generalDoc?_eq g hxs]
      exact .bind_same _ fun doc => .some fun file => Source.Spec.Alike.entries hxs doc _ _ file

end Reforms

/-! ## One change -/

section Edit

variable (st : Store) (id : SignatureId) (f : SignatureNode → SignatureNode)

lemma sameEntries_edit (r : ListRef .fields) : st.SameEntries (st.edit id f) r where
  list := rfl
  node entry _ := by
    have hne : id.ref ≠ entry.ref := by simp [Id.ref]
    have hkept := st.node?_edit_of_ne (s := .signature) f hne
    exact hkept

variable {st} {id} {f}

lemma IsSingle.edit {type : TypeId} {res : ResultsNode} (h : st.IsSingle type res) :
    (st.edit id f).IsSingle type res := by
  cases h with
  | type => exact .type
  | list h =>
    obtain ⟨entry, names, hlist, hempty, hnode⟩ := h
    have hkept := (st.sameEntries_edit id f _).node entry (hlist ▸ List.mem_singleton_self entry)
    exact .list ⟨entry, names, hlist, hempty, hkept.trans hnode⟩

lemma sameResults_edit (res : Option ResultsNode) : st.SameResults (st.edit id f) res res := by
  rcases res with _ | (r | type)
  · exact .none
  · exact .list (st.sameEntries_edit id f r)
  · exact .single .type .type

/-- One signature that holds its result in another form makes a store of another form. -/
lemma reforms_edit {type : TypeId} {sig : SignatureNode} {res res' : ResultsNode}
    (hsig : st.node? id = some sig) (hres : sig.results = some res) (h : st.IsSingle type res)
    (h' : st.IsSingle type res') :
    st.Reforms (st.edit id fun sig => { sig with results := some res' }) where
  source := rfl
  symbols := rfl
  arena s hs _ := Nodes.arena_modify_of_ne _ hs _
  buffer _ _ := rfl
  structs _ r _ := st.sameEntries_edit id _ r
  signatures other := by
    by_cases hother : id.ref = other.ref
    · obtain rfl : id = other := by simpa [Id.ref] using hother
      rw [hsig, st.node?_edit_self _ hsig]
      refine .some ⟨rfl, st.sameEntries_edit id _ _, ?_⟩
      rw [hres]
      exact .single h h'.edit
    · rw [st.node?_edit_of_ne _ hother]
      cases st.node? other with
      | none => exact .none
      | some sig' => exact .some ⟨rfl, st.sameEntries_edit id _ _, sameResults_edit _⟩

end Edit

end Store

/-! ## Trees -/

namespace Tree

/-- The tree `t'` is `t` with some of the single results in the other form. -/
structure Reforms (t t' : Tree) : Prop where
  store : t.toStore.Reforms t'.toStore
  path : t'.path = t.path
  root : t'.root = t.root

/-- The entries of all declarations are the same. -/
lemma Reforms.entries_eq {t t' : Tree} (h : t.Reforms t') (file : FileId) :
    t'.sourceFile.decls.flatMap (Source.TopDecl.entries file) =
      t.sourceFile.decls.flatMap (Source.TopDecl.entries file) := by
  have hdecls : t'.topDecls = t.topDecls := by
    rw [topDecls, topDecls, h.root, h.store.list_eq (by simp)]
  simp only [sourceFile, hdecls, List.flatMap_map]
  refine congrArg (t.topDecls.flatMap ·) (funext fun d => ?_)
  have hread := h.store.topDecl? d
  generalize t.topDecl? d = x, t'.topDecl? d = x' at hread
  cases hread with
  | none => rfl
  | some halike => exact halike file

lemma Reforms.ofTree_eq {t t' : Tree} (h : t.Reforms t') (policy : Redeclaration) (file : FileId)
    (package : String) : File.ofTree policy file package t' = File.ofTree policy file package t := by
  have hgroups : t'.commentGroups = t.commentGroups := by
    rw [commentGroups, commentGroups, h.root, h.store.list_eq (by simp)]
  have hpackage : t'.packageName = t.packageName := by
    rw [packageName, packageName, h.root, h.store.name_eq]
  rw [File.ofTree, File.ofTree, File.ofSource, File.ofSource, h.entries_eq, h.path]
  simp only [sourceFile, File.packageIssue?, hpackage, hgroups, h.root, h.store.docLines?_eq,
    h.store.lines?_eq]
  rfl

end Tree

/-- In which of its two forms a single result stands makes no difference, however deep inside it is: all
types and expressions have the same texts, and the outline of the file is the same. -/
theorem singleResult_forms {t t' : Tree} (h : t.Reforms t') :
    (∀ id, (t'.type? id).map Source.TypeExpr.text = (t.type? id).map Source.TypeExpr.text) ∧
    (∀ id, (t'.expr? id).map Source.Expr.text = (t.expr? id).map Source.Expr.text) ∧
    ∀ policy file package,
      File.ofTree policy file package t' = File.ofTree policy file package t := by
  refine ⟨fun id => ?_, fun id => ?_, h.ofTree_eq⟩
  · exact (h.store.type? id).map_eq fun x y hxy => hxy.text
  · exact (h.store.expr? id).map_eq fun e e' he => he.text

/-- The script of a function with a parameter of type `func() int`, where `int` is held as a list. -/
def Step.listedResult : List Step :=
  [.named "int", .field [] 0, .signature [] [1], .funcType 2, .field ["f"] 3,
    .signatureReturning [4] 3, .func "Apply" 5]

theorem singleResult_forms_nested :
    ∃ p, (Progress.mk (.start "a.go" "main") #[]).run Step.listedResult = some p ∧
      let t := p.builder.finish
      let t' := t.update (s := .signature) ⟨0⟩ fun sig => { sig with results := some (.type ⟨0⟩) }
      (t.node? (s := .signature) ⟨0⟩).map SignatureNode.results = some (some (.list ⟨0, 1⟩)) ∧
        (t.signature? ⟨0⟩).map (fun sig => sig.results matches .bare _) = some false ∧
        (t'.signature? ⟨0⟩).map (fun sig => sig.results matches .bare _) = some true ∧
        t.Reforms t' ∧
        (t.type? ⟨1⟩).map Source.TypeExpr.text = some "func() int" ∧
        (t'.type? ⟨1⟩).map Source.TypeExpr.text = some "func() int" ∧
        File.ofTree .keepFirst ⟨0, 0⟩ "main" t' = File.ofTree .keepFirst ⟨0, 0⟩ "main" t := by
  have hrun : ((Progress.mk (.start "a.go" "main") #[]).run Step.listedResult).any fun p =>
      let t := p.builder.finish
      let t' := t.update (s := .signature) ⟨0⟩ fun sig => { sig with results := some (.type ⟨0⟩) }
      (t.node? (s := .signature) ⟨0⟩).map SignatureNode.results = some (some (.list ⟨0, 1⟩)) &&
        (t.signature? ⟨0⟩).map (fun sig => sig.results matches .bare _) = some false &&
        (t'.signature? ⟨0⟩).map (fun sig => sig.results matches .bare _) = some true &&
        t.list (l := .fields) ⟨0, 1⟩ = [⟨0⟩] &&
        t.node? (s := .field) ⟨0⟩ = some ⟨⟨0, 0⟩, none, ⟨0⟩, none, false, none, none⟩ &&
        (t.type? ⟨1⟩).map Source.TypeExpr.text = some "func() int" := by
    decide +kernel
  obtain ⟨p, hp, hcheck⟩ := (Option.any_eq_true _ _).1 hrun
  simp only [Bool.and_eq_true, decide_eq_true_eq] at hcheck
  obtain ⟨⟨⟨⟨⟨hform, hread⟩, hread'⟩, hlist⟩, hentry⟩, htext⟩ := hcheck
  obtain ⟨sig, hsig, hres⟩ := Option.map_eq_some_iff.1 hform
  have hreforms : p.builder.finish.Reforms (p.builder.finish.update (s := .signature) ⟨0⟩
      fun sig => { sig with results := some (.type ⟨0⟩) }) :=
    ⟨Store.reforms_edit hsig hres (.list ⟨⟨0⟩, ⟨0, 0⟩, hlist, rfl, hentry⟩) .type, rfl, rfl⟩
  obtain ⟨htypes, -, houtline⟩ := singleResult_forms hreforms
  exact ⟨p, hp, hform, hread, hread', hreforms, htext, (htypes ⟨1⟩).trans htext, houtline _ _ _⟩

end GoOutline
