/-
# Printing what was built

A form is built bottom-up: each of its nodes by one construction, from parts that were built before,
in whatever builder there is. Between these constructions and after them any other step may be
taken, as long as it does not attach a tag to a field of the form. `Made` says that a value came
about in this way. The text of the value in the finished tree is the text of the form.

The proof is an induction over the construction. What is shown of a value is not its text in the
store in which it was made, but its text in every later store, so that other steps do not count, and
with every bound on the nesting of nodes that is at least the one of the store in which it was made.
-/
import GoOutline.Proofs.Source.Rendering
import GoOutline.Proofs.Source.Total

namespace GoOutline

open Store (Grows)

/-! ## Construction of forms -/

/-- `Made b own x v`: in the builder `b` the value `v` stands for the form `x`, of which `own` lists
the fields. One rule for each construction, and `later` for any other step. -/
inductive Made : Builder → List FieldId → {s : FormSort} → Form s → s.Value → Prop
  /-- Some step that does not tag a field of the form, with parts that may come from anywhere. -/
  | later {b own} {s : FormSort} {x : Form s} {v} {step : Step} {regs : Registers}
      {act : Build Register} (h : Made b own x v) (hact : step.action regs = some act)
      (hown : ∀ id ∈ own, ¬step.Tags regs id) : Made (act b).2 own x v
  | nil {b} {s : FormSort} : Made b [] (.nil : Form (.list s)) []
  | cons {b own own'} {s : FormSort} {x : Form s} {xs : Form (.list s)} {v vs}
      (hx : Made b own x v) (hxs : Made b own' xs vs) : Made b (own ++ own') (.cons x xs) (v :: vs)
  | absent {b} {s : FormSort} : Made b [] (.absent : Form (.opt s)) none
  | present {b own} {s : FormSort} {x : Form s} {v} (hx : Made b own x v) :
      Made b own (.present x) (some v)
  | named {b own args ids} (name : String) (hargs : Made b own args ids) :
      Made (Builder.instantiated name ids b).2 own (.named name args)
        (Builder.instantiated name ids b).1
  | pointer {b own elem id} (helem : Made b own elem id) :
      Made (Builder.pointer id b).2 own (.pointer elem) (Builder.pointer id b).1
  | slice {b own elem id} (helem : Made b own elem id) :
      Made (Builder.slice id b).2 own (.slice elem) (Builder.slice id b).1
  | array {b own elem id} (length : String) (helem : Made b own elem id) :
      Made (Builder.array length id b).2 own (.array length elem) (Builder.array length id b).1
  | map {b own own' key val id id'} (hkey : Made b own key id) (hval : Made b own' val id') :
      Made (Builder.map id id' b).2 (own ++ own') (.map key val) (Builder.map id id' b).1
  | chan {b own elem id} (dir : ChanDir) (helem : Made b own elem id) :
      Made (Builder.chan dir id b).2 own (.chan dir elem) (Builder.chan dir id b).1
  | func {b own sig id} (hsig : Made b own sig id) :
      Made (Builder.funcType id b).2 own (.func sig) (Builder.funcType id b).1
  | parenType {b own inner id} (hinner : Made b own inner id) :
      Made (Builder.parenType id b).2 own (.parenType inner) (Builder.parenType id b).1
  | struct {b own fields ids} (hfields : Made b own fields ids) :
      Made (Builder.struct ids b).2 own (.struct fields) (Builder.struct ids b).1
  | interface {b own elems es} (helems : Made b own elems es) :
      Made (Builder.interface es b).2 own (.interface elems) (Builder.interface es b).1
  | badType {b} : Made (Builder.badType b).2 [] .badType (Builder.badType b).1
  | method {b own sig id} (doc : List String) (name : String) (hsig : Made b own sig id) :
      Made (Builder.methodElem doc name id b).2 own (.method name sig)
        (Builder.methodElem doc name id b).1
  | union {b own terms ts} (hterms : Made b own terms ts) :
      Made (Builder.embedElem ts b).2 own (.union terms) (Builder.embedElem ts b).1
  | term {b own type id} (htype : Made b own type id) : Made b own (.term false type) ⟨none, id⟩
  | tilde {b own type id} (htype : Made b own type id) :
      Made (Builder.tilde id b).2 own (.term true type) (Builder.tilde id b).1
  /-- An entry of a field or parameter list, at first without a tag. -/
  | field {b own type id} (names : List String) (variadic embedded : Bool)
      (htype : Made b own type id) :
      Made (Builder.fieldEntry names variadic id embedded b).2
        ((Builder.fieldEntry names variadic id embedded b).1 :: own)
        (.field names variadic type none) (Builder.fieldEntry names variadic id embedded b).1
  /-- The tag of a field, which may be attached at any time after the field was made. -/
  | tag {b own names variadic type old id} (raw : String)
      (hfield : Made b own (.field names variadic type old) id) :
      Made (Builder.tag id raw b).2 own (.field names variadic type (some raw)) id
  | signature {b own own' params results ids ids'} (hparams : Made b own params ids)
      (hresults : Made b own' results ids') :
      Made (Builder.signature ids ids' b).2 (own ++ own') (.signature params results)
        (Builder.signature ids ids' b).1
  | returning {b own own' params result ids id} (hparams : Made b own params ids)
      (hresult : Made b own' result id) :
      Made (Builder.signatureReturning ids id b).2 (own ++ own') (.returning params result)
        (Builder.signatureReturning ids id b).1
  | ident {b} (name : String) :
      Made (Builder.identExpr name b).2 [] (.ident name) (Builder.identExpr name b).1
  | literal {b} (kind : LiteralKind) (raw : String) :
      Made (Builder.literal kind raw b).2 [] (.literal kind raw) (Builder.literal kind raw b).1
  | selector {b own base id} (name : String) (hbase : Made b own base id) :
      Made (Builder.selector id name b).2 own (.selector base name) (Builder.selector id name b).1
  | call {b own own' callee args id ids} (hcallee : Made b own callee id)
      (hargs : Made b own' args ids) :
      Made (Builder.call id ids b).2 (own ++ own') (.call callee args false)
        (Builder.call id ids b).1
  | callSpread {b own own' callee args id ids} (hcallee : Made b own callee id)
      (hargs : Made b own' args ids) :
      Made (Builder.callSpread id ids b).2 (own ++ own') (.call callee args true)
        (Builder.callSpread id ids b).1
  | conversion {b own own' type arg id id'} (htype : Made b own type id)
      (harg : Made b own' arg id') :
      Made (Builder.conversion id id' b).2 (own ++ own') (.conversion type arg)
        (Builder.conversion id id' b).1
  | builtin {b own own' type args id ids} (name : String) (htype : Made b own type id)
      (hargs : Made b own' args ids) :
      Made (Builder.builtin name id ids b).2 (own ++ own') (.builtin name type args)
        (Builder.builtin name id ids b).1
  | unary {b own operand id} (op : UnaryOp) (hoperand : Made b own operand id) :
      Made (Builder.unary op id b).2 own (.unary op operand) (Builder.unary op id b).1
  | binary {b own own' left right id id'} (op : BinaryOp) (hleft : Made b own left id)
      (hright : Made b own' right id') :
      Made (Builder.binary id op id' b).2 (own ++ own') (.binary left op right)
        (Builder.binary id op id' b).1
  | paren {b own inner id} (hinner : Made b own inner id) :
      Made (Builder.paren id b).2 own (.paren inner) (Builder.paren id b).1
  | index {b own own' base args id xs} (hbase : Made b own base id) (hargs : Made b own' args xs) :
      Made (Builder.index id xs b).2 (own ++ own') (.index base args) (Builder.index id xs b).1
  | sliceExpr {b own₀ own₁ own₂ own₃ base low high max id i j k} (hbase : Made b own₀ base id)
      (hlow : Made b own₁ low i) (hhigh : Made b own₂ high j) (hmax : Made b own₃ max k) :
      Made (Builder.sliceExpr id i j k b).2 (own₀ ++ (own₁ ++ (own₂ ++ own₃)))
        (.sliceExpr base low high max) (Builder.sliceExpr id i j k b).1
  | typeAssert {b own own' base type id id'} (hbase : Made b own base id)
      (htype : Made b own' type id') :
      Made (Builder.typeAssert id id' b).2 (own ++ own') (.typeAssert base type)
        (Builder.typeAssert id id' b).1
  | composite {b own own' type elems id es} (htype : Made b own type id)
      (helems : Made b own' elems es) :
      Made (Builder.composite id es b).2 (own ++ own') (.composite type elems)
        (Builder.composite id es b).1
  /-- A function literal. The extent of a body is that of its braces, so it must have them. -/
  | funcLit {b own sig id} {body : String} (hbody : body ≠ "") (hsig : Made b own sig id) :
      Made (Builder.funcLit id body b).2 own (.funcLit sig body) (Builder.funcLit id body b).1
  | badExpr {b} : Made (Builder.badExpr b).2 [] .badExpr (Builder.badExpr b).1
  | exprOperand {b own e id} (he : Made b own e id) : Made b own (.exprOperand e) (.expr id)
  | typeOperand {b own t id} (ht : Made b own t id) : Made b own (.typeOperand t) (.type id)
  | braces {b own elems es} (helems : Made b own elems es) :
      Made (Builder.literalValue es b).2 own (.braces elems) (Builder.literalValue es b).1
  | exprKey {b own e id} (he : Made b own e id) : Made b own (.exprKey e) (.expr id)
  | literalKey {b own v node} (hv : Made b own v node) : Made b own (.literalKey v) (.literal node)
  | exprElement {b own e id} (he : Made b own e id) : Made b own (.exprElement e) (.expr id)
  | literalElement {b own v node} (hv : Made b own v node) :
      Made b own (.literalElement v) (.literal node)
  | fieldValue {b own value id} (name : String) (hvalue : Made b own value id) :
      Made (Builder.keyed name id b).2 own (.fieldValue name value) (Builder.keyed name id b).1
  | keyValue {b own own' key value k e} (hkey : Made b own key k) (hvalue : Made b own' value e) :
      Made b (own ++ own') (.keyValue key value) ⟨k, e⟩

/-! ## Later stores -/

namespace Store

variable {s : NodeSort} {l : ListSort} {own own' : List FieldId} {a b st : Store}

/-- The store `st` comes from `a` without a new tag at the fields in `own`, and its lists can be
addressed. -/
structure Outlives (own : List FieldId) (a st : Store) : Prop where
  grows : Grows False (· ∉ own) a st
  lists : ∀ l, st.Addressable l

namespace Outlives

lemma before (h : Outlives own b st) (g : Grows False (· ∉ own) a b) : Outlives own a st :=
  ⟨g.trans h.grows, h.lists⟩

lemma of_subset (h : Outlives own a st) (hsub : own' ⊆ own) : Outlives own' a st :=
  ⟨h.grows.weaken (fun h => h) fun _ hf hmem => hf (hsub hmem), h.lists⟩

lemma left (h : Outlives (own ++ own') a st) : Outlives own a st :=
  h.of_subset (List.subset_append_left own own')

lemma right (h : Outlives (own ++ own') a st) : Outlives own' a st :=
  h.of_subset (List.subset_append_right own own')

lemma list_eq (h : Outlives own a st) {r : ListRef l} {items : List l.Item}
    (hold : a.Holds r items) : st.list r = items :=
  (h.grows.holds hold).list_eq (h.lists l)

lemma name_eq (h : Outlives own a st) {i : Ident} {name : String} (hi : a.Spells i name) :
    st.name i.symbol = name :=
  (h.grows.spells hi).name_eq

lemma text_eq (h : Outlives own a st) {sp : Span} {t : String} (hcut : sp.Cuts a.source t) :
    st.text sp = t :=
  (h.grows.cuts hcut).text_eq

end Outlives

lemma Gains.type_depth_lt {c : Prop} {T : FieldId → Prop} {id : TypeId} {n : TypeNode}
    (h : a.Gains b id n) (g : Grows c T a b) : a.depth < b.depth :=
  g.depth_lt (.inl ⟨id, in_of_node? h.node, h.fresh⟩)

lemma Gains.expr_depth_lt {c : Prop} {T : FieldId → Prop} {id : ExprId} {n : ExprNode}
    (h : a.Gains b id n) (g : Grows c T a b) : a.depth < b.depth :=
  g.depth_lt (.inr (.inl ⟨id, in_of_node? h.node, h.fresh⟩))

/-- The two parts of the name of a type, with the dot between them, are its name. -/
lemma Qualifies.text_eq {pkg : Option Ident} {i : Ident} {name : String}
    (h : st.Qualifies pkg i name) :
    (pkg.elim "" fun p => st.name p.symbol ++ ".") ++ st.name i.symbol = name := by
  unfold Qualifies at h
  split at h
  · next hcut =>
    obtain ⟨p, rfl, hp, hi⟩ := h
    rw [eq_of_cutText hcut, Option.elim_some, hp.name_eq, hi.name_eq]
  · obtain ⟨rfl, hi⟩ := h
    rw [Option.elim_none, hi.name_eq, String.empty_append]

/-- What is read from an entry of a list beside its tag, with at most `n` nested nodes. -/
def ReadsEntry (st : Store) (n : Nat) (names : List String) (variadic : Bool) (type : String)
    (id : FieldId) : Prop :=
  ∃ f, st.node? id = some f ∧ f.names.isEmpty = names.isEmpty ∧
    st.names f.names = names ∧ f.ellipsis.isSome = variadic ∧ st.render n .type f.type = some type

/-- Whatever becomes of the tag and the documentation of an entry, the rest of it lasts. -/
lemma Outlives.readsEntry (h : Outlives own a st) {id : FieldId} {r : ListRef .idents}
    {ellipsis : Option Span} {type : TypeId} {embedded : Bool} {names : List String} {n : Nat}
    {t : String} (hnode : a.node? id = some ⟨r, ellipsis, type, none, embedded, none, none⟩)
    (hnames : a.SpellsAll r names) (htype : st.render n .type type = some t) :
    st.ReadsEntry n names ellipsis.isSome t id := by
  obtain ⟨f, hf, hrev⟩ := h.grows.node? hnode
  have hempty : r.isEmpty = names.isEmpty := by
    rw [ListRef.isEmpty, hnames.length_eq]
    cases names <;> rfl
  have hnames := (h.grows.spellsAll hnames).names_eq (h.lists .idents)
  refine ⟨f, hf, ?_⟩
  cases hrev with
  | same => exact ⟨hempty, hnames, rfl, htype⟩
  | field => exact ⟨hempty, hnames, rfl, htype⟩

end Store

/-! ## What lasts -/

/-- What an entry of a list keeps besides its text: everything but the tag lasts also when the entry
itself gets another one. -/
def EntryKept (b : Builder) (own : List FieldId) : {s : FormSort} → Form s → s.Value → Prop
  | _, .field names variadic type _, id => ∃ rest, own = id :: rest ∧ id ∉ rest ∧
      ∀ st n, Store.Outlives rest b.toStore st → b.depth ≤ n →
        st.ReadsEntry n names variadic type.text id
  | _, _, _ => True

/-- What lasts of a value that stands for a form. -/
structure Kept (b : Builder) (own : List FieldId) {s : FormSort} (x : Form s) (v : s.Value) :
    Prop where
  inside : ∀ f ∈ own, f.ref.In b.toStore
  renders : ∀ {st n}, Store.Outlives own b.toStore st → b.depth ≤ n → st.render n s v = some x.text
  entry : EntryKept b own x v

namespace Kept

variable {b b' : Builder} {own own' : List FieldId}

lemma inside_append {s s' : FormSort} {x : Form s} {y : Form s'} {v v'} (hx : Kept b own x v)
    (hy : Kept b own' y v') : ∀ f ∈ own ++ own', f.ref.In b.toStore := by
  intro f hf
  rcases List.mem_append.1 hf with hf | hf
  · exact hx.inside f hf
  · exact hy.inside f hf

/-- Other steps do not count. -/
lemma later {s : FormSort} {x : Form s} {v} (h : Kept b own x v)
    (g : Grows False (· ∉ own) b.toStore b'.toStore) : Kept b' own x v := by
  refine ⟨fun f hf => g.reference (h.inside f hf), fun hst hn => ?_, ?_⟩
  · exact h.renders (hst.before g) (Nat.le_trans g.depth_le hn)
  · have hentry := h.entry
    unfold EntryKept at hentry ⊢
    split at hentry
    · obtain ⟨rest, rfl, hid, hreads⟩ := hentry
      refine ⟨rest, rfl, hid, fun st n hst hn => ?_⟩
      refine hreads st n (hst.before (g.weaken (fun h => h) fun f hf hmem => ?_)) ?_
      · exact hf (List.mem_cons_of_mem _ hmem)
      · exact Nat.le_trans g.depth_le hn
    · trivial

/-- A new node may be nested one deeper than its parts. -/
lemma deeper {s : FormSort} {x : Form s} {v} (hin : ∀ f ∈ own, f.ref.In b.toStore)
    (g : Grows False (· ∉ own) b.toStore b'.toStore) (hlt : b.depth < b'.depth)
    (h : ∀ {st n}, Store.Outlives own b'.toStore st → b.depth ≤ n →
      st.render (n + 1) s v = some x.text) (hentry : EntryKept b' own x v) : Kept b' own x v := by
  refine ⟨fun f hf => g.reference (hin f hf), fun {st n} hst hn => ?_, hentry⟩
  obtain ⟨m, rfl⟩ : ∃ m, n = m + 1 := ⟨n - 1, by omega⟩
  exact h hst (by omega)

/-! ## Lists and options -/

lemma nil {s : FormSort} : Kept b [] (.nil : Form (.list s)) [] :=
  ⟨by simp, fun _ _ => rfl, trivial⟩

lemma cons {s : FormSort} {x : Form s} {xs : Form (.list s)} {v vs} (hx : Kept b own x v)
    (hxs : Kept b own' xs vs) : Kept b (own ++ own') (.cons x xs) (v :: vs) := by
  refine ⟨hx.inside_append hxs, fun hst hn => ?_, trivial⟩
  have hhead := hx.renders hst.left hn
  have htail := hxs.renders hst.right hn
  simp only [Store.render] at htail ⊢
  simp [List.mapM_cons, hhead, htail, Form.text]

lemma absent {s : FormSort} : Kept b [] (.absent : Form (.opt s)) none :=
  ⟨by simp, fun _ _ => rfl, trivial⟩

lemma present {s : FormSort} {x : Form s} {v} (hx : Kept b own x v) :
    Kept b own (.present x) (some v) := by
  refine ⟨hx.inside, fun hst hn => ?_, trivial⟩
  have hsome := hx.renders hst hn
  simp [Store.render, hsome, Form.text]

/-! ## Types -/

section Types

variable {elem key val inner : Form .type} {id id' : TypeId}

lemma named {args ids} (name : String) (h : Kept b own args ids) :
    Kept (Builder.instantiated name ids b).2 own (.named name args)
      (Builder.instantiated name ids b).1 := by
  have hm : Adds False (· ∉ own) [] b (Builder.instantiated name ids) _ :=
    Builder.instantiated_adds name ids False.elim
  obtain ⟨pkg, i, r, hnew, hname, hold⟩ := hm.result
  refine deeper h.inside hm.grows (hnew.type_depth_lt hm.grows) (fun {st n} hst hn => ?_) trivial
  have hargs := h.renders (hst.before hm.grows) hn
  rw [← hst.list_eq hold] at hargs
  rw [Store.render_named (hst.grows.node?_fixed hnew.node rfl) hargs, Form.text,
    (hst.grows.qualifies hname).text_eq]

lemma pointer (h : Kept b own elem id) :
    Kept (Builder.pointer id b).2 own (.pointer elem) (Builder.pointer id b).1 := by
  have hm : Adds False (· ∉ own) [] b (Builder.pointer id) _ := Builder.pointer_adds id False.elim
  refine deeper h.inside hm.grows (hm.result.type_depth_lt hm.grows) (fun hst hn => ?_) trivial
  exact Store.render_pointer (hst.grows.node?_fixed hm.result.node rfl)
    (h.renders (hst.before hm.grows) hn)

lemma slice (h : Kept b own elem id) :
    Kept (Builder.slice id b).2 own (.slice elem) (Builder.slice id b).1 := by
  have hm : Adds False (· ∉ own) [] b (Builder.slice id) _ := Builder.slice_adds id False.elim
  refine deeper h.inside hm.grows (hm.result.type_depth_lt hm.grows) (fun hst hn => ?_) trivial
  exact Store.render_slice (hst.grows.node?_fixed hm.result.node rfl)
    (h.renders (hst.before hm.grows) hn)

lemma map (hkey : Kept b own key id) (hval : Kept b own' val id') :
    Kept (Builder.map id id' b).2 (own ++ own') (.map key val) (Builder.map id id' b).1 := by
  have hm : Adds False (· ∉ own ++ own') [] b (Builder.map id id') _ :=
    Builder.map_adds id id' False.elim False.elim
  refine deeper (hkey.inside_append hval) hm.grows (hm.result.type_depth_lt hm.grows)
    (fun hst hn => ?_) trivial
  have hold := hst.before hm.grows
  exact Store.render_map (hst.grows.node?_fixed hm.result.node rfl) (hkey.renders hold.left hn)
    (hval.renders hold.right hn)

lemma chan (dir : ChanDir) (h : Kept b own elem id) :
    Kept (Builder.chan dir id b).2 own (.chan dir elem) (Builder.chan dir id b).1 := by
  have hm : Adds False (· ∉ own) [] b (Builder.chan dir id) _ := Builder.chan_adds dir id False.elim
  refine deeper h.inside hm.grows (hm.result.type_depth_lt hm.grows) (fun hst hn => ?_) trivial
  exact Store.render_chan (hst.grows.node?_fixed hm.result.node rfl)
    (h.renders (hst.before hm.grows) hn)

lemma func {sig id} (h : Kept b own sig id) :
    Kept (Builder.funcType id b).2 own (.func sig) (Builder.funcType id b).1 := by
  have hm : Adds False (· ∉ own) [] b (Builder.funcType id) _ :=
    Builder.funcType_adds id False.elim
  refine deeper h.inside hm.grows (hm.result.type_depth_lt hm.grows) (fun hst hn => ?_) trivial
  exact Store.render_func (hst.grows.node?_fixed hm.result.node rfl)
    (h.renders (hst.before hm.grows) hn)

lemma parenType (h : Kept b own inner id) :
    Kept (Builder.parenType id b).2 own (.parenType inner) (Builder.parenType id b).1 := by
  have hm : Adds False (· ∉ own) [] b (Builder.parenType id) _ :=
    Builder.parenType_adds id False.elim
  refine deeper h.inside hm.grows (hm.result.type_depth_lt hm.grows) (fun hst hn => ?_) trivial
  exact Store.render_parenType (hst.grows.node?_fixed hm.result.node rfl)
    (h.renders (hst.before hm.grows) hn)

lemma struct {fields ids} (h : Kept b own fields ids) :
    Kept (Builder.struct ids b).2 own (.struct fields) (Builder.struct ids b).1 := by
  have hm : Adds False (· ∉ own) [] b (Builder.struct ids) _ := Builder.struct_adds ids False.elim
  obtain ⟨r, hnew, hold⟩ := hm.result
  refine deeper h.inside hm.grows (hnew.type_depth_lt hm.grows) (fun hst hn => ?_) trivial
  refine Store.render_struct (hst.grows.node?_fixed hnew.node rfl) ?_
  rw [hst.list_eq hold]
  exact h.renders (hst.before hm.grows) hn

lemma interface {elems es} (h : Kept b own elems es) :
    Kept (Builder.interface es b).2 own (.interface elems) (Builder.interface es b).1 := by
  have hm : Adds False (· ∉ own) [] b (Builder.interface es) _ :=
    Builder.interface_adds es False.elim
  obtain ⟨r, hnew, hold⟩ := hm.result
  refine deeper h.inside hm.grows (hnew.type_depth_lt hm.grows) (fun hst hn => ?_) trivial
  refine Store.render_interface (hst.grows.node?_fixed hnew.node rfl) ?_
  rw [hst.list_eq hold]
  exact h.renders (hst.before hm.grows) hn

lemma badType : Kept (Builder.badType b).2 [] .badType (Builder.badType b).1 := by
  have hm : Adds False (· ∉ []) [] b Builder.badType _ := Builder.badType_adds
  refine deeper (by simp) hm.grows (hm.result.type_depth_lt hm.grows) (fun hst _ => ?_) trivial
  exact Store.render_badType (hst.grows.node?_fixed hm.result.node rfl)

lemma array (length : String) (h : Kept b own elem id) :
    Kept (Builder.array length id b).2 own (.array length elem) (Builder.array length id b).1 := by
  have hm : Adds False (· ∉ own) [] b (Builder.array length id) _ :=
    Builder.array_adds length id False.elim
  have hnew := hm.result
  split at hnew
  · next hdots =>
    subst hdots
    refine deeper h.inside hm.grows (hnew.type_depth_lt hm.grows) (fun hst hn => ?_) trivial
    exact Store.render_inferred (hst.grows.node?_fixed hnew.node rfl)
      (h.renders (hst.before hm.grows) hn)
  · obtain ⟨e, sp, hnew, hlength, hcut⟩ := hnew
    refine deeper h.inside hm.grows (hnew.type_depth_lt hm.grows) (fun {st n} hst hn => ?_) trivial
    have helem := h.renders (hst.before hm.grows) hn
    -- the bound counts at least one node, and a literal has none inside
    obtain ⟨m, rfl⟩ : ∃ m, n = m + 1 := ⟨n - 1, by simp only [Store.depth] at hn; omega⟩
    have hlength := Store.render_literal (n := m) (hst.grows.node?_fixed hlength rfl)
    rw [hst.text_eq hcut] at hlength
    exact Store.render_array (hst.grows.node?_fixed hnew.node rfl) hlength helem

end Types

/-! ## Parts of types -/

section Parts

variable {type : Form .type} {id : TypeId} {names : List String} {variadic : Bool}

lemma method {sig id} (doc : List String) (name : String) (h : Kept b own sig id) :
    Kept (Builder.methodElem doc name id b).2 own (.method name sig)
      (Builder.methodElem doc name id b).1 := by
  have hm : Adds False (· ∉ own) _ b (Builder.methodElem doc name id) _ :=
    Builder.methodElem_adds doc name id
  obtain ⟨d, i, he, -, hi⟩ := hm.result
  have hsig := h.later hm.grows
  refine ⟨hsig.inside, fun hst hn => ?_, trivial⟩
  rw [he, Store.render_method (hsig.renders hst hn), hst.name_eq hi, Form.text]

lemma union {terms ts} (h : Kept b own terms ts) :
    Kept (Builder.embedElem ts b).2 own (.union terms) (Builder.embedElem ts b).1 := by
  have hm : Adds False (· ∉ own) [] b (Builder.embedElem ts) _ :=
    Builder.embedElem_adds ts False.elim
  obtain ⟨r, he, hold⟩ := hm.result
  have hterms := h.later hm.grows
  refine ⟨hterms.inside, fun hst hn => ?_, trivial⟩
  rw [he]
  refine Store.render_union ?_
  rw [hst.list_eq hold]
  exact hterms.renders hst hn

lemma term (h : Kept b own type id) : Kept b own (.term false type) ⟨none, id⟩ :=
  ⟨h.inside, fun hst hn => Store.render_term (h.renders hst hn), trivial⟩

lemma tilde (h : Kept b own type id) :
    Kept (Builder.tilde id b).2 own (.term true type) (Builder.tilde id b).1 := by
  have hm : Adds False (· ∉ own) [] b (Builder.tilde id) _ := Builder.tilde_adds id
  obtain ⟨sp, ht⟩ := hm.result
  have htype := h.later hm.grows
  refine ⟨htype.inside, fun hst hn => ?_, trivial⟩
  rw [ht]
  exact Store.render_term (htype.renders hst hn)

/-- An entry that is read as it was built is rendered so. -/
lemma render_of_entry {st : Store} {n : Nat} {id : FieldId} {tag : Option String}
    (hreads : st.ReadsEntry n names variadic type.text id)
    (htag : ∀ f, st.node? id = some f → f.tag.map st.text = tag) :
    st.render n .field id = some (Form.field names variadic type tag).text := by
  obtain ⟨f, hf, hempty, hnames, hdots, htype⟩ := hreads
  rw [Store.render_field hf htype, hempty, hnames, hdots, htag f hf, Form.text]

lemma field (names : List String) (variadic embedded : Bool) (h : Kept b own type id) :
    Kept (Builder.fieldEntry names variadic id embedded b).2
      ((Builder.fieldEntry names variadic id embedded b).1 :: own) (.field names variadic type none)
      (Builder.fieldEntry names variadic id embedded b).1 := by
  have hm : Adds False (· ∉ own) [] b (Builder.fieldEntry names variadic id embedded) _ :=
    Builder.fieldEntry_adds names variadic id embedded False.elim
  obtain ⟨r, ellipsis, hnew, hnames, hdots⟩ := hm.result
  have htype := h.later hm.grows
  generalize Builder.fieldEntry names variadic id embedded b = made at hnew hnames htype ⊢
  obtain ⟨new, b'⟩ := made
  have hreads : ∀ st n, Store.Outlives own b'.toStore st → b'.depth ≤ n →
      st.ReadsEntry n names variadic type.text new := by
    intro st n hst hn
    rw [← hdots]
    exact hst.readsEntry hnew.node hnames (htype.renders hst hn)
  have hfresh : new ∉ own := fun hmem => hnew.fresh (h.inside new hmem)
  refine ⟨?_, fun {st n} hst hn => ?_, own, rfl, hfresh, hreads⟩
  · intro f hf
    rcases List.mem_cons.1 hf with rfl | hf
    · exact Store.in_of_node? hnew.node
    · exact htype.inside f hf
  · refine render_of_entry (hreads st n (hst.of_subset (List.subset_cons_self new own)) hn) ?_
    intro f hf
    obtain ⟨tag, doc, comment, hf', htag⟩ := hst.grows.field? hnew.node
    obtain rfl := Option.some.inj (hf.symm.trans hf')
    rw [htag (by simp), Option.map_none]

lemma tag {old : Option String} {id : FieldId} (raw : String)
    (h : Kept b own (.field names variadic type old) id) :
    Kept (Builder.tag id raw b).2 own (.field names variadic type (some raw)) id := by
  obtain ⟨rest, rfl, hid, hreads⟩ := h.entry
  have hm : Adds False (· ∉ rest) [] b (Builder.tag id raw) _ := Builder.tag_adds id raw hid
  obtain ⟨sp, hcut, htag⟩ := hm.result
  have hin : ∀ f ∈ id :: rest, f.ref.In (Builder.tag id raw b).2.toStore :=
    fun f hf => hm.grows.reference (h.inside f hf)
  have hreads' : ∀ st n, Store.Outlives rest (Builder.tag id raw b).2.toStore st →
      (Builder.tag id raw b).2.depth ≤ n → st.ReadsEntry n names variadic type.text id :=
    fun st n hst hn => hreads st n (hst.before hm.grows) (Nat.le_trans hm.grows.depth_le hn)
  refine ⟨hin, fun {st n} hst hn => ?_, rest, rfl, hid, hreads'⟩
  refine render_of_entry (hreads' st n (hst.of_subset (List.subset_cons_self id rest)) hn) ?_
  intro f hf
  obtain ⟨f', hf'⟩ := (Arena.lt_size_iff _ _).1 (hin id List.mem_cons_self)
  obtain ⟨tag, doc, comment, hf'', hsame⟩ := hst.grows.field? hf'
  obtain rfl := Option.some.inj (hf.symm.trans hf'')
  rw [hsame (by simp), htag f' hf', Option.map_some, hst.text_eq hcut]

lemma signature {params results ids ids'} (hparams : Kept b own params ids)
    (hresults : Kept b own' results ids') :
    Kept (Builder.signature ids ids' b).2 (own ++ own') (.signature params results)
      (Builder.signature ids ids' b).1 := by
  have hm : Adds False (· ∉ own ++ own') [] b (Builder.signature ids ids') _ :=
    Builder.signature_adds ids ids' False.elim False.elim
  obtain ⟨r, hold, hnew⟩ := hm.result
  refine ⟨fun f hf => hm.grows.reference (hparams.inside_append hresults f hf),
    fun {st n} hst hn => ?_, trivial⟩
  have hbefore := hst.before hm.grows
  have hn := Nat.le_trans hm.grows.depth_le hn
  have hparams := hparams.renders hbefore.left hn
  have hresults := hresults.renders hbefore.right hn
  rw [← hst.list_eq hold] at hparams
  split at hnew
  · next hnone =>
    subst hnone
    obtain htexts : [] = results.text := Option.some.inj hresults
    rw [Store.render_signature (hst.grows.node?_fixed hnew.node rfl) hparams rfl, Form.text,
      ← htexts]
    rfl
  · obtain ⟨r', hnew, hold'⟩ := hnew
    rw [← hst.list_eq hold'] at hresults
    obtain ⟨y, hy, htext⟩ := Store.readResults_list hresults
    rw [Store.render_signature (hst.grows.node?_fixed hnew.node rfl) hparams hy, Form.text, htext]

lemma returning {params result ids id} (hparams : Kept b own params ids)
    (hresult : Kept b own' result id) :
    Kept (Builder.signatureReturning ids id b).2 (own ++ own') (.returning params result)
      (Builder.signatureReturning ids id b).1 := by
  have hm : Adds False (· ∉ own ++ own') [] b (Builder.signatureReturning ids id) _ :=
    Builder.signatureReturning_adds ids id False.elim False.elim
  obtain ⟨r, hold, hnew⟩ := hm.result
  refine ⟨fun f hf => hm.grows.reference (hparams.inside_append hresult f hf),
    fun {st n} hst hn => ?_, trivial⟩
  have hbefore := hst.before hm.grows
  have hn := Nat.le_trans hm.grows.depth_le hn
  have hparams := hparams.renders hbefore.left hn
  rw [← hst.list_eq hold] at hparams
  obtain ⟨y, hy, htext⟩ := Store.readResults_type (hresult.renders hbefore.right hn)
  rw [Store.render_signature (hst.grows.node?_fixed hnew.node rfl) hparams hy, Form.text, htext,
    String.append_assoc]

end Parts

/-! ## Parts of expressions -/

section ExprParts

variable {e : Form .expr} {v : Form .literal} {id : ExprId} {node : LiteralNode}

lemma exprOperand (h : Kept b own e id) : Kept b own (.exprOperand e) (.expr id) :=
  ⟨h.inside, fun hst hn => Store.render_exprOperand (h.renders hst hn), trivial⟩

lemma typeOperand {t : Form .type} {id : TypeId} (h : Kept b own t id) :
    Kept b own (.typeOperand t) (.type id) :=
  ⟨h.inside, fun hst hn => Store.render_typeOperand (h.renders hst hn), trivial⟩

lemma exprKey (h : Kept b own e id) : Kept b own (.exprKey e) (.expr id) :=
  ⟨h.inside, fun hst hn => Store.render_exprKey (h.renders hst hn), trivial⟩

lemma literalKey (h : Kept b own v node) : Kept b own (.literalKey v) (.literal node) :=
  ⟨h.inside, fun hst hn => Store.render_literalKey (h.renders hst hn), trivial⟩

lemma exprElement (h : Kept b own e id) : Kept b own (.exprElement e) (.expr id) :=
  ⟨h.inside, fun hst hn => Store.render_exprElement (h.renders hst hn), trivial⟩

lemma literalElement (h : Kept b own v node) : Kept b own (.literalElement v) (.literal node) :=
  ⟨h.inside, fun hst hn => Store.render_literalElement (h.renders hst hn), trivial⟩

lemma fieldValue (name : String) (h : Kept b own e id) :
    Kept (Builder.keyed name id b).2 own (.fieldValue name e) (Builder.keyed name id b).1 := by
  have hm : Adds False (· ∉ own) [] b (Builder.keyed name id) _ := Builder.keyed_adds name id
  obtain ⟨i, hkeyed, hi⟩ := hm.result
  have hvalue := h.later hm.grows
  refine ⟨hvalue.inside, fun hst hn => ?_, trivial⟩
  rw [hkeyed, Store.render_fieldValue (hvalue.renders hst hn), hst.name_eq hi, Form.text]

lemma keyValue {key value k e} (hkey : Kept b own key k) (hvalue : Kept b own' value e) :
    Kept b (own ++ own') (.keyValue key value) ⟨k, e⟩ :=
  ⟨hkey.inside_append hvalue, fun hst hn =>
    Store.render_keyValue (hkey.renders hst.left hn) (hvalue.renders hst.right hn), trivial⟩

/-- Elements in braces. They take up room in their list, so they may be nested one deeper than what
is in them, unless there are none. -/
lemma braces {elems es} (h : Kept b own elems es) :
    Kept (Builder.literalValue es b).2 own (.braces elems) (Builder.literalValue es b).1 := by
  have hm : Adds False (· ∉ own) [] b (Builder.literalValue es) _ :=
    Builder.literalValue_adds es False.elim
  obtain ⟨hold, -, -⟩ := hm.result
  refine ⟨fun f hf => hm.grows.reference (h.inside f hf), fun {st n} hst hn => ?_, trivial⟩
  obtain ⟨m, rfl⟩ : ∃ m, n = m + 1 := ⟨n - 1, by simp only [Store.depth] at hn; omega⟩
  refine Store.render_braces ?_
  rw [hst.list_eq hold]
  by_cases hne : es = []
  · subst hne
    have htexts : [] = elems.text :=
      Option.some.inj (h.renders (hst.before hm.grows) (Nat.le_refl _))
    rw [← htexts]
    rfl
  · have hlt := hm.grows.depth_lt
      (.inr (.inr ⟨_, hold.sound, Builder.literalValue_fresh hne⟩))
    exact h.renders (hst.before hm.grows) (by omega)

end ExprParts

/-! ## Expressions -/

lemma entryKept_expr (x : Form .expr) (id : ExprId) : EntryKept b own x id := by
  cases x <;> trivial

section Expressions

variable {base arg : Form .expr} {id id' : ExprId} {own₁ own₂ own₃ : List FieldId}

lemma ident (name : String) :
    Kept (Builder.identExpr name b).2 [] (.ident name) (Builder.identExpr name b).1 := by
  have hm : Adds False (· ∉ []) [] b (Builder.identExpr name) _ := Builder.identExpr_adds name
  obtain ⟨i, hnew, hi⟩ := hm.result
  refine deeper (by simp) hm.grows (hnew.expr_depth_lt hm.grows) (fun hst _ => ?_) trivial
  rw [Store.render_ident (hst.grows.node?_fixed hnew.node rfl), hst.name_eq hi, Form.text]

lemma literal (kind : LiteralKind) (raw : String) :
    Kept (Builder.literal kind raw b).2 [] (.literal kind raw) (Builder.literal kind raw b).1 := by
  have hm : Adds False (· ∉ []) [] b (Builder.literal kind raw) _ := Builder.literal_adds kind raw
  obtain ⟨sp, hnew, hcut⟩ := hm.result
  refine deeper (by simp) hm.grows (hnew.expr_depth_lt hm.grows) (fun hst _ => ?_) trivial
  rw [Store.render_literal (hst.grows.node?_fixed hnew.node rfl), hst.text_eq hcut, Form.text]

lemma selector (name : String) (h : Kept b own base id) :
    Kept (Builder.selector id name b).2 own (.selector base name)
      (Builder.selector id name b).1 := by
  have hm : Adds False (· ∉ own) [] b (Builder.selector id name) _ :=
    Builder.selector_adds id name False.elim
  obtain ⟨i, hnew, hi⟩ := hm.result
  refine deeper h.inside hm.grows (hnew.expr_depth_lt hm.grows) (fun hst hn => ?_) trivial
  rw [Store.render_selector (hst.grows.node?_fixed hnew.node rfl)
    (h.renders (hst.before hm.grows) hn), hst.name_eq hi, Form.text]

/-- Calls, conversions and uses of builtin functions. -/
lemma applied {callee : Form .operand} {type : Form (.opt .type)} {args : Form (.list .expr)}
    {x t ids} (spread : Bool) (hcallee : Kept b own callee x) (htype : Kept b own₁ type t)
    (hargs : Kept b own₂ args ids) {e : Form .expr}
    (htext : e.text = callee.text ++ "(" ++ ", ".intercalate (type.text.toList ++ args.text) ++
      (if spread then "..." else "") ++ ")") :
    Kept (Builder.applied x t ids spread b).2 (own ++ (own₁ ++ own₂)) e
      (Builder.applied x t ids spread b).1 := by
  have hm : Adds False (· ∉ own ++ (own₁ ++ own₂)) [] b (Builder.applied x t ids spread) _ :=
    Builder.applied_adds x t ids spread False.elim False.elim False.elim
  obtain ⟨r, hnew, hold⟩ := hm.result
  have hin : ∀ f ∈ own ++ (own₁ ++ own₂), f.ref.In b.toStore := by
    intro f hf
    rcases List.mem_append.1 hf with hf | hf
    · exact hcallee.inside f hf
    · exact htype.inside_append hargs f hf
  refine deeper hin hm.grows (hnew.expr_depth_lt hm.grows) (fun {st n} hst hn => ?_)
    (entryKept_expr e _)
  have hbefore := hst.before hm.grows
  have hargs := hargs.renders hbefore.right.right hn
  rw [← hst.list_eq hold] at hargs
  rw [Store.render_call (hst.grows.node?_fixed hnew.node rfl) (hcallee.renders hbefore.left hn)
    (htype.renders hbefore.right.left hn) hargs, htext]

lemma call {args ids} (hcallee : Kept b own base id) (hargs : Kept b own' args ids) :
    Kept (Builder.call id ids b).2 (own ++ own') (.call base args false)
      (Builder.call id ids b).1 :=
  hcallee.exprOperand.applied false absent hargs rfl

lemma callSpread {args ids} (hcallee : Kept b own base id) (hargs : Kept b own' args ids) :
    Kept (Builder.callSpread id ids b).2 (own ++ own') (.call base args true)
      (Builder.callSpread id ids b).1 :=
  hcallee.exprOperand.applied true absent hargs rfl

lemma conversion {type id} (htype : Kept b own type id) (harg : Kept b own' arg id') :
    Kept (Builder.conversion id id' b).2 (own ++ own') (.conversion type arg)
      (Builder.conversion id id' b).1 := by
  have h := htype.typeOperand.applied false absent (harg.cons nil)
    (e := .conversion type arg) (by simp [Form.text])
  simp only [List.nil_append, List.append_nil] at h
  exact h

lemma builtin {type args id ids} (name : String) (htype : Kept b own type id)
    (hargs : Kept b own' args ids) :
    Kept (Builder.builtin name id ids b).2 (own ++ own') (.builtin name type args)
      (Builder.builtin name id ids b).1 := by
  have g {T} : Grows False T b.toStore (Builder.identExpr name b).2.toStore :=
    (Builder.identExpr_adds name).grows
  refine (ident name).exprOperand.applied false (htype.later g).present (hargs.later g) ?_
  simp [Form.text]

lemma unary (op : UnaryOp) (h : Kept b own base id) :
    Kept (Builder.unary op id b).2 own (.unary op base) (Builder.unary op id b).1 := by
  have hm : Adds False (· ∉ own) [] b (Builder.unary op id) _ := Builder.unary_adds op id False.elim
  refine deeper h.inside hm.grows (hm.result.expr_depth_lt hm.grows) (fun hst hn => ?_) trivial
  exact Store.render_unary (hst.grows.node?_fixed hm.result.node rfl)
    (h.renders (hst.before hm.grows) hn)

lemma binary (op : BinaryOp) (hbase : Kept b own base id) (harg : Kept b own' arg id') :
    Kept (Builder.binary id op id' b).2 (own ++ own') (.binary base op arg)
      (Builder.binary id op id' b).1 := by
  have hm : Adds False (· ∉ own ++ own') [] b (Builder.binary id op id') _ :=
    Builder.binary_adds id op id' False.elim False.elim
  refine deeper (hbase.inside_append harg) hm.grows (hm.result.expr_depth_lt hm.grows)
    (fun hst hn => ?_) trivial
  have hbefore := hst.before hm.grows
  exact Store.render_binary (hst.grows.node?_fixed hm.result.node rfl) (hbase.renders hbefore.left hn)
    (harg.renders hbefore.right hn)

lemma paren (h : Kept b own base id) :
    Kept (Builder.paren id b).2 own (.paren base) (Builder.paren id b).1 := by
  have hm : Adds False (· ∉ own) [] b (Builder.paren id) _ := Builder.paren_adds id False.elim
  refine deeper h.inside hm.grows (hm.result.expr_depth_lt hm.grows) (fun hst hn => ?_) trivial
  exact Store.render_paren (hst.grows.node?_fixed hm.result.node rfl)
    (h.renders (hst.before hm.grows) hn)

lemma index {args xs} (hbase : Kept b own base id) (hargs : Kept b own' args xs) :
    Kept (Builder.index id xs b).2 (own ++ own') (.index base args) (Builder.index id xs b).1 := by
  have hm : Adds False (· ∉ own ++ own') [] b (Builder.index id xs) _ :=
    Builder.index_adds id xs False.elim False.elim
  obtain ⟨r, hnew, hold⟩ := hm.result
  refine deeper (hbase.inside_append hargs) hm.grows (hnew.expr_depth_lt hm.grows)
    (fun hst hn => ?_) trivial
  have hbefore := hst.before hm.grows
  refine Store.render_index (hst.grows.node?_fixed hnew.node rfl) (hbase.renders hbefore.left hn) ?_
  rw [hst.list_eq hold]
  exact hargs.renders hbefore.right hn

lemma sliceExpr {low high max i j k} (hbase : Kept b own base id) (hlow : Kept b own₁ low i)
    (hhigh : Kept b own₂ high j) (hmax : Kept b own₃ max k) :
    Kept (Builder.sliceExpr id i j k b).2 (own ++ (own₁ ++ (own₂ ++ own₃)))
      (.sliceExpr base low high max) (Builder.sliceExpr id i j k b).1 := by
  have hm : Adds False (· ∉ own ++ (own₁ ++ (own₂ ++ own₃))) [] b (Builder.sliceExpr id i j k) _ :=
    Builder.sliceExpr_adds id i j k False.elim False.elim False.elim False.elim
  have hin : ∀ f ∈ own ++ (own₁ ++ (own₂ ++ own₃)), f.ref.In b.toStore := by
    simp only [List.mem_append]
    rintro f (hf | hf | hf | hf)
    · exact hbase.inside f hf
    · exact hlow.inside f hf
    · exact hhigh.inside f hf
    · exact hmax.inside f hf
  refine deeper hin hm.grows (hm.result.expr_depth_lt hm.grows) (fun hst hn => ?_) trivial
  have hbefore := hst.before hm.grows
  exact Store.render_sliceExpr (hst.grows.node?_fixed hm.result.node rfl)
    (hbase.renders hbefore.left hn) (hlow.renders hbefore.right.left hn)
    (hhigh.renders hbefore.right.right.left hn) (hmax.renders hbefore.right.right.right hn)

lemma typeAssert {type id'} (hbase : Kept b own base id) (htype : Kept b own' type id') :
    Kept (Builder.typeAssert id id' b).2 (own ++ own') (.typeAssert base type)
      (Builder.typeAssert id id' b).1 := by
  have hm : Adds False (· ∉ own ++ own') [] b (Builder.typeAssert id id') _ :=
    Builder.typeAssert_adds id id' False.elim False.elim
  refine deeper (hbase.inside_append htype) hm.grows (hm.result.expr_depth_lt hm.grows)
    (fun hst hn => ?_) trivial
  have hbefore := hst.before hm.grows
  exact Store.render_typeAssert (hst.grows.node?_fixed hm.result.node rfl)
    (hbase.renders hbefore.left hn) (htype.renders hbefore.right hn)

/-- A composite literal is a node around elements in braces that were made just before. -/
lemma composite {type elems id es} (htype : Kept b own type id) (helems : Kept b own' elems es) :
    Kept (Builder.composite id es b).2 (own ++ own') (.composite type elems)
      (Builder.composite id es b).1 := by
  have hbraces {T} : Adds False T [] b (Builder.literalValue es) _ :=
    Builder.literalValue_adds es False.elim
  have htype := htype.later hbraces.grows
  have hvalue := helems.braces
  obtain ⟨-, hleft, hright⟩ := (hbraces (T := (· ∉ own ++ own'))).result
  have hm := Builder.compositeNode_adds (T := (· ∉ own ++ own')) id (Builder.literalValue es b).1
    False.elim False.elim hleft hright
  refine deeper (htype.inside_append hvalue) hm.grows (hm.result.expr_depth_lt hm.grows)
    (fun hst hn => ?_) trivial
  have hbefore := hst.before hm.grows
  refine (Store.render_composite (hst.grows.node?_fixed hm.result.node rfl)
    (htype.renders hbefore.left hn) (hvalue.renders hbefore.right hn)).trans ?_
  simp only [Form.text, String.append_assoc]

lemma funcLit {sig id} {body : String} (hbody : body ≠ "") (h : Kept b own sig id) :
    Kept (Builder.funcLit id body b).2 own (.funcLit sig body) (Builder.funcLit id body b).1 := by
  have hm : Adds False (· ∉ own) [] b (Builder.funcLit id body) _ :=
    Builder.funcLit_adds id body False.elim
  obtain ⟨block, hnew, hcut⟩ := hm.result
  refine deeper h.inside hm.grows (hnew.expr_depth_lt hm.grows) (fun hst hn => ?_) trivial
  rw [Store.render_funcLit (hst.grows.node?_fixed hnew.node rfl) (h.renders (hst.before hm.grows) hn),
    hst.text_eq (hcut hbody), Form.text]

lemma badExpr : Kept (Builder.badExpr b).2 [] .badExpr (Builder.badExpr b).1 := by
  have hm : Adds False (· ∉ []) [] b Builder.badExpr _ := Builder.badExpr_adds
  refine deeper (by simp) hm.grows (hm.result.expr_depth_lt hm.grows) (fun hst _ => ?_) trivial
  exact Store.render_badExpr (hst.grows.node?_fixed hm.result.node rfl)

end Expressions

end Kept

/-- Whatever was made lasts. -/
theorem Made.kept {b : Builder} {own : List FieldId} {s : FormSort} {x : Form s} {v : s.Value}
    (h : Made b own x v) : Kept b own x v := by
  induction h with
  | @later b own _ _ _ step regs act _ hact hown ih =>
    have hstep := Step.does False regs b step False.elim act hact
    refine ih.later (hstep.grows.weaken (fun h => h) fun f htag hmem => ?_)
    exact hown f hmem htag
  | nil => exact .nil
  | cons _ _ hx hxs => exact hx.cons hxs
  | absent => exact .absent
  | present _ hx => exact hx.present
  | named name _ hargs => exact hargs.named name
  | pointer _ helem => exact helem.pointer
  | slice _ helem => exact helem.slice
  | array length _ helem => exact helem.array length
  | map _ _ hkey hval => exact hkey.map hval
  | chan dir _ helem => exact helem.chan dir
  | func _ hsig => exact hsig.func
  | parenType _ hinner => exact hinner.parenType
  | struct _ hfields => exact hfields.struct
  | interface _ helems => exact helems.interface
  | badType => exact .badType
  | method doc name _ hsig => exact hsig.method doc name
  | union _ hterms => exact hterms.union
  | term _ htype => exact htype.term
  | tilde _ htype => exact htype.tilde
  | field names variadic embedded _ htype => exact htype.field names variadic embedded
  | tag raw _ hfield => exact hfield.tag raw
  | signature _ _ hparams hresults => exact hparams.signature hresults
  | returning _ _ hparams hresult => exact hparams.returning hresult
  | ident name => exact .ident name
  | literal kind raw => exact .literal kind raw
  | selector name _ hbase => exact hbase.selector name
  | call _ _ hcallee hargs => exact hcallee.call hargs
  | callSpread _ _ hcallee hargs => exact hcallee.callSpread hargs
  | conversion _ _ htype harg => exact htype.conversion harg
  | builtin name _ _ htype hargs => exact htype.builtin name hargs
  | unary op _ hoperand => exact hoperand.unary op
  | binary op _ _ hleft hright => exact hleft.binary op hright
  | paren _ hinner => exact hinner.paren
  | index _ _ hbase hargs => exact hbase.index hargs
  | sliceExpr _ _ _ _ hbase hlow hhigh hmax => exact hbase.sliceExpr hlow hhigh hmax
  | typeAssert _ _ hbase htype => exact hbase.typeAssert htype
  | composite _ _ htype helems => exact htype.composite helems
  | funcLit hbody _ hsig => exact hsig.funcLit hbody
  | badExpr => exact .badExpr
  | exprOperand _ he => exact he.exprOperand
  | typeOperand _ ht => exact ht.typeOperand
  | braces _ helems => exact helems.braces
  | exprKey _ he => exact he.exprKey
  | literalKey _ hv => exact hv.literalKey
  | exprElement _ he => exact he.exprElement
  | literalElement _ hv => exact hv.literalElement
  | fieldValue name _ hvalue => exact hvalue.fieldValue name
  | keyValue _ _ hkey hvalue => exact hkey.keyValue hvalue

/-! ## The finished tree -/

namespace Builder

/-- In the finished tree, the text of a type or an expression that was made bottom-up, whatever else
was built in between and afterwards, is the text of its form. -/
theorem finish_renders {b : Builder} {own : List FieldId}
    (hlists : ∀ l, b.finish.toStore.Addressable l) :
    (∀ (t : Form .type) (id : TypeId), Made b own t id →
      (b.finish.type? id).map Source.TypeExpr.text = some t.text) ∧
    ∀ (e : Form .expr) (id : ExprId), Made b own e id →
      (b.finish.expr? id).map Source.Expr.text = some e.text := by
  have g : Grows False (· ∉ own) b.toStore b.finish.toStore :=
    finish_grows b False.elim False.elim
  refine ⟨fun t id h => ?_, fun e id h => ?_⟩
  · exact h.kept.renders ⟨g, hlists⟩ g.depth_le
  · exact h.kept.renders ⟨g, hlists⟩ g.depth_le

/-- The form of a struct with a tagged field. -/
def taggedStruct : Form .type :=
  .struct (.cons (.field ["A"] false (.named "int" .nil) (some "`k`")) .nil)

theorem taggedStruct_renders : ∃ b own id, Made b own taggedStruct id ∧
    (b.finish.type? id).map Source.TypeExpr.text = some "struct\x7bA int `k`\x7d" := by
  let int := named "int" (start "a.go" "main")
  let entry := field ["A"] int.1 int.2
  let other := badType entry.2
  let tagged := tag entry.1 "`k`" other.2
  have hentry : Made entry.2 [entry.1] (.field ["A"] false (.named "int" .nil) none) entry.1 :=
    .field ["A"] false false (.named "int" .nil)
  -- another type is made before the field gets its tag
  have hother : Step.badType.action #[] = some (.type <$> badType) := rfl
  have hlate := hentry.later hother (by simp [Step.Tags])
  have hmade : Made (struct [entry.1] tagged.2).2 [entry.1] taggedStruct
      (struct [entry.1] tagged.2).1 := ((hlate.tag "`k`").cons .nil).struct
  have hlists : ∀ l, (struct [entry.1] tagged.2).2.finish.toStore.Addressable l := by
    intro l
    cases l <;> decide +kernel +zetaReduce
  refine ⟨_, _, _, hmade, ?_⟩
  rw [(finish_renders hlists).1 taggedStruct _ hmade]
  decide +kernel

end Builder

end GoOutline
