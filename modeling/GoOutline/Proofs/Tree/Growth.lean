/-
# Growth of a store

Building changes a store in few ways: it appends a line to the source, a list to a buffer, a node to
an arena, a name to the symbol table, and it attaches a tag or a documentation to a node that is
there. `Grows` is the relation between a store and what such changes make of it. Whatever is read
from a store is shown to be stable by way of this relation: a text keeps its place, a list its
items, a symbol its name, and a node is the same but for tags and documentation.

Two things are open. `checked` says whether appended nodes and lists refer only to what is there
already; a client that hands in foreign ids gets a growth that is not checked. `tags` holds of the
fields that may get a tag on the way.
-/
import GoOutline.Proofs.Sequence
import GoOutline.Proofs.Text.Place
import GoOutline.Proofs.Tree.Reference

namespace GoOutline

/-! ## Arenas -/

namespace Arena

variable {α : Type} (x : Arena α) (n : α) (sp : Span) (f : α → α) (i j : Nat)

@[simp] lemma size_push : (x.push n sp).size = x.size + 1 := by simp [push, size]

@[simp] lemma size_modify : (x.modify i f).size = x.size := by simp [modify, size]

lemma node?_push : (x.push n sp).node? i = if i = x.size then some n else x.node? i := by
  simp only [push, node?, size, Array.getElem?_push]
  by_cases h : i = x.slots.size <;> simp [h]

lemma span?_push : (x.push n sp).span? i = if i = x.size then some sp else x.span? i := by
  simp only [push, span?, size, Array.getElem?_push]
  by_cases h : i = x.slots.size <;> simp [h]

lemma node?_modify :
    (x.modify i f).node? j = if i = j then (x.node? j).map f else x.node? j := by
  simp only [modify, node?, Array.getElem?_modify]
  by_cases h : i = j
  · cases x.slots[j]? <;> simp [h]
  · simp [h]

@[simp] lemma span?_modify : (x.modify i f).span? j = x.span? j := by
  simp only [modify, span?, Array.getElem?_modify]
  by_cases h : i = j
  · cases x.slots[j]? <;> simp [h]
  · simp [h]

lemma lt_size_iff : i < x.size ↔ ∃ n, x.node? i = some n := by
  simp only [node?, size, Option.map_eq_some_iff]
  constructor
  · intro h
    exact ⟨_, x.slots[i], Array.getElem?_eq_getElem h, rfl⟩
  · rintro ⟨_, a, h, _⟩
    exact (Array.getElem?_eq_some_iff.1 h).1

lemma lt_size_iff_span? : i < x.size ↔ ∃ sp, x.span? i = some sp := by
  simp only [span?, size, Option.map_eq_some_iff]
  constructor
  · intro h
    exact ⟨_, x.slots[i], Array.getElem?_eq_getElem h, rfl⟩
  · rintro ⟨_, a, h, _⟩
    exact (Array.getElem?_eq_some_iff.1 h).1

end Arena

/-- Changing the arena of one sort leaves the other arenas alone. -/
lemma Nodes.forall_arena_modify (n : Nodes) {s : NodeSort} {f : Arena s.Node → Arena s.Node}
    {P : (t : NodeSort) → Arena t.Node → Prop} (hold : ∀ t, P t (n.arena t))
    (hnew : P s (f (n.arena s))) (t : NodeSort) : P t ((n.modify s f).arena t) := by
  by_cases h : t = s
  · subst h
    rwa [Nodes.arena_modify]
  · rw [Nodes.arena_modify_of_ne n h]
    exact hold t

namespace Store

variable {s : NodeSort} {l : ListSort}

/-! ## What can be read from a store -/

/-- The reference stands for the given items. -/
def Holds (st : Store) (r : ListRef l) (items : List l.Item) : Prop :=
  ∃ before after, (st.lists.buffer l).toList = before ++ items ++ after ∧
    r = ⟨before.length, items.length⟩

/-- The symbol stands for the given name. -/
def Knows (st : Store) (sym : Symbol) (name : String) : Prop :=
  st.symbols.names[sym.index]? = some name

/-- The occurrence is one of the given name. -/
structure Spells (st : Store) (i : Ident) (name : String) : Prop where
  place : i.span.Cuts st.source name
  symbol : st.Knows i.symbol name

/-- The list consists of occurrences of the given names. -/
def SpellsAll (st : Store) (r : ListRef .idents) (names : List String) : Prop :=
  ∃ ids, st.Holds r ids ∧ List.Forall₂ st.Spells ids names

/-- The comment group consists of the given lines. -/
def Lined (st : Store) (g : CommentGroupId) (lines : List String) : Prop :=
  ∃ r ids, st.node? g = some ⟨r⟩ ∧ st.Holds r ids ∧
    List.Forall₂ (fun id line => ∃ sp, st.span? id = some sp ∧ sp.Cuts st.source line) ids lines

/-- The comment group, if there is one, consists of lines. -/
def Documents (st : Store) (doc : Option CommentGroupId) : Prop :=
  ∀ g, doc = some g → ∃ lines, st.Lined g lines

/-- The documentation has the given lines; if it is left out, there are none. -/
def DocLined (st : Store) (doc : Option CommentGroupId) (lines : List String) : Prop :=
  doc.elim (lines = []) fun g => st.Lined g lines

/-- The extent of every node fits the source. -/
def SpansFit (st : Store) : Prop :=
  ∀ (s : NodeSort) (id : Id s) (sp : Span), st.span? id = some sp → sp.Fits st.source

/-- The store `st` has the node, which is not there in `a`. -/
structure Gains (a st : Store) (id : Id s) (n : s.Node) : Prop where
  node : st.node? id = some n
  fresh : ¬id.ref.In a

/-- Every position in the buffer can be addressed in 32 bits. -/
def Addressable (st : Store) (l : ListSort) : Prop := (st.lists.buffer l).size < UInt32.size

instance (st : Store) (l : ListSort) : Decidable (st.Addressable l) :=
  inferInstanceAs (Decidable (_ < _))

lemma documents_none (st : Store) : st.Documents none := by
  intro g h
  simp at h

lemma DocLined.documents {st : Store} {doc : Option CommentGroupId} {lines : List String}
    (h : st.DocLined doc lines) : st.Documents doc := by
  rintro g rfl
  exact ⟨lines, h⟩

/-! ## Growth -/

/-- The store with a node changed in place. -/
def edit (st : Store) (id : Id s) (f : s.Node → s.Node) : Store :=
  { st with nodes := st.nodes.modify s (·.modify id.index f) }

/-- The changes of a node that attach a documentation. -/
inductive SetsDoc (doc : Option CommentGroupId) : (s : NodeSort) → (s.Node → s.Node) → Prop
  | field : SetsDoc doc .field fun f => { f with doc }
  | comment : SetsDoc doc .field fun f => { f with comment := doc }
  | decl : SetsDoc doc .decl fun
      | .general d => .general { d with doc }
      | .bad => .bad
  | func : SetsDoc doc .func fun f => { f with doc }

/-- `Grows checked tags a b`: the store `b` comes from `a` by appending, and by attaching tags to
fields in `tags` and documentation to any node. -/
inductive Grows (checked : Prop) (tags : FieldId → Prop) (a : Store) : Store → Prop
  | refl : Grows checked tags a a
  | text {b : Store} (t : String) (h : Grows checked tags a b) :
      Grows checked tags a { b with source := b.source ++ t ++ "\n" }
  | name {b : Store} (n : String) (h : Grows checked tags a b) :
      Grows checked tags a { b with symbols := (b.symbols.intern n).2 }
  | list {b : Store} (l : ListSort) (items : List l.Item) (h : Grows checked tags a b)
      (sound : checked → ∀ i ∈ items, b.Sound (l.refs i)) :
      Grows checked tags a { b with lists := b.lists.append l items }
  | node {b : Store} (s : NodeSort) (n : s.Node) (sp : Span) (h : Grows checked tags a b)
      (sound : checked → b.Sound (s.refs n)) (fits : b.SpansFit → sp.Fits b.source) :
      Grows checked tags a { b with nodes := b.nodes.modify s (·.push n sp) }
  | tag {b : Store} (id : FieldId) (sp : Span) (h : Grows checked tags a b) (may : tags id) :
      Grows checked tags a (b.edit id fun f => { f with tag := some sp })
  | doc {b : Store} {k : NodeSort} (id : Id k) (doc : Option CommentGroupId) (f : k.Node → k.Node)
      (h : Grows checked tags a b) (lined : b.Documents doc) (sets : SetsDoc doc k f) :
      Grows checked tags a (b.edit id f)

namespace Grows

variable {c c' : Prop} {T T' : FieldId → Prop} {a b d : Store}

lemma trans (h : Grows c T a b) (h' : Grows c T b d) : Grows c T a d := by
  induction h' with
  | refl => exact h
  | text t _ ih => exact ih.text t
  | name n _ ih => exact ih.name n
  | list l items _ sound ih => exact ih.list l items sound
  | node s n sp _ sound fits ih => exact ih.node s n sp sound fits
  | tag id sp _ may ih => exact ih.tag id sp may
  | doc id doc f _ lined sets ih => exact ih.doc id doc f lined sets

/-- A growth is also one under looser conditions. -/
lemma weaken (h : Grows c T a b) (hc : c' → c) (hT : ∀ f, T f → T' f) : Grows c' T' a b := by
  induction h with
  | refl => exact .refl
  | text t _ ih => exact ih.text t
  | name n _ ih => exact ih.name n
  | list l items _ sound ih => exact ih.list l items fun h => sound (hc h)
  | node s n sp _ sound fits ih => exact ih.node s n sp (fun h => sound (hc h)) fits
  | tag id sp _ may ih => exact ih.tag id sp (hT id may)
  | doc id doc f _ lined sets ih => exact ih.doc id doc f lined sets

/-! ## Source, symbols and lists -/

lemma source_eq (h : Grows c T a b) : ∃ more, b.source = a.source ++ more := by
  induction h with
  | refl => exact ⟨"", by simp⟩
  | text t _ ih =>
    obtain ⟨more, ih⟩ := ih
    exact ⟨more ++ t ++ "\n", by simp only [ih, String.append_assoc]⟩
  | name _ _ ih => exact ih
  | list _ _ _ _ ih => exact ih
  | node _ _ _ _ _ _ ih => exact ih
  | tag _ _ _ _ ih => exact ih
  | doc _ _ _ _ _ _ ih => exact ih

lemma cuts (h : Grows c T a b) {sp : Span} {t : String} (hcut : sp.Cuts a.source t) :
    sp.Cuts b.source t := by
  obtain ⟨more, hmore⟩ := h.source_eq
  rw [hmore]
  exact hcut.append more

lemma fits (h : Grows c T a b) {sp : Span} (hfit : sp.Fits a.source) : sp.Fits b.source := by
  obtain ⟨t, hcut⟩ := hfit
  exact ⟨t, h.cuts hcut⟩

end Grows

end Store

/-- A table keeps its names when another one is interned. -/
lemma Symbols.names_intern {hash : String → Nat} (t : Symbols hash) (name : String) {i : Nat}
    {old : String} (h : t.names[i]? = some old) : (t.intern name).2.names[i]? = some old := by
  unfold intern
  cases t.find? name with
  | some sym => exact h
  | none =>
    have hi : i < t.names.size := (Array.getElem?_eq_some_iff.1 h).1
    simp only [add, Array.getElem?_push]
    rw [if_neg (by omega)]
    exact h

namespace Store.Grows

variable {s : NodeSort} {l : ListSort} {c : Prop} {T : FieldId → Prop} {a b d : Store}

lemma knows (h : Grows c T a b) {sym : Symbol} {name : String} (hknow : a.Knows sym name) :
    b.Knows sym name := by
  induction h with
  | refl => exact hknow
  | text _ _ ih => exact ih
  | name n _ ih => exact Symbols.names_intern _ n ih
  | list _ _ _ _ ih => exact ih
  | node _ _ _ _ _ _ ih => exact ih
  | tag _ _ _ _ ih => exact ih
  | doc _ _ _ _ _ _ ih => exact ih

lemma spells (h : Grows c T a b) {i : Ident} {name : String} (hspell : a.Spells i name) :
    b.Spells i name :=
  ⟨h.cuts hspell.place, h.knows hspell.symbol⟩

lemma buffer_eq (h : Grows c T a b) (l : ListSort) :
    ∃ more, (b.lists.buffer l).toList = (a.lists.buffer l).toList ++ more := by
  induction h with
  | refl => exact ⟨[], by simp⟩
  | text _ _ ih => exact ih
  | name _ _ ih => exact ih
  | list k items _ _ ih =>
    obtain ⟨more, ih⟩ := ih
    by_cases hl : l = k
    · subst hl
      exact ⟨more ++ items, by simp [ih]⟩
    · exact ⟨more, by rw [Lists.buffer_append_of_ne _ hl, ih]⟩
  | node _ _ _ _ _ _ ih => exact ih
  | tag _ _ _ _ ih => exact ih
  | doc _ _ _ _ _ _ ih => exact ih

lemma holds (h : Grows c T a b) {r : ListRef l} {items : List l.Item} (hold : a.Holds r items) :
    b.Holds r items := by
  obtain ⟨before, after, hbuffer, hr⟩ := hold
  obtain ⟨more, hmore⟩ := h.buffer_eq l
  exact ⟨before, after ++ more, by rw [hmore, hbuffer]; simp, hr⟩

lemma spellsAll (h : Grows c T a b) {r : ListRef .idents} {names : List String}
    (hspell : a.SpellsAll r names) : b.SpellsAll r names := by
  obtain ⟨ids, hold, hspells⟩ := hspell
  exact ⟨ids, h.holds hold, hspells.imp fun _ _ => h.spells⟩

end Store.Grows

/-! ## Nodes -/

/-- Whether nodes of this sort have documentation, which may be attached after they are allocated. -/
def NodeSort.documented : NodeSort → Bool
  | .field => true
  | .decl => true
  | .func => true
  | _ => false

namespace Store

variable {s t : NodeSort}

/-- `Revised tags id n n'`: the node `n'` is `n` with other documentation and, if it is a field in
`tags`, another tag. -/
inductive Revised (tags : FieldId → Prop) : {s : NodeSort} → Id s → s.Node → s.Node → Prop
  | same {s : NodeSort} (id : Id s) (n : s.Node) : Revised tags id n n
  | field (id : FieldId) (f : FieldNode) (tag : Option Span) (doc comment : Option CommentGroupId)
      (may : tag ≠ f.tag → tags id) : Revised tags id f { f with tag, doc, comment }
  | decl (id : DeclId) (d : GeneralDeclNode) (doc : Option CommentGroupId) :
      Revised tags id (.general d) (.general { d with doc })
  | func (id : FuncId) (f : FuncNode) (doc : Option CommentGroupId) :
      Revised tags id f { f with doc }

lemma Revised.trans {tags : FieldId → Prop} {id : Id s} {n n' n'' : s.Node}
    (h : Revised tags id n n') (h' : Revised tags id n' n'') : Revised tags id n n'' := by
  cases h with
  | same => exact h'
  | field id f tag doc comment may =>
    cases h' with
    | same => exact .field id f tag doc comment may
    | field _ _ tag' doc' comment' may' =>
      refine .field id f tag' doc' comment' fun hne => ?_
      by_cases htag : tag' = tag
      · exact may (htag ▸ hne)
      · exact may' htag
  | decl id d doc =>
    cases h' with
    | same => exact .decl id d doc
    | decl _ _ doc' => exact .decl id d doc'
  | func id f doc =>
    cases h' with
    | same => exact .func id f doc
    | func _ _ doc' => exact .func id f doc'

lemma SetsDoc.revised {doc : Option CommentGroupId} {f : s.Node → s.Node}
    (h : SetsDoc doc s f) (tags : FieldId → Prop) (id : Id s) (n : s.Node) :
    Revised tags id n (f n) := by
  cases h with
  | field => exact .field id n n.tag doc n.comment fun h => absurd rfl h
  | comment => exact .field id n n.tag n.doc doc fun h => absurd rfl h
  | decl =>
    cases n with
    | general d => exact .decl id d doc
    | bad => exact .same id _
  | func => exact .func id n doc

/-- A node that is there stays when another one is appended. -/
lemma node?_push (st : Store) (n : t.Node) (sp : Span) {id : Id s} {m : s.Node}
    (h : st.node? id = some m) :
    { st with nodes := st.nodes.modify t (·.push n sp) : Store }.node? id = some m := by
  refine Nodes.forall_arena_modify st.nodes
    (P := fun s x => ∀ i m, (st.nodes.arena s).node? i = some m → x.node? i = some m)
    (fun _ _ _ h => h) ?_ s id.index m h
  intro i m h
  have hi := ((st.nodes.arena t).lt_size_iff i).2 ⟨m, h⟩
  rw [Arena.node?_push, if_neg (by omega), h]

/-- An extent stays when a node is appended. -/
lemma span?_push (st : Store) (n : t.Node) (sp : Span) {id : Id s} {sp' : Span}
    (h : st.span? id = some sp') :
    { st with nodes := st.nodes.modify t (·.push n sp) : Store }.span? id = some sp' := by
  refine Nodes.forall_arena_modify st.nodes
    (P := fun s x => ∀ i sp', (st.nodes.arena s).span? i = some sp' → x.span? i = some sp')
    (fun _ _ _ h => h) ?_ s id.index sp' h
  intro i sp' h
  have hi := ((st.nodes.arena t).lt_size_iff_span? i).2 ⟨sp', h⟩
  rw [Arena.span?_push, if_neg (by omega), h]

@[simp] lemma span?_edit (st : Store) (id : Id t) (f : t.Node → t.Node) (id' : Id s) :
    (st.edit id f).span? id' = st.span? id' :=
  Nodes.forall_arena_modify st.nodes
    (P := fun s x => ∀ i, x.span? i = (st.nodes.arena s).span? i)
    (fun _ _ => rfl) (fun i => Arena.span?_modify _ f _ i) s id'.index

/-- An edit changes at most the node that it names. -/
lemma node?_edit (st : Store) (id : Id t) (f : t.Node → t.Node)
    {R : {s : NodeSort} → Id s → s.Node → s.Node → Prop}
    (hsame : ∀ {s : NodeSort} (id : Id s) n, R id n n) (hf : ∀ n, R id n (f n))
    {id' : Id s} {n : s.Node} (h : st.node? id' = some n) :
    ∃ n', (st.edit id f).node? id' = some n' ∧ R id' n n' := by
  refine Nodes.forall_arena_modify st.nodes
    (P := fun s x => ∀ i n, (st.nodes.arena s).node? i = some n →
      ∃ n', x.node? i = some n' ∧ R (⟨i⟩ : Id s) n n')
    (fun s i n h => ⟨n, h, hsame ⟨i⟩ n⟩) ?_ s id'.index n h
  intro i n h
  rw [Arena.node?_modify, h]
  by_cases hi : id.index = i
  · subst hi
    exact ⟨f n, by simp, hf n⟩
  · exact ⟨n, by simp [hi], hsame _ n⟩

end Store

namespace Store.Grows

variable {s : NodeSort} {c : Prop} {T : FieldId → Prop} {a b : Store}

lemma span? (h : Grows c T a b) {id : Id s} {sp : Span} (hspan : a.span? id = some sp) :
    b.span? id = some sp := by
  induction h with
  | refl => exact hspan
  | text _ _ ih => exact ih
  | name _ _ ih => exact ih
  | list _ _ _ _ ih => exact ih
  | node _ n sp _ _ _ ih => exact span?_push _ n sp ih
  | tag id sp _ _ ih => rwa [span?_edit]
  | doc id _ f _ _ _ ih => rwa [span?_edit]

/-- The extents of all nodes go on fitting the source. -/
lemma spansFit (h : Grows c T a b) (hfit : a.SpansFit) : b.SpansFit := by
  induction h with
  | refl => exact hfit
  | @text b t _ ih =>
    intro s id sp hsp
    show sp.Fits (b.source ++ t ++ "\n")
    rw [String.append_assoc]
    exact (ih s id sp hsp).append _
  | name _ _ ih => exact ih
  | list _ _ _ _ ih => exact ih
  | @node b t n new h sound fits ih =>
    intro s id sp hsp
    refine Nodes.forall_arena_modify b.nodes
      (P := fun s x => ∀ i sp, x.span? i = some sp → sp.Fits b.source)
      (fun s i sp hsp => ih s ⟨i⟩ sp hsp) ?_ s id.index sp hsp
    intro i sp hsp
    rw [Arena.span?_push] at hsp
    split at hsp
    · obtain rfl := Option.some.inj hsp
      exact fits ih
    · exact ih t ⟨i⟩ sp hsp
  | tag f new _ _ ih =>
    intro s id sp hsp
    rw [span?_edit] at hsp
    exact ih s id sp hsp
  | doc k _ f _ _ _ ih =>
    intro s id sp hsp
    rw [span?_edit] at hsp
    exact ih s id sp hsp

/-- A node that is there stays, but for its documentation and the tags of fields in `T`. -/
lemma node? (h : Grows c T a b) {id : Id s} {n : s.Node} (hnode : a.node? id = some n) :
    ∃ n', b.node? id = some n' ∧ Revised T id n n' := by
  induction h with
  | refl => exact ⟨n, hnode, .same id n⟩
  | text _ _ ih => exact ih
  | name _ _ ih => exact ih
  | list _ _ _ _ ih => exact ih
  | node _ m sp _ _ _ ih =>
    obtain ⟨n', hn', hrev⟩ := ih
    exact ⟨n', node?_push _ m sp hn', hrev⟩
  | tag f sp _ may ih =>
    obtain ⟨n', hn', hrev⟩ := ih
    obtain ⟨n'', hn'', hrev'⟩ := node?_edit _ f (fun f => { f with tag := some sp })
      (R := Revised T) (fun id n => .same id n) (fun m => .field f m _ _ _ fun _ => may) hn'
    exact ⟨n'', hn'', hrev.trans hrev'⟩
  | doc id _ f _ _ sets ih =>
    obtain ⟨n', hn', hrev⟩ := ih
    obtain ⟨n'', hn'', hrev'⟩ := node?_edit _ id f (R := Revised T) (fun id n => .same id n)
      (fun m => sets.revised T id m) hn'
    exact ⟨n'', hn'', hrev.trans hrev'⟩

/-- Nodes that have neither tag nor documentation stay as they are. -/
lemma node?_fixed (h : Grows c T a b) {id : Id s} {n : s.Node} (hnode : a.node? id = some n)
    (hs : s.documented = false) : b.node? id = some n := by
  obtain ⟨n', hn', hrev⟩ := h.node? hnode
  cases hrev with
  | same => exact hn'
  | field => simp [NodeSort.documented] at hs
  | decl => simp [NodeSort.documented] at hs
  | func => simp [NodeSort.documented] at hs

/-- A field stays, but for its documentation and, if it is in `T`, its tag. -/
lemma field? (h : Grows c T a b) {id : FieldId} {f : FieldNode} (hnode : a.node? id = some f) :
    ∃ tag doc comment, b.node? id = some { f with tag, doc, comment } ∧ (¬T id → tag = f.tag) := by
  obtain ⟨f', hf', hrev⟩ := h.node? hnode
  cases hrev with
  | same => exact ⟨f.tag, f.doc, f.comment, hf', fun _ => rfl⟩
  | field _ _ tag doc comment may =>
    refine ⟨tag, doc, comment, hf', fun hT => ?_⟩
    by_contra hne
    exact hT (may hne)

/-- A function stays, but for its documentation. -/
lemma func? (h : Grows c T a b) {id : FuncId} {f : FuncNode} (hnode : a.node? id = some f) :
    ∃ doc, b.node? id = some { f with doc } := by
  obtain ⟨f', hf', hrev⟩ := h.node? hnode
  cases hrev with
  | same => exact ⟨f.doc, hf'⟩
  | func _ _ doc => exact ⟨doc, hf'⟩

lemma size_le (h : Grows c T a b) (s : NodeSort) :
    (a.nodes.arena s).size ≤ (b.nodes.arena s).size := by
  by_contra hlt
  let next : Id s := ⟨(b.nodes.arena s).size⟩
  obtain ⟨n, hn⟩ := ((a.nodes.arena s).lt_size_iff next.index).1 (Nat.lt_of_not_le hlt)
  obtain ⟨n', hn', -⟩ := h.node? (show a.node? next = some n from hn)
  exact absurd (((b.nodes.arena s).lt_size_iff _).2 ⟨n', hn'⟩) (Nat.lt_irrefl _)

lemma buffer_size_le (h : Grows c T a b) (l : ListSort) :
    (a.lists.buffer l).size ≤ (b.lists.buffer l).size := by
  obtain ⟨more, hmore⟩ := h.buffer_eq l
  have hlen := congrArg List.length hmore
  simp only [Array.length_toList, List.length_append] at hlen
  omega

/-- A reference that leads to something goes on doing so. -/
lemma reference (h : Grows c T a b) {r : Reference} (hr : r.In a) : r.In b := by
  cases r with
  | node s id => exact Nat.lt_of_lt_of_le hr (h.size_le s)
  | list l r => exact Nat.le_trans hr (h.buffer_size_le l)

lemma sound (h : Grows c T a b) {refs : List Reference} (hrefs : a.Sound refs) : b.Sound refs :=
  fun r hr => h.reference (hrefs r hr)

/-- What was not there before a growth was not there earlier either. -/
lemma gains {st : Store} (h : Grows c T a b) {id : Id s} {n : s.Node} (hnew : b.Gains st id n) :
    a.Gains st id n :=
  ⟨hnew.node, fun hin => hnew.fresh (h.reference hin)⟩

/-! ## Documentation -/

lemma lined (h : Grows c T a b) {g : CommentGroupId} {lines : List String}
    (hline : a.Lined g lines) : b.Lined g lines := by
  obtain ⟨r, ids, hnode, hold, hlines⟩ := hline
  refine ⟨r, ids, h.node?_fixed hnode rfl, h.holds hold, hlines.imp ?_⟩
  rintro id line ⟨sp, hspan, hcut⟩
  exact ⟨sp, h.span? hspan, h.cuts hcut⟩

lemma docLined (h : Grows c T a b) {doc : Option CommentGroupId} {lines : List String}
    (hdoc : a.DocLined doc lines) : b.DocLined doc lines := by
  cases doc with
  | none => exact hdoc
  | some g => exact h.lined hdoc

lemma documents (h : Grows c T a b) {doc : Option CommentGroupId} (hdoc : a.Documents doc) :
    b.Documents doc := by
  intro g hg
  obtain ⟨lines, hlines⟩ := hdoc g hg
  exact ⟨lines, h.lined hlines⟩

end Store.Grows

end GoOutline
