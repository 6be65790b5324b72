/-
# References lead to what was there before

A store that has grown from nothing by checked steps is closed: whatever a node or an item of a list
refers to is there. The references have no circles either. There is no single number that decreases
along them, since the arenas and the buffers are numbered independently and documentation is attached
to nodes that are older than it; but each step of the growth adds only references to what was there
before the step, and documentation refers to nothing but comments. So the order of the steps gives a
well-founded relation.
-/
import GoOutline.Proofs.Tree.Reading

namespace GoOutline.Store

variable {s t : NodeSort} {l : ListSort} {c : Prop} {T : FieldId → Prop} {a b st : Store}

/-! ## Closed stores -/

/-- Everything that nodes and items of lists refer to is there. -/
structure Closed (st : Store) : Prop where
  nodes : ∀ (s : NodeSort) (id : Id s) n, st.node? id = some n → st.Sound (s.refs n)
  lists : ∀ (l : ListSort) i, i ∈ (st.lists.buffer l).toList → st.Sound (l.refs i)

lemma node?_empty (id : Id s) : ({} : Store).node? id = none := by cases s <;> rfl

lemma not_mem_buffer_empty (i : l.Item) : i ∉ (({} : Store).lists.buffer l).toList := by
  cases l <;> simp [Lists.buffer]

lemma closed_empty : Closed {} where
  nodes := by
    intro s id n h
    simp [node?_empty] at h
  lists := by
    intro l i h
    exact absurd h (not_mem_buffer_empty i)

/-- What is in an arena after a node was appended was there or is the new node. -/
lemma node?_of_push {n : t.Node} {sp : Span} {id : Id s} {m : s.Node}
    (h : { st with nodes := st.nodes.modify t (·.push n sp) : Store }.node? id = some m) :
    st.node? id = some m ∨ s.refs m = t.refs n := by
  refine Nodes.forall_arena_modify st.nodes
    (P := fun s x => ∀ i m, x.node? i = some m →
      (st.nodes.arena s).node? i = some m ∨ s.refs m = t.refs n)
    (fun _ _ _ h => .inl h) ?_ s id.index m h
  intro i m h
  rw [Arena.node?_push] at h
  split at h
  · obtain rfl := Option.some.inj h
    exact .inr rfl
  · exact .inl h

/-- What is in an arena after an edit was there or is the edited node. -/
lemma node?_of_edit {id : Id t} {f : t.Node → t.Node} {id' : Id s} {m : s.Node}
    (h : (st.edit id f).node? id' = some m) :
    st.node? id' = some m ∨ ∃ n, st.node? id = some n ∧ s.refs m = t.refs (f n) := by
  refine Nodes.forall_arena_modify st.nodes
    (P := fun s x => ∀ i m, x.node? i = some m → (st.nodes.arena s).node? i = some m ∨
      ∃ n, st.node? id = some n ∧ s.refs m = t.refs (f n))
    (fun _ _ _ h => .inl h) ?_ s id'.index m h
  intro i m h
  rw [Arena.node?_modify] at h
  split at h
  · next heq =>
    subst heq
    obtain ⟨n, hn, rfl⟩ := Option.map_eq_some_iff.1 h
    exact .inr ⟨n, hn, rfl⟩
  · exact .inl h

/-- What is in a buffer after a list was appended was there or is in the list. -/
lemma mem_buffer_of_append {k : ListSort} {x : Lists} {items : List k.Item} {i : l.Item}
    (h : i ∈ ((x.append k items).buffer l).toList) :
    i ∈ (x.buffer l).toList ∨ ∃ j ∈ items, l.refs i = k.refs j := by
  by_cases hl : l = k
  · subst hl
    rw [Lists.buffer_append, Array.toList_appendList] at h
    rcases List.mem_append.1 h with h | h
    · exact .inl h
    · exact .inr ⟨i, h, rfl⟩
  · rw [Lists.buffer_append_of_ne _ hl] at h
    exact .inl h

lemma SetsDoc.refs_sound {doc : Option CommentGroupId} {f : s.Node → s.Node}
    (h : SetsDoc doc s f) (hdoc : st.Sound (Id.optRefs doc)) {n : s.Node}
    (hn : st.Sound (s.refs n)) : st.Sound (s.refs (f n)) := by
  cases h with
  | field =>
    simp only [NodeSort.refs, FieldNode.refs, sound_cons, sound_append] at hn ⊢
    exact ⟨hn.1, hn.2.1, hdoc, hn.2.2.2⟩
  | comment =>
    simp only [NodeSort.refs, FieldNode.refs, sound_cons, sound_append] at hn ⊢
    exact ⟨hn.1, hn.2.1, hn.2.2.1, hdoc⟩
  | decl =>
    cases n with
    | general d =>
      simp only [NodeSort.refs, DeclNode.refs, sound_cons] at hn ⊢
      exact ⟨hn.1, hdoc⟩
    | bad => exact sound_nil
  | func =>
    simp only [NodeSort.refs, FuncNode.refs, sound_cons, sound_append] at hn ⊢
    exact ⟨hn.1, ⟨hdoc, hn.2.1.2⟩, hn.2.2⟩

/-- A checked growth of a closed store is closed. -/
lemma Grows.closed (h : Grows True T a b) (ha : a.Closed) : b.Closed := by
  induction h with
  | refl => exact ha
  | text _ _ ih => exact ⟨ih.nodes, ih.lists⟩
  | name _ _ ih => exact ⟨ih.nodes, ih.lists⟩
  | @list b l items h sound ih =>
    have hstep : Grows True T b { b with lists := b.lists.append l items } :=
      .list l items .refl sound
    refine ⟨fun s id n hn => hstep.sound (ih.nodes s id n hn), fun k i hi => hstep.sound ?_⟩
    rcases mem_buffer_of_append hi with hi | ⟨j, hj, hrefs⟩
    · exact ih.lists k i hi
    · rw [hrefs]
      exact sound trivial j hj
  | @node b t m sp h sound fits ih =>
    have hstep : Grows True T b { b with nodes := b.nodes.modify t (·.push m sp) } :=
      .node t m sp .refl sound fits
    refine ⟨fun s id n hn => hstep.sound ?_, fun k i hi => hstep.sound (ih.lists k i hi)⟩
    rcases node?_of_push hn with hn | hrefs
    · exact ih.nodes s id n hn
    · rw [hrefs]
      exact sound trivial
  | @tag b f sp h may ih =>
    have hstep : Grows True T b (b.edit f fun f => { f with tag := some sp }) := .tag f sp .refl may
    refine ⟨fun s id n hn => hstep.sound ?_, fun k i hi => hstep.sound (ih.lists k i hi)⟩
    rcases node?_of_edit hn with hn | ⟨m, hm, hrefs⟩
    · exact ih.nodes s id n hn
    · rw [hrefs]
      exact ih.nodes .field f m hm
  | @doc b k id doc f h lined sets ih =>
    have hstep : Grows True T b (b.edit id f) := .doc id doc f .refl lined sets
    refine ⟨fun s id' n hn => hstep.sound ?_, fun k i hi => hstep.sound (ih.lists k i hi)⟩
    rcases node?_of_edit hn with hn | ⟨m, hm, hrefs⟩
    · exact ih.nodes s id' n hn
    · rw [hrefs]
      exact sets.refs_sound lined.sound (ih.nodes k id m hm)

/-! ## No circles -/

/-- What stands at a reference refers to these. -/
def contents (st : Store) : Reference → List Reference
  | .node s id => (st.node? id).elim [] s.refs
  | .list l r => (st.list r).flatMap l.refs

/-- What stands at `parent` refers to `child`. -/
def Inside (st : Store) (child parent : Reference) : Prop := child ∈ st.contents parent

lemma mem_contents_node {id : Id s} {child : Reference} :
    child ∈ st.contents (.node s id) ↔ ∃ n, st.node? id = some n ∧ child ∈ s.refs n := by
  rw [contents]
  cases st.node? id <;> simp

lemma mem_contents_list {r : ListRef l} {child : Reference} :
    child ∈ st.contents (.list l r) ↔ ∃ i ∈ st.list r, child ∈ l.refs i :=
  List.mem_flatMap

lemma Closed.contents_in (h : st.Closed) {child parent : Reference} (hin : st.Inside child parent) :
    child.In st := by
  cases parent with
  | node s id =>
    obtain ⟨n, hn, hchild⟩ := mem_contents_node.1 hin
    exact h.nodes s id n hn child hchild
  | list l r =>
    obtain ⟨i, hi, hchild⟩ := mem_contents_list.1 hin
    exact h.lists l i (mem_buffer_of_mem_list hi) child hchild

/-- Below a comment group there are only its comments. -/
lemma acc_commentGroup (st : Store) (g : CommentGroupId) :
    Acc st.Inside (.node .commentGroup g) := by
  refine ⟨_, fun child hchild => ?_⟩
  obtain ⟨n, -, hmem⟩ := mem_contents_node.1 hchild
  obtain rfl := List.mem_singleton.1 hmem
  refine ⟨_, fun child hchild => ?_⟩
  obtain ⟨i, -, hmem⟩ := mem_contents_list.1 hchild
  obtain rfl := List.mem_singleton.1 hmem
  refine ⟨_, fun child hchild => ?_⟩
  obtain ⟨n, -, hmem⟩ := mem_contents_node.1 hchild
  simp [NodeSort.refs] at hmem

/-- A revised node refers to nothing new but documentation. -/
lemma Revised.mem_refs {id : Id s} {n n' : s.Node} (h : Revised T id n n') {r : Reference}
    (hr : r ∈ s.refs n') : r ∈ s.refs n ∨ ∃ g, r = .node .commentGroup g := by
  have hgroup : ∀ {doc : Option CommentGroupId}, r ∈ Id.optRefs doc →
      ∃ g, r = .node .commentGroup g := by
    intro doc hr
    obtain ⟨g, -, rfl⟩ := List.mem_map.1 hr
    exact ⟨g, rfl⟩
  cases h with
  | same => exact .inl hr
  | field =>
    simp only [NodeSort.refs, FieldNode.refs, List.mem_cons, List.mem_append] at hr ⊢
    rcases hr with hr | hr | hr | hr
    · exact .inl (.inl hr)
    · exact .inl (.inr (.inl hr))
    · exact .inr (hgroup hr)
    · exact .inr (hgroup hr)
  | decl =>
    simp only [NodeSort.refs, DeclNode.refs, List.mem_cons] at hr ⊢
    rcases hr with hr | hr
    · exact .inl (.inl hr)
    · exact .inr (hgroup hr)
  | func =>
    simp only [NodeSort.refs, FuncNode.refs, List.mem_cons, List.mem_append] at hr ⊢
    rcases hr with hr | (hr | hr) | hr
    · exact .inl (.inl hr)
    · exact .inr (hgroup hr)
    · exact .inl (.inr (.inl (.inr hr)))
    · exact .inl (.inr (.inr hr))

/-- Growth puts nothing new inside what is there but documentation. -/
lemma Grows.inside (h : Grows c T a b) {child parent : Reference} (hparent : parent.In a)
    (hin : b.Inside child parent) : a.Inside child parent ∨ ∃ g, child = .node .commentGroup g := by
  cases parent with
  | node s id =>
    obtain ⟨n, hn⟩ := ((a.nodes.arena s).lt_size_iff id.index).1 hparent
    obtain ⟨n', hn', hrev⟩ := h.node? hn
    obtain ⟨m, hm, hchild⟩ := mem_contents_node.1 hin
    obtain rfl := Option.some.inj (hn'.symm.trans hm)
    exact (hrev.mem_refs hchild).imp (fun h => mem_contents_node.2 ⟨n, hn, h⟩) fun h => h
  | list l r =>
    obtain ⟨i, hi, hchild⟩ := mem_contents_list.1 hin
    rw [h.list_eq hparent] at hi
    exact .inl (mem_contents_list.2 ⟨i, hi, hchild⟩)

lemma Grows.acc (h : Grows c T a b) (ha : a.Closed) {r : Reference} (hr : r.In a)
    (hacc : Acc a.Inside r) : Acc b.Inside r := by
  induction hacc with
  | intro r _ ih =>
    refine ⟨r, fun child hchild => ?_⟩
    rcases h.inside hr hchild with hchild | ⟨g, rfl⟩
    · exact ih child hchild (ha.contents_in hchild)
    · exact acc_commentGroup b g

/-- What the store `b` has beyond the store `a` refers to what is in `a`. -/
structure Fresh (a b : Store) : Prop where
  nodes : ∀ (s : NodeSort) (id : Id s) n, b.node? id = some n → id.ref.In a ∨ a.Sound (s.refs n)
  lists : ∀ (l : ListSort) i, i ∈ (b.lists.buffer l).toList → a.Sound (l.refs i)

lemma Closed.fresh_edit (h : st.Closed) (id : Id t) (f : t.Node → t.Node) :
    Fresh st (st.edit id f) := by
  refine ⟨fun s id' n hn => .inl ?_, h.lists⟩
  have hsize := Nodes.forall_arena_modify st.nodes
    (f := (·.modify id.index f)) (P := fun s x => x.size = (st.nodes.arena s).size)
    (fun _ => rfl) (by simp) s
  exact Nat.lt_of_lt_of_eq (in_of_node? hn) hsize

/-- Induction over the growth of a store from nothing: each step adds only what refers to what was
there before. -/
lemma Grows.fresh_induction {P : Store → Prop} (hempty : P {})
    (hstep : ∀ a b, a.Closed → Grows True T a b → Fresh a b → P a → P b) (h : Grows True T {} b) :
    P b := by
  induction h with
  | refl => exact hempty
  | @text b t h ih =>
    have hb := h.closed closed_empty
    exact hstep b _ hb (.text t .refl) ⟨fun s id n hn => .inl (in_of_node? hn), hb.lists⟩ ih
  | @name b n h ih =>
    have hb := h.closed closed_empty
    exact hstep b _ hb (.name n .refl) ⟨fun s id n hn => .inl (in_of_node? hn), hb.lists⟩ ih
  | @list b l items h sound ih =>
    have hb := h.closed closed_empty
    refine hstep b _ hb (.list l items .refl sound)
      ⟨fun s id n hn => .inl (in_of_node? hn), fun k i hi => ?_⟩ ih
    rcases mem_buffer_of_append hi with hi | ⟨j, hj, hrefs⟩
    · exact hb.lists k i hi
    · rw [hrefs]
      exact sound trivial j hj
  | @node b t m sp h sound fits ih =>
    have hb := h.closed closed_empty
    refine hstep b _ hb (.node t m sp .refl sound fits) ⟨fun s id n hn => ?_, hb.lists⟩ ih
    rcases node?_of_push hn with hn | hrefs
    · exact .inl (in_of_node? hn)
    · rw [hrefs]
      exact .inr (sound trivial)
  | @tag b f sp h may ih =>
    have hb := h.closed closed_empty
    exact hstep b _ hb (.tag f sp .refl may) (hb.fresh_edit f _) ih
  | @doc b k id doc f h lined sets ih =>
    have hb := h.closed closed_empty
    exact hstep b _ hb (.doc id doc f .refl lined sets) (hb.fresh_edit id f) ih

/-- References make no circles in a store that has grown from nothing by checked steps. -/
theorem Grows.wellFounded (h : Grows True T {} b) : WellFounded b.Inside := by
  refine ⟨Grows.fresh_induction (P := fun b => ∀ r, Acc b.Inside r) ?_ ?_ h⟩
  · intro r
    refine ⟨r, fun child hchild => ?_⟩
    cases r with
    | node s id =>
      obtain ⟨n, hn, -⟩ := mem_contents_node.1 hchild
      simp [node?_empty] at hn
    | list l r =>
      obtain ⟨i, hi, -⟩ := mem_contents_list.1 hchild
      exact absurd (mem_buffer_of_mem_list hi) (not_mem_buffer_empty i)
  · intro a b ha hgrow hfresh ih r
    by_cases hr : r.In a
    · exact hgrow.acc ha hr (ih r)
    -- what is new refers only to what was there
    refine ⟨r, fun child hchild => hgrow.acc ha ?_ (ih child)⟩
    cases r with
    | node s id =>
      obtain ⟨n, hn, hmem⟩ := mem_contents_node.1 hchild
      rcases hfresh.nodes s id n hn with hin | hsound
      · exact absurd hin hr
      · exact hsound child hmem
    | list l r =>
      obtain ⟨i, hi, hmem⟩ := mem_contents_list.1 hchild
      exact hfresh.lists l i (mem_buffer_of_mem_list hi) child hmem

end GoOutline.Store
