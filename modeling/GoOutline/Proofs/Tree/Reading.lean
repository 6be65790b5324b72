/-
# Reading what a store holds

The operations that read from a store give back what was put there. A list reference is a pair of
32-bit numbers, so the items come back in full only while the buffer can be addressed; beyond that
a part of them may be missing at the end, but nothing else ever comes in.
-/
import GoOutline.Proofs.Tree.Growth
import GoOutline.Source.OfTree

namespace GoOutline.Store

variable {s : NodeSort} {l : ListSort} {st st' : Store} {c : Prop} {T : FieldId → Prop}

/-! ## Nodes -/

lemma in_of_node? {st : Store} {id : Id s} {n : s.Node} (h : st.node? id = some n) :
    id.ref.In st :=
  ((st.nodes.arena s).lt_size_iff id.index).2 ⟨n, h⟩

lemma in_of_span? {st : Store} {id : Id s} {sp : Span} (h : st.span? id = some sp) :
    id.ref.In st :=
  ((st.nodes.arena s).lt_size_iff_span? id.index).2 ⟨sp, h⟩

/-! ## Lists -/

lemma list_eq (st : Store) (r : ListRef l) :
    st.list r = if r.start ≤ r.stop ∧ r.stop ≤ (st.lists.buffer l).size then
      ((st.lists.buffer l).toList.drop r.start).take (r.stop - r.start) else [] := by
  simp only [list, Lists.read, readBuffer, Array.toList_extract, List.extract_eq_take_drop]

lemma stop_le (r : ListRef l) : r.stop ≤ r.start + r.length := Nat.mod_le _ _

lemma mem_buffer_of_mem_list {r : ListRef l} {i : l.Item} (h : i ∈ st.list r) :
    i ∈ (st.lists.buffer l).toList := by
  rw [list_eq] at h
  split at h
  · exact List.mem_of_mem_drop (List.mem_of_mem_take h)
  · simp at h

/-- Of the items that a reference stands for, the first ones are read. -/
lemma Holds.list_prefix {r : ListRef l} {items : List l.Item} (h : st.Holds r items) :
    st.list r <+: items := by
  obtain ⟨before, after, hbuffer, rfl⟩ := h
  rw [list_eq, hbuffer]
  split
  · have hstop := stop_le (⟨before.length, items.length⟩ : ListRef l)
    simp only [List.append_assoc, List.drop_left]
    rw [List.take_append_of_le_length (by simp only at hstop ⊢; omega)]
    exact List.take_prefix _ _
  · exact List.nil_prefix

/-- In a buffer that can be addressed all items are read. -/
lemma Holds.list_eq {r : ListRef l} {items : List l.Item} (h : st.Holds r items)
    (hlt : st.Addressable l) : st.list r = items := by
  obtain ⟨before, after, hbuffer, rfl⟩ := h
  have hsize : before.length + items.length + after.length = (st.lists.buffer l).size := by
    rw [← Array.length_toList, hbuffer]
    simp only [List.length_append]
  rw [Addressable] at hlt
  have hstop : (⟨before.length, items.length⟩ : ListRef l).stop = before.length + items.length :=
    Nat.mod_eq_of_lt (by simp only; omega)
  rw [Store.list_eq, hstop, hbuffer, if_pos (by simp only; omega)]
  simp

lemma Holds.sound {r : ListRef l} {items : List l.Item} (h : st.Holds r items) : r.ref.In st := by
  obtain ⟨before, after, hbuffer, rfl⟩ := h
  have hsize : (before ++ items ++ after).length = (st.lists.buffer l).size := by
    rw [← Array.length_toList, hbuffer]
  simp only [List.length_append] at hsize
  show before.length + items.length ≤ _
  omega

/-- A list inside its buffer is read as before when the store has grown. -/
lemma Grows.list_eq (h : Grows c T st st') {r : ListRef l} (hr : r.ref.In st) :
    st'.list r = st.list r := by
  obtain ⟨more, hmore⟩ := h.buffer_eq l
  have hle : r.start + r.length ≤ (st.lists.buffer l).size := hr
  have hle' := h.buffer_size_le l
  have hstop := stop_le r
  by_cases horder : r.start ≤ r.stop
  · rw [Store.list_eq, Store.list_eq, if_pos ⟨horder, by omega⟩, if_pos ⟨horder, by omega⟩, hmore,
      List.drop_append_of_le_length (by rw [Array.length_toList]; omega),
      List.take_append_of_le_length (by rw [List.length_drop, Array.length_toList]; omega)]
  · rw [Store.list_eq, Store.list_eq, if_neg (fun h => horder h.1), if_neg (fun h => horder h.1)]

/-! ## Names -/

lemma Knows.name_eq {sym : Symbol} {name : String} (h : st.Knows sym name) :
    st.name sym = name := by
  rw [Store.name, Symbols.resolve, show st.symbols.names[sym.index]? = some name from h]
  rfl

lemma Spells.name_eq {i : Ident} {name : String} (h : st.Spells i name) :
    st.name i.symbol = name :=
  h.symbol.name_eq

lemma Spells.text_eq {i : Ident} {name : String} (h : st.Spells i name) :
    st.text i.span = name :=
  h.place.text_eq

lemma SpellsAll.names_eq {r : ListRef .idents} {names : List String} (h : st.SpellsAll r names)
    (hlt : st.Addressable .idents) : st.names r = names := by
  obtain ⟨ids, hold, hspell⟩ := h
  rw [Store.names, hold.list_eq hlt]
  clear hold
  induction hspell with
  | nil => rfl
  | cons h _ ih => rw [List.map_cons, h.name_eq, ih]

lemma SpellsAll.texts_eq {r : ListRef .idents} {names : List String} (h : st.SpellsAll r names)
    (hlt : st.Addressable .idents) : (st.list r).map (fun i => st.text i.span) = names := by
  obtain ⟨ids, hold, hspell⟩ := h
  rw [hold.list_eq hlt]
  clear hold
  induction hspell with
  | nil => rfl
  | cons h _ ih => rw [List.map_cons, h.text_eq, ih]

lemma SpellsAll.sound {r : ListRef .idents} {names : List String} (h : st.SpellsAll r names) :
    r.ref.In st := by
  obtain ⟨ids, hold, -⟩ := h
  exact hold.sound

lemma SpellsAll.length_eq {r : ListRef .idents} {names : List String} (h : st.SpellsAll r names) :
    r.length = names.length := by
  obtain ⟨ids, ⟨before, after, -, rfl⟩, hspell⟩ := h
  exact hspell.length_eq

/-! ## Comments -/

lemma Lined.sound {g : CommentGroupId} {lines : List String} (h : st.Lined g lines) :
    g.ref.In st := by
  obtain ⟨r, ids, hnode, -, -⟩ := h
  exact ((st.nodes.arena .commentGroup).lt_size_iff g.index).2 ⟨_, hnode⟩

lemma Documents.sound {doc : Option CommentGroupId} (h : st.Documents doc) :
    st.Sound (Id.optRefs doc) := by
  cases doc with
  | none => exact sound_optRefs_none
  | some g =>
    obtain ⟨lines, hlines⟩ := h g rfl
    exact sound_optRefs_some.2 hlines.sound

lemma Lined.lines?_eq {g : CommentGroupId} {lines : List String} (h : st.Lined g lines)
    (hlt : st.Addressable .comments) : st.lines? g = some lines := by
  obtain ⟨r, ids, hnode, hold, hlines⟩ := h
  simp only [lines?, hnode, hold.list_eq hlt, Option.bind_eq_bind, Option.bind_some]
  rw [List.mapM_eq_some_iff]
  refine hlines.imp fun id line hline => ?_
  obtain ⟨sp, hspan, hcut⟩ := hline
  simp [hspan, Store.text, hcut.text_eq]

lemma DocLined.docLines?_eq {doc : Option CommentGroupId} {lines : List String}
    (h : st.DocLined doc lines) (hlt : st.Addressable .comments) : st.docLines? doc = some lines := by
  cases doc with
  | none => simp [docLines?, optLines?, show lines = [] from h]
  | some g => simp [docLines?, optLines?, Lined.lines?_eq h hlt]

end GoOutline.Store
