/-
# Field lists

Every entry of a field list leaves its trace in the outline. An entry that cannot stand in the list is
reported. Any other entry stands for one field for each of its names, or for a single field if it has
none, and each of these is either stored or, if its key is in use, reported. So fields and reports
together are as many as the entries and their names, and nothing is lost without a word.

Which fields a list binds, and what each of them says, is told here from the nodes.
-/
import GoOutline.Proofs.Outline.Keys
import GoOutline.Proofs.Outline.Malformed
import GoOutline.Proofs.Source.Total
import Mathlib.Algebra.GroupWithZero.Nat

namespace GoOutline

open List (Merges)

/-! ## Collecting pairs -/

section Collecting

variable {V : Type} {m : OrderedMap V} {ps qs : List (String × V)}

/-- Every item is either stored or reported. -/
lemma collect_size (m : OrderedMap V) (items : List (Item V)) :
    (collect m items).1.size + (collect m items).2.length = m.size + items.length := by
  induction items generalizing m with
  | nil => rfl
  | cons item items ih =>
    cases item with
    | issue i =>
      have hrest := ih m
      simp only [collect, List.length_cons]
      omega
    | entry key label value =>
      by_cases hmem : key ∈ m.keys
      · have hrest := ih m
        simp only [collect, OrderedMap.insertNew_of_mem hmem, List.length_cons]
        omega
      · have hrest := ih (m.push key value (OrderedMap.contains_eq_false_iff.2 hmem))
        rw [OrderedMap.size_push] at hrest
        simp only [collect, OrderedMap.insertNew_of_not_mem hmem, List.length_cons]
        omega

lemma collect_append (m : OrderedMap V) (items more : List (Item V)) :
    (collect m (items ++ more)).1 = (collect (collect m items).1 more).1 := by
  induction items generalizing m with
  | nil => rfl
  | cons item items ih =>
    cases item with
    | issue i => exact ih m
    | entry key label value =>
      simp only [List.cons_append, collect]
      cases m.insertNew key value with
      | ok inserted => exact ih inserted.2
      | error _ => exact ih m

/-- The item of a pair, whose repetition is reported under a label of its value. -/
def Item.ofPair (label : V → String) (e : String × V) : Item V := .entry e.1 (label e.2) e.2

/-- The issue of a pair whose key is among those of the pairs before it. -/
def repeatIssue (label : V → String) (before : List (String × V)) (e : String × V) : List Issue :=
  if e.1 ∈ before.map Prod.fst then [.redeclared (label e.2)] else []

/-- Collecting pairs into a map that lists the pairs `qs`. -/
lemma collect_pairs (label : V → String) (h : m.Lists OrderedMap.firstValue? qs)
    (ps : List (String × V)) :
    (collect m (ps.map (Item.ofPair label))).1.Lists OrderedMap.firstValue? (qs ++ ps) ∧
      (collect m (ps.map (Item.ofPair label))).2 =
        (ps.mapBefore fun later => repeatIssue label (qs ++ later)).flatten := by
  induction ps generalizing m qs with
  | nil => simpa [collect] using h
  | cons e ps ih =>
    have hsplit : qs ++ e :: ps = qs ++ [e] ++ ps := by simp
    rw [hsplit, List.map_cons, Item.ofPair, List.mapBefore_cons_after, List.flatten_cons]
    by_cases hmem : e.1 ∈ m.keys
    · obtain ⟨hlists, hissues⟩ := ih (h.turnDown hmem e.2)
      simp only [collect, OrderedMap.insertNew_of_mem hmem]
      refine ⟨hlists, ?_⟩
      rw [hissues, repeatIssue, if_pos (h.mem_keys.1 hmem)]
      rfl
    · obtain ⟨hlists, hissues⟩ := ih (h.push hmem e.2)
      simp only [collect, OrderedMap.insertNew_of_not_mem hmem]
      refine ⟨hlists, ?_⟩
      rw [hissues, repeatIssue, if_neg fun hin => hmem (h.mem_keys.2 hin)]
      rfl

/-- Pairs with new and distinct keys are appended as they are. -/
lemma collect_fresh (label : V → String) (hdistinct : (ps.map Prod.fst).Nodup)
    (hfresh : ∀ e ∈ ps, e.1 ∉ m.keys) :
    (collect m (ps.map (Item.ofPair label))).1.entries = m.entries ++ ps := by
  induction ps generalizing m with
  | nil => exact (List.append_nil _).symm
  | cons e ps ih =>
    have hmem : e.1 ∉ m.keys := hfresh e (by simp)
    rw [List.map_cons, List.nodup_cons] at hdistinct
    simp only [List.map_cons, Item.ofPair, collect, OrderedMap.insertNew_of_not_mem hmem]
    refine (ih hdistinct.2 fun e' he' => ?_).trans ?_
    · rw [OrderedMap.keys_push, List.mem_append, List.mem_singleton, not_or]
      refine ⟨hfresh e' (by simp [he']), fun hkey => hdistinct.1 ?_⟩
      exact hkey ▸ List.mem_map_of_mem he'
    · simp [OrderedMap.push]

end Collecting

/-! ## Entries and their nodes -/

namespace Store

/-- What an entry amounts to: its number of names, but one if it has none or cannot stand in the
list. -/
def fieldCount (st : Store) (kind : FieldListKind) (id : FieldId) : Nat :=
  if (st.misplacedField? kind id).isSome then 1
  else if (st.fieldNames id).isEmpty then 1
  else (st.fieldNames id).length

/-- A field of a list: the node of its entry and, if the entry has names, one of them. -/
structure FieldSite where
  node : FieldNode
  name : Option String

/-- The fields of an entry in a list of the given kind. -/
def fieldSites (st : Store) (kind : FieldListKind) (id : FieldId) : List FieldSite :=
  (st.node? id : Option FieldNode).elim [] fun f =>
    if (st.misplacedField? kind id).isSome then []
    else if (st.fieldNames id).isEmpty then [⟨f, none⟩]
    else (st.fieldNames id).map fun name => ⟨f, some name⟩

/-- The field says what its entry says, with types as `type` reads them. -/
structure OutlinesField (st : Store) (type : TypeId → Option Source.TypeExpr) (x : FieldSite)
    (f : Field) : Prop where
  name : f.name = x.name.getD ""
  unnamed : f.unnamed = x.name.isNone
  type : ∃ t, type x.node.type = some t ∧
    f.type = (if x.node.ellipsis.isSome then "..." else "") ++ t.text
  variadic : f.variadic = x.node.ellipsis.isSome
  tag : f.tag = x.node.tag.map st.text
  pointer : f.pointer = false
  doc : st.docLines? x.node.doc = some f.doc
  comment : st.docLines? x.node.comment = some f.comment

/-- The pairs are the fields that a list binds, in source order, with the keys that go with their
numbers. -/
def BindsFields (st : Store) (type : TypeId → Option Source.TypeExpr) (kind : FieldListKind)
    (ids : List FieldId) (pairs : List (String × Field)) : Prop :=
  List.Forall₂ (fun x e => st.OutlinesField type x.1 e.2 ∧ e.2.StoredUnder x.2 kind e.1)
    (ids.flatMap (st.fieldSites kind)).zipIdx pairs

variable {st : Store} {type : TypeId → Option Source.TypeExpr} {kind : FieldListKind}
  {id : FieldId} {ids : List FieldId} {x : Source.Field} {entries : List Source.Field}

lemma readField_expand (hx : st.readField st.docLines? type id = some x)
    (hplace : st.misplacedField? kind id = none) :
    List.Forall₂ (st.OutlinesField type) (st.fieldSites kind id) x.expand := by
  obtain ⟨f, t, doc, comment, hf, ht, hdoc, hcomment, rfl⟩ := readField_parts hx
  simp only [fieldSites, fieldNames, hf, Option.elim_some, hplace, Option.isSome_none,
    Bool.false_eq_true, if_false, Source.Field.expand]
  split
  · exact .cons ⟨rfl, rfl, ⟨t, ht, rfl⟩, rfl, rfl, rfl, hdoc, hcomment⟩ .nil
  · rw [List.forall₂_map_left_iff, List.forall₂_map_right_iff, List.forall₂_same]
    exact fun name _ => ⟨rfl, rfl, ⟨t, ht, rfl⟩, rfl, rfl, rfl, hdoc, hcomment⟩

/-- An entry amounts to its report, if it has one, and its fields. -/
lemma fieldCount_eq (hx : st.readField st.docLines? type id = some x) :
    st.fieldCount kind id =
      (st.misplacedField? kind id).toList.length + (st.fieldSites kind id).length := by
  obtain ⟨f, -, -, -, hf, -⟩ := readField_parts hx
  simp only [fieldCount, fieldSites, hf, Option.elim_some]
  cases st.misplacedField? kind id with
  | some part => rfl
  | none =>
    simp only [Option.isSome_none, Bool.false_eq_true, if_false, Option.toList_none,
      List.length_nil, Nat.zero_add]
    split
    · rfl
    · rw [List.length_map]

end Store

/-! ## Bound fields -/

/-- The fields that a list binds, with their keys. -/
def fieldPairs (kind : FieldListKind) (entries : List Source.Field) : List (String × Field) :=
  (boundFields kind entries).zipIdx.map fun (f, i) => (f.key kind i, f)

/-- The items of a list are the fields that it binds, with the misplaced entries reported between
them. -/
lemma fieldItems_pairs (kind : FieldListKind) (i : Nat) (entries : List Source.Field) :
    Merges Item.Flags (entries.filterMap (Source.Field.misplaced? kind))
      (((boundFields kind entries).zipIdx i).map fun (f, j) =>
        Item.ofPair Field.label (f.key kind j, f)) (fieldItems kind i entries) := by
  induction entries generalizing i with
  | nil => exact .nil
  | cons entry entries ih =>
    rw [boundFields_cons, fieldItems, List.filterMap_cons]
    cases entry.misplaced? kind with
    | some part => exact .insert rfl (ih i)
    | none =>
      rw [Option.isSome_none, if_neg Bool.false_ne_true, List.zipIdx_append, List.map_append]
      exact (Merges.refl _).append (ih _)

lemma outlineFields_pairs (kind : FieldListKind) (entries : List Source.Field) :
    (outlineFields kind entries).1 =
        (collect ∅ ((fieldPairs kind entries).map (Item.ofPair Field.label))).1 ∧
      Merges Issue.Flags (entries.filterMap (Source.Field.misplaced? kind))
        (collect ∅ ((fieldPairs kind entries).map (Item.ofPair Field.label))).2
        (outlineFields kind entries).2 := by
  rw [fieldPairs, List.map_map]
  exact collect_merges (fieldItems_pairs kind 0 entries) ∅

/-- Fields and issues together are as many as misplaced entries and bound fields. -/
lemma outlineFields_size (kind : FieldListKind) (entries : List Source.Field) :
    (outlineFields kind entries).1.size + (outlineFields kind entries).2.length =
      (entries.filterMap (Source.Field.misplaced? kind)).length + (boundFields kind entries).length := by
  have hitems := (fieldItems_pairs kind 0 entries).length_eq
  rw [List.length_map, List.length_zipIdx] at hitems
  rw [outlineFields, collect_size, hitems]
  exact Nat.zero_add _

namespace Store

variable {st : Store} {type : TypeId → Option Source.TypeExpr} {kind : FieldListKind}
  {ids : List FieldId} {entries : List Source.Field}

lemma boundFields_outline
    (h : List.Forall₂ (fun id x => st.readField st.docLines? type id = some x) ids entries) :
    List.Forall₂ (st.OutlinesField type) (ids.flatMap (st.fieldSites kind))
      (boundFields kind entries) := by
  induction h with
  | nil => exact .nil
  | @cons id x ids entries hx _ ih =>
    rw [List.flatMap_cons, boundFields_cons, readField_misplaced? hx]
    refine List.rel_append ?_ ih
    cases hplace : st.misplacedField? kind id with
    | none =>
      rw [Option.isSome_none, if_neg Bool.false_ne_true]
      exact readField_expand hx hplace
    | some part =>
      obtain ⟨f, -, -, -, hf, -⟩ := readField_parts hx
      have hnone : st.fieldSites kind id = [] := by simp [fieldSites, hf, hplace]
      rw [hnone]
      exact .nil

lemma misplacedFields_eq
    (h : List.Forall₂ (fun id x => st.readField st.docLines? type id = some x) ids entries) :
    entries.filterMap (Source.Field.misplaced? kind) = ids.filterMap (st.misplacedField? kind) := by
  induction h with
  | nil => rfl
  | cons hx _ ih => rw [List.filterMap_cons, List.filterMap_cons, readField_misplaced? hx, ih]

lemma sum_fieldCount
    (h : List.Forall₂ (fun id x => st.readField st.docLines? type id = some x) ids entries) :
    (ids.map (st.fieldCount kind)).sum = (ids.filterMap (st.misplacedField? kind)).length +
      (ids.flatMap (st.fieldSites kind)).length := by
  induction h with
  | nil => rfl
  | @cons id x ids entries hx _ ih =>
    rw [List.map_cons, List.sum_cons, ih, fieldCount_eq hx, List.flatMap_cons, List.length_append,
      List.filterMap_cons]
    cases st.misplacedField? kind id with
    | none => simp only [Option.toList_none, List.length_nil]; omega
    | some part => simp only [Option.toList_some, List.length_cons, List.length_nil]; omega

lemma fieldPairs_bind
    (h : List.Forall₂ (fun id x => st.readField st.docLines? type id = some x) ids entries) :
    st.BindsFields type kind ids (fieldPairs kind entries) := by
  rw [BindsFields, fieldPairs, List.forall₂_map_right_iff]
  refine ((boundFields_outline h).zipIdx 0).imp ?_
  rintro ⟨x, i⟩ ⟨f, j⟩ ⟨hfield, rfl⟩
  exact ⟨hfield, f.storedUnder_key kind i⟩

end Store

/-! ## Entries with several names -/

/-- The fields `block` of an entry with names, which follow the fields `earlier` of a list. They differ
in nothing but their names, and they stay together if their keys are distinct and not yet in use. -/
structure ExpandsNames (names : List String) (earlier block : List (String × Field)) (m : Fields) :
    Prop where
  map_name : block.map (fun e => e.2.name) = names
  /-- A name is its own key, unless it is blank. -/
  map_key : "_" ∉ names → block.map Prod.fst = names
  alike : ∀ e ∈ block, ∀ e' ∈ block, e'.2 = { e.2 with name := e'.2.name }
  consecutive : (block.map Prod.fst).Nodup → (∀ e ∈ block, e.1 ∉ earlier.map Prod.fst) →
    block <:+: m.entries

lemma Field.StoredUnder.eq_name {f : Field} {n : Nat} {kind : FieldListKind} {key : String}
    (h : f.StoredUnder n kind key) (hname : f.unnamed = false) (hblank : f.name ≠ "_") :
    key = f.name := by
  cases h with
  | named => rfl
  | blank _ hblank' => exact absurd hblank' hblank
  | embedded hname' => simp [hname] at hname'
  | unnamed hname' => simp [hname] at hname'

/-- Pairs that follow others with other keys stand side by side in the collected map. -/
lemma collect_infix {earlier block rest : List (String × Field)} (label : Field → String)
    (hdistinct : (block.map Prod.fst).Nodup) (hfresh : ∀ e ∈ block, e.1 ∉ earlier.map Prod.fst) :
    block <:+: (collect ∅ ((earlier ++ block ++ rest).map (Item.ofPair label))).1.entries := by
  have hlists := (collect_pairs label (OrderedMap.Lists.empty fun _ => rfl) earlier).1
  have hblock := collect_fresh label hdistinct fun e he hmem => hfresh e he (hlists.mem_keys.1 hmem)
  rw [List.map_append, collect_append, List.map_append, collect_append]
  -- what comes later is appended behind the block
  obtain ⟨new, -, hnew⟩ := collect_entries
    (collect (collect ∅ (earlier.map (Item.ofPair label))).1 (block.map (Item.ofPair label))).1
    (rest.map (Item.ofPair label))
  rw [hnew, hblock]
  exact ⟨_, new, rfl⟩

namespace Store

variable {st : Store} {type : TypeId → Option Source.TypeExpr} {kind : FieldListKind}
  {ids before after : List FieldId} {id : FieldId} {pairs : List (String × Field)}

lemma OutlinesField.alike {node : FieldNode} {name name' : String} {f f' : Field}
    (h : st.OutlinesField type ⟨node, some name⟩ f)
    (h' : st.OutlinesField type ⟨node, some name'⟩ f') : f' = { f with name := f'.name } := by
  obtain ⟨t, ht, htype⟩ := h.type
  obtain ⟨t', ht', htype'⟩ := h'.type
  obtain rfl := Option.some.inj (ht.symm.trans ht')
  have hdoc := Option.some.inj (h.doc.symm.trans h'.doc)
  have hcomment := Option.some.inj (h.comment.symm.trans h'.comment)
  cases f'
  simp only [Field.mk.injEq, true_and]
  exact ⟨htype'.trans htype.symm, h'.tag.trans h.tag.symm, h'.unnamed.trans h.unnamed.symm,
    h'.pointer.trans h.pointer.symm, h'.variadic.trans h.variadic.symm, hdoc.symm, hcomment.symm⟩

/-- The fields of an entry follow those of the entries before it. -/
lemma BindsFields.exists_block (h : st.BindsFields type kind (before ++ id :: after) pairs) :
    ∃ n earlier block rest, pairs = earlier ++ block ++ rest ∧
      st.BindsFields type kind before earlier ∧
      List.Forall₂ (fun x e => st.OutlinesField type x.1 e.2 ∧ e.2.StoredUnder x.2 kind e.1)
        ((st.fieldSites kind id).zipIdx n) block := by
  rw [BindsFields, List.flatMap_append, List.flatMap_cons, List.zipIdx_append,
    List.zipIdx_append] at h
  obtain ⟨earlier, later, rfl, hearlier, hlater⟩ := h.exists_append
  obtain ⟨block, rest, rfl, hblock, -⟩ := hlater.exists_append
  exact ⟨_, earlier, block, rest, (List.append_assoc ..).symm, hearlier, hblock⟩

/-- The fields of an entry with names. -/
lemma expandsNames_of_block {n : Nat} {earlier block rest : List (String × Field)}
    (hplace : st.misplacedField? kind id = none) (hnames : st.fieldNames id ≠ [])
    (hblock : List.Forall₂
      (fun x e => st.OutlinesField type x.1 e.2 ∧ e.2.StoredUnder x.2 kind e.1)
      ((st.fieldSites kind id).zipIdx n) block) :
    ExpandsNames (st.fieldNames id) earlier block
      (collect ∅ ((earlier ++ block ++ rest).map (Item.ofPair Field.label))).1 := by
  obtain ⟨node, hnode⟩ : ∃ node, st.node? id = some node := by
    cases hnode : st.node? id with
    | none => exact absurd (by rw [fieldNames, hnode]; rfl) hnames
    | some node => exact ⟨node, rfl⟩
  have hsites : st.fieldSites kind id = (st.fieldNames id).map fun name => ⟨node, some name⟩ := by
    simp [fieldSites, hnode, hplace, hnames]
  rw [hsites, List.zipIdx_map, List.forall₂_map_left_iff] at hblock
  have hfields : ∀ e ∈ block, ∃ name, st.OutlinesField type ⟨node, some name⟩ e.2 := by
    intro e he
    obtain ⟨x, -, hx⟩ := hblock.flip.exists_of_mem he
    exact ⟨x.1, hx.1⟩
  refine ⟨?_, fun hblank => ?_, fun e he e' he' => ?_, collect_infix Field.label⟩
  · have hmap : ((st.fieldNames id).zipIdx n).map Prod.fst = block.map fun e => e.2.name := by
      rw [← List.forall₂_eq_eq_eq, List.forall₂_map_left_iff, List.forall₂_map_right_iff]
      exact hblock.imp fun _ _ h => h.1.name.symm
    rw [← hmap, List.zipIdx_map_fst]
  · have hnamed : ∀ x ∈ (st.fieldNames id).zipIdx n, x.1 ≠ "_" := by
      intro x hx heq
      exact hblank (heq ▸ List.fst_mem_of_mem_zipIdx hx)
    have hmap : ((st.fieldNames id).zipIdx n).map Prod.fst = block.map Prod.fst := by
      rw [← List.forall₂_eq_eq_eq, List.forall₂_map_left_iff, List.forall₂_map_right_iff]
      refine ((List.forall₂_and_left _ _).2 ⟨hnamed, hblock⟩).imp ?_
      rintro x e ⟨hx, hfield, hkey⟩
      exact (hkey.eq_name hfield.unnamed (hfield.name ▸ hx)).trans hfield.name |>.symm
    rw [← hmap, List.zipIdx_map_fst]
  · obtain ⟨name, hname⟩ := hfields e he
    obtain ⟨name', hname'⟩ := hfields e' he'
    exact hname.alike hname'

/-- The outline of a list of fields accounts for all entries: `pairs` are the fields that the list
binds, and the map holds the first one of each key, in source order. -/
structure AccountsFields (st : Store) (type : TypeId → Option Source.TypeExpr) (kind : FieldListKind)
    (ids : List FieldId) (pairs : List (String × Field)) (out : Fields × List Issue) : Prop where
  binds : st.BindsFields type kind ids pairs
  count : out.1.size + out.2.length = (ids.map (st.fieldCount kind)).sum
  fields : out.1.Lists OrderedMap.firstValue? pairs
  /-- There is one issue for each field that is left out, with its name or else its type, and one for
  each entry that cannot stand in the list. -/
  issues : Merges Issue.Flags (ids.filterMap (st.misplacedField? kind))
    (pairs.mapBefore (repeatIssue fun f => if f.name = "" then f.type else f.name)).flatten out.2
  /-- The fields of an entry with names follow those of the entries before it. -/
  expands : ∀ before id after, ids = before ++ id :: after → st.misplacedField? kind id = none →
    st.fieldNames id ≠ [] → ∃ earlier block rest, pairs = earlier ++ block ++ rest ∧
      st.BindsFields type kind before earlier ∧ ExpandsNames (st.fieldNames id) earlier block out.1

lemma fieldPairs_accounted {entries : List Source.Field}
    (hread : ids.mapM (st.readField st.docLines? type) = some entries) :
    st.AccountsFields type kind ids (fieldPairs kind entries) (outlineFields kind entries) := by
  have hread := List.mapM_eq_some_iff.1 hread
  have hbinds : st.BindsFields type kind ids (fieldPairs kind entries) := fieldPairs_bind hread
  obtain ⟨hmap, hissues⟩ := outlineFields_pairs kind entries
  obtain ⟨hlists, hreports⟩ :=
    collect_pairs Field.label (OrderedMap.Lists.empty fun _ => rfl) (fieldPairs kind entries)
  refine ⟨hbinds, ?_, hmap ▸ hlists, ?_, ?_⟩
  · rw [outlineFields_size, misplacedFields_eq hread, sum_fieldCount hread,
      (boundFields_outline hread).length_eq]
  · rw [← misplacedFields_eq hread]
    exact hreports ▸ hissues
  · rintro before id after rfl hplace hnames
    obtain ⟨n, earlier, block, rest, hpairs, hearlier, hblock⟩ := hbinds.exists_block
    refine ⟨earlier, block, rest, hpairs, hearlier, ?_⟩
    rw [hmap, hpairs]
    exact expandsNames_of_block hplace hnames hblock

end Store

/-- The fields of a finished tree can be read, in whatever lists they are put. -/
lemma Progress.readFields_finish {path package : String} {steps : List Step} {p : Progress}
    (h : (Progress.mk (.start path package) #[]).run steps = some p) {ids : List FieldId}
    (hids : ∀ id ∈ ids, id.ref.In p.builder.finish.toStore) :
    let t := p.builder.finish
    ∃ entries, ids.mapM (t.readField t.docLines? t.type?) = some entries := by
  have hlegible := legible_finish h
  exact List.exists_mapM_eq_some fun id hid =>
    hlegible.follows.readField hlegible.closed.readsLines (fun _ => hlegible.type?) (hids id hid)

/-- Whatever entries a list of fields has, its outline accounts for all of them. In a finished tree
there is such an outline for every list of fields. -/
theorem outlineFields_accounted :
    (∀ (st : Store) (type : TypeId → Option Source.TypeExpr) (kind : FieldListKind)
      (ids : List FieldId) (entries : List Source.Field),
      ids.mapM (st.readField st.docLines? type) = some entries →
      ∃ pairs, st.AccountsFields type kind ids pairs (outlineFields kind entries)) ∧
    ∀ path package steps p, (Progress.mk (.start path package) #[]).run steps = some p →
      let t := p.builder.finish
      ∀ ids : List FieldId, (∀ id ∈ ids, id.ref.In t.toStore) →
        ∃ entries, ids.mapM (t.readField t.docLines? t.type?) = some entries :=
  ⟨fun _ _ kind _ entries hread => ⟨fieldPairs kind entries, Store.fieldPairs_accounted hread⟩,
    fun _ _ _ _ hrun _ => Progress.readFields_finish hrun⟩

/-- Fields by numbers below the number of fields. -/
lemma Store.fieldIds_in {st : Store} {n : Nat} (hsize : st.nodes.fields.size = n) {ids : List FieldId}
    (hids : ∀ id ∈ ids, id.index < n) : ∀ id ∈ ids, id.ref.In st := by
  intro id hid
  show id.index < st.nodes.fields.size
  exact hsize ▸ hids id hid

/-- The script of fields for a struct: two names, an embedded type, a blank name with one that is in
use, and an entry without a name that is not embedded. -/
def Step.repeatedFields : List Step :=
  [.named "int", .field ["x", "y"] 0, .embedded 0, .field ["_", "x"] 0, .field [] 0]

theorem outlineFields_accounted_repeated :
    ∃ p, (Progress.mk (.start "a.go" "main") #[]).run Step.repeatedFields = some p ∧
      let t := p.builder.finish
      ∃ entries, [⟨0⟩, ⟨1⟩, ⟨2⟩, ⟨3⟩].mapM (t.readField t.docLines? t.type?) = some entries ∧
        (outlineFields .struct entries).1.keys = ["x", "y", "int", "_#3"] ∧
        (outlineFields .struct entries).2 =
          [.redeclared "x", .unexpected (.structField false)] ∧
        ∃ pairs, t.AccountsFields t.type? .struct [⟨0⟩, ⟨1⟩, ⟨2⟩, ⟨3⟩] pairs
          (outlineFields .struct entries) := by
  have hrun : ((Progress.mk (.start "a.go" "main") #[]).run Step.repeatedFields).any fun p =>
      let t := p.builder.finish
      t.nodes.fields.size = 4 &&
      ([⟨0⟩, ⟨1⟩, ⟨2⟩, ⟨3⟩].mapM (t.readField t.docLines? t.type?)).all fun entries =>
        (outlineFields .struct entries).1.keys = ["x", "y", "int", "_#3"] &&
          (outlineFields .struct entries).2 =
            [.redeclared "x", .unexpected (.structField false)] := by
    decide +kernel
  obtain ⟨p, hp, hcheck⟩ := (Option.any_eq_true _ _).1 hrun
  simp only [Bool.and_eq_true, decide_eq_true_eq] at hcheck
  have hids : ∀ id ∈ ([⟨0⟩, ⟨1⟩, ⟨2⟩, ⟨3⟩] : List FieldId), id.ref.In p.builder.finish.toStore :=
    Store.fieldIds_in hcheck.1 (by decide)
  obtain ⟨haccounts, hreadable⟩ := outlineFields_accounted
  obtain ⟨entries, hentries⟩ := hreadable _ _ _ _ hp _ hids
  simp only [hentries, Option.all_some, Bool.and_eq_true, decide_eq_true_eq] at hcheck
  exact ⟨p, hp, entries, hentries, hcheck.2.1, hcheck.2.2, haccounts _ _ _ _ _ hentries⟩

end GoOutline
