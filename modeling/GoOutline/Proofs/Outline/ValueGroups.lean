/-
# Value groups

A declaration of constants or variables consists of specs, each with some names and some values. A
name has the type of its own spec or, if that has none, the type of the nearest spec before it that
has one, in the same declaration; specs of another kind do not count. A single value is that of all
names, and several values go to the names one by one. All this is said here on the nodes of the
declaration, and the outline agrees with it.
-/
import GoOutline.Proofs.Outline.Alike
import GoOutline.Proofs.Outline.Imports
import GoOutline.Proofs.Outline.Malformed

namespace GoOutline

/-! ## Specs and their names -/

/-- The constants or variables of the group are declared with values. -/
abbrev DeclGroup.HasValues (group : DeclGroup) : Prop := group = .consts ∨ group = .vars

namespace SpecNode

/-- The spec as one of constants or variables. -/
def value? : SpecNode → Option ValueSpecNode
  | .value s => some s
  | _ => none

/-- The type that a spec of constants or variables states. -/
def type? (s : SpecNode) : Option TypeId := s.value?.bind ValueSpecNode.type

end SpecNode

/-- A name in a declaration of constants or variables: its spec, the specs up to this one, and its
position among the names of the spec. -/
structure ValueSite where
  upTo : List SpecNode
  spec : ValueSpecNode
  name : String
  position : Nat

/-- The value of the name in a position: there is none, the only one is for all names, and else each
name has its own as long as there are values. -/
inductive ValueText (values : List String) (i : Nat) : String → Prop
  | missing (h : values = []) : ValueText values i ""
  | sole {value : String} (h : values = [value]) : ValueText values i value
  | own {value : String} (hmany : 1 < values.length) (h : values[i]? = some value) :
    ValueText values i value
  | past (hmany : 1 < values.length) (h : values.length ≤ i) : ValueText values i ""

namespace Store

/-- The text of the type that the nearest spec with a type states, empty if no spec has one. -/
inductive CarriesType (st : Store) (specs : List SpecNode) : String → Prop
  | untyped (h : ∀ s ∈ specs, s.type? = none) : CarriesType st specs ""
  | nearest {before after : List SpecNode} {s : SpecNode} {id : TypeId} {x : Source.TypeExpr}
    (hspecs : specs = before ++ s :: after) (hs : s.type? = some id)
    (hafter : ∀ s ∈ after, s.type? = none) (hx : st.type? id = some x) :
    CarriesType st specs x.text

/-- The names of a spec that follows the specs `before`. -/
def specSites (st : Store) (before : List SpecNode) (s : SpecNode) : List ValueSite :=
  s.value?.elim [] fun v =>
    (st.names v.names).zipIdx.map fun (name, i) => ⟨before ++ [s], v, name, i⟩

/-- The names of a declaration, in source order. -/
def valueSites (st : Store) (g : GeneralDeclNode) : List ValueSite :=
  ((st.list g.specs).mapBefore st.specSites).flatten

/-- The constant or variable says what the nodes say about the name. -/
structure OutlinesValue (st : Store) (file : FileId) (g : GeneralDeclNode) (x : ValueSite)
    (v : ValueDecl) : Prop where
  name : v.name = x.name
  file : v.file = file
  /-- A spec that stands alone can have the documentation of the declaration. -/
  doc : st.docLines? (x.spec.doc.or (if g.grouped then none else g.doc)) = some v.doc
  type : st.CarriesType x.upTo v.type
  value : ∃ values, (st.list x.spec.values).mapM st.expr? = some values ∧
    ValueText (values.map Source.Expr.text) x.position v.value

/-- The declaration is that of the name: a constant in a declaration of constants, and otherwise a
variable. -/
def DeclaresValue (st : Store) (file : FileId) (g : GeneralDeclNode) (x : ValueSite) (d : Decl) :
    Prop :=
  ∃ v, st.OutlinesValue file g x v ∧ d = if g.group = .consts then .const v else .var v

/-- The issue of a spec with several values, but not one for each name. -/
def countIssue? (st : Store) (s : ValueSpecNode) : Option Issue :=
  let names := st.names s.names
  let values := (st.list s.values).length
  if 1 < values ∧ values ≠ names.length then
    some (.valueCount (names.headD "") names.length values)
  else none

/-- The issue of a spec in a declaration of constants or variables. -/
def specIssue? (st : Store) (group : DeclGroup) (s : SpecNode) : Option Issue :=
  s.value?.elim (some (.unexpected (.spec group))) st.countIssue?

end Store

/-- The entries of a declaration of constants or variables: what it declares, and what is wrong with
it. -/
structure Store.OutlinesGroup (st : Store) (file : FileId) (g : GeneralDeclNode)
    (entries : List Entry) : Prop where
  decls : List.Forall₂ (st.DeclaresValue file g) (st.valueSites g) (entries.filterMap Entry.decl?)
  issues : entries.filterMap Entry.issue? = (st.list g.specs).filterMap (st.specIssue? g.group)

/-! ## Carried types -/

section Carried

variable {st : Store} {group : DeclGroup} {specs : List SpecNode} {s : SpecNode}

lemma Store.CarriesType.concat {text : String} (h : st.CarriesType specs text) (hs : s.type? = none) :
    st.CarriesType (specs ++ [s]) text := by
  have hconcat {l : List SpecNode} (h : ∀ s ∈ l, s.type? = none) : ∀ s' ∈ l ++ [s], s'.type? = none :=
    List.forall_mem_append.2 ⟨h, List.forall_mem_singleton.2 hs⟩
  cases h with
  | untyped h => exact .untyped (hconcat h)
  | @nearest before after s' id x hspecs hs' hafter hx =>
    have hsplit : specs ++ [s] = before ++ s' :: (after ++ [s]) := by simp [hspecs]
    exact .nearest hsplit hs' (hconcat hafter) hx

/-- In a declaration of constants or variables only specs of these are looked into. -/
lemma Store.spec?_cases (hgroup : group.HasValues) {y : Source.Spec} (hy : st.spec? group s = some y) :
    (∃ v x, s = .value v ∧ y = .value x ∧ st.valueSpec? v = some x) ∨
      s.value? = none ∧ y = .misplaced := by
  rcases hgroup with rfl | rfl <;> cases s with
  | value v =>
    obtain ⟨x, hx, hy⟩ := Option.bind_eq_some_iff.1 hy
    exact .inl ⟨v, x, rfl, (Option.some.inj hy).symm, hx⟩
  | imported s => exact .inr ⟨rfl, (Option.some.inj hy).symm⟩
  | type s => exact .inr ⟨rfl, (Option.some.inj hy).symm⟩

lemma Store.CarriesType.step {before : List SpecNode} {ys : List Source.Spec} {y : Source.Spec}
    (hgroup : group.HasValues) (h : st.CarriesType before (Source.carriedType ys))
    (hy : st.spec? group s = some y) :
    st.CarriesType (before ++ [s]) (Source.carriedType (ys ++ [y])) := by
  rcases Store.spec?_cases hgroup hy with ⟨v, x, rfl, rfl, hx⟩ | ⟨hvalue, rfl⟩
  · obtain ⟨htype, -⟩ := Store.valueSpec?_parts hx
    rw [Source.carriedType_concat_value]
    cases hv : v.type with
    | none =>
      rw [hv] at htype
      obtain hnone : none = x.type := Option.some.inj htype
      rw [← hnone]
      exact h.concat hv
    | some id =>
      rw [hv] at htype
      obtain ⟨type, htype, hsome⟩ := Option.map_eq_some_iff.1 htype
      rw [← hsome]
      exact .nearest rfl hv (by simp) htype
  · rw [Source.carriedType_concat_other ys rfl]
    exact h.concat (by simp [SpecNode.type?, hvalue])

/-- The carried type is that of the nearest spec with a type, step by step. -/
lemma Store.carriesType_of_read (hgroup : group.HasValues) {ys : List Source.Spec}
    (h : List.Forall₂ (fun s y => st.spec? group s = some y) specs ys) :
    st.CarriesType specs (Source.carriedType ys) := by
  induction specs using List.reverseRecOn generalizing ys with
  | nil =>
    cases h
    exact .untyped (by simp)
  | append_singleton specs s ih =>
    obtain ⟨ys, last, rfl, hys, hlast⟩ := h.exists_append
    cases hlast with
    | cons hy hnil =>
      cases hnil
      exact (ih hys).step hgroup hy

/-! ## Values -/

lemma valueText_valueAt (values : List String) (i : Nat) :
    ValueText values i (Source.valueAt values i) := by
  match values with
  | [] => exact .missing rfl
  | [value] => exact .sole rfl
  | value :: other :: values =>
    have hmany : 1 < (value :: other :: values).length := by simp
    simp only [Source.valueAt]
    cases hvalue : (value :: other :: values)[i]? with
    | none => exact .past hmany (List.getElem?_eq_none_iff.1 hvalue)
    | some text => exact .own hmany hvalue

lemma Source.GeneralDecl.valueDecl_eq (g : GeneralDecl) (v : ValueDecl) :
    g.valueDecl v = if g.group = .consts then .const v else .var v := by
  cases hgroup : g.group <;> simp [valueDecl, hgroup]

/-- The names of a spec become constants or variables one by one. -/
lemma Store.valueDecls_outline {file : FileId} {g : GeneralDeclNode} {doc : Option Source.Lines}
    {all ys : List Source.Spec} {y : Source.Spec} (hgroup : g.group.HasValues)
    (hdoc : st.generalDoc? g all = some doc)
    (hys : List.Forall₂ (fun s y => st.spec? g.group s = some y) specs ys)
    (hmem : y ∈ all) (hy : st.spec? g.group s = some y) :
    List.Forall₂ (st.DeclaresValue file g) (st.specSites specs s)
      (Source.GeneralDecl.valueDecls file ⟨doc, g.group, g.grouped, all⟩ ys y) := by
  have hcarried := (carriesType_of_read hgroup hys).step hgroup hy
  rcases spec?_cases hgroup hy with ⟨v, x, rfl, rfl, hx⟩ | ⟨hvalue, rfl⟩
  · obtain ⟨-, hvalues, hspecDoc, hnames⟩ := valueSpec?_parts hx
    simp only [specSites, SpecNode.value?, Option.elim_some, Source.GeneralDecl.valueDecls, hnames]
    rw [List.forall₂_map_left_iff, List.forall₂_map_right_iff, List.forall₂_same]
    rintro ⟨name, i⟩ -
    let g' : Source.GeneralDecl := ⟨doc, g.group, g.grouped, all⟩
    refine ⟨⟨⟨name, file, g'.specDoc x.doc⟩, _, _⟩, ⟨rfl, rfl, ?_, hcarried, x.values, hvalues,
      valueText_valueAt _ i⟩, ?_⟩
    · refine docLines?_specDoc hdoc hspecDoc (fun hnone => ?_) g.group
      exact List.any_eq_true.2 ⟨_, hmem, by simp [Source.Spec.lacksDoc, hnone]⟩
    · exact g'.valueDecl_eq _
  · simp only [specSites, hvalue]
    exact .nil

end Carried

/-! ## Issues of specs -/

namespace Source

lemma filterMap_issue?_issues (issues : List Issue) :
    (issues.map Entry.issue).filterMap Entry.issue? = issues := by
  rw [List.filterMap_map]
  exact List.filterMap_some ..

/-- The issue of a spec in a declaration of constants or variables. -/
def Spec.issue? (group : DeclGroup) : Spec → Option Issue
  | .value s => s.countIssue?
  | _ => some (.unexpected (.spec group))

variable {file : FileId} {g : GeneralDecl}

lemma GeneralDecl.entries_eq_values (hgroup : g.group.HasValues) :
    g.entries file = valueEntries file g "" g.specs := by
  rcases hgroup with hgroup | hgroup <;> simp only [entries, hgroup]

lemma ValueSpec.entries_issues (type : String) (s : ValueSpec) :
    (s.entries file g type).filterMap Entry.issue? = s.countIssue?.toList := by
  rw [ValueSpec.entries, List.filterMap_append, filterMap_issue?_issues, List.filterMap_map]
  simp [Function.comp_def, Entry.issue?]

/-- The issues of the specs do not depend on the type that is carried on. -/
lemma valueEntries_issues (carried : String) (specs : List Spec) :
    (valueEntries file g carried specs).filterMap Entry.issue? =
      specs.filterMap (Spec.issue? g.group) := by
  induction specs generalizing carried with
  | nil => rfl
  | cons s specs ih =>
    cases s with
    | value s =>
      rw [valueEntries, List.filterMap_append, ValueSpec.entries_issues, ih, List.filterMap_cons]
      cases hcount : s.countIssue? <;> simp [Spec.issue?, hcount]
    | _ => exact congrArg (Issue.unexpected (.spec g.group) :: ·) (ih carried)

end Source

namespace Store

variable {st : Store} {file : FileId} {id : DeclId} {g : GeneralDeclNode}

lemma spec?_issue {group : DeclGroup} (hgroup : group.HasValues) {s : SpecNode} {y : Source.Spec}
    (hy : st.spec? group s = some y) : st.specIssue? group s = y.issue? group := by
  rcases spec?_cases hgroup hy with ⟨v, x, rfl, rfl, hx⟩ | ⟨hvalue, rfl⟩
  · obtain ⟨-, hvalues, -, hnames⟩ := valueSpec?_parts hx
    have hlength := (List.mapM_eq_some_iff.1 hvalues).length_eq
    show st.countIssue? v = x.countIssue?
    rw [countIssue?, Source.ValueSpec.countIssue?, hnames, hlength]
  · rw [specIssue?, hvalue]
    rfl

/-- A declaration of constants or variables that can be read is outlined as its nodes say. -/
lemma declEntries_outlineGroup (hg : st.node? id = some (.general g)) (hgroup : g.group.HasValues)
    (hread : (st.topDecl? (.decl id)).isSome) :
    st.OutlinesGroup file g (st.declEntries file (.decl id)) := by
  obtain ⟨x, hx⟩ := Option.isSome_iff_exists.1 hread
  obtain ⟨hbad, -⟩ | ⟨_, ys, doc, hg', hys, hdoc, rfl⟩ := topDecl?_decl hx
  · simp [hg] at hbad
  obtain rfl := DeclNode.general.inj (Option.some.inj (hg.symm.trans hg'))
  have hys := List.mapM_eq_some_iff.1 hys
  let g' : Source.GeneralDecl := ⟨doc, g.group, g.grouped, ys⟩
  have hentries : st.declEntries file (.decl id) = Source.valueEntries file g' "" ys := by
    rw [declEntries, hx]
    exact Source.GeneralDecl.entries_eq_values hgroup
  have hdecls : (st.declEntries file (.decl id)).filterMap Entry.decl? =
      (ys.mapBefore (g'.valueDecls file)).flatten := by
    rw [hentries]
    exact Source.valueEntries_decls [] ys
  refine ⟨?_, ?_⟩
  · rw [hdecls, valueSites]
    refine List.rel_flatten (List.Forall₂.mapBefore hys.mem_right .nil fun _ _ _ _ hbefore hy => ?_)
    exact valueDecls_outline hgroup hdoc (hbefore.imp fun _ _ h => h.2) hy.1 hy.2
  · rw [hentries, Source.valueEntries_issues]
    exact (hys.filterMap_eq fun s y hy => spec?_issue hgroup hy).symm

end Store

/-! ## Other declarations

Nothing but a spec of constants or variables can have a wrong number of values. -/

/-- The issue is about a number of values. -/
def Issue.isCount : Issue → Bool
  | .valueCount .. => true
  | _ => false

/-- None of the issues is about a number of values. -/
def Uncounted (issues : List Issue) : Prop := ∀ i ∈ issues, i.isCount = false

section Uncounted

variable {issues more : List Issue}

lemma Uncounted.nil : Uncounted [] := fun _ hi => absurd hi List.not_mem_nil

lemma Uncounted.cons {i : Issue} (hi : i.isCount = false) (h : Uncounted issues) :
    Uncounted (i :: issues) := List.forall_mem_cons.2 ⟨hi, h⟩

lemma Uncounted.append (h : Uncounted issues) (h' : Uncounted more) : Uncounted (issues ++ more) :=
  List.forall_mem_append.2 ⟨h, h'⟩

lemma Uncounted.filter_eq (h : Uncounted issues) : issues.filter Issue.isCount = [] :=
  List.filter_eq_nil_iff.2 fun i hi => by simp [h i hi]

lemma collect_uncounted {V : Type} (m : OrderedMap V) {items : List (Item V)}
    (h : ∀ i, Item.issue i ∈ items → i.isCount = false) : Uncounted (collect m items).2 := by
  induction items generalizing m with
  | nil => exact .nil
  | cons item items ih =>
    have ih (m : OrderedMap V) := ih m fun i hi => h i (List.mem_cons_of_mem _ hi)
    cases item with
    | issue i => exact .cons (h i List.mem_cons_self) (ih m)
    | entry key label value =>
      simp only [collect]
      cases m.insertNew key value with
      | ok inserted => exact ih inserted.2
      | error _ => exact .cons rfl (ih m)

lemma collect_entry_uncounted {V : Type} (m : OrderedMap V) (key label : String) (value : V) :
    Uncounted (collect m [.entry key label value]).2 := by
  refine collect_uncounted m fun i hi => ?_
  simp at hi

lemma collectNamed_uncounted (fields : List Field) : Uncounted (collectNamed fields).2 := by
  refine collect_uncounted ∅ fun i hi => ?_
  simp at hi

lemma fieldItems_uncounted {kind : FieldListKind} {i : Nat} {entries : List Source.Field}
    {issue : Issue} (h : .issue issue ∈ fieldItems kind i entries) : issue.isCount = false := by
  induction entries generalizing i with
  | nil => exact absurd h List.not_mem_nil
  | cons entry entries ih =>
    rw [fieldItems] at h
    split at h
    · rcases List.mem_cons.1 h with heq | hmem
      · rw [Item.issue.inj heq]
        rfl
      · exact ih hmem
    · rcases List.mem_append.1 h with hmem | hmem
      · simp at hmem
      · exact ih hmem

lemma outlineFields_uncounted (kind : FieldListKind) (entries : List Source.Field) :
    Uncounted (outlineFields kind entries).2 := collect_uncounted ∅ fun _ => fieldItems_uncounted

lemma outlineResults_uncounted (results : Source.Results) :
    Uncounted (outlineResults results).2 := by
  rw [outlineResults_eq]
  exact outlineFields_uncounted .params results.entries

lemma outlineSignature_uncounted (sig : Source.Signature) : Uncounted (outlineSignature sig).2 :=
  (outlineFields_uncounted .params sig.params).append (outlineResults_uncounted sig.results)

lemma receiverType_uncounted (base : Source.TypeExpr) : Uncounted (receiverType base).2.2 := by
  unfold receiverType
  split
  · exact .nil
  · exact .cons rfl .nil

lemma outlineReceiver_uncounted (recv : Source.Receiver) :
    Uncounted (outlineReceiver recv).2.2 :=
  (receiverType_uncounted _).append (collectNamed_uncounted _)

lemma outlineInterface_uncounted (file : FileId) (elems : List Source.InterfaceElem) :
    Uncounted (outlineInterface file elems).issues := by
  have hfold : ∀ m : InterfaceMembers, Uncounted m.issues →
      Uncounted (elems.foldl (InterfaceMembers.add file) m).issues := by
    induction elems with
    | nil => exact fun m hm => hm
    | cons e elems ih =>
      refine fun m hm => ih _ ?_
      cases e with
      | method doc name sig =>
        have hmethod : Uncounted (interfaceMethod file doc name sig).2 :=
          outlineSignature_uncounted sig
        exact (hm.append hmethod).append (collect_entry_uncounted m.methods name name _)
      | union terms => exact hm.append (collect_entry_uncounted m.embeds _ _ _)
  exact hfold {} .nil

namespace Source

lemma TypeSpec.outline_uncounted (file : FileId) (g : GeneralDecl) (s : TypeSpec) :
    Uncounted (s.outline file g).2 := by
  have hparams : Uncounted (outlineTypeParams s.typeParams).2 := collectNamed_uncounted _
  simp only [outline]
  split
  · exact hparams.append (outlineFields_uncounted .struct _)
  · exact hparams.append (outlineInterface_uncounted file _)
  · exact hparams

lemma FuncDecl.outline_uncounted (file : FileId) (f : FuncDecl) : Uncounted (f.outline file).2 := by
  have hsig := outlineSignature_uncounted f.signature
  simp only [outline]
  split
  · exact hsig.append (collectNamed_uncounted _)
  · exact hsig.append (outlineReceiver_uncounted _)

lemma filterMap_issue?_decl (issues : List Issue) (d : Decl) :
    (issues.map Entry.issue ++ [Entry.decl d]).filterMap Entry.issue? = issues := by
  rw [List.filterMap_append, filterMap_issue?_issues]
  exact List.append_nil _

/-- Imports and types have no values. -/
lemma GeneralDecl.entries_uncounted {file : FileId} {g : GeneralDecl} (hgroup : ¬g.group.HasValues) :
    Uncounted ((g.entries file).filterMap Entry.issue?) := by
  intro i hi
  obtain ⟨entry, hentry, hi⟩ := List.mem_filterMap.1 hi
  cases hg : g.group with
  | imports =>
    simp only [entries, hg, List.mem_map] at hentry
    obtain ⟨s, -, rfl⟩ := hentry
    cases s with
    | imported s => simp [ImportSpec.entry, Entry.issue?] at hi
    | _ =>
      obtain rfl := Option.some.inj hi
      rfl
  | types =>
    simp only [entries, hg, List.mem_flatMap] at hentry
    obtain ⟨s, -, hentry⟩ := hentry
    cases s with
    | type s =>
      refine s.outline_uncounted file g i ?_
      rw [← filterMap_issue?_decl (s.outline file g).2 (s.outline file g).1]
      exact List.mem_filterMap.2 ⟨entry, hentry, hi⟩
    | instanceAlias => exact absurd hentry List.not_mem_nil
    | _ =>
      obtain rfl := List.mem_singleton.1 hentry
      obtain rfl := Option.some.inj hi
      rfl
  | consts => exact absurd (.inl hg) hgroup
  | vars => exact absurd (.inr hg) hgroup

end Source

end Uncounted

/-! ## Files -/

/-- Storing adds no issues about numbers of values. -/
lemma reports_counts (filings : List Filing) :
    ((filings.mapBefore Filing.reports).flatten).filter Issue.isCount =
      (filings.filterMap Filing.issue?).filter Issue.isCount := by
  induction filings using List.reverseRecOn with
  | nil => rfl
  | append_singleton filings x ih =>
    rw [List.mapBefore_concat, List.flatten_append, List.filter_append, List.filterMap_append,
      List.filter_append, ih]
    congr 1
    cases x with
    | issue i => rfl
    | _ =>
      rw [List.flatten_singleton, Filing.reports]
      split <;> rfl

namespace Store

variable {st : Store} {file : FileId}

/-- The issues about numbers of values in a top-level declaration: those of its specs, if it is one of
constants or variables. -/
def countIssues (st : Store) : TopDeclNode → List Issue
  | .func _ => []
  | .decl id =>
    match (st.node? id : Option DeclNode) with
    | some (.general g) =>
      if g.group.HasValues then ((st.list g.specs).filterMap SpecNode.value?).filterMap st.countIssue?
      else []
    | _ => []

lemma countIssue?_isCount {s : ValueSpecNode} {i : Issue} (h : st.countIssue? s = some i) :
    i.isCount = true := by
  rw [countIssue?] at h
  split at h
  · obtain rfl := Option.some.inj h
    rfl
  · simp at h

lemma specIssues_counts (group : DeclGroup) (specs : List SpecNode) :
    (specs.filterMap (st.specIssue? group)).filter Issue.isCount =
      (specs.filterMap SpecNode.value?).filterMap st.countIssue? := by
  rw [List.filter_filterMap, List.filterMap_filterMap]
  refine List.filterMap_congr fun s _ => ?_
  cases s with
  | value s =>
    cases hcount : st.countIssue? s with
    | none => simp [specIssue?, SpecNode.value?, hcount]
    | some i => simp [specIssue?, SpecNode.value?, hcount, countIssue?_isCount hcount]
  | _ => rfl

lemma declEntries_counts {d : TopDeclNode} (hread : (st.topDecl? d).isSome) :
    ((st.declEntries file d).filterMap Entry.issue?).filter Issue.isCount = st.countIssues d := by
  obtain ⟨x, hx⟩ := Option.isSome_iff_exists.1 hread
  cases d with
  | func id =>
    obtain ⟨f, -, rfl⟩ := topDecl?_func hx
    rw [declEntries, hx, Option.getD_some, Source.TopDecl.entries, Source.FuncDecl.entries,
      Source.filterMap_issue?_decl]
    exact (f.outline_uncounted file).filter_eq
  | decl id =>
    obtain ⟨hnode, rfl⟩ | ⟨g, specs, doc, hnode, -, -, rfl⟩ := topDecl?_decl hx
    · rw [declEntries, hx, countIssues, hnode]
      rfl
    · rw [countIssues, hnode]
      by_cases hgroup : g.group.HasValues
      · rw [(declEntries_outlineGroup hnode hgroup hread).issues, specIssues_counts]
        exact (if_pos hgroup).symm
      · rw [declEntries, hx, Option.getD_some, Source.TopDecl.entries,
          (Source.GeneralDecl.entries_uncounted hgroup).filter_eq]
        exact (if_neg hgroup).symm

end Store

namespace Tree

/-- The outline of a tree lists the constants and variables of the tree, as the nodes say, with what
else is declared, and reports the wrong numbers of values. -/
structure OutlinesValues (t : Tree) (policy : Redeclaration) (id : FileId) (package : String) :
    Prop where
  groups : ∀ (declId : DeclId) (g : GeneralDeclNode), .decl declId ∈ t.topDecls →
    t.node? declId = some (.general g) → g.group.HasValues →
    t.OutlinesGroup id g (t.declEntries id (.decl declId))
  /-- Declarations are stored one after the other. -/
  decls : (File.ofTree policy id package t).decls.Lists policy.value?
    (keyed (t.topDecls.flatMap fun d => (t.declEntries id d).filterMap Entry.decl?))
  counts : (File.ofTree policy id package t).issues.filter Issue.isCount =
    t.topDecls.flatMap t.countIssues

variable {t : Tree}

lemma declarations_eq (t : Tree) (file : FileId) :
    t.declarations file = t.topDecls.flatMap fun d => (t.declEntries file d).filterMap Entry.decl? := by
  rw [declarations, sourceFile, List.flatMap_map]
  exact List.flatMap_congr fun d _ => (Source.TopDecl.entries_decls file _).symm

lemma issues_counts (hread : ∀ d ∈ t.topDecls, (t.topDecl? d).isSome) (policy : Redeclaration)
    (id : FileId) (package : String) :
    (File.ofTree policy id package t).issues.filter Issue.isCount =
      t.topDecls.flatMap t.countIssues := by
  have hblank : ((t.blankOutline id package).issues).filter Issue.isCount = [] := by
    simp only [blankOutline, File.packageIssue?]
    split <;> rfl
  rw [(File.ofTree_stores policy id package t).issues, List.filter_append, hblank, List.nil_append,
    reports_counts, t.filings_eq, fileUnder_issues, List.filterMap_flatMap, List.filter_flatMap]
  exact List.flatMap_congr fun d hd => Store.declEntries_counts (hread d hd)

lemma outlinesValues (hread : ∀ d ∈ t.topDecls, (t.topDecl? d).isSome) (policy : Redeclaration)
    (id : FileId) (package : String) : t.OutlinesValues policy id package where
  groups _ _ hmem hg hgroup := Store.declEntries_outlineGroup hg hgroup (hread _ hmem)
  decls := by
    rw [← declarations_eq, ← t.filings_pairs]
    exact (File.ofTree_stores policy id package t).decls
  counts := issues_counts hread policy id package

end Tree

/-- The outline of a tree shows all constants and variables with their types and values, if the tree
can be read. A finished tree can. -/
theorem valueGroups_outlined :
    (∀ t : Tree, (∀ d ∈ t.topDecls, (t.topDecl? d).isSome) →
      ∀ policy id package, t.OutlinesValues policy id package) ∧
    ∀ path package steps p, (Progress.mk (.start path package) #[]).run steps = some p →
      ∀ d ∈ p.builder.finish.topDecls, (p.builder.finish.topDecl? d).isSome :=
  ⟨fun _ hread => Tree.outlinesValues hread, fun _ _ _ _ hrun => Progress.topDecl?_finish hrun⟩

/-- The script of constants with a type between them, and of a variable. There is one value for the
first two names and two for the next three. -/
def Step.constantsAndVariable : List Step :=
  [.named "int", .literal .int "1", .literal .int "2", .valueSpec ["a", "b"] (some 0) [1],
    .typeSpec "T" 0, .valueSpec ["c", "d", "e"] none [1, 2], .declGroup .consts [3, 4, 5],
    .valueSpec ["f"] none [], .decl .vars 7]

theorem valueGroups_outlined_constantsAndVariable :
    ∃ p, (Progress.mk (.start "a.go" "main") #[]).run Step.constantsAndVariable = some p ∧
      let t := p.builder.finish
      let f := File.ofTree .replace ⟨0, 0⟩ "main" t
      (∀ d ∈ t.topDecls, (t.topDecl? d).isSome) ∧
      (f.decls.values.filterMap (Decl.as? .const)).map (fun v => (v.name, v.type, v.value)) =
        [("a", "int", "1"), ("b", "int", "1"), ("c", "int", "1"), ("d", "int", "2"),
          ("e", "int", "")] ∧
      (f.decls.values.filterMap (Decl.as? .var)).map (fun v => (v.name, v.type, v.value)) =
        [("f", "", "")] ∧
      f.issues = [.unexpected (.spec .consts), .valueCount "c" 3 2] ∧
      t.OutlinesValues .replace ⟨0, 0⟩ "main" := by
  have hrun : ((Progress.mk (.start "a.go" "main") #[]).run Step.constantsAndVariable).any fun p =>
      let f := File.ofTree .replace ⟨0, 0⟩ "main" p.builder.finish
      (f.decls.values.filterMap (Decl.as? .const)).map (fun v => (v.name, v.type, v.value)) =
          [("a", "int", "1"), ("b", "int", "1"), ("c", "int", "1"), ("d", "int", "2"),
            ("e", "int", "")] &&
        (f.decls.values.filterMap (Decl.as? .var)).map (fun v => (v.name, v.type, v.value)) =
          [("f", "", "")] &&
        f.issues = [.unexpected (.spec .consts), .valueCount "c" 3 2] := by
    decide +kernel
  obtain ⟨p, hp, hcheck⟩ := (Option.any_eq_true _ _).1 hrun
  simp only [Bool.and_eq_true, decide_eq_true_eq] at hcheck
  obtain ⟨⟨hconsts, hvars⟩, hissues⟩ := hcheck
  obtain ⟨houtlined, hfinish⟩ := valueGroups_outlined
  have hread := hfinish _ _ _ _ hp
  exact ⟨p, hp, hread, hconsts, hvars, hissues, houtlined _ hread .replace ⟨0, 0⟩ "main"⟩

end GoOutline
