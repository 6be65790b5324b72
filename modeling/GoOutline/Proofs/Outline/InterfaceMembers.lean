/-
# Methods and embedded types

The elements of an interface are of two kinds, and each kind has a map of its own. A method is stored
under its name and an embedded type under its text, the first of each key, and what comes later is
reported. Neither kind looks at the map of the other one. So a method and an embedded type never get
into each other's way, even if one is called like the other, and it does not matter how the elements
of the two kinds are mixed as long as each kind keeps its order.
-/
import GoOutline.Proofs.Outline.FieldLists

namespace GoOutline

open OrderedMap (firstValue?)

/-! ## Elements of both kinds -/

namespace Source.InterfaceElem

/-- Whether an element is a method, and not an embedded type. -/
def isMethod : InterfaceElem → Bool
  | .method .. => true
  | .union _ => false

/-- The name of a method or the text of an embedded type. -/
def key : InterfaceElem → String
  | .method _ name _ => name
  | .union terms => unionText terms

/-- The method that an element declares, under its name. -/
def method? (file : FileId) : InterfaceElem → Option (String × MethodDecl)
  | .method doc name sig => some (name,
    { name, file, doc, typeParams := ∅
      params := (outlineFields .params sig.params).1
      results := (outlineFields .params sig.results.entries).1
      receiver := none, receiverTypeParams := ∅ })
  | .union _ => none

/-- The type that an element embeds, under its text. -/
def embed? : InterfaceElem → Option (String × GoOutline.Field)
  | .method .. => none
  | .union terms => some (unionText terms, { type := unionText terms, unnamed := true })

/-- The issues of the parameters and results of a method. -/
def signatureIssues : InterfaceElem → List Issue
  | .method _ _ sig =>
    (outlineFields .params sig.params).2 ++ (outlineFields .params sig.results.entries).2
  | .union _ => []

/-- The report of an element that comes after one of its kind with the same key. -/
def dropIssue (before : List InterfaceElem) (e : InterfaceElem) : List Issue :=
  if e.key ∈ (before.filter (·.isMethod = e.isMethod)).map key then [.redeclared e.key] else []

variable {file : FileId} {elems : List InterfaceElem}

lemma method?_eq (doc : Source.Lines) (name : String) (sig : Source.Signature) :
    method? file (.method doc name sig) = some (name, (interfaceMethod file doc name sig).1) := by
  simp only [method?, interfaceMethod, outlineSignature, outlineResults_eq]

lemma signatureIssues_eq (file : FileId) (doc : Source.Lines) (name : String)
    (sig : Source.Signature) :
    signatureIssues (.method doc name sig) = (interfaceMethod file doc name sig).2 := by
  simp only [signatureIssues, interfaceMethod, outlineSignature, outlineResults_eq]

lemma method?_keys (file : FileId) (elems : List InterfaceElem) :
    (elems.filterMap (method? file)).map Prod.fst = (elems.filter (·.isMethod = true)).map key := by
  induction elems with
  | nil => rfl
  | cons e elems ih =>
    cases e with
    | method doc name sig => exact congrArg (name :: ·) ih
    | union terms => exact ih

lemma embed?_keys (elems : List InterfaceElem) :
    (elems.filterMap embed?).map Prod.fst = (elems.filter (·.isMethod = false)).map key := by
  induction elems with
  | nil => rfl
  | cons e elems ih =>
    cases e with
    | method doc name sig => exact ih
    | union terms => exact congrArg (unionText terms :: ·) ih

/-- What the elements of one kind are made into depends on these alone. -/
lemma filterMap_filter_kind {β : Type} {f : InterfaceElem → Option β} {method : Bool}
    (hf : ∀ e, e.isMethod ≠ method → f e = none) (elems : List InterfaceElem) :
    (elems.filter (·.isMethod = method)).filterMap f = elems.filterMap f := by
  rw [List.filterMap_filter]
  refine List.filterMap_congr fun e _ => ?_
  by_cases h : e.isMethod = method
  · simp [h]
  · simp [h, hf e h]

end Source.InterfaceElem

open Source (InterfaceElem)

/-- The members of an interface are the methods and the embedded types among its elements, the first
of each key. What is left out is reported, after what is wrong with the parameters and results. -/
structure SplitsInterface (file : FileId) (elems : List InterfaceElem) (m : InterfaceMembers) :
    Prop where
  methods : m.methods.Lists firstValue? (elems.filterMap (InterfaceElem.method? file))
  embeds : m.embeds.Lists firstValue? (elems.filterMap InterfaceElem.embed?)
  issues : m.issues =
    (elems.mapBefore fun before e => e.signatureIssues ++ e.dropIssue before).flatten
  /-- Each element is stored in one of the maps or reported. -/
  count : m.methods.size + m.embeds.size +
    (elems.mapBefore fun before e => e.dropIssue before).flatten.length = elems.length

/-! ## One element after the other -/

/-- One more pair on its way into a map that lists the pairs before it. -/
lemma collect_pair {V : Type} {map : OrderedMap V} {ps : List (String × V)}
    (h : map.Lists firstValue? ps) (key label : String) (value : V) :
    (collect map [.entry key label value]).1.Lists firstValue? (ps ++ [(key, value)]) ∧
      (collect map [.entry key label value]).2 =
        (if key ∈ ps.map Prod.fst then [.redeclared label] else []) ∧
      (collect map [.entry key label value]).1.size +
        (collect map [.entry key label value]).2.length = map.size + 1 := by
  obtain ⟨hlists, hissues⟩ := collect_pairs (fun _ => label) h [(key, value)]
  refine ⟨hlists, hissues.trans ?_, collect_size ..⟩
  rw [List.mapBefore_cons, List.append_nil]
  exact List.append_nil _

namespace SplitsInterface

variable {file : FileId} {elems elems' : List InterfaceElem} {m m' : InterfaceMembers}

lemma empty (file : FileId) : SplitsInterface file [] {} :=
  ⟨.empty fun _ => rfl, .empty fun _ => rfl, rfl, rfl⟩

/-- What one more element has to add. -/
lemma concat (h : SplitsInterface file elems m) {e : InterfaceElem}
    (hmethods : m'.methods.Lists firstValue?
      (elems.filterMap (InterfaceElem.method? file) ++ [e].filterMap (InterfaceElem.method? file)))
    (hembeds : m'.embeds.Lists firstValue?
      (elems.filterMap InterfaceElem.embed? ++ [e].filterMap InterfaceElem.embed?))
    (hissues : m'.issues = m.issues ++ (e.signatureIssues ++ e.dropIssue elems))
    (hcount : m'.methods.size + m'.embeds.size + (e.dropIssue elems).length =
      m.methods.size + m.embeds.size + 1) : SplitsInterface file (elems ++ [e]) m' := by
  have hbefore := h.count
  refine ⟨?_, ?_, ?_, ?_⟩
  · rwa [List.filterMap_append]
  · rwa [List.filterMap_append]
  · rw [List.mapBefore_concat, List.flatten_concat, ← h.issues, hissues]
  · rw [List.mapBefore_concat, List.flatten_concat, List.length_append, List.length_append,
      List.length_singleton]
    omega

/-- An element goes into the map of its kind and leaves the other map alone. -/
lemma add (h : SplitsInterface file elems m) (e : InterfaceElem) :
    SplitsInterface file (elems ++ [e]) (m.add file e) := by
  cases e with
  | method doc name sig =>
    obtain ⟨hlists, hreport, hsize⟩ :=
      collect_pair h.methods name name (interfaceMethod file doc name sig).1
    rw [InterfaceElem.method?_keys] at hreport
    have hdrop : InterfaceElem.dropIssue elems (.method doc name sig) =
        (collect m.methods [.entry name name (interfaceMethod file doc name sig).1]).2 :=
      hreport.symm
    have hother : (m.add file (.method doc name sig)).embeds = m.embeds := rfl
    refine h.concat ?_ ?_ ?_ ?_
    · rw [List.filterMap_cons, InterfaceElem.method?_eq]
      exact hlists
    · rw [hother]
      exact (List.append_nil _).symm ▸ h.embeds
    · rw [hdrop, InterfaceElem.signatureIssues_eq file]
      exact List.append_assoc ..
    · rw [hdrop, hother, Nat.add_right_comm]
      exact (congrArg (· + m.embeds.size) hsize).trans (Nat.add_right_comm ..)
  | union terms =>
    obtain ⟨hlists, hreport, hsize⟩ := collect_pair h.embeds (Source.unionText terms)
      (Source.unionText terms) { type := Source.unionText terms, unnamed := true }
    rw [InterfaceElem.embed?_keys] at hreport
    have hdrop : InterfaceElem.dropIssue elems (.union terms) =
        (collect m.embeds [.entry (Source.unionText terms) (Source.unionText terms)
          { type := Source.unionText terms, unnamed := true }]).2 :=
      hreport.symm
    have hother : (m.add file (.union terms)).methods = m.methods := rfl
    refine h.concat ?_ hlists ?_ ?_
    · rw [hother]
      exact (List.append_nil _).symm ▸ h.methods
    · rw [hdrop]
      rfl
    · rw [hdrop, hother, Nat.add_assoc]
      exact congrArg (m.methods.size + ·) hsize

end SplitsInterface

lemma outlineInterface_concat (file : FileId) (elems : List InterfaceElem) (e : InterfaceElem) :
    outlineInterface file (elems ++ [e]) = (outlineInterface file elems).add file e := by
  rw [outlineInterface, List.foldl_append]
  rfl

lemma outlineInterface_splits (file : FileId) (elems : List InterfaceElem) :
    SplitsInterface file elems (outlineInterface file elems) := by
  induction elems using List.reverseRecOn with
  | nil => exact .empty file
  | append_singleton elems e ih =>
    rw [outlineInterface_concat]
    exact ih.add e

/-- The maps do not depend on how the elements of the two kinds are mixed. -/
lemma SplitsInterface.maps_eq {file : FileId} {elems elems' : List InterfaceElem}
    {m m' : InterfaceMembers} (h : SplitsInterface file elems m)
    (h' : SplitsInterface file elems' m')
    (hkinds : ∀ method : Bool,
      elems'.filter (·.isMethod = method) = elems.filter (·.isMethod = method)) :
    m'.methods = m.methods ∧ m'.embeds = m.embeds := by
  have hmethods : elems'.filterMap (InterfaceElem.method? file) =
      elems.filterMap (InterfaceElem.method? file) := by
    have hnone : ∀ e : InterfaceElem, e.isMethod ≠ true → e.method? file = none := by
      rintro (_ | _) he
      · exact absurd rfl he
      · rfl
    rw [← InterfaceElem.filterMap_filter_kind hnone, hkinds,
      InterfaceElem.filterMap_filter_kind hnone]
  have hembeds : elems'.filterMap InterfaceElem.embed? = elems.filterMap InterfaceElem.embed? := by
    have hnone : ∀ e : InterfaceElem, e.isMethod ≠ false → e.embed? = none := by
      rintro (_ | _) he
      · rfl
      · exact absurd rfl he
    rw [← InterfaceElem.filterMap_filter_kind hnone, hkinds,
      InterfaceElem.filterMap_filter_kind hnone]
  exact ⟨(hmethods ▸ h'.methods).unique h.methods, (hembeds ▸ h'.embeds).unique h.embeds⟩

/-! ## Elements of a tree -/

/-- Whether an element is a method, and not an embedded type. -/
def InterfaceElemNode.isMethod : InterfaceElemNode → Bool
  | .method .. => true
  | .union _ => false

section Nodes

variable {st : Store} {lines : Option CommentGroupId → Option Source.Lines}
  {type : TypeId → Option Source.TypeExpr} {nodes nodes' : List InterfaceElemNode}
  {elems : List InterfaceElem}

lemma Store.readInterfaceElem_isMethod {node : InterfaceElemNode} {e : InterfaceElem}
    (h : st.readInterfaceElem lines type node = some e) : e.isMethod = node.isMethod := by
  cases node with
  | method doc name sig =>
    obtain ⟨lines, -, h⟩ := Option.bind_eq_some_iff.1 h
    obtain ⟨s, -, h⟩ := Option.bind_eq_some_iff.1 h
    obtain rfl := Option.some.inj h
    rfl
  | union terms =>
    obtain ⟨xs, -, h⟩ := Option.bind_eq_some_iff.1 h
    obtain rfl := Option.some.inj h
    rfl

/-- The elements of one kind are read from the nodes of this kind. -/
lemma Store.readInterfaceElems_filter
    (h : nodes.mapM (st.readInterfaceElem lines type) = some elems) (method : Bool) :
    (nodes.filter (·.isMethod = method)).mapM (st.readInterfaceElem lines type) =
      some (elems.filter (·.isMethod = method)) := by
  rw [List.mapM_eq_some_iff] at h ⊢
  refine List.rel_filter (fun node e he => ?_) h
  simp [readInterfaceElem_isMethod he]

/-- The nodes in another order are read as well, and the elements keep their order within each
kind. -/
lemma Store.readInterfaceElems_mixed (h : nodes.mapM (st.readInterfaceElem lines type) = some elems)
    (hkinds : ∀ method : Bool,
      nodes'.filter (·.isMethod = method) = nodes.filter (·.isMethod = method)) :
    ∃ elems', nodes'.mapM (st.readInterfaceElem lines type) = some elems' ∧
      ∀ method : Bool, elems'.filter (·.isMethod = method) = elems.filter (·.isMethod = method) := by
  have hreadable : ∀ node ∈ nodes', ∃ e, st.readInterfaceElem lines type node = some e := by
    intro node hnode
    have hmem : node ∈ nodes'.filter (·.isMethod = node.isMethod) :=
      List.mem_filter.2 ⟨hnode, decide_eq_true rfl⟩
    rw [hkinds] at hmem
    obtain ⟨e, -, he⟩ := (List.mapM_eq_some_iff.1 h).exists_of_mem (List.mem_filter.1 hmem).1
    exact ⟨e, he⟩
  obtain ⟨elems', helems'⟩ := List.exists_mapM_eq_some hreadable
  refine ⟨elems', helems', fun method => ?_⟩
  have hleft := readInterfaceElems_filter helems' method
  rw [hkinds, readInterfaceElems_filter h] at hleft
  exact (Option.some.inj hleft).symm

end Nodes

/-- The elements of every interface type of a finished tree can be read. -/
lemma Progress.readInterfaceElems_finish {path package : String} {steps : List Step} {p : Progress}
    (h : (Progress.mk (.start path package) #[]).run steps = some p) {id : TypeId}
    {r : ListRef .interfaceElems} (hnode : p.builder.finish.node? id = some (.interface r)) :
    let t := p.builder.finish
    ∃ elems, (t.list r).mapM (t.readInterfaceElem t.docLines? t.type?) = some elems := by
  have hlegible := legible_finish h
  have hin : r.ref.In p.builder.finish.toStore :=
    (Store.sound_cons.1 (hlegible.closed.nodes .type id _ hnode)).1
  exact List.exists_mapM_eq_some fun e he => hlegible.follows.readInterfaceElem
    hlegible.closed.readsLines (fun _ => hlegible.type?) (hlegible.follows.items_sound hin e he)

/-- An interface has the methods and the embedded types among its elements, the first of each name or
text, and accounts for all elements. The two maps stay the same if methods and embedded types are mixed
in another way. They are the maps of the declaration of an interface type, whose elements can be read
in every finished tree. -/
theorem interface_split (file : FileId) :
    (∀ elems, SplitsInterface file elems (outlineInterface file elems)) ∧
    (∀ (st : Store) (type : TypeId → Option Source.TypeExpr) (nodes nodes' : List InterfaceElemNode)
      (elems : List InterfaceElem), nodes.mapM (st.readInterfaceElem st.docLines? type) = some elems →
      (∀ method : Bool,
        nodes'.filter (·.isMethod = method) = nodes.filter (·.isMethod = method)) →
      ∃ elems', nodes'.mapM (st.readInterfaceElem st.docLines? type) = some elems' ∧
        (outlineInterface file elems').methods = (outlineInterface file elems).methods ∧
        (outlineInterface file elems').embeds = (outlineInterface file elems).embeds) ∧
    (∀ (g : Source.GeneralDecl) (s : Source.TypeSpec) (elems : List InterfaceElem),
      s.type = .interface elems → ∃ d issues,
        s.outline file g = (.interface d, issues ++ (outlineInterface file elems).issues) ∧
          d.methods = (outlineInterface file elems).methods ∧
          d.embeds = (outlineInterface file elems).embeds) ∧
    ∀ path package steps p, (Progress.mk (.start path package) #[]).run steps = some p →
      let t := p.builder.finish
      ∀ (id : TypeId) (r : ListRef .interfaceElems), t.node? id = some (.interface r) →
        ∃ elems, (t.list r).mapM (t.readInterfaceElem t.docLines? t.type?) = some elems := by
  refine ⟨outlineInterface_splits file, ?_, ?_, fun _ _ _ _ hrun _ _ hnode =>
    Progress.readInterfaceElems_finish hrun hnode⟩
  · intro st type nodes nodes' elems h hkinds
    obtain ⟨elems', helems', hsame⟩ := Store.readInterfaceElems_mixed h hkinds
    exact ⟨elems', helems', (outlineInterface_splits file elems).maps_eq
      (outlineInterface_splits file elems') hsame⟩
  · intro g s elems htype
    simp only [Source.TypeSpec.outline, htype]
    exact ⟨_, _, rfl, rfl, rfl⟩

/-- The script of an interface with the elements `T`, `T(x, x T)`, `T()`, `T` and `M() T`, of which the
first and the fourth one embed the type `T`. -/
def Step.mixedElements : List Step :=
  [.named "T", .term 0, .embedElem [1], .field ["x", "x"] 0, .signature [3] [],
    .methodElem ["takes two"] "T" 4, .signature [] [], .methodElem [] "T" 6, .embedElem [1],
    .signatureReturning [] 0, .methodElem [] "M" 9, .interface [2, 5, 7, 8, 10]]

theorem interface_split_mixed :
    ∃ p, (Progress.mk (.start "a.go" "main") #[]).run Step.mixedElements = some p ∧
      let t := p.builder.finish
      ∃ r elems elems', t.node? (s := .type) ⟨1⟩ = some (.interface r) ∧
        (t.list r).map InterfaceElemNode.isMethod = [false, true, true, false, true] ∧
        (t.list r).mapM (t.readInterfaceElem t.docLines? t.type?) = some elems ∧
        ((t.list r).filter (·.isMethod = true) ++ (t.list r).filter (·.isMethod = false)).mapM
          (t.readInterfaceElem t.docLines? t.type?) = some elems' ∧
        SplitsInterface ⟨0, 0⟩ elems (outlineInterface ⟨0, 0⟩ elems) ∧
        (outlineInterface ⟨0, 0⟩ elems').methods = (outlineInterface ⟨0, 0⟩ elems).methods ∧
        (outlineInterface ⟨0, 0⟩ elems').embeds = (outlineInterface ⟨0, 0⟩ elems).embeds ∧
        (outlineInterface ⟨0, 0⟩ elems).methods.keys = ["T", "M"] ∧
        (outlineInterface ⟨0, 0⟩ elems).embeds.keys = ["T"] ∧
        (outlineInterface ⟨0, 0⟩ elems).issues =
          [.redeclared "x", .redeclared "T", .redeclared "T"] := by
  have hrun : ((Progress.mk (.start "a.go" "main") #[]).run Step.mixedElements).any fun p =>
      let t := p.builder.finish
      (t.node? (s := .type) ⟨1⟩).any fun
        | .interface r =>
          (t.list r).map InterfaceElemNode.isMethod = [false, true, true, false, true] &&
            ((t.list r).mapM (t.readInterfaceElem t.docLines? t.type?)).all fun elems =>
              (outlineInterface ⟨0, 0⟩ elems).methods.keys = ["T", "M"] &&
              (outlineInterface ⟨0, 0⟩ elems).embeds.keys = ["T"] &&
              (outlineInterface ⟨0, 0⟩ elems).issues =
                [.redeclared "x", .redeclared "T", .redeclared "T"]
        | _ => false := by
    decide +kernel
  obtain ⟨p, hp, hany⟩ := (Option.any_eq_true _ _).1 hrun
  obtain ⟨node, hnode, hcheck⟩ := (Option.any_eq_true _ _).1 hany
  cases node with
  | interface r =>
    obtain ⟨hsplits, hmixed, -, hreadable⟩ := interface_split ⟨0, 0⟩
    obtain ⟨elems, helems⟩ := hreadable _ _ _ _ hp _ _ hnode
    simp only [helems, Option.all_some, Bool.and_eq_true, decide_eq_true_eq] at hcheck
    obtain ⟨hkinds, ⟨hmethods, hembeds⟩, hissues⟩ := hcheck
    obtain ⟨elems', helems', hsame⟩ := hmixed _ _ _
      ((p.builder.finish.list r).filter (·.isMethod = true) ++
        (p.builder.finish.list r).filter (·.isMethod = false)) _ helems (by
          rintro (_ | _) <;> simp [List.filter_filter])
    exact ⟨p, hp, r, elems, elems', hnode, hkinds, helems, helems', hsplits elems, hsame.1, hsame.2,
      hmethods, hembeds, hissues⟩
  | _ => simp at hcheck

end GoOutline
