/-
# The declarations of a file

The declarations of a file are listed here without regard to how an outline is put together: the
names of the constants and variables, the types that are defined, the functions and the methods,
each with its key. The outline of the file then has the keys of this list in the order of their
first occurrences. The policy only decides between the first and the last declaration of a key. What
else is in the outline does not depend on it, and each declaration after the first one of a key is
reported once.

A declaration that cannot be read is not in the list. In a finished tree there is none, so the list
has the keys of all nodes.
-/
import GoOutline.Outline.File
import GoOutline.Proofs.OrderedMap
import GoOutline.Proofs.Source.Reading
import GoOutline.Proofs.Source.Total
import Mathlib.Data.List.Induction

namespace GoOutline

/-! ## Declarations in source order -/

namespace Source

/-- The type that a spec itself gives to the names it declares. -/
def Spec.typeText? : Spec → Option String
  | .value s => s.type.map TypeExpr.text
  | _ => none

/-- The type that the nearest typed one of some specs gives, with which the next spec goes on. -/
def carriedType (specs : List Spec) : String := (specs.reverse.findSome? Spec.typeText?).getD ""

@[simp] lemma GeneralDecl.valueDecl_key (g : GeneralDecl) (v : ValueDecl) :
    (g.valueDecl v).key = v.name := by
  simp only [valueDecl]
  split <;> rfl

@[simp] lemma GeneralDecl.valueDecl_type (g : GeneralDecl) (v : ValueDecl) :
    (g.valueDecl v).declaredType? = some v.type := by
  simp only [valueDecl]
  split <;> rfl

/-- The constants or variables of a spec that follows the specs `before`. -/
def GeneralDecl.valueDecls (file : FileId) (g : GeneralDecl) (before : List Spec) :
    Spec → List Decl
  | .value s => s.names.zipIdx.map fun (name, i) =>
    g.valueDecl
      { name, file, doc := g.specDoc s.doc, type := carriedType (before ++ [.value s])
        value := valueAt (s.values.map Expr.text) i }
  | _ => []

/-- The type of a spec, if it defines one. -/
def GeneralDecl.typeDecl? (file : FileId) (g : GeneralDecl) : Spec → Option Decl
  | .type s => some (s.outline file g).1
  | _ => none

/-- The declarations of a general declaration. -/
def GeneralDecl.decls (file : FileId) (g : GeneralDecl) : List Decl :=
  match g.group with
  | .imports => []
  | .types => g.specs.filterMap (g.typeDecl? file)
  | _ => (g.specs.mapBefore (g.valueDecls file)).flatten

/-- The declarations of a top-level declaration. -/
def TopDecl.decls (file : FileId) : TopDecl → List Decl
  | .general g => g.decls file
  | .func f => [(f.outline file).1]
  | .bad => []

/-- A general declaration declares constants, variables and types. -/
lemma GeneralDecl.mem_decls {file : FileId} {g : GeneralDecl} {d : Decl} (hd : d ∈ g.decls file) :
    (∃ v, d = g.valueDecl v) ∨ ∃ s : TypeSpec, .type s ∈ g.specs ∧ d = (s.outline file g).1 := by
  have hvalues : d ∈ (g.specs.mapBefore (g.valueDecls file)).flatten → ∃ v, d = g.valueDecl v := by
    intro hd
    obtain ⟨ds, hds, hd⟩ := List.mem_flatten.1 hd
    obtain ⟨⟨s, i⟩, -, rfl⟩ := List.mem_map.1 hds
    cases s with
    | value s =>
      obtain ⟨v, -, rfl⟩ := List.mem_map.1 hd
      exact ⟨_, rfl⟩
    | _ => simp [valueDecls] at hd
  cases hgroup : g.group with
  | imports => simp [decls, hgroup] at hd
  | types =>
    simp only [decls, hgroup, List.mem_filterMap] at hd
    obtain ⟨s, hmem, hs⟩ := hd
    cases s with
    | type s => exact .inr ⟨s, hmem, (Option.some.inj hs).symm⟩
    | _ => simp [typeDecl?] at hs
  | consts => exact .inl (hvalues (by simpa [decls, hgroup] using hd))
  | vars => exact .inl (hvalues (by simpa [decls, hgroup] using hd))

end Source

/-- The key of a declaration that follows the declarations `before`. The repeatable ones of a key
are numbered from the second one on. -/
def Decl.keyAfter (before : List Decl) (d : Decl) : String :=
  let n := before.countP fun e => e.mayRepeat && e.key == d.key
  if d.mayRepeat ∧ 1 ≤ n then indexedKey d.key n else d.key

/-- A declaration with its key. -/
def Decl.pairAfter (before : List Decl) (d : Decl) : String × Decl := (d.keyAfter before, d)

/-- Declarations with their keys. -/
def keyed (ds : List Decl) : List (String × Decl) := ds.mapBefore Decl.pairAfter

/-- The declarations of a tree in source order. -/
def Tree.declarations (t : Tree) (file : FileId) : List Decl :=
  t.sourceFile.decls.flatMap (Source.TopDecl.decls file)

/-! ## Entries

The entries of a declaration contain what it declares, with issues and imports in between. -/

/-- The declaration of an entry. -/
def Entry.decl? : Entry → Option Decl
  | .decl d => some d
  | _ => none

/-- The issue of an entry. -/
def Entry.issue? : Entry → Option Issue
  | .issue i => some i
  | _ => none

namespace Source

variable {file : FileId} {g : GeneralDecl}

lemma filterMap_decl?_issues (issues : List Issue) (entries : List Entry) :
    (issues.map Entry.issue ++ entries).filterMap Entry.decl? = entries.filterMap Entry.decl? := by
  induction issues with
  | nil => rfl
  | cons i issues ih => exact ih

lemma carriedType_concat_value (before : List Spec) (s : ValueSpec) :
    carriedType (before ++ [.value s]) = s.type.elim (carriedType before) TypeExpr.text := by
  cases htype : s.type <;> simp [carriedType, Spec.typeText?, htype]

lemma carriedType_concat_other (before : List Spec) {s : Spec} (hs : s.typeText? = none) :
    carriedType (before ++ [s]) = carriedType before := by
  simp [carriedType, hs]

lemma ValueSpec.entries_decls (before : List Spec) (s : ValueSpec) :
    (s.entries file g (carriedType (before ++ [.value s]))).filterMap Entry.decl? =
      g.valueDecls file before (.value s) := by
  rw [ValueSpec.entries, filterMap_decl?_issues, List.filterMap_map]
  exact congrFun List.filterMap_eq_map _

/-- The specs from some point on declare what they do in their place among all specs. -/
lemma valueEntries_decls (before specs : List Spec) :
    (valueEntries file g (carriedType before) specs).filterMap Entry.decl? =
      (specs.mapBefore fun later => g.valueDecls file (before ++ later)).flatten := by
  induction specs generalizing before with
  | nil => rfl
  | cons s specs ih =>
    rw [List.mapBefore_cons_after, List.flatten_cons, ← ih]
    cases s with
    | value s =>
      rw [valueEntries, List.filterMap_append, ← carriedType_concat_value, ValueSpec.entries_decls]
    | _ => rw [valueEntries, carriedType_concat_other before rfl] <;> first | rfl | simp

lemma typeEntries_decls (s : Spec) :
    (g.typeEntries file s).filterMap Entry.decl? = (g.typeDecl? file s).toList := by
  cases s with
  | type s =>
    rw [GeneralDecl.typeEntries, TypeSpec.entries, filterMap_decl?_issues]
    rfl
  | _ => rfl

lemma GeneralDecl.entries_decls (file : FileId) (g : GeneralDecl) :
    (g.entries file).filterMap Entry.decl? = g.decls file := by
  have hvalues : (valueEntries file g (carriedType []) g.specs).filterMap Entry.decl? =
      (g.specs.mapBefore (g.valueDecls file)).flatten := valueEntries_decls [] g.specs
  cases hgroup : g.group with
  | imports =>
    simp only [GeneralDecl.entries, GeneralDecl.decls, hgroup, List.filterMap_map]
    refine List.filterMap_eq_nil_iff.2 fun s _ => ?_
    cases s <;> rfl
  | types =>
    simp only [GeneralDecl.entries, GeneralDecl.decls, hgroup, List.filterMap_flatMap,
      typeEntries_decls]
    exact (List.filterMap_eq_flatMap_toList _ _).symm
  | consts =>
    simp only [GeneralDecl.entries, GeneralDecl.decls, hgroup]
    exact hvalues
  | vars =>
    simp only [GeneralDecl.entries, GeneralDecl.decls, hgroup]
    exact hvalues

lemma TopDecl.entries_decls (file : FileId) (d : TopDecl) :
    (d.entries file).filterMap Entry.decl? = d.decls file := by
  cases d with
  | general g => exact g.entries_decls file
  | func f =>
    rw [TopDecl.entries, FuncDecl.entries, filterMap_decl?_issues]
    rfl
  | bad => rfl

end Source

/-! ## Keys -/

/-- The declaration of a filing with its key. -/
def Filing.pair? : Filing → Option (String × Decl)
  | .decl key d => some (key, d)
  | _ => none

/-- The import of a filing with its path. -/
def Filing.import? : Filing → Option (String × Import)
  | .imported i => some (i.path, i)
  | _ => none

/-- The issue of a filing. -/
def Filing.issue? : Filing → Option Issue
  | .issue i => some i
  | _ => none

lemma fileUnder_issues (seen : List String) (entries : List Entry) :
    (fileUnder seen entries).filterMap Filing.issue? = entries.filterMap Entry.issue? := by
  induction entries generalizing seen with
  | nil => rfl
  | cons entry entries ih =>
    cases entry with
    | decl d =>
      rw [fileUnder]
      split <;> exact ih _
    | imported i => exact ih seen
    | issue i => exact congrArg (i :: ·) (ih seen)

/-- The keys that `fileUnder` gives out after the declarations `before` are those that the
declarations have in their places. -/
lemma fileUnder_pairs (entries : List Entry) (seen : List String) (before : List Decl)
    (hseen : ∀ key, seen.count key = before.countP fun e => e.mayRepeat && e.key == key) :
    (fileUnder seen entries).filterMap Filing.pair? =
      (entries.filterMap Entry.decl?).mapBefore fun later => Decl.pairAfter (before ++ later) := by
  induction entries generalizing seen before with
  | nil => rfl
  | cons entry entries ih =>
    cases entry with
    | imported i => exact ih seen before hseen
    | issue i => exact ih seen before hseen
    | decl d =>
      have hdecls : (Entry.decl d :: entries).filterMap Entry.decl? =
          d :: entries.filterMap Entry.decl? := rfl
      rw [hdecls, List.mapBefore_cons_after, fileUnder, Decl.pairAfter]
      split
      · rename_i hrepeat
        rw [← ih (d.key :: seen) (before ++ [d])]
        · -- the counter holds the number of repeatable declarations of the key so far
          have hkey : repeatedKey d.key (seen.count d.key) = d.keyAfter before := by
            simp only [Decl.keyAfter, ← hseen, hrepeat, true_and, repeatedKey]
            cases seen.count d.key <;> simp
          rw [← hkey]
          rfl
        · intro key
          rw [List.count_cons, List.countP_append, ← hseen]
          simp [hrepeat, List.countP_singleton]
      · rename_i hrepeat
        rw [← ih seen (before ++ [d])]
        · have hkey : d.keyAfter before = d.key := by simp [Decl.keyAfter, hrepeat]
          rw [hkey]
          rfl
        · intro key
          rw [List.countP_append, ← hseen]
          simp [hrepeat]

/-- The filings of a tree: what its declarations contribute to the outline, in source order. -/
def Tree.filings (t : Tree) (file : FileId) : List Filing :=
  fileUnder [] (t.sourceFile.decls.flatMap (Source.TopDecl.entries file))

lemma Tree.filings_pairs (t : Tree) (file : FileId) :
    (t.filings file).filterMap Filing.pair? = keyed (t.declarations file) := by
  have hdecls : (t.sourceFile.decls.flatMap (Source.TopDecl.entries file)).filterMap Entry.decl? =
      t.declarations file := by
    rw [List.filterMap_flatMap, Tree.declarations]
    exact List.flatMap_congr fun d _ => d.entries_decls file
  rw [Tree.filings, fileUnder_pairs _ [] [] (by simp), hdecls]
  rfl

/-! ## Storing -/

/-- What a policy leaves under a key. -/
def Redeclaration.value? {V : Type} : Redeclaration → List (String × V) → String → Option V
  | .keepFirst => OrderedMap.firstValue?
  | .replace => OrderedMap.lastValue?

/-- A map holds only what was put into it, and under the same keys. -/
lemma OrderedMap.Lists.mem_pairs {V : Type} {m : OrderedMap V} {policy : Redeclaration}
    {ps : List (String × V)} (h : m.Lists policy.value? ps) {e : String × V} (he : e ∈ m.entries) :
    e ∈ ps := by
  have hget := get?_eq_some_iff.2 he
  rw [h.get?] at hget
  cases policy with
  | keepFirst => exact mem_of_firstValue? hget
  | replace => exact mem_of_lastValue? hget

/-- The issues that a filing adds when it is stored after others. -/
def Filing.reports (before : List Filing) : Filing → List Issue
  | .decl key _ =>
    if key ∈ (before.filterMap Filing.pair?).map Prod.fst then [.redeclared key] else []
  | .imported i =>
    if i.path ∈ (before.filterMap Filing.import?).map Prod.fst then [.redeclared i.path] else []
  | .issue i => [i]

/-- The outline of a tree before anything is stored in it. -/
def Tree.blankOutline (t : Tree) (id : FileId) (package : String) : File :=
  { id, path := t.path, comments := t.sourceFile.comments, doc := t.sourceFile.doc
    issues := (File.packageIssue? package t.sourceFile).toList }

namespace File

/-- The file `f` is `blank` with some filings stored in it. -/
structure Stores (policy : Redeclaration) (blank : File) (filings : List Filing) (f : File) :
    Prop where
  doc : f.doc = blank.doc
  comments : f.comments = blank.comments
  decls : f.decls.Lists policy.value? (filings.filterMap Filing.pair?)
  imports : f.imports.Lists OrderedMap.firstValue? (filings.filterMap Filing.import?)
  issues : f.issues = blank.issues ++ (filings.mapBefore Filing.reports).flatten

variable {policy : Redeclaration} {blank f : File} {filings : List Filing}

/-- The issues after one more filing. -/
lemma Stores.issues_concat (h : Stores policy blank filings f) (filing : Filing) :
    blank.issues ++ ((filings ++ [filing]).mapBefore Filing.reports).flatten =
      f.issues ++ filing.reports filings := by
  rw [List.mapBefore_concat, h.issues]
  simp

lemma Stores.addImport (h : Stores policy blank filings f) (i : Import) :
    Stores policy blank (filings ++ [Filing.imported i]) (f.addImport i) := by
  have hpairs : (filings ++ [Filing.imported i]).filterMap Filing.pair? =
      filings.filterMap Filing.pair? := by simp [Filing.pair?]
  have himports : (filings ++ [Filing.imported i]).filterMap Filing.import? =
      filings.filterMap Filing.import? ++ [(i.path, i)] := by simp [Filing.import?]
  have hreports : i.path ∈ f.imports.keys ↔ i.path ∈ (filings.filterMap Filing.import?).map Prod.fst :=
    h.imports.mem_keys
  by_cases hmem : i.path ∈ f.imports.keys
  · simp only [File.addImport, OrderedMap.insertNew_of_mem hmem]
    refine ⟨h.doc, h.comments, hpairs ▸ h.decls, himports ▸ h.imports.turnDown hmem i, ?_⟩
    rw [h.issues_concat, Filing.reports, if_pos (hreports.1 hmem)]
    rfl
  · simp only [File.addImport, OrderedMap.insertNew_of_not_mem hmem]
    refine ⟨h.doc, h.comments, hpairs ▸ h.decls, himports ▸ h.imports.push hmem i, ?_⟩
    rw [h.issues_concat, Filing.reports, if_neg fun hin => hmem (hreports.2 hin), List.append_nil]

/-- Storing a declaration keeps the maps in step with the list of what is declared, and reports a
key that is in use. -/
lemma Stores.addDecl (h : Stores policy blank filings f) (key : String) (d : Decl) :
    Stores policy blank (filings ++ [Filing.decl key d]) (f.addDecl policy key d) := by
  have hpairs : (filings ++ [Filing.decl key d]).filterMap Filing.pair? =
      filings.filterMap Filing.pair? ++ [(key, d)] := by simp [Filing.pair?]
  have himports : (filings ++ [Filing.decl key d]).filterMap Filing.import? =
      filings.filterMap Filing.import? := by simp [Filing.import?]
  have hreports : key ∈ f.decls.keys ↔ key ∈ (filings.filterMap Filing.pair?).map Prod.fst :=
    h.decls.mem_keys
  by_cases hmem : key ∈ f.decls.keys
  · have hissues : f.issues ++ [.redeclared key] = blank.issues ++
        ((filings ++ [Filing.decl key d]).mapBefore Filing.reports).flatten := by
      rw [h.issues_concat, Filing.reports, if_pos (hreports.1 hmem)]
    cases policy with
    | keepFirst =>
      simp only [File.addDecl, OrderedMap.insertNew_of_mem hmem]
      exact ⟨h.doc, h.comments, hpairs ▸ OrderedMap.Lists.turnDown h.decls hmem d,
        himports ▸ h.imports, hissues⟩
    | replace =>
      simp only [File.addDecl, OrderedMap.insertNew_of_mem hmem]
      exact ⟨h.doc, h.comments, hpairs ▸ OrderedMap.Lists.replace h.decls key d,
        himports ▸ h.imports, hissues⟩
  · have hissues : f.issues = blank.issues ++
        ((filings ++ [Filing.decl key d]).mapBefore Filing.reports).flatten := by
      rw [h.issues_concat, Filing.reports, if_neg fun hin => hmem (hreports.2 hin), List.append_nil]
    -- a new entry is the same for both policies
    have hdecls : (f.decls.push key d (OrderedMap.contains_eq_false_iff.2 hmem)).Lists
        policy.value? (filings.filterMap Filing.pair? ++ [(key, d)]) := by
      cases policy with
      | keepFirst => exact OrderedMap.Lists.push h.decls hmem d
      | replace =>
        rw [← OrderedMap.replace_of_not_mem hmem]
        exact OrderedMap.Lists.replace h.decls key d
    simp only [File.addDecl, OrderedMap.insertNew_of_not_mem hmem]
    exact ⟨h.doc, h.comments, hpairs ▸ hdecls, himports ▸ h.imports, hissues⟩

lemma Stores.store (h : Stores policy blank filings f) (filing : Filing) :
    Stores policy blank (filings ++ [filing]) (f.store policy filing) := by
  cases filing with
  | decl key d => exact h.addDecl key d
  | imported i => exact h.addImport i
  | issue i =>
    have hpairs : (filings ++ [Filing.issue i]).filterMap Filing.pair? =
        filings.filterMap Filing.pair? := by simp [Filing.pair?]
    have himports : (filings ++ [Filing.issue i]).filterMap Filing.import? =
        filings.filterMap Filing.import? := by simp [Filing.import?]
    refine ⟨h.doc, h.comments, hpairs ▸ h.decls, himports ▸ h.imports, ?_⟩
    rw [h.issues_concat]
    rfl

/-- What holds of one filing holds of a list of them. -/
lemma Stores.foldl (h : Stores policy blank filings f) (more : List Filing) :
    Stores policy blank (filings ++ more) (more.foldl (File.store policy) f) := by
  induction more generalizing filings f with
  | nil => simpa using h
  | cons filing more ih => simpa using ih (h.store filing)

lemma ofTree_stores (policy : Redeclaration) (id : FileId) (package : String) (t : Tree) :
    Stores policy (t.blankOutline id package) (t.filings id) (ofTree policy id package t) := by
  have hdecls : (t.blankOutline id package).decls.Lists policy.value? [] := by
    cases policy <;> exact .empty fun _ => rfl
  have hblank : Stores policy (t.blankOutline id package) [] (t.blankOutline id package) :=
    ⟨rfl, rfl, hdecls, .empty fun _ => rfl, by simp⟩
  exact hblank.foldl (t.filings id)

end File

/-! ## Nodes

The keys of what is declared can be told from the nodes. -/

namespace Store

/-- Whether a type spec declares a type: its type could be understood, and it is not an alias of an
instantiated type. -/
def declaresType (st : Store) (s : TypeSpecNode) : Bool :=
  match (st.node? s.type : Option TypeNode) with
  | none => false
  | some .bad => false
  | some type => !(s.isAlias && type.isInstantiated)

/-- The names that a spec declares in a declaration of the given group. -/
def specKeys (st : Store) : DeclGroup → SpecNode → List String
  | .consts, .value s => st.names s.names
  | .vars, .value s => st.names s.names
  | .types, .type s => if st.declaresType s then [st.name s.name.symbol] else []
  | _, _ => []

/-- The type of a receiver by name, without parentheses and pointer. -/
def receiverKey (st : Store) (r : ReceiverNode) : String :=
  ((st.type? r.type).map fun type => (receiverType (receiverBase type).1).1).getD ""

/-- The name of a function; that of a method stands after its receiver. -/
def funcKey (st : Store) (f : FuncNode) : String :=
  match f.receiver with
  | none => st.name f.name.symbol
  | some r => st.receiverKey r ++ "." ++ st.name f.name.symbol

/-- The keys of a top-level declaration, before repetitions are numbered. -/
def declKeys (st : Store) : TopDeclNode → List String
  | .func id => ((st.node? id : Option FuncNode).map st.funcKey).toList
  | .decl id =>
    match (st.node? id : Option DeclNode) with
    | some (.general g) => (st.list g.specs).flatMap (st.specKeys g.group)
    | _ => []

variable {st : Store} {file : FileId}

lemma outline_key (g : Source.GeneralDecl) (s : Source.TypeSpec) :
    (s.outline file g).1.key = s.name := by
  simp only [Source.TypeSpec.outline]
  split <;> rfl

lemma func?_key {id : FuncId} {f : FuncNode} (hf : st.node? id = some f) {x : Source.FuncDecl}
    (hx : st.func? id = some x) : (x.outline file).1.key = st.funcKey f := by
  have hreads := func?_parts_of_node hf hx
  cases hrecv : f.receiver with
  | none =>
    simp only [Source.FuncDecl.outline, hreads.receiver_eq_none hrecv, funcKey, hrecv]
    exact hreads.name
  | some r =>
    obtain ⟨y, hy, hsome⟩ := hreads.exists_receiver hrecv
    obtain ⟨htype, -, -⟩ := receiver?_parts hy
    simp only [Source.FuncDecl.outline, hsome, funcKey, hrecv, receiverKey, htype, ← hreads.name]
    rfl

lemma valueDecls_keys (g : Source.GeneralDecl) (before : List Source.Spec) (s : Source.ValueSpec) :
    (g.valueDecls file before (.value s)).map Decl.key = s.names := by
  simp only [Source.GeneralDecl.valueDecls, List.map_map, Function.comp_def,
    Source.GeneralDecl.valueDecl_key]
  simp

lemma typeSpec?_keys {g : Source.GeneralDecl} {s : TypeSpecNode} {x : Source.Spec}
    (hx : st.typeSpec? s = some x) :
    ((g.typeDecl? file x).map Decl.key).toList =
      if st.declaresType s then [st.name s.name.symbol] else [] := by
  obtain ⟨node, hnode, hreads⟩ := typeSpec?_parts hx
  have hdeclares (hbad : node ≠ .bad) :
      st.declaresType s = !(s.isAlias && node.isInstantiated) := by
    rw [declaresType, hnode]
    cases node <;> first | rfl | exact absurd rfl hbad
  cases hreads with
  | badType => simp [declaresType, hnode, Source.GeneralDecl.typeDecl?]
  | instanceAlias hbad halias =>
    simp [hdeclares hbad, halias, Source.GeneralDecl.typeDecl?]
  | type hbad halias _ hname =>
    simp [hdeclares hbad, halias, Source.GeneralDecl.typeDecl?, outline_key, hname]

lemma typeSpecs_keys {g : Source.GeneralDecl} {specs : List SpecNode} {xs : List Source.Spec}
    (hxs : List.Forall₂ (fun s x => st.spec? .types s = some x) specs xs) :
    (xs.filterMap (g.typeDecl? file)).map Decl.key = specs.flatMap (st.specKeys .types) := by
  induction hxs with
  | nil => rfl
  | @cons s x specs xs hx _ ih =>
    have hkeys : ((g.typeDecl? file x).map Decl.key).toList = st.specKeys .types s := by
      cases s with
      | type s => exact typeSpec?_keys hx
      | imported s => obtain rfl := Option.some.inj hx; rfl
      | value s => obtain rfl := Option.some.inj hx; rfl
    rw [List.flatMap_cons, ← ih, ← hkeys]
    cases hd : g.typeDecl? file x <;> simp [hd]

/-- The specs of a value declaration declare the names of the value specs among them. -/
lemma valueSpecs_keys {g : Source.GeneralDecl} {group : DeclGroup}
    (hgroup : group = .consts ∨ group = .vars) {specs : List SpecNode} {xs : List Source.Spec}
    (hxs : List.Forall₂ (fun s x => st.spec? group s = some x) specs xs)
    (before : List Source.Spec) :
    ((xs.mapBefore fun later => g.valueDecls file (before ++ later)).flatten).map Decl.key =
      specs.flatMap (st.specKeys group) := by
  induction hxs generalizing before with
  | nil => rfl
  | @cons s x specs xs hx _ ih =>
    have hkeys : (g.valueDecls file before x).map Decl.key = st.specKeys group s := by
      rcases hgroup with rfl | rfl <;> cases s with
      | value s =>
        obtain ⟨v, hv, hx⟩ := Option.bind_eq_some_iff.1 hx
        obtain rfl := Option.some.inj hx
        obtain ⟨-, -, -, hnames⟩ := valueSpec?_parts hv
        rw [valueDecls_keys, hnames]
        rfl
      | imported s => obtain rfl := Option.some.inj hx; rfl
      | type s => obtain rfl := Option.some.inj hx; rfl
    rw [List.mapBefore_cons_after, List.flatten_cons, List.map_append, hkeys, ih,
      List.flatMap_cons]

lemma topDecl?_keys {d : TopDeclNode} {x : Source.TopDecl} (hx : st.topDecl? d = some x) :
    (x.decls file).map Decl.key = st.declKeys d := by
  cases d with
  | func id =>
    obtain ⟨f, hf, rfl⟩ := topDecl?_func hx
    obtain ⟨node, hnode, -⟩ := func?_parts hf
    simp [Source.TopDecl.decls, declKeys, hnode, func?_key hnode hf]
  | decl id =>
    obtain ⟨hnode, rfl⟩ | ⟨g, specs, doc, hnode, hspecs, -, rfl⟩ := topDecl?_decl hx
    · simp [Source.TopDecl.decls, declKeys, hnode]
    · have hspecs := List.mapM_eq_some_iff.1 hspecs
      simp only [Source.TopDecl.decls, Source.GeneralDecl.decls, declKeys, hnode]
      cases hgroup : g.group with
      | imports =>
        refine (List.flatMap_eq_nil_iff.2 fun s _ => ?_).symm
        cases s <;> rfl
      | types => exact typeSpecs_keys (hgroup ▸ hspecs)
      | consts => exact valueSpecs_keys (.inl rfl) (hgroup ▸ hspecs) []
      | vars => exact valueSpecs_keys (.inr rfl) (hgroup ▸ hspecs) []

end Store

lemma Store.decls_keys {st : Store} {file : FileId} (ds : List TopDeclNode) :
    ((ds.map fun d => (st.topDecl? d).getD .bad).flatMap (Source.TopDecl.decls file)).map Decl.key =
      (ds.filter fun d => (st.topDecl? d).isSome).flatMap st.declKeys := by
  induction ds with
  | nil => rfl
  | cons d ds ih =>
    rw [List.map_cons, List.flatMap_cons, List.map_append, ih]
    cases hx : st.topDecl? d with
    | none => simp [hx, Source.TopDecl.decls]
    | some x =>
      rw [List.filter_cons_of_pos (by simp [hx]), List.flatMap_cons, ← topDecl?_keys hx]
      rfl

lemma Tree.declarations_keys (t : Tree) (file : FileId) :
    (t.declarations file).map Decl.key =
      (t.topDecls.filter fun d => (t.topDecl? d).isSome).flatMap t.declKeys :=
  Store.decls_keys t.topDecls

/-! ## Outlines -/

/-- One issue for each pair whose key has come before. -/
def repeatReports (ps : List (String × Decl)) : List Issue :=
  (ps.mapBefore fun before p => if p.1 ∈ before.map Prod.fst then [.redeclared p.1] else []).flatten

/-- The issues that declarations add when filings are stored. -/
def declReports (filings : List Filing) : List Issue :=
  (filings.mapBefore fun before x => if x.pair?.isSome then x.reports before else []).flatten

lemma declReports_eq (filings : List Filing) :
    declReports filings = repeatReports (filings.filterMap Filing.pair?) := by
  induction filings using List.reverseRecOn with
  | nil => rfl
  | append_singleton filings x ih =>
    have hleft : declReports (filings ++ [x]) =
        declReports filings ++ if x.pair?.isSome then x.reports filings else [] := by
      simp [declReports, List.mapBefore_concat]
    rw [hleft, ih, List.filterMap_append]
    cases x with
    | decl key d =>
      have hright : [Filing.decl key d].filterMap Filing.pair? = [(key, d)] := rfl
      simp [hright, repeatReports, List.mapBefore_concat, Filing.reports, Filing.pair?]
    | imported i =>
      have hright : [Filing.imported i].filterMap Filing.pair? = [] := rfl
      simp [hright, Filing.pair?]
    | issue i =>
      have hright : [Filing.issue i].filterMap Filing.pair? = [] := rfl
      simp [hright, Filing.pair?]

/-- The outlines of a tree list its declarations. -/
structure Tree.Outlined (t : Tree) (id : FileId) (package : String) : Prop where
  /-- The keys before numbering are those of the nodes that can be read, in their order. -/
  keys : (t.declarations id).map Decl.key =
    (t.topDecls.filter fun d => (t.topDecl? d).isSome).flatMap t.declKeys
  decls : ∀ policy, (File.ofTree policy id package t).decls.Lists policy.value?
    (keyed (t.declarations id))
  /-- The policies differ in nothing else. -/
  issues : (File.ofTree .keepFirst id package t).issues = (File.ofTree .replace id package t).issues
  imports : (File.ofTree .keepFirst id package t).imports =
    (File.ofTree .replace id package t).imports
  doc : (File.ofTree .keepFirst id package t).doc = (File.ofTree .replace id package t).doc
  comments : (File.ofTree .keepFirst id package t).comments =
    (File.ofTree .replace id package t).comments
  /-- The issues stand in source order, and a declaration adds one exactly if its key has come
  before. -/
  reports : ∀ policy, (File.ofTree policy id package t).issues =
    (File.packageIssue? package t.sourceFile).toList ++
      ((t.filings id).mapBefore Filing.reports).flatten
  repeats : declReports (t.filings id) = repeatReports (keyed (t.declarations id))

lemma Tree.outlined (t : Tree) (id : FileId) (package : String) : t.Outlined id package := by
  have hfirst := File.ofTree_stores .keepFirst id package t
  have hlast := File.ofTree_stores .replace id package t
  have hpairs := t.filings_pairs id
  refine ⟨t.declarations_keys id, fun policy => ?_, hfirst.issues.trans hlast.issues.symm,
    hfirst.imports.unique hlast.imports, hfirst.doc.trans hlast.doc.symm,
    hfirst.comments.trans hlast.comments.symm, fun policy => ?_, ?_⟩
  · rw [← hpairs]
    exact (File.ofTree_stores policy id package t).decls
  · exact (File.ofTree_stores policy id package t).issues
  · rw [declReports_eq, hpairs]

/-- No declaration of a tree is left out: each of them can be read, and the list has the keys of all
nodes. -/
structure Tree.ListsAll (t : Tree) : Prop where
  readable : ∀ d ∈ t.topDecls, (t.topDecl? d).isSome
  keys : ∀ id, (t.declarations id).map Decl.key = t.topDecls.flatMap t.declKeys

lemma Tree.listsAll_of_readable {t : Tree} (h : ∀ d ∈ t.topDecls, (t.topDecl? d).isSome) :
    t.ListsAll where
  readable := h
  keys id := by rw [t.declarations_keys id, List.filter_eq_self.2 h]

/-- The outline of any tree has the declarations of the tree under their keys, whatever the policy,
in the order in which the keys first occur. None of the declarations of a finished tree is left
out. -/
theorem File.ofTree_outlined :
    (∀ (t : Tree) (id : FileId) (package : String), t.Outlined id package) ∧
    ∀ path package steps p, (Progress.mk (.start path package) #[]).run steps = some p →
      p.builder.finish.ListsAll :=
  ⟨Tree.outlined, fun _ _ _ _ hrun => Tree.listsAll_of_readable (Progress.topDecl?_finish hrun)⟩

/-- The script of declarations of all kinds. Constants, variables and a function share the name `a`,
and `_` and `init` are declared again. An alias of an instantiated type and a type that could not be
understood define nothing. -/
def Step.allKinds : List Step :=
  [.named "int", .valueSpec ["a", "_"] (some 0) [], .valueSpec ["_", "b"] none [],
    .declGroup .vars [1, 2], .valueSpec ["a"] none [], .decl .consts 4, .struct [], .typeSpec "T" 6,
    .instantiated "List" [0], .aliasSpec "L" 8, .badType, .typeSpec "B" 10,
    .declGroup .types [7, 9, 11], .signature [] [], .func "init" 13, .func "a" 13, .named "T",
    .pointer 16, .receiver (some "t") 17, .method 18 "M" 13, .func "init" 13, .interface [],
    .typeSpec "I" 21, .decl .types 22]

theorem File.ofTree_outlined_allKinds :
    ∃ p, (Progress.mk (.start "a.go" "main") #[]).run Step.allKinds = some p ∧
      let t := p.builder.finish
      let first := File.ofTree .keepFirst ⟨0, 0⟩ "main" t
      let last := File.ofTree .replace ⟨0, 0⟩ "main" t
      t.topDecls.flatMap t.declKeys =
          ["a", "_", "_", "b", "a", "T", "init", "a", "T.M", "init", "I"] ∧
        first.decls.keys = ["a", "_", "_#1", "b", "T", "init", "T.M", "init#1", "I"] ∧
        last.decls.keys = first.decls.keys ∧
        first.decls.values.map Decl.kind =
          [.var, .var, .var, .var, .struct, .func, .method, .func, .interface] ∧
        last.decls.values.map Decl.kind =
          [.func, .var, .var, .var, .struct, .func, .method, .func, .interface] ∧
        first.issues = [.redeclared "a", .unexpected .badType, .redeclared "a"] ∧
        t.Outlined ⟨0, 0⟩ "main" ∧ t.ListsAll := by
  have hrun : ((Progress.mk (.start "a.go" "main") #[]).run Step.allKinds).any fun p =>
      let t := p.builder.finish
      let first := File.ofTree .keepFirst ⟨0, 0⟩ "main" t
      let last := File.ofTree .replace ⟨0, 0⟩ "main" t
      t.topDecls.flatMap t.declKeys =
          ["a", "_", "_", "b", "a", "T", "init", "a", "T.M", "init", "I"] &&
        first.decls.keys = ["a", "_", "_#1", "b", "T", "init", "T.M", "init#1", "I"] &&
        last.decls.keys = first.decls.keys &&
        first.decls.values.map Decl.kind =
          [.var, .var, .var, .var, .struct, .func, .method, .func, .interface] &&
        last.decls.values.map Decl.kind =
          [.func, .var, .var, .var, .struct, .func, .method, .func, .interface] &&
        first.issues = [.redeclared "a", .unexpected .badType, .redeclared "a"] := by
    decide +kernel
  obtain ⟨p, hp, hcheck⟩ := (Option.any_eq_true _ _).1 hrun
  simp only [Bool.and_eq_true, decide_eq_true_eq] at hcheck
  obtain ⟨⟨⟨⟨⟨hnodes, hfirst⟩, hlast⟩, hkinds⟩, hkinds'⟩, hissues⟩ := hcheck
  obtain ⟨houtlined, hlists⟩ := File.ofTree_outlined
  exact ⟨p, hp, hnodes, hfirst, hlast, hkinds, hkinds', hissues, houtlined _ _ _,
    hlists _ _ _ _ hp⟩

end GoOutline
