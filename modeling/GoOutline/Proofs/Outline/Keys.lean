/-
# Keys

Whatever the outline of a file holds is looked up by a key. The keys are given out in many places:
where members are collected, where elements are added to an interface, and where the file is put
together. Here the rules are said once, on the finished outline, and every outline follows them,
whatever the tree and the policy.
-/
import GoOutline.Proofs.Outline.Alike
import GoOutline.Proofs.Outline.Declarations

namespace GoOutline

/-! ## Rules for keys -/

/-- No key occurs twice, and each value stands under a key that the rule allows for it. -/
structure OrderedMap.Obeys {V : Type} (m : OrderedMap V) (rule : String → V → Prop) : Prop where
  nodup : m.keys.Nodup
  rule : ∀ e ∈ m.entries, rule e.1 e.2

/-- The key of a field in a list, in which it has a number. -/
inductive Field.StoredUnder (f : Field) (number : Nat) : FieldListKind → String → Prop
  | embedded (hname : f.unnamed = true) : f.StoredUnder number .struct f.type
  | unnamed (hname : f.unnamed = true) :
    f.StoredUnder number .params (f.type ++ "#" ++ toString number)
  | blank {kind : FieldListKind} (hname : f.unnamed = false) (hblank : f.name = "_") :
    f.StoredUnder number kind ("_#" ++ toString number)
  | named {kind : FieldListKind} (hname : f.unnamed = false) (hblank : f.name ≠ "_") :
    f.StoredUnder number kind f.name

/-- The fields of a list have the keys that go with their numbers. In the order of the map the
numbers increase. -/
structure OrderedMap.Numbered (m : Fields) (kind : FieldListKind) : Prop where
  nodup : m.keys.Nodup
  keys : ∃ numbers : List Nat, numbers.Pairwise (· < ·) ∧
    List.Forall₂ (fun n e => e.2.StoredUnder n kind e.1) numbers m.entries

/-- Each field stands under its own name. -/
abbrev OrderedMap.ByName (m : Fields) : Prop := m.Obeys fun key f => key = f.name

/-- Type parameters, parameters and results are stored by the rules. -/
structure FuncDecl.Filed (d : FuncDecl) : Prop where
  typeParams : d.typeParams.ByName
  params : d.params.Numbered .params
  results : d.results.Numbered .params

/-- The members of a method are stored by the rules. -/
structure MethodDecl.Filed (d : MethodDecl) : Prop where
  signature : d.toFuncDecl.Filed
  receiverTypeParams : d.receiverTypeParams.ByName

/-- A method of an interface has no receiver and stands under its name. -/
structure MethodDecl.InInterface (d : MethodDecl) (key : String) : Prop where
  key_eq : key = d.name
  receiver : d.receiver = none
  members : d.Filed

/-- An embedded element stands under its type and has no name. -/
def Field.IsEmbed (f : Field) (key : String) : Prop := key = f.type ∧ f.unnamed = true

namespace Decl

/-- The members of a declaration are stored by the rules. -/
def Filed : Decl → Prop
  | .var _ => True
  | .const _ => True
  | .type d => d.typeParams.ByName
  | .func d => d.Filed
  | .method d => d.Filed
  | .struct d => d.fields.Numbered .struct ∧ d.typeParams.ByName
  | .interface d => d.methods.Obeys (fun key m => m.InInterface key) ∧
    d.embeds.Obeys (fun key f => f.IsEmbed key) ∧ d.typeParams.ByName

/-- The key of a declaration by itself: the name, with the receiver type in front of that of a
method. -/
inductive BaseKey : Decl → String → Prop
  | method {m : MethodDecl} {r : Field} (hr : m.receiver = some r) :
    BaseKey (.method m) (r.type ++ "." ++ m.name)
  | name {d : Decl} (hkind : d.kind ≠ .method) : BaseKey d d.name

/-- The key of a declaration in a file. Blank names and functions called `init` may be numbered. -/
inductive StoredUnder (d : Decl) : String → Prop
  | base {key : String} (hkey : d.BaseKey key) : d.StoredUnder key
  | numbered {key : String} {n : Nat} (hkey : d.BaseKey key) (hn : 1 ≤ n)
    (hrepeat : d.name = "_" ∨ d.kind = .func ∧ d.name = "init") :
    d.StoredUnder (key ++ "#" ++ toString n)

end Decl

/-- Imports, declarations and the members of declarations are stored by the rules. -/
structure File.Filed (f : File) : Prop where
  imports : f.imports.Obeys fun key i => key = i.path
  decls : f.decls.Obeys fun key d => d.StoredUnder key ∧ d.Filed

/-! ## Collecting -/

/-- The entry of an item. -/
def Item.entry? {V : Type} : Item V → Option (String × V)
  | .entry key _ value => some (key, value)
  | .issue _ => none

/-- Collecting appends some of the entries in their order. -/
lemma collect_entries {V : Type} (m : OrderedMap V) (items : List (Item V)) :
    ∃ new, new.Sublist (items.filterMap Item.entry?) ∧
      (collect m items).1.entries = m.entries ++ new := by
  induction items generalizing m with
  | nil => exact ⟨[], List.nil_sublist _, (List.append_nil _).symm⟩
  | cons item items ih =>
    cases item with
    | issue i => exact ih m
    | entry key label value =>
      have hitems : (Item.entry key label value :: items).filterMap Item.entry? =
          (key, value) :: items.filterMap Item.entry? := rfl
      rw [hitems]
      by_cases hmem : key ∈ m.keys
      · obtain ⟨new, hsub, hnew⟩ := ih m
        simp only [collect, OrderedMap.insertNew_of_mem hmem]
        exact ⟨new, hsub.cons _, hnew⟩
      · simp only [collect, OrderedMap.insertNew_of_not_mem hmem]
        obtain ⟨new, hsub, hnew⟩ := ih (m.push key value (OrderedMap.contains_eq_false_iff.2 hmem))
        refine ⟨(key, value) :: new, hsub.cons_cons _, ?_⟩
        rw [hnew, OrderedMap.push, List.append_assoc]
        rfl

namespace OrderedMap

variable {V : Type} {m : OrderedMap V} {rule : String → V → Prop}

lemma Obeys.empty (rule : String → V → Prop) : (∅ : OrderedMap V).Obeys rule :=
  ⟨List.nodup_nil, fun _ he => absurd he List.not_mem_nil⟩

lemma Obeys.collect (h : m.Obeys rule) {items : List (Item V)}
    (hitems : ∀ e ∈ items.filterMap Item.entry?, rule e.1 e.2) :
    (collect m items).1.Obeys rule := by
  refine ⟨nodup_keys _, fun e he => ?_⟩
  obtain ⟨new, hsub, hentries⟩ := collect_entries m items
  rw [hentries, List.mem_append] at he
  rcases he with he | he
  · exact h.rule e he
  · exact hitems e (hsub.subset he)

lemma Obeys.collect_single (h : m.Obeys rule) (label : String) {key : String} {value : V}
    (hvalue : rule key value) : (GoOutline.collect m [.entry key label value]).1.Obeys rule := by
  refine h.collect fun e he => ?_
  obtain rfl := List.mem_singleton.1 he
  exact hvalue

end OrderedMap

/-! ## Members -/

lemma collectNamed_byName (fields : List Field) : (collectNamed fields).1.ByName := by
  refine (OrderedMap.Obeys.empty _).collect fun e he => ?_
  obtain ⟨item, hitem, hentry⟩ := List.mem_filterMap.1 he
  obtain ⟨f, -, rfl⟩ := List.mem_map.1 hitem
  obtain rfl := Option.some.inj hentry
  rfl

lemma Field.storedUnder_key (f : Field) (kind : FieldListKind) (i : Nat) :
    f.StoredUnder i kind (f.key kind i) := by
  cases hname : f.unnamed with
  | true =>
    cases kind with
    | struct => simpa [key, hname] using Field.StoredUnder.embedded hname
    | params => simpa [key, hname, indexedKey] using Field.StoredUnder.unnamed hname
  | false =>
    by_cases hblank : f.name = "_"
    · simpa [key, hname, hblank, indexedKey] using Field.StoredUnder.blank hname hblank
    · simpa [key, hname, hblank] using Field.StoredUnder.named hname hblank

/-- The fields that a list binds, in order: those of the entries that can stand in it. -/
def boundFields (kind : FieldListKind) (entries : List Source.Field) : List Field :=
  (entries.filter fun entry => (entry.misplaced? kind).isNone).flatMap Source.Field.expand

lemma boundFields_cons (kind : FieldListKind) (entry : Source.Field) (entries : List Source.Field) :
    boundFields kind (entry :: entries) =
      (if (entry.misplaced? kind).isSome then [] else entry.expand) ++ boundFields kind entries := by
  cases hpart : entry.misplaced? kind <;> simp [boundFields, hpart]

/-- The numbers in the keys count the fields that the list binds. -/
lemma fieldItems_entries (kind : FieldListKind) (i : Nat) (entries : List Source.Field) :
    (fieldItems kind i entries).filterMap Item.entry? =
      ((boundFields kind entries).zipIdx i).map fun (f, j) => (f.key kind j, f) := by
  induction entries generalizing i with
  | nil => rfl
  | cons entry entries ih =>
    rw [fieldItems, boundFields_cons]
    cases entry.misplaced? kind with
    | some part => exact ih i
    | none =>
      rw [Option.isSome_none, if_neg Bool.false_ne_true, List.zipIdx_append, List.map_append, ← ih,
        List.filterMap_append, List.filterMap_map]
      congr 1
      exact congrFun List.filterMap_eq_map _

lemma outlineFields_numbered (kind : FieldListKind) (entries : List Source.Field) :
    (outlineFields kind entries).1.Numbered kind := by
  refine ⟨OrderedMap.nodup_keys _, ?_⟩
  obtain ⟨new, hsub, hentries⟩ := collect_entries (∅ : Fields) (fieldItems kind 0 entries)
  rw [fieldItems_entries, List.sublist_map_iff] at hsub
  obtain ⟨kept, hkept, rfl⟩ := hsub
  have hmap : (outlineFields kind entries).1.entries =
      kept.map fun (f, j) => (f.key kind j, f) := hentries
  refine ⟨kept.map Prod.snd, ?_, ?_⟩
  · -- the numbers of the fields that stay are some of `0, 1, 2, …`
    have hnumbers := hkept.map Prod.snd
    rw [List.zipIdx_map_snd] at hnumbers
    exact List.Pairwise.sublist hnumbers List.pairwise_lt_range'
  · rw [hmap, List.forall₂_map_left_iff, List.forall₂_map_right_iff, List.forall₂_same]
    exact fun e _ => e.1.storedUnder_key kind e.2

lemma outlineResults_numbered (results : Source.Results) :
    (outlineResults results).1.Numbered .params := by
  rw [outlineResults_eq]
  exact outlineFields_numbered .params results.entries

lemma outlineSignature_numbered (sig : Source.Signature) :
    (outlineSignature sig).1.params.Numbered .params ∧
      (outlineSignature sig).1.results.Numbered .params :=
  ⟨outlineFields_numbered .params sig.params, outlineResults_numbered sig.results⟩

/-! ## Interfaces -/

lemma interfaceMethod_inInterface (file : FileId) (doc : List String) (name : String)
    (sig : Source.Signature) : (interfaceMethod file doc name sig).1.InInterface name := by
  obtain ⟨hparams, hresults⟩ := outlineSignature_numbered sig
  exact ⟨rfl, rfl, ⟨.empty _, hparams, hresults⟩, .empty _⟩

namespace InterfaceMembers

/-- The elements so far are stored by the rules. -/
structure Filed (m : InterfaceMembers) : Prop where
  methods : m.methods.Obeys fun key d => d.InInterface key
  embeds : m.embeds.Obeys fun key f => f.IsEmbed key

lemma Filed.add {m : InterfaceMembers} (h : m.Filed) (file : FileId) (e : Source.InterfaceElem) :
    (m.add file e).Filed := by
  cases e with
  | method doc name sig =>
    have hmethod := interfaceMethod_inInterface file doc name sig
    exact ⟨h.methods.collect_single name hmethod, h.embeds⟩
  | union terms =>
    have hembed : Field.IsEmbed { type := Source.unionText terms, unnamed := true }
        (Source.unionText terms) := ⟨rfl, rfl⟩
    exact ⟨h.methods, h.embeds.collect_single (Source.unionText terms) hembed⟩

lemma Filed.foldl {m : InterfaceMembers} (h : m.Filed) (file : FileId)
    (elems : List Source.InterfaceElem) : (elems.foldl (InterfaceMembers.add file) m).Filed := by
  induction elems generalizing m with
  | nil => exact h
  | cons e elems ih => exact ih (h.add file e)

end InterfaceMembers

lemma outlineInterface_filed (file : FileId) (elems : List Source.InterfaceElem) :
    (outlineInterface file elems).Filed :=
  InterfaceMembers.Filed.foldl ⟨.empty _, .empty _⟩ file elems

/-! ## Declarations -/

/-- The declaration has the key that is its own, and its members are stored by the rules. -/
structure Decl.Keyed (d : Decl) : Prop where
  key : d.BaseKey d.key
  members : d.Filed

lemma Decl.baseKey_of_kind {d : Decl} (hkind : d.kind ≠ .method) : d.BaseKey d.key := by
  cases d with
  | method m => exact absurd rfl hkind
  | _ => exact .name hkind

namespace Source

variable {file : FileId} {d : Decl}

lemma GeneralDecl.valueDecl_keyed (g : GeneralDecl) (v : ValueDecl) : (g.valueDecl v).Keyed := by
  simp only [valueDecl]
  split
  · exact ⟨Decl.baseKey_of_kind (by simp [Decl.kind]), trivial⟩
  · exact ⟨Decl.baseKey_of_kind (by simp [Decl.kind]), trivial⟩

lemma TypeSpec.outline_keyed (file : FileId) (g : GeneralDecl) (s : TypeSpec) :
    (s.outline file g).1.Keyed := by
  have htypeParams : (outlineTypeParams s.typeParams).1.ByName := collectNamed_byName _
  simp only [outline]
  split
  · rename_i entries _
    exact ⟨Decl.baseKey_of_kind (by simp [Decl.kind]),
      outlineFields_numbered .struct entries, htypeParams⟩
  · rename_i elems _
    obtain ⟨hmethods, hembeds⟩ := outlineInterface_filed file elems
    exact ⟨Decl.baseKey_of_kind (by simp [Decl.kind]), hmethods, hembeds, htypeParams⟩
  · exact ⟨Decl.baseKey_of_kind (by simp [Decl.kind]), htypeParams⟩

lemma FuncDecl.outline_keyed (file : FileId) (f : FuncDecl) : (f.outline file).1.Keyed := by
  obtain ⟨hparams, hresults⟩ := outlineSignature_numbered f.signature
  simp only [outline]
  split
  · have htypeParams : (outlineTypeParams f.typeParams).1.ByName := collectNamed_byName _
    exact ⟨Decl.baseKey_of_kind (by simp [Decl.kind]), htypeParams, hparams, hresults⟩
  · rename_i recv _
    have hbound : (outlineReceiver recv).2.1.ByName := collectNamed_byName _
    exact ⟨.method rfl, ⟨.empty _, hparams, hresults⟩, hbound⟩

lemma TopDecl.decls_keyed {x : TopDecl} (hd : d ∈ x.decls file) : d.Keyed := by
  cases x with
  | general g =>
    rcases GeneralDecl.mem_decls hd with ⟨v, rfl⟩ | ⟨s, -, rfl⟩
    · exact g.valueDecl_keyed v
    · exact s.outline_keyed file g
  | func f =>
    obtain rfl := List.mem_singleton.1 hd
    exact f.outline_keyed file
  | bad => simp [decls] at hd

end Source

/-! ## Files -/

lemma Decl.repeats_of_mayRepeat {d : Decl} (h : d.mayRepeat = true) :
    d.name = "_" ∨ d.kind = .func ∧ d.name = "init" := by
  cases d with
  | func f =>
    have hname : f.name = "init" ∨ f.name = "_" := by simpa [mayRepeat] using h
    rcases hname with hname | hname
    · exact .inr ⟨rfl, hname⟩
    · exact .inl hname
  | _ => exact .inl (by simpa [mayRepeat] using h)

lemma Decl.storedUnder_keyAfter {d : Decl} (hkey : d.BaseKey d.key) (before : List Decl) :
    d.StoredUnder (d.keyAfter before) := by
  simp only [keyAfter]
  split
  · rename_i h
    exact .numbered hkey h.2 (repeats_of_mayRepeat h.1)
  · exact .base hkey

/-- In the outline of a tree everything is stored by the rules, whatever the policy. -/
theorem File.ofTree_filed (policy : Redeclaration) (id : FileId) (package : String) (t : Tree) :
    (File.ofTree policy id package t).Filed := by
  have hstores := ofTree_stores policy id package t
  have hdecls := hstores.decls
  rw [t.filings_pairs] at hdecls
  refine ⟨⟨OrderedMap.nodup_keys _, fun e he => ?_⟩, OrderedMap.nodup_keys _, fun e he => ?_⟩
  · have himports : (ofTree policy id package t).imports.Lists (Redeclaration.value? .keepFirst)
        ((t.filings id).filterMap Filing.import?) := hstores.imports
    obtain ⟨x, -, hx⟩ := List.mem_filterMap.1 (himports.mem_pairs he)
    cases x with
    | imported i =>
      obtain rfl := Option.some.inj hx
      rfl
    | _ => simp [Filing.import?] at hx
  · -- whichever declaration the policy leaves under a key, it was filed under this key
    obtain ⟨⟨d, i⟩, hd, rfl⟩ := List.mem_map.1 (hdecls.mem_pairs he)
    obtain ⟨x, -, hx⟩ := List.mem_flatMap.1 (List.fst_mem_of_mem_zipIdx hd)
    have hkeyed := Source.TopDecl.decls_keyed hx
    exact ⟨Decl.storedUnder_keyAfter hkeyed.key _, hkeyed.members⟩

end GoOutline
