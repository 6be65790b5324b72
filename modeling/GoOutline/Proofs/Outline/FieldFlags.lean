/-
# Flags of fields

A field says in flags what its name and its type say, too: that it has no name, that it takes any
number of arguments, and that a receiver is a pointer. Fields are made in many places, of struct types
and parameter lists, of type parameters and of what a receiver binds, of the elements of interfaces and
of receivers. If the names in a tree are not empty and do not begin with a dot, then no text of a type
begins with a dot, and in all these places the flags agree with the name and the type.
-/
import GoOutline.Proofs.Outline.Alike
import GoOutline.Proofs.Outline.Keys
import GoOutline.Proofs.Outline.Malformed
import GoOutline.Proofs.Outline.Receivers
import GoOutline.Proofs.Source.Rendering

namespace GoOutline

/-! ## Texts -/

/-- The text does not begin with a dot. -/
def Undotted (text : String) : Prop := text.toList.head? ≠ some '.'

/-- A text that begins with some character other than a dot. -/
def Proper (text : String) : Prop := text ≠ "" ∧ Undotted text

instance : DecidablePred Proper := fun _ => inferInstanceAs (Decidable (_ ≠ _ ∧ _ ≠ _))

lemma Proper.append {a : String} (h : Proper a) (b : String) : Proper (a ++ b) := by
  obtain ⟨hne, hdot⟩ := h
  rw [Undotted] at hdot
  cases hlist : a.toList with
  | nil => exact absurd (String.toList_eq_nil_iff.1 hlist) hne
  | cons c cs =>
    rw [hlist] at hdot
    refine ⟨fun hempty => ?_, ?_⟩
    · have hnil := congrArg String.toList hempty
      simp [hlist] at hnil
    · rw [Undotted, String.toList_append, hlist]
      exact hdot

lemma Undotted.not_dots {text : String} (h : Undotted text) : ¬"...".toList <+: text.toList := by
  rintro ⟨rest, hrest⟩
  apply h
  rw [← hrest]
  rfl

/-- The sign before a type is there if and only if the text of the two begins with it. -/
lemma Undotted.variadic_iff {text : String} (h : Undotted text) (variadic : Bool) :
    variadic = true ↔ "...".toList <+: (Source.markText "..." variadic ++ text).toList := by
  cases variadic with
  | false => simpa [Source.markText] using h.not_dots
  | true => simp [Source.markText, String.toList_append]

/-! ## Fields -/

/-- The flags of any field, be it a receiver, agree with its name and type. -/
structure Field.Flags (f : Field) : Prop where
  variadic : f.variadic = true ↔ "...".toList <+: f.type.toList
  unnamed : f.unnamed = true → f.name = ""

/-- The flags of a field that is not a receiver. -/
structure Field.MemberFlags (f : Field) : Prop extends f.Flags where
  pointer : f.pointer = false
  name : f.name = "" → f.unnamed = true

lemma Field.memberFlags_named {name type : String} (hname : name ≠ "") (htype : Undotted type) :
    Field.MemberFlags { name, type } where
  variadic := iff_of_false Bool.false_ne_true htype.not_dots
  unnamed h := absurd h Bool.false_ne_true
  pointer := rfl
  name h := absurd h hname

/-! ## Declarations -/

/-- The maps of fields that a function has. -/
def FuncDecl.fieldMaps (d : FuncDecl) : List Fields := [d.typeParams, d.params, d.results]

/-- The maps of fields that a method has. -/
def MethodDecl.fieldMaps (d : MethodDecl) : List Fields :=
  d.receiverTypeParams :: d.toFuncDecl.fieldMaps

/-- The maps of fields that a declaration has, with those of the methods of an interface. -/
def Decl.fieldMaps : Decl → List Fields
  | .var _ => []
  | .const _ => []
  | .type d => [d.typeParams]
  | .func d => d.fieldMaps
  | .method d => d.fieldMaps
  | .struct d => [d.fields, d.typeParams]
  | .interface d => d.embeds :: d.typeParams :: d.methods.values.flatMap MethodDecl.fieldMaps

/-- The receivers that a declaration has, with those of the methods of an interface. -/
def Decl.receivers : Decl → List Field
  | .method d => d.receiver.toList
  | .interface d => d.methods.values.flatMap fun m => m.receiver.toList
  | _ => []

/-- The flags of all fields of a declaration agree with their names and types. -/
structure Decl.FieldFlags (d : Decl) : Prop where
  members : ∀ m ∈ d.fieldMaps, ∀ f ∈ m.values, f.MemberFlags
  receivers : ∀ f ∈ d.receivers, f.Flags

/-! ## Source forms -/

namespace Source

/-- The names and the type of an entry have proper texts. -/
def Field.Worded : Field → Prop
  | .mk names _ type _ _ _ _ => (∀ name ∈ names, Proper name) ∧ Proper type.text

/-- The entries of parameters and results have proper texts. -/
structure Signature.Worded (sig : Signature) : Prop where
  params : ∀ x ∈ sig.params, x.Worded
  results : ∀ x ∈ sig.results.entries, x.Worded

/-- The parts of a method have proper texts, and an embedded element does not begin with a dot. -/
def InterfaceElem.Worded : InterfaceElem → Prop
  | .method _ _ sig => sig.Worded
  | .union terms => Undotted (unionText terms)

/-- The members of a struct or interface type have proper texts. -/
def TypeExpr.MembersWorded : TypeExpr → Prop
  | .struct fields => ∀ x ∈ fields, x.Worded
  | .interface elems => ∀ e ∈ elems, e.Worded
  | _ => True

/-- The names have proper texts, and the constraint does not begin with a dot. -/
structure TypeParamDecl.Worded (d : TypeParamDecl) : Prop where
  names : ∀ name ∈ d.names, Proper name
  constraint : Undotted d.constraint.text

structure TypeSpec.Worded (s : TypeSpec) : Prop where
  typeParams : ∀ d ∈ s.typeParams, d.Worded
  members : s.type.MembersWorded

/-- The type of a receiver does not begin with a dot, and what it binds has proper texts. -/
structure Receiver.Worded (recv : Receiver) : Prop where
  type : Undotted (receiverType (receiverBase recv.type).1).1
  bound : ∀ name ∈ (receiverType (receiverBase recv.type).1).2.1, Proper name
  typeParams : ∀ name ∈ recv.typeParams, Proper name

structure FuncDecl.Worded (f : FuncDecl) : Prop where
  typeParams : ∀ d ∈ f.typeParams, d.Worded
  signature : f.signature.Worded
  receiver : ∀ recv ∈ f.receiver, recv.Worded

/-- The declared functions and types have proper texts. -/
def TopDecl.Worded : TopDecl → Prop
  | .general g => ∀ s, .type s ∈ g.specs → s.Worded
  | .func f => f.Worded
  | .bad => True

lemma Field.Worded.expand {x : Field} (h : x.Worded) : ∀ f ∈ x.expand, f.MemberFlags := by
  obtain ⟨names, variadic, type, tag, embedded, doc, comment⟩ := x
  obtain ⟨hnames, htype⟩ := h
  have hvariadic := htype.2.variadic_iff variadic
  intro f hf
  rw [Field.expand] at hf
  split at hf
  · obtain rfl := List.mem_singleton.1 hf
    exact ⟨⟨hvariadic, fun _ => rfl⟩, rfl, fun _ => rfl⟩
  · obtain ⟨name, hname, rfl⟩ := List.mem_map.1 hf
    exact ⟨⟨hvariadic, fun h => absurd h Bool.false_ne_true⟩, rfl,
      fun h => absurd h (hnames name hname).1⟩

end Source

/-! ## Outlines of members -/

/-- The flags of all fields of a map agree with their names and types. -/
abbrev OrderedMap.Flagged (m : Fields) : Prop := m.Obeys fun _ f => f.MemberFlags

lemma OrderedMap.Obeys.of_mem_values {V : Type} {m : OrderedMap V} {P : V → Prop}
    (h : m.Obeys fun _ v => P v) {v : V} (hv : v ∈ m.values) : P v := by
  obtain ⟨e, he, rfl⟩ := List.mem_map.1 hv
  exact h.rule e he

lemma outlineFields_flagged {kind : FieldListKind} {entries : List Source.Field}
    (h : ∀ x ∈ entries, x.Worded) : (outlineFields kind entries).1.Flagged := by
  refine (OrderedMap.Obeys.empty _).collect fun e he => ?_
  rw [fieldItems_entries] at he
  obtain ⟨⟨f, i⟩, hf, rfl⟩ := List.mem_map.1 he
  obtain ⟨x, hx, hf⟩ := List.mem_flatMap.1 (List.fst_mem_of_mem_zipIdx hf)
  exact (h x (List.mem_filter.1 hx).1).expand f hf

lemma outlineResults_flagged {results : Source.Results} (h : ∀ x ∈ results.entries, x.Worded) :
    (outlineResults results).1.Flagged := by
  rw [outlineResults_eq]
  exact outlineFields_flagged h

lemma collectNamed_flagged {fields : List Field} (h : ∀ f ∈ fields, f.MemberFlags) :
    (collectNamed fields).1.Flagged := by
  refine (OrderedMap.Obeys.empty _).collect fun e he => ?_
  obtain ⟨item, hitem, hentry⟩ := List.mem_filterMap.1 he
  obtain ⟨f, hf, rfl⟩ := List.mem_map.1 hitem
  obtain rfl := Option.some.inj hentry
  exact h f hf

lemma outlineTypeParams_flagged {decls : List Source.TypeParamDecl} (h : ∀ d ∈ decls, d.Worded) :
    (outlineTypeParams decls).1.Flagged := by
  refine collectNamed_flagged fun f hf => ?_
  obtain ⟨d, hd, hf⟩ := List.mem_flatMap.1 hf
  obtain ⟨name, hname, rfl⟩ := List.mem_map.1 hf
  exact Field.memberFlags_named ((h d hd).names name hname).1 (h d hd).constraint

lemma outlineReceiver_flagged {recv : Source.Receiver} (h : recv.Worded) :
    (outlineReceiver recv).1.Flags ∧ (outlineReceiver recv).2.1.Flagged := by
  refine ⟨⟨iff_of_false Bool.false_ne_true h.type.not_dots, fun h => absurd h Bool.false_ne_true⟩,
    collectNamed_flagged fun f hf => ?_⟩
  obtain ⟨name, hname, rfl⟩ := List.mem_map.1 hf
  have hproper : Proper name := by
    rcases List.mem_append.1 hname with hname | hname
    · exact h.bound name hname
    · exact h.typeParams name hname
  exact Field.memberFlags_named hproper.1 (by simp [Undotted])

lemma FuncDecl.flagged_of_mem {d : FuncDecl} {m : Fields} (hm : m ∈ d.fieldMaps)
    (htypeParams : d.typeParams.Flagged) (hparams : d.params.Flagged)
    (hresults : d.results.Flagged) : m.Flagged := by
  simp only [fieldMaps, List.mem_cons, List.not_mem_nil, or_false] at hm
  rcases hm with rfl | rfl | rfl
  · exact htypeParams
  · exact hparams
  · exact hresults

lemma MethodDecl.flagged_of_mem {d : MethodDecl} {m : Fields} (hm : m ∈ d.fieldMaps)
    (hbound : d.receiverTypeParams.Flagged) (htypeParams : d.typeParams.Flagged)
    (hparams : d.params.Flagged) (hresults : d.results.Flagged) : m.Flagged := by
  rcases List.mem_cons.1 hm with rfl | hm
  · exact hbound
  · exact FuncDecl.flagged_of_mem hm htypeParams hparams hresults

/-! ## Interfaces -/

/-- A method of an interface has no receiver, and the flags of its fields agree with their names and
types. -/
structure MethodDecl.FlaggedInInterface (m : MethodDecl) : Prop where
  receiver : m.receiver = none
  members : ∀ fields ∈ m.fieldMaps, fields.Flagged

lemma interfaceMethod_flagged (file : FileId) (doc : List String) (name : String)
    {sig : Source.Signature} (h : sig.Worded) :
    (interfaceMethod file doc name sig).1.FlaggedInInterface := by
  refine ⟨rfl, fun m hm => ?_⟩
  exact MethodDecl.flagged_of_mem hm (.empty _) (.empty _) (outlineFields_flagged h.params)
    (outlineResults_flagged h.results)

namespace InterfaceMembers

/-- The flags of the fields of the elements so far agree with their names and types. -/
structure Flagged (m : InterfaceMembers) : Prop where
  methods : m.methods.Obeys fun _ d => d.FlaggedInInterface
  embeds : m.embeds.Flagged

lemma Flagged.add {m : InterfaceMembers} (h : m.Flagged) (file : FileId) {e : Source.InterfaceElem}
    (he : e.Worded) : (m.add file e).Flagged := by
  cases e with
  | method doc name sig =>
    exact ⟨h.methods.collect_single name (interfaceMethod_flagged file doc name he), h.embeds⟩
  | union terms =>
    have hembed : Field.MemberFlags { type := Source.unionText terms, unnamed := true } :=
      ⟨⟨iff_of_false Bool.false_ne_true he.not_dots, fun _ => rfl⟩, rfl, fun _ => rfl⟩
    exact ⟨h.methods, h.embeds.collect_single (Source.unionText terms) hembed⟩

lemma Flagged.foldl {m : InterfaceMembers} (h : m.Flagged) (file : FileId)
    {elems : List Source.InterfaceElem} (helems : ∀ e ∈ elems, e.Worded) :
    (elems.foldl (InterfaceMembers.add file) m).Flagged := by
  induction elems generalizing m with
  | nil => exact h
  | cons e elems ih =>
    rw [List.forall_mem_cons] at helems
    exact ih (h.add file helems.1) helems.2

end InterfaceMembers

lemma outlineInterface_flagged (file : FileId) {elems : List Source.InterfaceElem}
    (h : ∀ e ∈ elems, e.Worded) : (outlineInterface file elems).Flagged :=
  InterfaceMembers.Flagged.foldl ⟨.empty _, .empty _⟩ file h

/-! ## Outlines of declarations -/

/-- The maps of a declaration with no receiver. -/
lemma Decl.FieldFlags.of_maps {d : Decl} (hreceivers : d.receivers = [])
    (h : ∀ m ∈ d.fieldMaps, m.Flagged) : d.FieldFlags :=
  ⟨fun m hm _ hf => (h m hm).of_mem_values hf, by simp [hreceivers]⟩

namespace Source

lemma TypeSpec.Worded.outline {s : TypeSpec} (h : s.Worded) (file : FileId) (g : GeneralDecl) :
    (s.outline file g).1.FieldFlags := by
  have htypeParams := outlineTypeParams_flagged h.typeParams
  have hmembers := h.members
  simp only [TypeSpec.outline]
  split
  · rename_i entries htype
    rw [htype] at hmembers
    refine .of_maps rfl ?_
    simp only [Decl.fieldMaps, List.forall_mem_cons]
    exact ⟨outlineFields_flagged hmembers, htypeParams, by simp⟩
  · rename_i elems htype
    rw [htype] at hmembers
    obtain ⟨hmethods, hembeds⟩ := outlineInterface_flagged file hmembers
    refine .of_maps ?_ ?_
    · refine List.flatMap_eq_nil_iff.2 fun m hm => ?_
      rw [(hmethods.of_mem_values hm).receiver]
      rfl
    · simp only [Decl.fieldMaps, List.forall_mem_cons, List.mem_flatMap]
      refine ⟨hembeds, htypeParams, ?_⟩
      rintro fields ⟨m, hm, hfields⟩
      exact (hmethods.of_mem_values hm).members fields hfields
  · refine .of_maps rfl ?_
    simpa [Decl.fieldMaps] using htypeParams

lemma FuncDecl.Worded.outline {f : FuncDecl} (h : f.Worded) (file : FileId) :
    (f.outline file).1.FieldFlags := by
  have hparams : (outlineSignature f.signature).1.params.Flagged :=
    outlineFields_flagged h.signature.params
  have hresults : (outlineSignature f.signature).1.results.Flagged :=
    outlineResults_flagged h.signature.results
  simp only [FuncDecl.outline]
  split
  · have htypeParams := outlineTypeParams_flagged h.typeParams
    refine .of_maps rfl fun m hm => ?_
    exact GoOutline.FuncDecl.flagged_of_mem hm htypeParams hparams hresults
  · rename_i recv hrecv
    obtain ⟨hreceiver, hbound⟩ := outlineReceiver_flagged (h.receiver recv hrecv)
    refine ⟨fun m hm f hf => ?_, fun v hv => ?_⟩
    · have hflagged := MethodDecl.flagged_of_mem hm hbound (.empty _) hparams hresults
      exact hflagged.of_mem_values hf
    · obtain rfl : v = (outlineReceiver recv).1 := List.mem_singleton.1 hv
      exact hreceiver

lemma TopDecl.Worded.decls {x : TopDecl} (h : x.Worded) {file : FileId} {d : Decl}
    (hd : d ∈ x.decls file) : d.FieldFlags := by
  cases x with
  | general g =>
    rcases GeneralDecl.mem_decls hd with ⟨v, rfl⟩ | ⟨s, hs, rfl⟩
    · simp only [GeneralDecl.valueDecl]
      split
      · exact .of_maps rfl (by simp [Decl.fieldMaps])
      · exact .of_maps rfl (by simp [Decl.fieldMaps])
    · exact (h s hs).outline file g
  | func f =>
    obtain rfl := List.mem_singleton.1 hd
    exact FuncDecl.Worded.outline h file
  | bad => simp [TopDecl.decls] at hd

end Source

/-! ## Reading -/

/-- The identifiers in a type. -/
def TypeNode.idents : TypeNode → List Ident
  | .named pkg name _ => name :: pkg.toList
  | _ => []

namespace Store

/-- The identifiers in types and in lists of names. -/
def idents (st : Store) : List Ident :=
  st.nodes.types.slots.toList.flatMap (fun slot => slot.1.idents) ++ st.lists.idents.toList

/-- The identifiers in types and in lists of names are not empty and do not begin with a dot. -/
def ProperNames (st : Store) : Prop := ∀ i ∈ st.idents, Proper (st.name i.symbol)

instance (st : Store) : Decidable st.ProperNames := inferInstanceAs (Decidable (∀ _ ∈ _, _))

variable {st : Store}

lemma ProperNames.node (h : st.ProperNames) {id : TypeId} {node : TypeNode}
    (hnode : st.node? id = some node) {i : Ident} (hi : i ∈ node.idents) :
    Proper (st.name i.symbol) := by
  obtain ⟨slot, hslot, rfl⟩ := Option.map_eq_some_iff.1 hnode
  have hmem : slot ∈ st.nodes.types.slots.toList :=
    Array.mem_toList_iff.2 (Array.mem_of_getElem? hslot)
  exact h i (List.mem_append_left _ (List.mem_flatMap.2 ⟨slot, hmem, hi⟩))

lemma ProperNames.names (h : st.ProperNames) (r : ListRef .idents) :
    ∀ name ∈ st.names r, Proper name := by
  intro name hname
  obtain ⟨i, hi, rfl⟩ := List.mem_map.1 hname
  exact h i (List.mem_append_right _ (mem_buffer_of_mem_list hi))

/-- The first characters of a type tell its shape, and none of them is a dot. -/
lemma ProperNames.text (h : st.ProperNames) {n : Nat} {id : TypeId} {x : Source.TypeExpr}
    (hx : st.readType n id = some x) : Proper x.text := by
  obtain ⟨m, node, -, hnode, hreads⟩ := readType_parts hx
  cases hreads with
  | @named p =>
    cases p with
    | none => exact (h.node hnode (by simp [TypeNode.idents])).append _
    | some p =>
      simp only [Option.map_some, Source.TypeExpr.text, String.append_assoc]
      exact (h.node hnode (i := p) (by simp [TypeNode.idents])).append _
  | @chan dir =>
    cases dir <;> simp [Source.TypeExpr.text, Source.chanWord, Proper, Undotted]
  | _ => simp [Source.TypeExpr.text, Proper, Undotted]

/-- All types that the reader gives have proper texts. -/
def ReadsProper (type : TypeId → Option Source.TypeExpr) : Prop :=
  ∀ id x, type id = some x → Proper x.text

lemma ProperNames.reads (h : st.ProperNames) (n : Nat) : ReadsProper fun id => st.readType n id :=
  fun _ _ => h.text

/-! What lies between types is read with a reader for the types in it. -/

section Reader

variable {lines : Option CommentGroupId → Option Source.Lines}
  {type : TypeId → Option Source.TypeExpr}

lemma ProperNames.readField (h : st.ProperNames) (htype : ReadsProper type) {id : FieldId}
    {x : Source.Field} (hx : st.readField lines type id = some x) : x.Worded := by
  obtain ⟨f, t, doc, comment, hf, ht, -, -, rfl⟩ := readField_parts hx
  exact ⟨h.names f.names, htype f.type t ht⟩

lemma ProperNames.readFields (h : st.ProperNames) (htype : ReadsProper type) {ids : List FieldId}
    {entries : List Source.Field} (hentries : ids.mapM (st.readField lines type) = some entries) :
    ∀ x ∈ entries, x.Worded := by
  intro x hx
  obtain ⟨id, -, hid⟩ := List.exists_of_mem_mapM hentries hx
  exact h.readField htype hid

lemma ProperNames.readResults (h : st.ProperNames) (htype : ReadsProper type)
    {results : Option ResultsNode} {x : Source.Results}
    (hx : st.readResults lines type results = some x) : ∀ f ∈ x.entries, f.Worded := by
  rcases results with _ | (fields | t)
  · obtain rfl := Option.some.inj hx
    simp [Source.Results.entries, Source.Results.listed]
  · rw [Store.readResults] at hx
    split at hx
    · obtain ⟨node, -, hx⟩ := Option.bind_eq_some_iff.1 hx
      obtain ⟨f, hf, hx⟩ := Option.bind_eq_some_iff.1 hx
      have hentries : x.entries = [f] := by
        rw [← Option.some.inj hx]
        split <;> rfl
      rw [hentries, List.forall_mem_singleton]
      exact h.readField htype hf
    · obtain ⟨entries, hentries, hx⟩ := Option.bind_eq_some_iff.1 hx
      obtain rfl := Option.some.inj hx
      exact h.readFields htype hentries
  · obtain ⟨y, hy, hx⟩ := Option.bind_eq_some_iff.1 hx
    obtain rfl := Option.some.inj hx
    have hproper := htype t y hy
    simpa [Source.Results.entries, Source.Results.listed, Source.Field.Worded] using hproper

lemma ProperNames.readSignature (h : st.ProperNames) (htype : ReadsProper type) {id : SignatureId}
    {x : Source.Signature} (hx : st.readSignature lines type id = some x) : x.Worded := by
  obtain ⟨sig, -, hx⟩ := Option.bind_eq_some_iff.1 hx
  obtain ⟨params, hparams, hx⟩ := Option.bind_eq_some_iff.1 hx
  obtain ⟨results, hresults, hx⟩ := Option.bind_eq_some_iff.1 hx
  obtain rfl := Option.some.inj hx
  exact ⟨h.readFields htype hparams, h.readResults htype hresults⟩

/-- A union begins with its first term, if there is one. -/
lemma readUnion_undotted (htype : ReadsProper type) {terms : ListRef .typeTerms}
    {xs : List Source.TypeTerm} (hxs : st.readUnion type terms = some xs) :
    Undotted (Source.unionText xs) := by
  have hterms : ∀ x ∈ xs, Proper x.text := by
    intro x hx
    obtain ⟨t, -, ht⟩ := List.exists_of_mem_mapM hxs hx
    obtain ⟨y, hy, ht⟩ := Option.bind_eq_some_iff.1 ht
    obtain rfl := Option.some.inj ht
    cases t.tilde with
    | none => simpa [Source.TypeTerm.text, Source.markText] using htype t.type y hy
    | some _ => simp [Source.TypeTerm.text, Source.markText, Proper, Undotted]
  rw [Source.unionText]
  rcases xs with _ | ⟨x, _ | ⟨x', xs⟩⟩
  · simp [Source.termTexts, Source.joinWith, Undotted]
  · exact (hterms x (by simp)).2
  · simp only [Source.termTexts, Source.joinWith, String.append_assoc]
    exact ((hterms x (by simp)).append _).2

lemma ProperNames.readInterfaceElem (h : st.ProperNames) (htype : ReadsProper type)
    {e : InterfaceElemNode} {x : Source.InterfaceElem}
    (hx : st.readInterfaceElem lines type e = some x) : x.Worded := by
  cases e with
  | method doc name sig =>
    obtain ⟨lines, -, hx⟩ := Option.bind_eq_some_iff.1 hx
    obtain ⟨s, hs, hx⟩ := Option.bind_eq_some_iff.1 hx
    obtain rfl := Option.some.inj hx
    exact h.readSignature htype hs
  | union terms =>
    obtain ⟨xs, hxs, hx⟩ := Option.bind_eq_some_iff.1 hx
    obtain rfl := Option.some.inj hx
    exact readUnion_undotted htype hxs

end Reader

lemma ProperNames.members (h : st.ProperNames) {id : TypeId} {x : Source.TypeExpr}
    (hx : st.definedType? id = some x) : x.MembersWorded := by
  obtain ⟨node, hnode, hreads⟩ := definedType?_parts hx
  cases hreads with
  | struct hentries => exact h.readFields (h.reads _) hentries
  | interface helems =>
    intro e he
    obtain ⟨node, -, hnode⟩ := List.exists_of_mem_mapM helems he
    exact h.readInterfaceElem (h.reads _) hnode
  | shown hstruct hinterface hx =>
    obtain ⟨m, -, hreads⟩ := readType_parts_of_node hnode hx
    cases hreads with
    | struct => exact absurd rfl (hstruct _)
    | interface => exact absurd rfl (hinterface _)
    | _ => trivial

/-! ## Declarations of a tree -/

lemma ProperNames.constraint (h : st.ProperNames) {c : ConstraintNode} {x : Source.Constraint}
    (hx : st.constraint? c = some x) : Undotted x.text := by
  cases c with
  | any span =>
    obtain rfl := Option.some.inj hx
    simp [Source.Constraint.text, Undotted]
  | union terms =>
    obtain ⟨xs, hxs, hx⟩ := Option.bind_eq_some_iff.1 hx
    obtain rfl := Option.some.inj hx
    exact readUnion_undotted (h.reads _) hxs
  | interface type =>
    obtain ⟨y, hy, hx⟩ := Option.bind_eq_some_iff.1 hx
    obtain rfl := Option.some.inj hx
    exact (h.text hy).2

lemma ProperNames.typeParams (h : st.ProperNames) {id : Option TypeParamsId}
    {xs : List Source.TypeParamDecl} (hxs : st.typeParams? id = some xs) :
    ∀ x ∈ xs, x.Worded := by
  cases id with
  | none =>
    obtain rfl := Option.some.inj hxs
    simp
  | some id =>
    obtain ⟨params, -, hxs⟩ := Option.bind_eq_some_iff.1 hxs
    intro x hx
    obtain ⟨decl, -, hdecl⟩ := List.exists_of_mem_mapM hxs hx
    obtain ⟨node, -, hdecl⟩ := Option.bind_eq_some_iff.1 hdecl
    obtain ⟨c, hc, hdecl⟩ := Option.bind_eq_some_iff.1 hdecl
    obtain rfl := Option.some.inj hdecl
    exact ⟨h.names node.names, h.constraint hc⟩

/-- What is left of a receiver type does not begin with a dot, and what it binds are texts of types. -/
lemma ProperNames.receiverType (h : st.ProperNames) {n : Nat} {id : TypeId} {x : Source.TypeExpr}
    (hx : st.readType n id = some x) :
    Undotted (GoOutline.receiverType x).1 ∧ ∀ name ∈ (GoOutline.receiverType x).2.1, Proper name := by
  have htext := (h.text hx).2
  obtain ⟨m, node, -, hnode, hreads⟩ := readType_parts hx
  cases hreads with
  | @named p i refs xs hargs =>
    cases p with
    | none =>
      refine ⟨(h.node hnode (by simp [TypeNode.idents])).2, fun name hname => ?_⟩
      simp only [GoOutline.receiverType, Option.map_none, Source.typeTexts_eq] at hname
      obtain ⟨y, hy, rfl⟩ := List.mem_map.1 hname
      obtain ⟨t, -, ht⟩ := List.exists_of_mem_mapM hargs hy
      exact h.text ht
    | some p => exact ⟨htext, by simp [GoOutline.receiverType]⟩
  | _ => exact ⟨htext, by simp [GoOutline.receiverType]⟩

lemma ProperNames.receiver (h : st.ProperNames) {r : ReceiverNode} {x : Source.Receiver}
    (hx : st.receiver? r = some x) : x.Worded := by
  obtain ⟨htype, -, hparams⟩ := receiver?_parts hx
  obtain ⟨base, m, hbase⟩ := exists_readType_receiverBase htype
  obtain ⟨hreceiver, hbound⟩ := h.receiverType hbase
  refine ⟨hreceiver, hbound, ?_⟩
  rw [hparams]
  cases r.typeParams with
  | none => simp
  | some params => exact h.names params.names

lemma ProperNames.func (h : st.ProperNames) {id : FuncId} {x : Source.FuncDecl}
    (hx : st.func? id = some x) : x.Worded := by
  obtain ⟨f, -, hreads⟩ := func?_parts hx
  refine ⟨?_, h.readSignature (h.reads _) hreads.signature, fun r hr => ?_⟩
  · have hparams := hreads.typeParams
    split at hparams
    · rw [← Option.some.inj hparams]
      simp
    · exact h.typeParams hparams
  · cases hf : f.receiver with
    | none => simp [hreads.receiver_eq_none hf] at hr
    | some node =>
      obtain ⟨y, hy, hsome⟩ := hreads.exists_receiver hf
      obtain rfl := Option.some.inj (hsome.symm.trans hr)
      exact h.receiver hy

lemma ProperNames.typeSpec (h : st.ProperNames) {s : TypeSpecNode} {x : Source.TypeSpec}
    (hx : st.typeSpec? s = some (.type x)) : x.Worded := by
  obtain ⟨node, -, hreads⟩ := typeSpec?_parts hx
  cases hreads with
  | type _ _ _ _ hparams htype => exact ⟨h.typeParams hparams, h.members htype⟩

lemma spec?_eq_type {group : DeclGroup} {s : SpecNode} {x : Source.TypeSpec}
    (hx : st.spec? group s = some (.type x)) : ∃ spec, st.typeSpec? spec = some (.type x) := by
  cases group <;> cases s <;> first
    | exact ⟨_, hx⟩
    | simp [spec?, Option.bind_eq_some_iff] at hx

lemma ProperNames.topDecl (h : st.ProperNames) {d : TopDeclNode} {x : Source.TopDecl}
    (hx : st.topDecl? d = some x) : x.Worded := by
  cases d with
  | func id =>
    obtain ⟨f, hf, hx⟩ := Option.bind_eq_some_iff.1 hx
    obtain rfl := Option.some.inj hx
    exact h.func hf
  | decl id =>
    obtain ⟨-, rfl⟩ | ⟨g, specs, doc, -, hspecs, -, rfl⟩ := topDecl?_decl hx
    · trivial
    · intro s hs
      obtain ⟨node, -, hnode⟩ := List.exists_of_mem_mapM hspecs hs
      obtain ⟨spec, hspec⟩ := spec?_eq_type hnode
      exact h.typeSpec hspec

end Store

/-- If the identifiers of a tree are not empty and do not begin with a dot, then all fields in the
outline of the tree have flags that agree with their names and types, whatever the policy. -/
theorem File.ofTree_fieldFlags {t : Tree} (h : t.ProperNames) (policy : Redeclaration) (id : FileId)
    (package : String) : ∀ d ∈ (File.ofTree policy id package t).decls.values, d.FieldFlags := by
  intro d hvalue
  have hdecls := (ofTree_stores policy id package t).decls
  rw [t.filings_pairs] at hdecls
  obtain ⟨e, he, rfl⟩ := List.mem_map.1 hvalue
  -- whichever declaration the policy leaves under a key, it is one of the tree
  obtain ⟨⟨d, i⟩, hpair, rfl⟩ := List.mem_map.1 (hdecls.mem_pairs he)
  obtain ⟨x, hx, hd⟩ := List.mem_flatMap.1 (List.fst_mem_of_mem_zipIdx hpair)
  obtain ⟨node, -, rfl⟩ := List.mem_map.1 hx
  cases hread : t.topDecl? node with
  | none => simp [hread, Source.TopDecl.decls] at hd
  | some x =>
    rw [hread] at hd
    exact (h.topDecl hread).decls hd

/-- The script of `type S struct { T }` and `func (*T) M(xs ...int) int`. -/
def Step.flaggedFields : List Step :=
  [.named "T", .embedded 0, .struct [1], .typeSpec "S" 2, .decl .types 3, .named "int",
    .variadic ["xs"] 5, .field [] 5, .signature [6] [7], .pointer 0, .receiver none 9,
    .method 10 "M" 8]

theorem File.ofTree_fieldFlags_variadic :
    ∃ p, (Progress.mk (.start "a.go" "main") #[]).run Step.flaggedFields = some p ∧
      let t := p.builder.finish
      let f := File.ofTree .keepFirst ⟨0, 0⟩ "main" t
      t.ProperNames ∧
        (f.decls.values.map fun d => d.fieldMaps.flatMap OrderedMap.values) =
          [[{ type := "T", unnamed := true }],
            [{ name := "xs", type := "...int", variadic := true },
              { type := "int", unnamed := true }]] ∧
        f.decls.values.flatMap Decl.receivers = [{ type := "T", pointer := true }] ∧
        ∀ d ∈ f.decls.values, d.FieldFlags := by
  have hrun : ((Progress.mk (.start "a.go" "main") #[]).run Step.flaggedFields).any fun p =>
      let t := p.builder.finish
      let f := File.ofTree .keepFirst ⟨0, 0⟩ "main" t
      t.ProperNames &&
        (f.decls.values.map fun d => d.fieldMaps.flatMap OrderedMap.values) =
          [[{ type := "T", unnamed := true }],
            [{ name := "xs", type := "...int", variadic := true },
              { type := "int", unnamed := true }]] &&
        f.decls.values.flatMap Decl.receivers = [{ type := "T", pointer := true }] := by
    decide +kernel
  obtain ⟨p, hp, hcheck⟩ := (Option.any_eq_true _ _).1 hrun
  simp only [Bool.and_eq_true, decide_eq_true_eq] at hcheck
  obtain ⟨⟨hnames, hmembers⟩, hreceivers⟩ := hcheck
  exact ⟨p, hp, hnames, hmembers, hreceivers, File.ofTree_fieldFlags hnames _ _ _⟩

end GoOutline
