/-
# Method sets

The methods of a type are given by the receivers of the method declarations, as they stand in the
trees: a receiver belongs to a type if it is the name of the type or a pointer to it, with or without
type arguments, and with parentheses anywhere. In a package without issues the method set of a type
has one method for each such declaration, in source order, and it does not matter whether one asks
for the type or for a pointer to it.
-/
import GoOutline.Program.Query
import GoOutline.Proofs.Outline.Faultless
import GoOutline.Proofs.Program.Load
import GoOutline.Tree.Script

namespace List

variable {α β γ : Type} {R : α → β → Prop}

/-- Lists that are put together in the same way are related if their parts are. -/
lemma forall₂_flatMap {as : List γ} {f : γ → List α} {g : γ → List β}
    (h : ∀ a ∈ as, Forall₂ R (f a) (g a)) : Forall₂ R (as.flatMap f) (as.flatMap g) := by
  induction as with
  | nil => exact .nil
  | cons a as ih =>
    rw [flatMap_cons, flatMap_cons]
    exact rel_append (h a (by simp)) (ih fun b hb => h b (by simp [hb]))

end List

namespace GoOutline

open Source (TypeExpr)

/-! ## Receivers -/

lemma receiverBase_eq_named_iff {x : TypeExpr} {name : String} {args : List TypeExpr} :
    receiverBase x = (.named none name args, false) ↔ x.stripParens = .named none name args := by
  rw [receiverBase]
  split
  · rename_i h
    simp [h]
  · simp

lemma receiverBase_paren (x : TypeExpr) : receiverBase (.paren x) = receiverBase x := rfl

namespace Store

/-- The receiver type is the plain name `name` or, if `pointer` is set, a pointer to it. Both the name
and the pointer may stand in parentheses. -/
inductive ReceiverOf (st : Store) (name : String) : (pointer : Bool) → TypeId → Prop
  | named {id : TypeId} {i : Ident} {args : ListRef .types}
    (hnode : st.node? id = some (.named none i args)) (hname : st.name i.symbol = name) :
    ReceiverOf st name false id
  | pointer {id elem : TypeId} (hnode : st.node? id = some (.pointer elem))
    (helem : ReceiverOf st name false elem) : ReceiverOf st name true id
  | paren {id inner : TypeId} {pointer : Bool} (hnode : st.node? id = some (.paren inner))
    (hinner : ReceiverOf st name pointer inner) : ReceiverOf st name pointer id

variable {st : Store} {name : String} {pointer : Bool} {id : TypeId} {n : Nat} {x y : TypeExpr}

/-- A receiver belongs to a type that the file has a name for. -/
lemma ReceiverOf.exists_symbol (h : st.ReceiverOf name pointer id) : ∃ sym, st.name sym = name := by
  induction h with
  | named _ hname => exact ⟨_, hname⟩
  | pointer _ _ ih => exact ih
  | paren _ _ ih => exact ih

lemma ReceiverOf.base_eq (h : st.ReceiverOf name pointer id) (hx : st.readType n id = some x) :
    ∃ args, receiverBase x = (.named none name args, pointer) := by
  -- a reading of a receiver repeats its steps from the outside to the name
  induction h generalizing n x with
  | named hnode hname =>
    obtain ⟨m, -, hreads⟩ := readType_parts_of_node hnode hx
    cases hreads with
    | named hargs => exact ⟨_, by rw [← hname]; rfl⟩
  | pointer hnode _ ih =>
    obtain ⟨m, -, hreads⟩ := readType_parts_of_node hnode hx
    cases hreads with
    | pointer hy =>
      obtain ⟨args, hargs⟩ := ih hy
      -- no second pointer is stripped, so what is below this one is stripped of parentheses only
      exact ⟨args, congrArg (·, true) (receiverBase_eq_named_iff.1 hargs)⟩
  | paren hnode _ ih =>
    obtain ⟨m, -, hreads⟩ := readType_parts_of_node hnode hx
    cases hreads with
    | paren hy =>
      rw [receiverBase_paren]
      exact ih hy

lemma receiverOf_of_base_eq {args : List TypeExpr} (hx : st.readType n id = some x)
    (h : receiverBase x = (.named none name args, pointer)) : st.ReceiverOf name pointer id := by
  -- on the bound of the reading, which each pointer and each parenthesis uses up by one
  induction n generalizing id x pointer with
  | zero => simp [readType] at hx
  | succ n ih =>
    obtain ⟨m, node, hm, hnode, hreads⟩ := readType_parts hx
    obtain rfl := Nat.succ.inj hm
    cases hreads with
    | @named pkg i refs xs =>
      obtain ⟨hnamed, rfl⟩ := Prod.mk.inj h
      obtain ⟨hpkg, hname, -⟩ := TypeExpr.named.inj hnamed
      obtain rfl := Option.map_eq_none_iff.1 hpkg
      exact .named hnode hname
    | pointer hy =>
      obtain ⟨hbase, rfl⟩ := Prod.mk.inj h
      exact .pointer hnode (ih hy (receiverBase_eq_named_iff.2 hbase))
    | paren hy => exact .paren hnode (ih hy h)
    | _ => simp [receiverBase, TypeExpr.stripParens] at h

end Store

/-- A receiver belongs to one type only. -/
lemma Store.ReceiverOf.name_unique {st : Store} {name name' : String} {pointer pointer' : Bool}
    {id : TypeId} {x : TypeExpr} (h : st.ReceiverOf name pointer id)
    (h' : st.ReceiverOf name' pointer' id) (hx : st.type? id = some x) : name = name' := by
  obtain ⟨args, hbase⟩ := h.base_eq hx
  obtain ⟨args', hbase'⟩ := h'.base_eq hx
  obtain ⟨hnamed, -⟩ := Prod.mk.inj (hbase.symm.trans hbase')
  exact (TypeExpr.named.inj hnamed).2.1

/-! ## Method declarations -/

namespace Store

/-- The method has the name, documentation and signature of the function `f`, and a receiver of type
`type` that is a pointer if the receiver `r` of the function is one. -/
structure OutlinesMethod (st : Store) (file : FileId) (type : String) (f : FuncNode)
    (r : ReceiverNode) (m : MethodDecl) : Prop where
  name : m.name = st.name f.name.symbol
  file : m.file = file
  doc : st.docLines? f.doc = some m.doc
  signature : ∃ sig, st.signature? f.signature = some sig ∧
    m.params = (outlineSignature sig).1.params ∧ m.results = (outlineSignature sig).1.results
  receiver : ∃ v, m.receiver = some v ∧ v.type = type ∧
    v.name = r.name.elim "" (fun i => st.name i.symbol) ∧
    (v.pointer = true ↔ st.ReceiverOf type true r.type)

/-- The declaration is that of a method with the receiver `r`. -/
def IsMethod (st : Store) (d : TopDeclNode) (f : FuncNode) (r : ReceiverNode) : Prop :=
  ∃ id, d = .func id ∧ st.node? id = some f ∧ f.receiver = some r

/-- The declaration is that of a method of the type `type`. -/
def DeclaresMethod (st : Store) (type : String) (d : TopDeclNode) : Prop :=
  ∃ f r pointer, st.IsMethod d f r ∧ st.ReceiverOf type pointer r.type

variable {st : Store} {file : FileId} {f : FuncNode} {r : ReceiverNode}

/-- What is read from a method declaration. -/
lemma func?_method {id : FuncId} (hf : st.node? id = some f) (hr : f.receiver = some r)
    {x : Source.FuncDecl} (hx : st.func? id = some x) :
    ∃ type, st.type? r.type = some type ∧ st.docLines? f.doc = some x.doc ∧
      x.receiver = some ⟨r.name.elim "" (fun i => st.name i.symbol), type,
        r.typeParams.elim [] fun p => st.names p.names⟩ ∧
      x.name = st.name f.name.symbol ∧ st.signature? f.signature = some x.signature := by
  have hreads := func?_parts_of_node hf hx
  obtain ⟨y, hy, hrecv⟩ := hreads.exists_receiver hr
  obtain ⟨htype, hname, hbound⟩ := receiver?_parts hy
  refine ⟨y.type, htype, hreads.doc, ?_, hreads.name, hreads.signature⟩
  rw [hrecv, ← hname, ← hbound]

lemma func?_kind {id : FuncId} (hf : st.node? id = some f) (hr : f.receiver = none)
    {x : Source.FuncDecl} (hx : st.func? id = some x) : (x.outline file).1.kind = .func := by
  have hreads := func?_parts_of_node hf hx
  simp only [Source.FuncDecl.outline, hreads.receiver_eq_none hr]
  rfl

end Store

/-- A receiver whose type is not a plain name is an issue. -/
lemma receiverType_eq {base : TypeExpr} (h : (receiverType base).2.2 = []) :
    ∃ name args, base = .named none name args ∧ (receiverType base).1 = name := by
  unfold receiverType at h ⊢
  split at h
  · exact ⟨_, _, rfl, rfl⟩
  · simp at h

/-- A method declaration without issues has a receiver that belongs to a type, and its outline is
that of a method of this type. -/
lemma Store.outlinesMethod {st : Store} {file : FileId} {id : FuncId} {f : FuncNode}
    {r : ReceiverNode} (hf : st.node? id = some f) (hr : f.receiver = some r) {x : Source.FuncDecl}
    (hx : st.func? id = some x) (hissues : (x.outline file).2 = []) :
    ∃ type pointer m, st.ReceiverOf type pointer r.type ∧ (x.outline file).1 = .method m ∧
      st.OutlinesMethod file type f r m := by
  obtain ⟨recvType, hrecvType, hdoc, hrecv, hname, hsig⟩ := func?_method hf hr hx
  simp only [Source.FuncDecl.outline, hrecv] at hissues ⊢
  have htype := (List.append_eq_nil_iff.1 (List.append_eq_nil_iff.1 hissues).2).1
  -- a receiver type other than a name would have been reported
  obtain ⟨type, args, hbase, htext⟩ := receiverType_eq htype
  have hreceiver : receiverBase recvType = (.named none type args, (receiverBase recvType).2) :=
    Prod.ext hbase rfl
  have hof := receiverOf_of_base_eq hrecvType hreceiver
  refine ⟨type, _, _, hof, rfl, hname, rfl, hdoc, ⟨_, hsig, rfl, rfl⟩, _, rfl, htext, rfl, ?_⟩
  constructor
  · intro hpointer
    rw [show (receiverBase recvType).2 = true from hpointer] at hof
    exact hof
  · intro hpointer
    obtain ⟨args', hbase'⟩ := hpointer.base_eq hrecvType
    exact congrArg Prod.snd hbase'

/-! ## Methods among declarations -/

/-- The methods of a type among some declarations. -/
def methodsOf (type : String) (ds : List Decl) : List MethodDecl :=
  (ds.filterMap (Decl.as? .method)).filter (Program.isMethodOf type)

lemma methodsOf_flatMap {α : Type} (type : String) (as : List α) (f : α → List Decl) :
    methodsOf type (as.flatMap f) = as.flatMap fun a => methodsOf type (f a) := by
  rw [methodsOf, List.filterMap_flatMap, List.filter_flatMap]
  rfl

lemma methodsOf_eq_nil {type : String} {ds : List Decl} (h : ∀ d ∈ ds, d.kind ≠ .method) :
    methodsOf type ds = [] := by
  have hnil : ds.filterMap (Decl.as? .method) = [] :=
    List.filterMap_eq_nil_iff.2 fun d hd => Decl.as?_eq_none_iff.2 (h d hd)
  rw [methodsOf, hnil, List.filter_nil]

/-- The text does not begin with the sign of a pointer. -/
def Unstarred (text : String) : Prop := text.toList.head? ≠ some '*'

lemma withoutStar_eq {text : String} (h : Unstarred text) : Program.withoutStar text = text := by
  rw [Program.withoutStar]
  split
  · rename_i rest hlist
    simp [Unstarred, hlist] at h
  · rfl

lemma withoutStar_star (text : String) : Program.withoutStar ("*" ++ text) = text := by
  simp [Program.withoutStar]

lemma isMethodOf_iff {type : String} {m : MethodDecl} {v : Field} (hv : m.receiver = some v)
    (hstar : Unstarred v.type) :
    Program.isMethodOf type m = true ↔ v.type = Program.withoutStar type := by
  simp [Program.isMethodOf, hv, withoutStar_eq hstar]

/-- A general declaration has no methods. -/
lemma Source.GeneralDecl.kind_ne_method {g : GeneralDecl} {file : FileId} {d : Decl}
    (hd : d ∈ g.decls file) : d.kind ≠ .method := by
  rcases GeneralDecl.mem_decls hd with ⟨v, rfl⟩ | ⟨s, -, rfl⟩
  · simp only [GeneralDecl.valueDecl]
    split <;> simp [Decl.kind]
  · simp only [TypeSpec.outline]
    split <;> simp [Decl.kind]

/-- Only functions are outlined as methods. -/
lemma Store.decl_kind_ne_method {st : Store} {id : DeclId} {x : Source.TopDecl}
    (hx : st.topDecl? (.decl id) = some x) {file : FileId} {d : Decl} (hd : d ∈ x.decls file) :
    d.kind ≠ .method := by
  obtain ⟨-, rfl⟩ | ⟨g, specs, doc, -, -, -, rfl⟩ := topDecl?_decl hx
  · simp [Source.TopDecl.decls] at hd
  · exact Source.GeneralDecl.kind_ne_method hd

namespace Tree

variable {t : Tree} {policy : Redeclaration} {file : FileId} {package type : String}

/-- The receivers of the methods are types whose names do not begin with the sign of a pointer. -/
def ReceiversUnstarred (t : Tree) : Prop :=
  ∀ d ∈ t.topDecls, ∀ name, t.DeclaresMethod name d → Unstarred name

/-- What holds of the empty name and of those in the symbol table holds of all names. -/
lemma forall_name {P : String → Prop} (hempty : P "") (h : ∀ name ∈ t.symbols.names.toList, P name)
    (sym : Symbol) : P (t.name sym) := by
  rw [Store.name, Symbols.resolve]
  cases hsym : t.symbols.names[sym.index]? with
  | none => exact hempty
  | some s => exact h s (Array.mem_toList_iff.2 (Array.mem_of_getElem? hsym))

/-- A tree is without such names if its symbol table is. -/
lemma receiversUnstarred_of_names (h : ∀ name ∈ t.symbols.names.toList, Unstarred name) :
    t.ReceiversUnstarred := by
  rintro d - name ⟨f, r, pointer, -, hof⟩
  obtain ⟨sym, rfl⟩ := hof.exists_symbol
  exact forall_name (by simp [Unstarred]) h sym

/-- The declarations of methods of a type, in source order. -/
noncomputable def methodDecls (t : Tree) (type : String) : List TopDeclNode :=
  open Classical in t.topDecls.filter (t.DeclaresMethod type)

/-- The method is the outline of the declaration, which is one of a method of the type. -/
def MethodAt (t : Tree) (file : FileId) (type : String) (d : TopDeclNode) (m : MethodDecl) : Prop :=
  ∃ f r, t.IsMethod d f r ∧ t.OutlinesMethod file type f r m

/-- The declaration stands for what its part of the method set says: one method if it declares a
method of the type, else none. -/
def Yields (t : Tree) (file : FileId) (type : String) (d : TopDeclNode) (ms : List MethodDecl) :
    Prop :=
  (t.DeclaresMethod type d ∧ ∃ m, ms = [m] ∧ t.MethodAt file type d m) ∨
    (¬t.DeclaresMethod type d ∧ ms = [])

/-- A function with a receiver. -/
lemma yields_method (hstar : t.ReceiversUnstarred) (htype : Unstarred type) {id : FuncId}
    (hd : .func id ∈ t.topDecls) {f : FuncNode} {r : ReceiverNode} (hf : t.node? id = some f)
    (hr : f.receiver = some r) {x : Source.FuncDecl} (hx : t.func? id = some x)
    (hissues : (x.outline file).2 = []) :
    t.Yields file type (.func id) (methodsOf type [(x.outline file).1]) := by
  obtain ⟨name, pointer, m, hof, hm, hmethod⟩ := Store.outlinesMethod hf hr hx hissues
  have hthis : t.IsMethod (.func id) f r := ⟨id, rfl, hf, hr⟩
  obtain ⟨v, hv, hvtype, -⟩ := hmethod.receiver
  have hunstarred : Unstarred v.type := hvtype ▸ hstar _ hd name ⟨f, r, pointer, hthis, hof⟩
  have hiff : Program.isMethodOf type m = true ↔ name = type := by
    rw [isMethodOf_iff hv hunstarred, withoutStar_eq htype, hvtype]
  have hmethods : methodsOf type [(x.outline file).1] = [m].filter (Program.isMethodOf type) := by
    rw [methodsOf, hm]
    rfl
  rw [hmethods]
  by_cases hname : name = type
  -- the receiver belongs to one type, which is the one that is asked for or not
  · subst hname
    refine .inl ⟨⟨f, r, pointer, hthis, hof⟩, m, ?_, f, r, hthis, hmethod⟩
    rw [List.filter_cons_of_pos (hiff.2 rfl), List.filter_nil]
  · refine .inr ⟨?_, ?_⟩
    · rintro ⟨f', r', pointer', ⟨id', heq, hf', hr'⟩, hof'⟩
      obtain rfl := TopDeclNode.func.inj heq
      obtain rfl := Option.some.inj (hf'.symm.trans hf)
      obtain rfl := Option.some.inj (hr'.symm.trans hr)
      obtain ⟨recvType, hrecvType, -⟩ := Store.func?_method hf hr hx
      exact hname (hof.name_unique hof' hrecvType)
    · rw [List.filter_cons_of_neg fun h => hname (hiff.1 h), List.filter_nil]

lemma yields_decl (hissues : (File.ofTree policy file package t).issues = [])
    (hstar : t.ReceiversUnstarred) (htype : Unstarred type) {d : TopDeclNode}
    (hd : d ∈ t.topDecls) :
    t.Yields file type d (methodsOf type (((t.topDecl? d).getD .bad).decls file)) := by
  obtain ⟨x, hx, hmem⟩ := File.topDecl?_isSome hissues hd
  rw [hx, Option.getD_some]
  cases d with
  | decl id =>
    refine .inr ⟨fun ⟨f, r, _, ⟨_, heq, _⟩, _⟩ => by simp at heq, methodsOf_eq_nil ?_⟩
    exact fun e he => Store.decl_kind_ne_method hx he
  | func id =>
    obtain ⟨fd, hfd, rfl⟩ := Store.topDecl?_func hx
    obtain ⟨f, hf, -⟩ := Store.func?_parts hfd
    cases hr : f.receiver with
    | some r =>
      refine yields_method hstar htype hd hf hr hfd (List.eq_nil_iff_forall_not_mem.2 ?_)
      exact fun i hi => File.not_mem_entries_issue hissues hmem i
        (List.mem_append_left _ (List.mem_map_of_mem hi))
    | none =>
      refine .inr ⟨?_, methodsOf_eq_nil fun e he => ?_⟩
      · rintro ⟨f', r, _, ⟨id', heq, hf', hr'⟩, -⟩
        obtain rfl := TopDeclNode.func.inj heq
        obtain rfl := Option.some.inj (hf'.symm.trans hf)
        simp [hr'] at hr
      · obtain rfl := List.mem_singleton.1 he
        rw [Store.func?_kind hf hr hfd]
        simp

/-- The methods of a tree without issues are those that it declares, in source order. -/
lemma methodsOf_declarations (hissues : (File.ofTree policy file package t).issues = [])
    (hstar : t.ReceiversUnstarred) (htype : Unstarred type) :
    List.Forall₂ (t.MethodAt file type) (t.methodDecls type)
      (methodsOf type (t.declarations file)) := by
  have hflat : methodsOf type (t.declarations file) = t.topDecls.flatMap fun d =>
      methodsOf type (((t.topDecl? d).getD .bad).decls file) := by
    rw [Tree.declarations, Tree.sourceFile, methodsOf_flatMap, List.flatMap_map]
  have hall : ∀ d ∈ t.topDecls,
      t.Yields file type d (methodsOf type (((t.topDecl? d).getD .bad).decls file)) :=
    fun d hd => yields_decl hissues hstar htype hd
  rw [hflat, methodDecls]
  revert hall
  -- declaration by declaration, each of which gives one method or none to both sides
  induction t.topDecls with
  | nil => exact fun _ => .nil
  | cons d ds ih =>
    intro hall
    have hrest := ih fun d hd => hall d (by simp [hd])
    rw [List.flatMap_cons]
    rcases hall d (by simp) with ⟨hdecl, m, hm, hat⟩ | ⟨hdecl, hm⟩
    · rw [List.filter_cons_of_pos (by simpa using hdecl), hm]
      exact .cons hat hrest
    · rw [List.filter_cons_of_neg (by simpa using hdecl), hm]
      exact hrest

end Tree

/-! ## Packages -/

namespace PackageInput

variable {policy : Redeclaration} {n : Nat} {input : PackageInput} {pkg : Package} {type : String}

/-- A declaration in one of the trees of a package. -/
structure Site where
  tree : Tree
  file : FileId
  decl : TopDeclNode

/-- The declarations of methods of a type in the package in position `n`, in the order of the files
and then in source order. -/
noncomputable def methodDecls (n : Nat) (input : PackageInput) (type : String) : List Site :=
  input.trees.zipIdx.flatMap fun (t, i) => (t.methodDecls type).map (⟨t, ⟨n, i⟩, ·⟩)

lemma LoadedAs.methodsOf_decls (h : input.LoadedAs policy n pkg)
    (hissues : ∀ f ∈ pkg.files.values, f.issues = [])
    (hstar : ∀ t ∈ input.trees, t.ReceiversUnstarred) (htype : Unstarred type) :
    List.Forall₂ (fun s m => s.tree.MethodAt s.file type s.decl m) (input.methodDecls n type)
      (methodsOf type pkg.decls) := by
  rw [Package.decls, methodsOf_flatMap, h.files_values, List.flatMap_map, methodDecls]
  refine List.forall₂_flatMap fun (t, i) hti => ?_
  rw [List.forall₂_map_left_iff]
  have hfile : (File.ofTree policy ⟨n, i⟩ input.name t).issues = [] :=
    hissues _ (h.files_values ▸ List.mem_map_of_mem hti)
  rw [File.decls_values_eq hfile]
  exact Tree.methodsOf_declarations hfile (hstar t (List.fst_mem_of_mem_zipIdx hti)) htype

end PackageInput

namespace Program

variable {p : Program} {path type : String}

lemma methodSet_eq {pkg : Package} (h : p.package? path = some pkg) (type : String) :
    p.methodSet path type = methodsOf type pkg.decls := by
  simp only [methodSet, payloadsIn, packageDecls, h, Option.map_some, Option.getD_some]
  rfl

lemma methodSet_eq_nil (h : p.package? path = none) (type : String) :
    p.methodSet path type = [] := by
  simp [methodSet, payloadsIn, packageDecls, h]

/-- A pointer has the methods of the type it points to. -/
lemma methodSet_pointer (p : Program) (path : String) (htype : Unstarred type) :
    p.methodSet path ("*" ++ type) = p.methodSet path type := by
  have hsame : isMethodOf ("*" ++ type) = isMethodOf type := by
    funext m
    simp only [isMethodOf, withoutStar_star, withoutStar_eq htype]
  rw [methodSet, methodSet, hsame]

end Program

/-- Methods are found by type: in a package whose files have no issues, the method set of a type, or
of a pointer to it, has one method for each declaration of a method of this type. -/
theorem methodSet_of_load {config : Config} {types : Option TypeUniverse}
    {inputs : List PackageInput} {p : Program} (hload : load config types inputs = .ok p)
    {type : String} (htype : Unstarred type) :
    (∀ input n, (input, n) ∈ inputs.zipIdx → ∃ pkg, p.package? input.path = some pkg ∧
      input.LoadedAs config.redeclaration n pkg ∧
      ((∀ f ∈ pkg.files.values, f.issues = []) → (∀ t ∈ input.trees, t.ReceiversUnstarred) →
        ∀ spelling ∈ [type, "*" ++ type],
          List.Forall₂ (fun s m => s.tree.MethodAt s.file type s.decl m)
            (input.methodDecls n type) (p.methodSet input.path spelling))) ∧
    ∀ path, path ∉ inputs.map PackageInput.path → p.package? path = none ∧
      p.methodSet path type = [] ∧ p.methodSet path ("*" ++ type) = [] := by
  obtain ⟨-, hloaded, -⟩ := load_eq_ok_iff.1 hload
  refine ⟨fun input n hinput => ?_, fun path hpath => ?_⟩
  · obtain ⟨pkg, hget, hpkg⟩ := hloaded.get? hinput
    refine ⟨pkg, hget, hpkg, fun hissues hstar spelling hspelling => ?_⟩
    have hsame : p.methodSet input.path spelling = p.methodSet input.path type := by
      simp only [List.mem_cons, List.not_mem_nil, or_false] at hspelling
      rcases hspelling with rfl | rfl
      · rfl
      · exact p.methodSet_pointer input.path htype
    rw [hsame, Program.methodSet_eq hget]
    exact hpkg.methodsOf_decls hissues hstar htype
  · have hnone : p.package? path = none := by
      rw [Program.package?, OrderedMap.get?_eq_none_iff, hloaded.keys_eq]
      exact hpath
    exact ⟨hnone, Program.methodSet_eq_nil hnone type, Program.methodSet_eq_nil hnone _⟩

/-- The script of three methods of two types, one of them with a pointer in parentheses as its
receiver. -/
def Step.methodsOfTwoTypes : List Step :=
  [.named "T", .parenType 0, .pointer 1, .parenType 2, .signature [] [], .receiver (some "t") 3,
    .method 5 "Put" 4, .instantiated "T" [0], .receiver none 7, .method 8 "_" 4, .named "U",
    .receiver (some "u") 10, .method 11 "Get" 4]

theorem methodSet_of_methodsOfTwoTypes :
    ∃ b, (Progress.mk (.start "a.go" "main") #[]).run Step.methodsOfTwoTypes = some b ∧
      let input : PackageInput := ⟨"main", "example/main", [b.builder.finish], []⟩
      ∃ p, load ⟨.strict, .keepFirst⟩ none [input] = .ok p ∧
        (p.methodSet "example/main" "*T").map (·.name) = ["Put", "_"] ∧
        List.Forall₂ (fun s m => s.tree.MethodAt s.file "T" s.decl m) (input.methodDecls 0 "T")
          (p.methodSet "example/main" "*T") ∧ p.methodSet "main" "*T" = [] := by
  have hrun : ((Progress.mk (.start "a.go" "main") #[]).run Step.methodsOfTwoTypes).any fun b =>
      (b.builder.finish.symbols.names.toList.all fun name => name.toList.head? != some '*') &&
        match load ⟨.strict, .keepFirst⟩ none
          [⟨"main", "example/main", [b.builder.finish], []⟩] with
        | .ok p => (p.packages.values.all fun pkg => pkg.files.values.all fun f => f.issues = []) &&
          (p.methodSet "example/main" "*T").map (·.name) == ["Put", "_"]
        | .error _ => false := by
    decide +kernel
  obtain ⟨b, hb, hcheck⟩ := (Option.any_eq_true _ _).1 hrun
  rw [Bool.and_eq_true] at hcheck
  obtain ⟨hnames, hcheck⟩ := hcheck
  refine ⟨b, hb, ?_⟩
  intro input
  cases hload : load ⟨.strict, .keepFirst⟩ none [input] with
  | error e => simp [input, hload] at hcheck
  | ok p =>
    simp only [hload, input, Bool.and_eq_true, List.all_eq_true, beq_iff_eq,
      decide_eq_true_eq] at hcheck
    have hstar : b.builder.finish.ReceiversUnstarred :=
      Tree.receiversUnstarred_of_names fun name hname => by
        simpa [Unstarred] using List.all_eq_true.1 hnames name hname
    have htype : Unstarred "T" := by simp [Unstarred]
    obtain ⟨hmethods, hother⟩ := methodSet_of_load hload htype
    obtain ⟨pkg, hget, -, hset⟩ := hmethods input 0 (by simp)
    refine ⟨p, rfl, hcheck.2, ?_, (hother "main" (by simp [input])).2.2⟩
    refine hset (hcheck.1 pkg ?_) ?_ "*T" (by simp)
    · exact List.mem_map_of_mem (OrderedMap.get?_eq_some_iff.1 hget)
    · simpa [input] using hstar

end GoOutline
