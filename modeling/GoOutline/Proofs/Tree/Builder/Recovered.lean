/-
# Texts that can be read back

A construction step is handed texts and registers. This file says, step by step, where its texts are
to be found: through which nodes and lists, starting from the result of the step, they are read.
-/
import GoOutline.Proofs.Tree.Builder.Decl
import GoOutline.Proofs.Tree.Builder.Expr

namespace GoOutline

open Store (Grows)

/-! ## Registers -/

namespace Register

variable {r : Register}

lemma refs_of_type? {id : TypeId} (h : r.type? = some id) : r.refs = [id.ref] := by
  cases r <;> cases h
  rfl

lemma refs_of_expr? {id : ExprId} (h : r.expr? = some id) : r.refs = [id.ref] := by
  cases r <;> cases h
  rfl

lemma refs_of_field? {id : FieldId} (h : r.field? = some id) : r.refs = [id.ref] := by
  cases r <;> cases h
  rfl

lemma refs_of_signature? {id : SignatureId} (h : r.signature? = some id) : r.refs = [id.ref] := by
  cases r <;> cases h
  rfl

lemma refs_of_typeParams? {id : TypeParamsId} (h : r.typeParams? = some id) :
    r.refs = [id.ref] := by
  cases r <;> cases h
  rfl

lemma refs_of_decl? {id : DeclId} (h : r.decl? = some id) : r.refs = [id.ref] := by
  cases r <;> cases h
  rfl

lemma refs_of_func? {id : FuncId} (h : r.func? = some id) : r.refs = [id.ref] := by
  cases r <;> cases h
  rfl

lemma refs_of_term? {t : TypeTermNode} (h : r.term? = some t) : r.refs = t.refs := by
  cases r <;> cases h
  rfl

lemma refs_of_elem? {e : InterfaceElemNode} (h : r.elem? = some e) : r.refs = e.refs := by
  cases r <;> cases h
  rfl

lemma refs_of_constraint? {k : ConstraintNode} (h : r.constraint? = some k) : r.refs = k.refs := by
  cases r <;> cases h
  rfl

lemma refs_of_keyed? {e : KeyedNode} (h : r.keyed? = some e) : r.refs = e.refs := by
  cases r <;> cases h
  rfl

lemma refs_of_spec? {s : SpecNode} (h : r.spec? = some s) : r.refs = s.refs := by
  cases r <;> cases h
  rfl

lemma refs_of_receiver? {v : ReceiverNode} (h : r.receiver? = some v) : r.refs = v.refs := by
  cases r <;> cases h
  rfl

lemma refs_of_operand? {x : OperandNode} (h : r.operand? = some x) : r.refs = x.refs := by
  cases r <;> cases h <;> rfl

lemma refs_of_key? {k : KeyNode} (h : r.key? = some k) : r.refs = k.refs := by
  cases r <;> cases h <;> rfl

lemma refs_of_element? {e : ElementNode} (h : r.element? = some e) : r.refs = e.refs := by
  cases r <;> cases h <;> rfl

end Register

namespace Registers

/-- What the registers hold refers only to what is in the store. -/
def Sound (regs : Registers) (st : Store) : Prop := ∀ r ∈ regs, st.Sound r.refs

variable {α : Type} {regs : Registers} {st : Store} {view : Register → Option α}
  {f : α → List Reference} {c : Prop}

lemma one_sound (hregs : c → regs.Sound st) (hview : ∀ {r x}, view r = some x → r.refs = f x)
    {i : Nat} {x : α} (h : regs.one view i = some x) (hc : c) : st.Sound (f x) := by
  obtain ⟨r, hr, hx⟩ := Option.bind_eq_some_iff.1 h
  rw [← hview hx]
  exact hregs hc r (Array.mem_of_getElem? hr)

lemma all_sound (hregs : c → regs.Sound st) (hview : ∀ {r x}, view r = some x → r.refs = f x)
    {is : List Nat} {xs : List α} (h : regs.all view is = some xs) (hc : c) :
    ∀ x ∈ xs, st.Sound (f x) := by
  intro x hx
  obtain ⟨i, -, hi⟩ := (List.mapM_eq_some_iff.1 h).flip.exists_of_mem hx
  exact one_sound hregs hview hi hc

lemma opt_sound (hregs : c → regs.Sound st) (hview : ∀ {r x}, view r = some x → r.refs = f x)
    {i : Option Nat} {x : Option α} (h : regs.opt view i = some x) (hc : c) :
    st.Sound (x.elim [] f) := by
  cases i with
  | none =>
    obtain rfl : none = x := Option.some.inj h
    exact Store.sound_nil
  | some i =>
    obtain ⟨y, hy, rfl⟩ := Option.map_eq_some_iff.1 h
    exact one_sound hregs hview hy hc

lemma one_in {s : NodeSort} {view : Register → Option (Id s)} (hregs : c → regs.Sound st)
    (hview : ∀ {r x}, view r = some x → r.refs = [x.ref]) {i : Nat} {x : Id s}
    (h : regs.one view i = some x) (hc : c) : x.ref.In st := by
  simpa using one_sound (f := fun x => [x.ref]) hregs hview h hc

lemma opt_in {s : NodeSort} {view : Register → Option (Id s)} (hregs : c → regs.Sound st)
    (hview : ∀ {r x}, view r = some x → r.refs = [x.ref]) {i : Option Nat} {x : Option (Id s)}
    (h : regs.opt view i = some x) (hc : c) : st.Sound (Id.optRefs x) := by
  have hsound := opt_sound (f := fun x => [x.ref]) hregs hview h hc
  cases x with
  | none => exact Store.sound_nil
  | some x => exact hsound

lemma paramDecls_of_mapM {decls : List (List String × Nat)} {ds : List (List String × ConstraintNode)}
    (h : decls.mapM (fun (names, k) => do return (names, ← regs.one Register.constraint? k)) =
      some ds) :
    ds.map Prod.fst = decls.map Prod.fst ∧
      ∀ d ∈ ds, ∃ i, regs.one Register.constraint? i = some d.2 := by
  have hds := List.mapM_eq_some_iff.1 h
  clear h
  induction hds with
  | nil => simp
  | cons hd _ ih =>
    obtain ⟨k, hk, hd⟩ := Option.bind_eq_some_iff.1 hd
    obtain rfl := Option.some.inj hd
    simp only [List.map_cons, List.mem_cons, forall_eq_or_imp]
    exact ⟨by rw [ih.1], ⟨_, hk⟩, ih.2⟩

end Registers

/-! ## Texts that can be read back -/

namespace Store

variable {st : Store}

/-- The occurrence reads as the given name, in the source and by its symbol. -/
structure Shows (st : Store) (i : Ident) (name : String) : Prop where
  text : st.text i.span = name
  symbol : st.name i.symbol = name

/-- The occurrences in the list read as the given names, in the source and by their symbols. -/
structure ShowsAll (st : Store) (r : ListRef .idents) (names : List String) : Prop where
  texts : (st.list r).map (fun i => st.text i.span) = names
  symbols : st.names r = names

/-- The type is a named one and reads as the given name, cut at its first dot if it has one. -/
def ShowsType (st : Store) (id : TypeId) (name : String) : Prop :=
  ∃ pkg i args, st.node? id = some (.named pkg i args) ∧ match cutText '.' name with
    | some (before, after) => ∃ p, pkg = some p ∧ st.Shows p before ∧ st.Shows i after
    | none => pkg = none ∧ st.Shows i name

/-- The text of the name given to an imported package. -/
def importText (st : Store) : ImportName → String
  | .dot sp => st.text sp
  | .blank sp => st.text sp
  | .name i => st.text i.span

/-- The import reads as one of the given path under the given name. -/
def ShowsImport (st : Store) (s : ImportSpecNode) (name : Option String) (path : String) : Prop :=
  s.name.map st.importText = name ∧ st.text s.path = path

lemma Spells.shows {i : Ident} {name : String} (h : st.Spells i name) : st.Shows i name :=
  ⟨h.text_eq, h.name_eq⟩

lemma SpellsAll.shows {r : ListRef .idents} {names : List String} (h : st.SpellsAll r names)
    (hlt : st.Addressable .idents) : st.ShowsAll r names :=
  ⟨h.texts_eq hlt, h.names_eq hlt⟩

lemma Qualifies.shows {id : TypeId} {pkg : Option Ident} {i : Ident} {args : ListRef .types}
    {name : String} (hnode : st.node? id = some (.named pkg i args))
    (h : st.Qualifies pkg i name) : st.ShowsType id name := by
  refine ⟨pkg, i, args, hnode, ?_⟩
  unfold Qualifies at h
  cases hcut : cutText '.' name with
  | some parts =>
    rw [hcut] at h
    obtain ⟨p, hp, hbefore, hafter⟩ := h
    exact ⟨p, hp, hbefore.shows, hafter.shows⟩
  | none =>
    rw [hcut] at h
    exact ⟨h.1, h.2.shows⟩

lemma NamesImport.importText_eq {name : String} {n : ImportName} (h : st.NamesImport name n) :
    st.importText n = name := by
  cases n with
  | dot sp => exact h.2.text_eq
  | blank sp => exact h.2.text_eq
  | name i => exact h.text_eq

lemma map_eq_of_rel {α : Type} {f : α → String} {R : String → α → Prop} {name : Option String}
    {x : Option α} (h : Option.Rel R name x) (hf : ∀ name x, R name x → f x = name) :
    x.map f = name := by
  cases h with
  | some h => simp [hf _ _ h]
  | none => rfl

end Store

namespace Step

/-- The texts that were handed to the step can be read back from its result. -/
def Recovered (st : Store) (r : Register) : Step → Prop
  | .comment lines => ∃ g, r = .group g ∧ st.lines? g = some lines
  | .ident name => ∃ i, r = .ident i ∧ st.Shows i name
  | .idents names => ∃ l, r = .idents l ∧ st.ShowsAll l names
  | .named name => ∃ id, r = .type id ∧ st.ShowsType id name
  | .instantiated name _ => ∃ id, r = .type id ∧ st.ShowsType id name
  | .array length _ => length ≠ "..." → ∃ id e elem sp, r = .type id ∧
      st.node? id = some (.array (.expr e) elem) ∧ st.node? e = some (.literal .int sp) ∧
      st.text sp = length
  | .methodElem doc name _ => ∃ d i sig, r = .elem (.method d i sig) ∧
      st.docLines? d = some doc ∧ st.Shows i name
  | .typeParams decls => ∃ id l ids, r = .typeParams id ∧ st.node? id = some ⟨l⟩ ∧
      st.Holds l ids ∧ List.Forall₂ (fun names (id : TypeParamDeclId) =>
        ∃ n, st.node? id = some n ∧ st.ShowsAll n.names names) (decls.map Prod.fst) ids
  | .field names _ => ∃ id f, r = .field id ∧ st.node? id = some f ∧ st.ShowsAll f.names names
  | .variadic names _ => ∃ id f, r = .field id ∧ st.node? id = some f ∧ st.ShowsAll f.names names
  | .tag _ raw => ∃ id f sp, r = .field id ∧ st.node? id = some f ∧ f.tag = some sp ∧
      st.text sp = raw
  | .identExpr name => ∃ id i, r = .expr id ∧ st.node? id = some (.ident i) ∧ st.Shows i name
  | .literal kind raw => ∃ id sp, r = .expr id ∧ st.node? id = some (.literal kind sp) ∧
      st.text sp = raw
  | .selector _ name => ∃ id base i, r = .expr id ∧ st.node? id = some (.selector base i) ∧
      st.Shows i name
  | .builtin name _ _ => ∃ id e i type args, r = .expr id ∧
      st.node? id = some (.call (.expr e) (some type) args false) ∧
      st.node? e = some (.ident i) ∧ st.Shows i name
  | .keyed name _ => ∃ i v, r = .keyed ⟨some (.field i), v⟩ ∧ st.Shows i name
  | .funcLit _ body => body ≠ "" → ∃ id sig block, r = .expr id ∧
      st.node? id = some (.funcLit sig block) ∧ st.text block.span = body
  | .importSpec name path => ∃ s, r = .spec (.imported s) ∧
      st.ShowsImport s name ("\"" ++ path ++ "\"")
  | .importRaw name raw => ∃ s, r = .spec (.imported s) ∧ st.ShowsImport s name raw
  | .valueSpec names _ _ => ∃ s, r = .spec (.value s) ∧ st.ShowsAll s.names names
  | .typeSpec name _ => ∃ s, r = .spec (.type s) ∧ st.Shows s.name name
  | .aliasSpec name _ => ∃ s, r = .spec (.type s) ∧ st.Shows s.name name
  | .genericTypeSpec name _ _ => ∃ s, r = .spec (.type s) ∧ st.Shows s.name name
  | .withDoc _ lines => ∃ s, r = .spec s ∧ st.docLines? s.doc = some lines
  | .receiver name _ => ∃ v, r = .receiver v ∧ v.name.map (fun i => st.text i.span) = name
  | .genericReceiver name _ params => ∃ v p, r = .receiver v ∧
      v.name.map (fun i => st.text i.span) = name ∧ v.typeParams = some p ∧
      st.ShowsAll p.names params
  | .func name _ => ∃ id f, r = .func id ∧ st.node? id = some f ∧ st.Shows f.name name
  | .genericFunc name _ _ => ∃ id f, r = .func id ∧ st.node? id = some f ∧ st.Shows f.name name
  | .method _ name _ => ∃ id f, r = .func id ∧ st.node? id = some f ∧ st.Shows f.name name
  | _ => True

/-- Whether the step sets a tag. -/
def setsTag : Step → Bool
  | .tag _ _ => true
  | _ => false

/-- What has to hold of a later store for the texts of a step to be read back: the tag that the step
has set is not set again, and the buffers of names and of comments can be addressed. -/
structure Later (step : Step) (r : Register) (st st' : Store) : Prop where
  grows : Grows False (fun id => ¬(step.setsTag ∧ r = .field id)) st st'
  names : st'.Addressable .idents
  comments : st'.Addressable .comments
  sound : st.Sound r.refs

/-- The texts of the step can be read back from every later store. -/
def Kept (step : Step) (st : Store) (r : Register) : Prop :=
  ∀ st', step.Later r st st' → step.Recovered st' r

/-- The comment groups that the step lists. -/
def commentLines : Step → List (List String)
  | .comment lines => [lines]
  | .fileDoc lines => Builder.docLog lines
  | .methodElem doc _ _ => Builder.docLog doc
  | .fieldDoc _ lines => Builder.docLog lines
  | .fieldComment _ lines => Builder.docLog lines
  | .withDoc _ lines => Builder.docLog lines
  | .withComment _ lines => Builder.docLog lines
  | .declDoc _ lines => Builder.docLog lines
  | .funcDoc _ lines => Builder.docLog lines
  | _ => []

/-- The fields that the step attaches a tag to. -/
def Tags (regs : Registers) : Step → FieldId → Prop
  | .tag f _, id => regs.one Register.field? f = some id
  | _, _ => False

/-- What holds of the result of a step. -/
structure Yields (c : Prop) (step : Step) (st : Store) (r : Register) : Prop where
  sound : c → st.Sound r.refs
  kept : step.Kept st r

end Step

end GoOutline
