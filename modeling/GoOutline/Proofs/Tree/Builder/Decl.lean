/-
# What the constructions of declarations do
-/
import GoOutline.Proofs.Tree.Builder.Type

namespace GoOutline

open Store (Grows)

/-- The documentation of a spec. -/
def SpecNode.doc : SpecNode → Option CommentGroupId
  | .imported s => s.doc
  | .value s => s.doc
  | .type s => s.doc

namespace Store

/-- The name given to an imported package spells the given name. -/
def NamesImport (st : Store) (name : String) : ImportName → Prop
  | .dot sp => name = "." ∧ sp.Cuts st.source name
  | .blank sp => name = "_" ∧ sp.Cuts st.source name
  | .name i => st.Spells i name

/-- The receiver has the given name and type and binds the given names in brackets. -/
structure Receives (st : Store) (name : Option String) (type : TypeId) (params : List String)
    (r : ReceiverNode) : Prop where
  name : Option.Rel (fun name i => st.Spells i name) name r.name
  type : r.type = type
  params : r.typeParams.elim (params = []) fun p => st.SpellsAll p.names params

variable {c : Prop} {T : FieldId → Prop} {a b : Store}

lemma Grows.namesImport (h : Grows c T a b) {name : String} {n : ImportName}
    (hname : a.NamesImport name n) : b.NamesImport name n := by
  cases n with
  | dot sp => exact ⟨hname.1, h.cuts hname.2⟩
  | blank sp => exact ⟨hname.1, h.cuts hname.2⟩
  | name i => exact h.spells hname

lemma Receives.sound {name : Option String} {type : TypeId} {params : List String}
    {r : ReceiverNode} (h : a.Receives name type params r) (htype : type.ref.In a) :
    a.Sound r.refs := by
  obtain ⟨-, rfl, hparams⟩ := h
  simp only [ReceiverNode.refs, sound_cons]
  refine ⟨htype, ?_⟩
  cases hr : r.typeParams with
  | none => exact sound_nil
  | some p =>
    rw [hr] at hparams
    simpa using hparams.sound

end Store

namespace Builder

variable {c : Prop} {T : FieldId → Prop} {b : Builder}

/-! ## Specs -/

lemma importName_adds (name : String) :
    Adds c T [] b (importName name) fun st => st.NamesImport name := by
  unfold importName
  refine (pushText_adds name).bind fun sp b₁ g₁ hcut => ?_
  split
  · next hdot => exact .pure ⟨hdot, hcut⟩
  split
  · next hblank => exact .pure ⟨hblank, hcut⟩
  · exact (intern_adds name).bind fun sym b₂ g₂ hsym => .pure ⟨g₂.cuts hcut, hsym⟩

lemma importSpec_adds (name : Option String) (path : String) :
    Adds c T [] b (importSpec name path) fun st s => ∃ n sp, s = .imported ⟨none, n, sp, none⟩ ∧
      Option.Rel st.NamesImport name n ∧ sp.Cuts st.source ("\"" ++ path ++ "\"") := by
  refine (Adds.optM fun a _ => importName_adds a).bind fun n b₁ g₁ hn => ?_
  refine (pushText_adds _).bind fun sp b₂ g₂ hcut => ?_
  exact .pure ⟨n, sp, rfl, hn.mono fun _ _ => g₂.namesImport, hcut⟩

lemma valueSpec_adds (names : List String) (type : Option TypeId) (values : List ExprId)
    (hvalues : c → ∀ e ∈ values, b.toStore.Sound [e.ref]) :
    Adds c T [] b (valueSpec names type values) fun st s => ∃ r r',
      s = .value ⟨none, r, type, r'⟩ ∧ st.SpellsAll r names ∧ st.Holds r' values := by
  refine (idents_adds names).bind fun r b₁ g₁ hnames => ?_
  refine (pushList_adds .exprs values ?_ rfl).bind fun r' b₂ g₂ hold => ?_
  · exact fun hc e he => g₁.sound (hvalues hc e he)
  · exact .pure ⟨r, r', rfl, g₂.spellsAll hnames, hold⟩

lemma typeSpec_adds (name : String) (typeParams : Option TypeParamsId) (type : TypeId)
    (isAlias : Bool) :
    Adds c T [] b (typeSpec name typeParams type isAlias) fun st s => ∃ i assign,
      s = .type ⟨none, i, typeParams, assign, type, isAlias⟩ ∧ st.Spells i name := by
  unfold typeSpec
  refine (ident_adds name).bind fun i b₁ g₁ hi => ?_
  cases isAlias with
  | false => exact .pure ⟨i, none, rfl, hi⟩
  | true =>
    have hassign : Adds c T [] b₁ (some <$> pushText "=") fun _ _ => True :=
      (pushText_adds "=").map fun _ _ _ _ => trivial
    exact hassign.bind fun assign b₂ g₂ _ => .pure ⟨i, assign, rfl, g₂.spells hi⟩

lemma withDoc_adds (spec : SpecNode) (lines : List String)
    (hspec : c → b.toStore.Sound spec.refs) :
    Adds c T (docLog lines) b (withDoc spec lines) fun st s => (c → st.Sound s.refs) ∧
      st.DocLined s.doc lines := by
  refine (commentGroup?_adds lines).bind_logged fun doc b₁ g₁ hdoc => .pure ⟨fun hc => ?_, ?_⟩
  · have hold := g₁.sound (hspec hc)
    have hnew := hdoc.documents.sound
    cases spec with
    | imported s =>
      simp only [SpecNode.refs, Store.sound_append] at hold ⊢
      exact ⟨hnew, hold.2⟩
    | value s =>
      simp only [SpecNode.refs, Store.sound_append, Store.sound_cons] at hold ⊢
      exact ⟨hold.1, hold.2.1, hnew, hold.2.2.2⟩
    | type s =>
      simp only [SpecNode.refs, Store.sound_append, Store.sound_cons] at hold ⊢
      exact ⟨hold.1, hnew, hold.2.2⟩
  · cases spec <;> exact hdoc

lemma withComment_adds (spec : SpecNode) (lines : List String)
    (hspec : c → b.toStore.Sound spec.refs) :
    Adds c T (docLog lines) b (withComment spec lines) fun st s => c → st.Sound s.refs := by
  refine (commentGroup?_adds lines).bind_logged fun comment b₁ g₁ hcomment => .pure fun hc => ?_
  have hold := g₁.sound (hspec hc)
  cases spec with
  | imported s =>
    simp only [SpecNode.refs, Store.sound_append] at hold ⊢
    exact ⟨hold.1, hcomment.documents.sound⟩
  | value s => exact hold
  | type s => exact hold

/-! ## Declarations -/

/-- A node that is also listed as a declaration of the file. -/
lemma declared_adds {s : NodeSort} (top : Id s → TopDeclNode) (htop : ∀ id, (top id).refs = [id.ref])
    (n : s.Node) (sp : Span) (sound : c → b.toStore.Sound (s.refs n))
    (fits : b.toStore.SpansFit → sp.Fits b.source) :
    Adds c T [] b (do
      let id ← alloc s n sp
      declare (top id)
      return id) fun st id => b.toStore.Gains st id n := by
  refine (alloc_adds s n sp sound fits).bind fun id b₁ g₁ hid => ?_
  refine (declare_adds (top id) ?_).bind fun _ b₂ g₂ hstore => .pure ?_
  · intro _
    simpa [htop] using Store.in_of_node? hid.1.node
  · rw [hstore]
    exact hid.1

lemma decl_adds (group : DeclGroup) (spec : SpecNode) (hspec : c → b.toStore.Sound spec.refs) :
    Adds c T [] b (decl group spec) fun st id => ∃ r,
      b.toStore.Gains st id (.general ⟨none, group, false, r⟩) ∧ st.Holds r [spec] := by
  refine (pushText_adds group.keyword).bind fun word b₁ g₁ hword => ?_
  refine (pushList_adds .specs [spec] ?_ rfl).bind fun r b₂ g₂ hold => ?_
  · intro hc s hs
    rw [List.mem_singleton.1 hs]
    exact g₁.sound (hspec hc)
  refine (declared_adds .decl (fun _ => rfl) (.general ⟨none, group, false, r⟩) word ?_ ?_).imp
    fun st id g h => ⟨r, (g₁.trans g₂).gains h, g.holds hold⟩
  · exact fun _ => .one hold.sound
  · exact fun _ => (g₂.cuts hword).fits

lemma declGroup_adds (group : DeclGroup) (specs : List SpecNode)
    (hspecs : c → ∀ s ∈ specs, b.toStore.Sound s.refs) :
    Adds c T [] b (declGroup group specs) fun st id => ∃ r,
      b.toStore.Gains st id (.general ⟨none, group, true, r⟩) ∧ st.Holds r specs := by
  refine (pushText_adds group.keyword).bind fun word b₁ g₁ hword => ?_
  refine (pushText_adds "(").bind fun _ b₂ g₂ _ => ?_
  refine (pushList_adds .specs specs ?_ rfl).bind fun r b₃ g₃ hold => ?_
  · exact fun hc s hs => g₂.sound (g₁.sound (hspecs hc s hs))
  refine (pushText_adds ")").bind fun right b₄ g₄ hright => ?_
  refine (declared_adds .decl (fun _ => rfl) (.general ⟨none, group, true, r⟩) _ ?_ ?_).imp
    fun st id g h => ⟨r, (((g₁.trans g₂).trans g₃).trans g₄).gains h, g.holds (g₄.holds hold)⟩
  · exact fun _ => .one (g₄.holds hold).sound
  · exact fun _ => (g₄.cuts (g₃.cuts (g₂.cuts hword))).fits.cover hright.fits

lemma declDoc_adds (id : DeclId) (lines : List String) :
    Adds c T (docLog lines) b (declDoc id lines) fun _ _ => True :=
  (commentGroup?_adds lines).bind_logged fun _ _ _ h => doc_update_adds id h.documents .decl

lemma badDecl_adds : Adds c T [] b badDecl fun st id => b.toStore.Gains st id .bad := by
  refine (pushText_adds "<bad>").bind fun sp b₁ g₁ hsp => ?_
  refine (declared_adds .decl (fun _ => rfl) .bad sp ?_ fun _ => hsp.fits).imp fun _ _ _ h =>
    g₁.gains h
  exact fun _ => Store.sound_nil

/-! ## Functions and methods -/

lemma receiver_adds (name : Option String) (type : TypeId) :
    Adds c T [] b (receiver name type) fun st r => st.Receives name type [] r ∧
      r.typeParams = none := by
  refine (pushText_adds "(").bind fun left b₁ g₁ hleft => ?_
  refine (Adds.optM fun a _ => ident_adds a).bind fun i b₂ g₂ hi => ?_
  refine (pushText_adds ")").bind fun right b₃ g₃ hright => .pure ⟨⟨?_, rfl, rfl⟩, rfl⟩
  exact hi.mono fun _ _ => g₃.spells

lemma genericReceiver_adds (name : Option String) (type : TypeId) (params : List String) :
    Adds c T [] b (genericReceiver name type params) fun st r => st.Receives name type params r ∧
      r.typeParams ≠ none := by
  refine (receiver_adds name type).bind fun r b₁ g₁ hr => ?_
  refine (pushText_adds "[").bind fun _ b₂ g₂ _ => ?_
  refine (idents_adds params).bind fun names b₃ g₃ hnames => ?_
  refine (pushText_adds "]").bind fun _ b₄ g₄ _ => .pure ⟨⟨?_, hr.1.type, ?_⟩, by simp⟩
  · exact hr.1.name.mono fun _ _ h => g₄.spells (g₃.spells (g₂.spells h))
  · exact g₄.spellsAll hnames

lemma func_adds (receiver : Option ReceiverNode) (name : String)
    (typeParams : Option TypeParamsId) (signature : SignatureId)
    (hreceiver : c → b.toStore.Sound (receiver.elim [] ReceiverNode.refs))
    (hparams : c → b.toStore.Sound (Id.optRefs typeParams))
    (hsig : c → signature.ref.In b.toStore) :
    Adds c T [] b (func receiver name typeParams signature) fun st id => ∃ i body,
      b.toStore.Gains st id ⟨none, receiver, i, typeParams, signature, body⟩ ∧ st.Spells i name := by
  refine (pushText_adds "func").bind fun word b₁ g₁ hword => ?_
  refine (ident_adds name).bind fun i b₂ g₂ hi => ?_
  refine (pushText_adds "\x7b").bind fun left b₃ g₃ hleft => ?_
  refine (pushText_adds "\x7d").bind fun right b₄ g₄ hright => ?_
  have g₀ := ((g₁.trans g₂).trans g₃).trans g₄
  refine (declared_adds .func (fun _ => rfl)
    ⟨none, receiver, i, typeParams, signature, some ⟨left, right⟩⟩ _ ?_ ?_).imp
    fun st id g h => ⟨i, _, g₀.gains h, g.spells (g₄.spells (g₃.spells hi))⟩
  · intro hc
    have hparts := Store.sound_append.2 ⟨hreceiver hc, hparams hc⟩
    exact Store.sound_cons.2 ⟨g₀.reference (hsig hc), g₀.sound hparts⟩
  · exact fun _ => (g₄.cuts (g₃.cuts (g₂.cuts hword))).fits.cover hright.fits

lemma funcDoc_adds (id : FuncId) (lines : List String) :
    Adds c T (docLog lines) b (funcDoc id lines) fun _ _ => True :=
  (commentGroup?_adds lines).bind_logged fun _ _ _ h => doc_update_adds id h.documents .func

end Builder

end GoOutline
