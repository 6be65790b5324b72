/-
# What the constructions of types, fields and signatures do

One lemma for each construction. It says which node the result stands for and what the parts of that
node are: a list holds the parts that were passed in, a name spells what was passed in. The ids that
are passed in have to lead to something only where the growth is to be a checked one.
-/
import GoOutline.Proofs.Tree.Builder.Logic

namespace GoOutline

open Store (Grows)

/-- The two parts of the name of a type spell the given name, cut at its first dot if it has one. -/
def Store.Qualifies (st : Store) (pkg : Option Ident) (i : Ident) (name : String) : Prop :=
  match cutText '.' name with
  | some (before, after) => ∃ p, pkg = some p ∧ st.Spells p before ∧ st.Spells i after
  | none => pkg = none ∧ st.Spells i name

lemma Store.Grows.qualifies {c : Prop} {T : FieldId → Prop} {a b : Store} (h : Grows c T a b)
    {pkg : Option Ident} {i : Ident} {name : String} (hname : a.Qualifies pkg i name) :
    b.Qualifies pkg i name := by
  unfold Store.Qualifies at hname ⊢
  split at hname
  · obtain ⟨p, hp, hbefore, hafter⟩ := hname
    exact ⟨p, hp, h.spells hbefore, h.spells hafter⟩
  · exact ⟨hname.1, h.spells hname.2⟩

/-- The node binds the given type parameters with the given constraint. -/
def Store.BindsParams (st : Store) (d : List String × ConstraintNode) (id : TypeParamDeclId) :
    Prop :=
  ∃ r, st.node? id = some ⟨r, d.2⟩ ∧ st.SpellsAll r d.1

lemma Store.Grows.bindsParams {c : Prop} {T : FieldId → Prop} {a b : Store} (h : Grows c T a b)
    {d : List String × ConstraintNode} {id : TypeParamDeclId} (hbind : a.BindsParams d id) :
    b.BindsParams d id := by
  obtain ⟨r, hnode, hnames⟩ := hbind
  exact ⟨r, h.node?_fixed hnode rfl, h.spellsAll hnames⟩

namespace Builder

variable {s k : NodeSort} {c : Prop} {T : FieldId → Prop} {b : Builder}

/-! ## Nodes with a word, with brackets, with a list in brackets -/

/-- A node that opens with a word and ends with a part. -/
lemma opened_adds (word : String) (last : Id k) (n : s.Node)
    (sound : c → b.toStore.Sound (s.refs n)) :
    Adds c T [] b (do
      let word ← pushText word
      alloc s n (word.cover (← spanOf last))) fun st id => b.toStore.Gains st id n := by
  refine (pushText_adds word).bind fun sp b₁ g₁ hsp => ?_
  refine (spanOf_adds last).bind fun sp' b₂ g₂ hsp' => ?_
  refine (alloc_adds s n _ ?_ ?_).imp fun _ _ _ h => (g₁.trans g₂).gains h.1
  · exact fun hc => g₂.sound (g₁.sound (sound hc))
  · exact fun hfit => (g₂.cuts hsp).fits.cover (hsp'.fits hfit)

/-- A node between two words. -/
lemma enclosed_adds (left right : String) (n : s.Node) (sound : c → b.toStore.Sound (s.refs n)) :
    Adds c T [] b (do
      let left ← pushText left
      let right ← pushText right
      alloc s n (left.cover right)) fun st id => b.toStore.Gains st id n := by
  refine (pushText_adds left).bind fun sp b₁ g₁ hsp => ?_
  refine (pushText_adds right).bind fun sp' b₂ g₂ hsp' => ?_
  refine (alloc_adds s n _ ?_ ?_).imp fun _ _ _ h => (g₁.trans g₂).gains h.1
  · exact fun hc => g₂.sound (g₁.sound (sound hc))
  · exact fun _ => (g₂.cuts hsp).fits.cover hsp'.fits

/-- A node that is made of a list between two words. -/
lemma enclosedList_adds (left right : String) (l : ListSort) (items : List l.Item)
    (n : ListRef l → s.Node) (hrefs : ∀ r, s.refs (n r) = [r.ref])
    (sound : c → ∀ i ∈ items, b.toStore.Sound (l.refs i)) (hl : l.written = false) :
    Adds c T [] b (do
      let left ← pushText left
      let r ← pushList l items
      let right ← pushText right
      alloc s (n r) (left.cover right)) fun st id =>
        ∃ r, b.toStore.Gains st id (n r) ∧ st.Holds r items := by
  refine (pushText_adds left).bind fun sp b₁ g₁ hsp => ?_
  refine (pushList_adds l items ?_ hl).bind fun r b₂ g₂ hold => ?_
  · exact fun hc i hi => g₁.sound (sound hc i hi)
  refine (pushText_adds right).bind fun sp' b₃ g₃ hsp' => ?_
  refine (alloc_adds s (n r) _ ?_ ?_).imp fun st id g h =>
    ⟨r, ((g₁.trans g₂).trans g₃).gains h.1, g.holds (g₃.holds hold)⟩
  · intro _
    simpa [hrefs] using (g₃.holds hold).sound
  · exact fun _ => (g₃.cuts (g₂.cuts hsp)).fits.cover hsp'.fits

lemma literal_adds (kind : LiteralKind) (raw : String) :
    Adds c T [] b (literal kind raw) fun st id =>
      ∃ sp, b.toStore.Gains st id (.literal kind sp) ∧ sp.Cuts st.source raw := by
  refine (pushText_adds raw).bind fun sp b₁ g₁ hcut => ?_
  refine (alloc_adds .expr (.literal kind sp) sp ?_ ?_).imp fun st id g h => ?_
  · exact fun _ => Store.sound_nil
  · exact fun _ => hcut.fits
  · exact ⟨sp, g₁.gains h.1, g.cuts hcut⟩

/-! ## Types -/

/-- A named type once its name is written. -/
lemma namedNode_adds (name : String) (args : List TypeId) {pkg : Option Ident} {i : Ident}
    (hargs : c → ∀ t ∈ args, b.toStore.Sound [t.ref]) (hname : b.toStore.Qualifies pkg i name) :
    Adds c T [] b (do
      let own := pkg.elim i.span fun p => p.span.cover i.span
      let span ← match args.getLast? with
        | some last => pure (own.cover (← spanOf last))
        | none => pure own
      alloc .type (.named pkg i (← pushList .types args)) span) fun st id => ∃ pkg i r,
        b.toStore.Gains st id (.named pkg i r) ∧ st.Qualifies pkg i name ∧ st.Holds r args := by
  have hlast : ∀ (sp : Span) (b₁ : Builder), Grows c T b.toStore b₁.toStore →
      (∀ st, Grows c T b₁.toStore st → st.SpansFit → sp.Fits st.source) →
      Adds c T [] b₁ (do alloc .type (.named pkg i (← pushList .types args)) sp) fun st id =>
        ∃ pkg i r,
          b.toStore.Gains st id (.named pkg i r) ∧ st.Qualifies pkg i name ∧ st.Holds r args := by
    intro sp b₁ g₁ hfits
    refine (pushList_adds .types args ?_ rfl).bind fun r b₂ g₂ hold => ?_
    · exact fun hc t ht => g₁.sound (hargs hc t ht)
    refine (alloc_adds .type (.named pkg i r) sp ?_ ?_).imp fun st id g h => ?_
    · exact fun _ => .one hold.sound
    · exact hfits _ g₂
    · exact ⟨pkg, i, r, (g₁.trans g₂).gains h.1,
        g.qualifies (g₂.qualifies (g₁.qualifies hname)), g.holds hold⟩
  have hown : (pkg.elim i.span fun p => p.span.cover i.span).Fits b.source := by
    unfold Store.Qualifies at hname
    split at hname
    · obtain ⟨p, rfl, hp, hi⟩ := hname
      exact hp.place.fits.cover hi.place.fits
    · obtain ⟨rfl, hi⟩ := hname
      exact hi.place.fits
  cases args.getLast? with
  | none => exact hlast _ b .refl fun st g _ => g.fits hown
  | some last =>
    refine (spanOf_adds last).bind fun sp b₁ g₁ hsp => ?_
    exact hlast _ b₁ g₁ fun st g hfit =>
      (g.fits (g₁.fits hown)).cover ((g.extent hsp).fits hfit)

lemma instantiated_adds (name : String) (args : List TypeId)
    (hargs : c → ∀ t ∈ args, b.toStore.Sound [t.ref]) :
    Adds c T [] b (instantiated name args) fun st id => ∃ pkg i r,
      b.toStore.Gains st id (.named pkg i r) ∧ st.Qualifies pkg i name ∧ st.Holds r args := by
  unfold instantiated
  cases hcut : cutText '.' name with
  | none =>
    refine (ident_adds name).bind fun i b₁ g₁ hi => ?_
    refine (namedNode_adds name args (fun hc t ht => g₁.sound (hargs hc t ht)) ?_).imp
      fun st id _ ⟨pkg, i, r, h, hparts⟩ => ⟨pkg, i, r, g₁.gains h, hparts⟩
    rw [Store.Qualifies, hcut]
    exact ⟨rfl, hi⟩
  | some parts =>
    obtain ⟨before, after⟩ := parts
    refine (ident_adds before).bind fun p b₁ g₁ hp => ?_
    refine (ident_adds after).bind fun i b₂ g₂ hi => ?_
    refine (namedNode_adds name args (fun hc t ht => g₂.sound (g₁.sound (hargs hc t ht))) ?_).imp
      fun st id _ ⟨pkg, i, r, h, hparts⟩ => ⟨pkg, i, r, (g₁.trans g₂).gains h, hparts⟩
    rw [Store.Qualifies, hcut]
    exact ⟨p, rfl, g₂.spells hp, hi⟩

lemma pointer_adds (elem : TypeId) (helem : c → elem.ref.In b.toStore) :
    Adds c T [] b (pointer elem) fun st id => b.toStore.Gains st id (.pointer elem) := by
  exact opened_adds "*" elem (s := .type) (.pointer elem) fun hc => .one (helem hc)

lemma slice_adds (elem : TypeId) (helem : c → elem.ref.In b.toStore) :
    Adds c T [] b (slice elem) fun st id => b.toStore.Gains st id (.slice elem) := by
  exact opened_adds "[]" elem (s := .type) (.slice elem) fun hc => .one (helem hc)

lemma map_adds (key val : TypeId) (hkey : c → key.ref.In b.toStore)
    (hval : c → val.ref.In b.toStore) :
    Adds c T [] b (map key val) fun st id => b.toStore.Gains st id (.map key val) := by
  exact opened_adds "map" val (s := .type) (.map key val) fun hc => .two (hkey hc) (hval hc)

lemma chan_adds (dir : ChanDir) (elem : TypeId) (helem : c → elem.ref.In b.toStore) :
    Adds c T [] b (chan dir elem) fun st id => b.toStore.Gains st id (.chan dir elem) := by
  exact opened_adds "chan" elem (s := .type) (.chan dir elem) fun hc => .one (helem hc)

lemma funcType_adds (sig : SignatureId) (hsig : c → sig.ref.In b.toStore) :
    Adds c T [] b (funcType sig) fun st id => b.toStore.Gains st id (.func sig) := by
  exact opened_adds "func" sig (s := .type) (.func sig) fun hc => .one (hsig hc)

lemma parenType_adds (inner : TypeId) (hinner : c → inner.ref.In b.toStore) :
    Adds c T [] b (parenType inner) fun st id => b.toStore.Gains st id (.paren inner) := by
  exact enclosed_adds "(" ")" (s := .type) (.paren inner) fun hc => .one (hinner hc)

lemma struct_adds (fields : List FieldId)
    (hfields : c → ∀ f ∈ fields, b.toStore.Sound [f.ref]) :
    Adds c T [] b (struct fields) fun st id =>
      ∃ r, b.toStore.Gains st id (.struct r) ∧ st.Holds r fields :=
  enclosedList_adds "struct \x7b" "\x7d" .fields fields (s := .type) .struct (fun _ => rfl) hfields
    rfl

lemma interface_adds (elems : List InterfaceElemNode)
    (helems : c → ∀ e ∈ elems, b.toStore.Sound e.refs) :
    Adds c T [] b (interface elems) fun st id =>
      ∃ r, b.toStore.Gains st id (.interface r) ∧ st.Holds r elems :=
  enclosedList_adds "interface \x7b" "\x7d" .interfaceElems elems (s := .type) .interface
    (fun _ => rfl) helems rfl

lemma badType_adds : Adds c T [] b badType fun st id => b.toStore.Gains st id .bad := by
  refine (pushText_adds "<bad>").bind fun sp b₁ g₁ hsp => ?_
  refine (alloc_adds .type .bad sp ?_ fun _ => hsp.fits).imp fun _ _ _ h => g₁.gains h.1
  exact fun _ => Store.sound_nil

/-- An array type once its length is written. -/
lemma arrayNode_adds (bracket : Span) (length : ArrayLengthNode) (elem : TypeId)
    (hbracket : bracket.Fits b.source) (hlength : c → b.toStore.Sound length.refs)
    (helem : c → elem.ref.In b.toStore) :
    Adds c T [] b (do alloc .type (.array length elem) (bracket.cover (← spanOf elem))) fun st id =>
      b.toStore.Gains st id (.array length elem) := by
  refine (spanOf_adds elem).bind fun sp b₁ g₁ hsp => ?_
  refine (alloc_adds .type (.array length elem) _ ?_ ?_).imp fun _ _ _ h => g₁.gains h.1
  · intro hc
    exact Store.sound_cons.2 ⟨g₁.reference (helem hc), g₁.sound (hlength hc)⟩
  · exact fun hfit => (g₁.fits hbracket).cover (hsp.fits hfit)

lemma array_adds (length : String) (elem : TypeId) (helem : c → elem.ref.In b.toStore) :
    Adds c T [] b (array length elem) fun st id => if length = "..." then
        b.toStore.Gains st id (.array .inferred elem)
      else ∃ e sp, b.toStore.Gains st id (.array (.expr e) elem) ∧
        st.node? e = some (.literal .int sp) ∧ sp.Cuts st.source length := by
  unfold array
  refine (pushText_adds "[").bind fun bracket b₁ g₁ hbracket => ?_
  by_cases hdots : length = "..."
  · simp only [hdots, if_true]
    refine (pushText_adds "...").bind fun _ b₂ g₂ _ => ?_
    refine (arrayNode_adds bracket .inferred elem (g₂.cuts hbracket).fits ?_ ?_).imp ?_
    · exact fun _ => Store.sound_nil
    · exact fun hc => g₂.reference (g₁.reference (helem hc))
    · exact fun st id _ h => (g₁.trans g₂).gains h
  · simp only [hdots, if_false]
    have hlength : Adds c T [] b₁ (ArrayLengthNode.expr <$> literal .int length) fun st n =>
        ∃ e sp, n = .expr e ∧ st.node? e = some (.literal .int sp) ∧ sp.Cuts st.source length :=
      (literal_adds .int length).map fun _ e _ ⟨sp, h, hcut⟩ => ⟨e, sp, rfl, h.node, hcut⟩
    refine hlength.bind ?_
    rintro _ b₂ g₂ ⟨e, sp, rfl, hnode, hcut⟩
    refine (arrayNode_adds bracket (.expr e) elem (g₂.cuts hbracket).fits ?_ ?_).imp ?_
    · intro _
      exact .one (Store.in_of_node? hnode)
    · exact fun hc => g₂.reference (g₁.reference (helem hc))
    · exact fun st id g h =>
        ⟨e, sp, (g₁.trans g₂).gains h, g.node?_fixed hnode rfl, g.cuts hcut⟩

/-! ## Interface elements and constraints -/

lemma methodElem_adds (doc : List String) (name : String) (sig : SignatureId) :
    Adds c T (docLog doc) b (methodElem doc name sig) fun st e => ∃ d i,
      e = .method d i sig ∧ st.DocLined d doc ∧ st.Spells i name := by
  refine (commentGroup?_adds doc).bind_logged fun d b₁ g₁ hdoc => ?_
  refine (ident_adds name).bind fun i b₂ g₂ hi => ?_
  exact .pure ⟨d, i, rfl, g₂.docLined hdoc, hi⟩

lemma embedElem_adds (terms : List TypeTermNode)
    (hterms : c → ∀ t ∈ terms, b.toStore.Sound t.refs) :
    Adds c T [] b (embedElem terms) fun st e => ∃ r, e = .union r ∧ st.Holds r terms :=
  (pushList_adds .typeTerms terms hterms rfl).map fun _ r _ hold => ⟨r, rfl, hold⟩

lemma tilde_adds (type : TypeId) :
    Adds c T [] b (tilde type) fun _ t => ∃ sp, t = ⟨some sp, type⟩ :=
  (pushText_adds "~").bind fun sp _ _ _ => .pure ⟨sp, rfl⟩

lemma anyConstraint_adds : Adds c T [] b anyConstraint fun _ k => ∃ sp, k = .any sp :=
  (pushText_adds "any").map fun _ sp _ _ => ⟨sp, rfl⟩

lemma unionConstraint_adds (terms : List TypeTermNode)
    (hterms : c → ∀ t ∈ terms, b.toStore.Sound t.refs) :
    Adds c T [] b (unionConstraint terms) fun st k => ∃ r, k = .union r ∧ st.Holds r terms :=
  (pushList_adds .typeTerms terms hterms rfl).map fun _ r _ hold => ⟨r, rfl, hold⟩

lemma typeParamDecl_adds (bracket : Span) (names : List String) (constraint : ConstraintNode)
    (hbracket : bracket.Fits b.source) (hconstraint : c → b.toStore.Sound constraint.refs) :
    Adds c T [] b (typeParamDecl bracket names constraint) fun st id =>
      st.BindsParams (names, constraint) id := by
  refine (idents_adds names).bind fun r b₁ g₁ hnames => ?_
  refine (firstSpan?_adds hnames).bind fun first b₂ g₂ hfirst => ?_
  refine (alloc_adds .typeParamDecl ⟨r, constraint⟩ _ ?_ ?_).imp fun st id g h => ?_
  · intro hc
    exact Store.sound_cons.2 ⟨(g₂.spellsAll hnames).sound, g₂.sound (g₁.sound (hconstraint hc))⟩
  · intro _
    cases first with
    | none => exact g₂.fits (g₁.fits hbracket)
    | some sp => exact hfirst sp rfl
  · exact ⟨r, h.1.node, g.spellsAll (g₂.spellsAll hnames)⟩

lemma typeParams_adds (decls : List (List String × ConstraintNode))
    (hdecls : c → ∀ d ∈ decls, b.toStore.Sound d.2.refs) :
    Adds c T [] b (typeParams decls) fun st id => ∃ r ids,
      b.toStore.Gains st id ⟨r⟩ ∧ st.Holds r ids ∧ List.Forall₂ st.BindsParams decls ids := by
  refine (pushText_adds "[").bind fun left b₁ g₁ hleft => ?_
  have hids : Adds c T [] b₁ (decls.mapM fun d => typeParamDecl left d.1 d.2) fun st =>
      List.Forall₂ st.BindsParams decls := by
    refine Adds.mapM (fun g h => g.bindsParams h) fun d hd b' g => ?_
    refine typeParamDecl_adds left d.1 d.2 (g.cuts hleft).fits ?_
    exact fun hc => g.sound (g₁.sound (hdecls hc d hd))
  refine hids.bind fun ids b₂ g₂ hids => ?_
  refine (pushList_adds .typeParamDecls ids ?_ rfl).bind fun r b₃ g₃ hold => ?_
  · intro _ id hid
    obtain ⟨d, -, r, hnode, -⟩ := hids.flip.exists_of_mem hid
    exact .one (Store.in_of_node? hnode)
  refine (pushText_adds "]").bind fun right b₄ g₄ hright => ?_
  refine (alloc_adds .typeParams ⟨r⟩ _ ?_ ?_).imp fun st id g h => ?_
  · exact fun _ => .one (g₄.holds hold).sound
  · exact fun _ => (g₄.cuts (g₃.cuts (g₂.cuts hleft))).fits.cover hright.fits
  · refine ⟨r, ids, (((g₁.trans g₂).trans g₃).trans g₄).gains h.1, g.holds (g₄.holds hold),
      hids.imp fun _ _ => ?_⟩
    exact (g₃.trans (g₄.trans g)).bindsParams

/-! ## Fields and signatures -/

/-- An entry of a field list once its names and its ellipsis are written. -/
lemma fieldNode_adds {names : List String} {r : ListRef .idents} (ellipsis : Option Span)
    (type : TypeId) (embedded : Bool) (hnames : b.toStore.SpellsAll r names)
    (htype : c → type.ref.In b.toStore) :
    Adds c T [] b (do
      let typeSpan ← spanOf type
      let span := (← firstSpan? r).elim typeSpan fun first => first.cover typeSpan
      alloc .field ⟨r, ellipsis, type, none, embedded, none, none⟩ span) fun st id =>
        b.toStore.Gains st id ⟨r, ellipsis, type, none, embedded, none, none⟩ ∧
          st.SpellsAll r names := by
  refine (spanOf_adds type).bind fun sp b₁ g₁ hsp => ?_
  refine (firstSpan?_adds (g₁.spellsAll hnames)).bind fun first b₂ g₂ hfirst => ?_
  have hnames₂ := g₂.spellsAll (g₁.spellsAll hnames)
  refine (alloc_adds .field ⟨r, ellipsis, type, none, embedded, none, none⟩ _ ?_ ?_).imp
    fun st id g h => ⟨(g₁.trans g₂).gains h.1, g.spellsAll hnames₂⟩
  · intro hc
    exact .two hnames₂.sound (g₂.reference (g₁.reference (htype hc)))
  · intro hfit
    cases first with
    | none => exact (g₂.extent hsp).fits hfit
    | some sp' => exact (hfirst sp' rfl).cover ((g₂.extent hsp).fits hfit)

lemma fieldEntry_adds (names : List String) (variadic : Bool) (type : TypeId) (embedded : Bool)
    (htype : c → type.ref.In b.toStore) :
    Adds c T [] b (fieldEntry names variadic type embedded) fun st id => ∃ r ellipsis,
      b.toStore.Gains st id ⟨r, ellipsis, type, none, embedded, none, none⟩ ∧
        st.SpellsAll r names ∧ ellipsis.isSome = variadic := by
  unfold fieldEntry
  refine (idents_adds names).bind fun r b₁ g₁ hnames => ?_
  cases variadic with
  | false =>
    refine (fieldNode_adds none type embedded hnames ?_).imp fun st id _ h => ?_
    · exact fun hc => g₁.reference (htype hc)
    · exact ⟨r, none, g₁.gains h.1, h.2, rfl⟩
  | true =>
    have hdots : Adds c T [] b₁ (some <$> pushText "...") fun _ ellipsis => ellipsis.isSome :=
      (pushText_adds "...").map fun _ _ _ _ => rfl
    refine hdots.bind fun ellipsis b₂ g₂ hsome => ?_
    refine (fieldNode_adds ellipsis type embedded (g₂.spellsAll hnames) ?_).imp fun st id _ h => ?_
    · exact fun hc => g₂.reference (g₁.reference (htype hc))
    · exact ⟨r, ellipsis, (g₁.trans g₂).gains h.1, h.2, hsome⟩

lemma tag_adds (id : FieldId) (raw : String) (may : T id) :
    Adds c T [] b (tag id raw) fun st _ => ∃ sp, sp.Cuts st.source raw ∧
      ∀ f, st.node? id = some f → f.tag = some sp := by
  refine (pushText_adds raw).bind fun sp b₁ g₁ hcut => ?_
  exact (tag_update_adds id sp may).imp fun st _ g h => ⟨sp, g.cuts hcut, h⟩

lemma fieldDoc_adds (id : FieldId) (lines : List String) :
    Adds c T (docLog lines) b (fieldDoc id lines) fun _ _ => True :=
  (commentGroup?_adds lines).bind_logged fun _ _ _ h => doc_update_adds id h.documents .field

lemma fieldComment_adds (id : FieldId) (lines : List String) :
    Adds c T (docLog lines) b (fieldComment id lines) fun _ _ => True :=
  (commentGroup?_adds lines).bind_logged fun _ _ _ h => doc_update_adds id h.documents .comment

lemma fieldList_adds (fields : List FieldId)
    (hfields : c → ∀ f ∈ fields, b.toStore.Sound [f.ref]) :
    Adds c T [] b (fieldList fields) fun st (left, r, right) =>
      left.Fits st.source ∧ st.Holds r fields ∧ right.Fits st.source := by
  refine (pushText_adds "(").bind fun left b₁ g₁ hleft => ?_
  refine (pushList_adds .fields fields ?_ rfl).bind fun r b₂ g₂ hold => ?_
  · exact fun hc f hf => g₁.sound (hfields hc f hf)
  refine (pushText_adds ")").bind fun right b₃ g₃ hright => ?_
  exact .pure ⟨(g₃.cuts (g₂.cuts hleft)).fits, g₃.holds hold, hright.fits⟩

lemma signature_adds (params results : List FieldId)
    (hparams : c → ∀ f ∈ params, b.toStore.Sound [f.ref])
    (hresults : c → ∀ f ∈ results, b.toStore.Sound [f.ref]) :
    Adds c T [] b (signature params results) fun st id => ∃ r : ListRef .fields,
      st.Holds r params ∧ if results = [] then b.toStore.Gains st id ⟨r, none⟩
      else ∃ r', b.toStore.Gains st id ⟨r, some (.list r')⟩ ∧ st.Holds r' results := by
  unfold signature
  refine (fieldList_adds params hparams).bind ?_
  rintro ⟨left, r, right⟩ b₁ g₁ ⟨hleft, hold, hright⟩
  cases results with
  | nil =>
    refine (alloc_adds .signature ⟨r, none⟩ _ ?_ ?_).imp fun st id g h => ?_
    · exact fun _ => .one hold.sound
    · exact fun _ => hleft.cover hright
    · exact ⟨r, g.holds hold, by simpa using g₁.gains h.1⟩
  | cons f fs =>
    refine (fieldList_adds (f :: fs) fun hc f hf => g₁.sound (hresults hc f hf)).bind ?_
    rintro ⟨left', r', right'⟩ b₂ g₂ ⟨-, hold', hright'⟩
    refine (alloc_adds .signature ⟨r, some (.list r')⟩ _ ?_ ?_).imp fun st id g h => ?_
    · exact fun _ => .two (g₂.holds hold).sound hold'.sound
    · exact fun _ => (g₂.fits hleft).cover hright'
    · exact ⟨r, g.holds (g₂.holds hold), by simpa using ⟨r', (g₁.trans g₂).gains h.1, g.holds hold'⟩⟩

lemma signatureReturning_adds (params : List FieldId) (result : TypeId)
    (hparams : c → ∀ f ∈ params, b.toStore.Sound [f.ref])
    (hresult : c → result.ref.In b.toStore) :
    Adds c T [] b (signatureReturning params result) fun st id => ∃ r : ListRef .fields,
      st.Holds r params ∧ b.toStore.Gains st id ⟨r, some (.type result)⟩ := by
  refine (fieldList_adds params hparams).bind ?_
  rintro ⟨left, r, right⟩ b₁ g₁ ⟨hleft, hold, -⟩
  refine (spanOf_adds result).bind fun sp b₂ g₂ hsp => ?_
  refine (alloc_adds .signature ⟨r, some (.type result)⟩ _ ?_ ?_).imp fun st id g h => ?_
  · intro hc
    exact .two (g₂.holds hold).sound (g₂.reference (g₁.reference (hresult hc)))
  · exact fun hfit => (g₂.fits hleft).cover (hsp.fits hfit)
  · exact ⟨r, g.holds (g₂.holds hold), (g₁.trans g₂).gains h.1⟩

end Builder

end GoOutline
