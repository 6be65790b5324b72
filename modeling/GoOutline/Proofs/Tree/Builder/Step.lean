/-
# What a construction step does

All steps of a script do the same kind of thing: the store grows, with no tag attached but by a step
that sets one, comment groups are listed in the order of the calls, and every text that was handed to
the step can be read back from its result.
-/
import GoOutline.Proofs.Tree.Builder.Recovered

namespace GoOutline

open Store (Grows)

namespace Step

/-- What a step does to a builder, if its registers hold what it needs. -/
def Does (c : Prop) (regs : Registers) (b : Builder) (step : Step) : Prop :=
  (c → regs.Sound b.toStore) → ∀ act, step.action regs = some act →
    Adds c (step.Tags regs) step.commentLines b act (step.Yields c)

variable {c : Prop} {step : Step} {regs : Registers} {b : Builder}

/-- The result of a construction of a node, put into a register. -/
lemma adds_of_node {s : NodeSort} {T : FieldId → Prop} {log : List (List String)} {m : Build (Id s)}
    {Q : Store → Id s → Prop} (g : Id s → Register) (hg : ∀ id, (g id).refs = [id.ref])
    (h : Adds c T log b m Q) (hnode : ∀ st id, Q st id → ∃ n, st.node? id = some n)
    (hkept : ∀ st id, Q st id → step.Kept st (g id)) :
    Adds c T log b (g <$> m) (step.Yields c) := by
  refine h.map fun st id _ hid => ⟨fun _ => ?_, hkept st id hid⟩
  obtain ⟨n, hn⟩ := hnode st id hid
  simpa [hg] using Store.in_of_node? hn

/-- The same for a step that was handed no text. -/
lemma adds_of_plain {s : NodeSort} {T : FieldId → Prop} {log : List (List String)}
    {m : Build (Id s)} {n : s.Node} (g : Id s → Register) (hg : ∀ id, (g id).refs = [id.ref])
    (hstep : ∀ st r, step.Recovered st r)
    (h : Adds c T log b m fun st id => b.toStore.Gains st id n) :
    Adds c T log b (g <$> m) (step.Yields c) :=
  adds_of_node g hg h (fun _ _ hn => ⟨n, hn.node⟩) fun _ _ _ _ _ => hstep _ _

/-- The same for a step that was handed no text, if the node has a list of parts. -/
lemma adds_of_list {s : NodeSort} {l : ListSort} {T : FieldId → Prop} {log : List (List String)}
    {m : Build (Id s)} {n : ListRef l → s.Node} {items : List l.Item} (g : Id s → Register)
    (hg : ∀ id, (g id).refs = [id.ref]) (hstep : ∀ st r, step.Recovered st r)
    (h : Adds c T log b m fun st id => ∃ r, b.toStore.Gains st id (n r) ∧ st.Holds r items) :
    Adds c T log b (g <$> m) (step.Yields c) :=
  adds_of_node g hg h (fun _ _ ⟨r, hn, _⟩ => ⟨n r, hn.node⟩) fun _ _ _ _ _ => hstep _ _

/-- A step that attaches a comment to what a register refers to. The comment is told by the log. -/
lemma adds_of_comment {T : FieldId → Prop} {log : List (List String)} {m : Build Unit}
    {Q : Store → Unit → Prop} {r : Register} (hr : c → b.toStore.Sound r.refs)
    (hstep : ∀ st r, step.Recovered st r) (h : Adds c T log b m Q) :
    Adds c T log b (do m; return r) (step.Yields c) :=
  h.bind_logged fun _ _ g _ => .pure ⟨fun hc => g.sound (hr hc), fun _ _ => hstep _ _⟩

open Registers Register Builder

/-! ## Comments and names -/

lemma comment_does (lines : List String) : Does c regs b (.comment lines) := by
  intro _ act h
  obtain rfl := Option.some.inj h
  exact adds_of_node .group (fun _ => rfl) (commentGroup_adds lines)
    (fun _ _ ⟨_, _, hn, _⟩ => ⟨_, hn⟩)
    fun _ g hg _ later => ⟨g, rfl, (later.grows.lined hg).lines?_eq later.comments⟩

lemma fileDoc_does (lines : List String) : Does c regs b (.fileDoc lines) := by
  intro _ act h
  obtain rfl := Option.some.inj h
  exact adds_of_comment (fun _ => Store.sound_nil) (fun _ _ => trivial) (fileDoc_adds lines)

lemma ident_does (name : String) : Does c regs b (.ident name) := by
  intro _ act h
  obtain rfl := Option.some.inj h
  exact (ident_adds name).map fun _ i _ hi =>
    ⟨fun _ => Store.sound_nil, fun _ later => ⟨i, rfl, (later.grows.spells hi).shows⟩⟩

lemma idents_does (names : List String) : Does c regs b (.idents names) := by
  intro _ act h
  obtain rfl := Option.some.inj h
  exact (idents_adds names).map fun _ r _ hr =>
    ⟨fun _ => by simpa [Register.refs] using hr.sound,
      fun _ later => ⟨r, rfl, (later.grows.spellsAll hr).shows later.names⟩⟩

lemma diagnostic_does (d : Diagnostic) : Does c regs b (.diagnostic d) := by
  intro _ act h
  obtain rfl := Option.some.inj h
  exact (diagnostic_adds d).bind fun _ _ _ _ =>
    .pure ⟨fun _ => Store.sound_nil, fun _ _ => trivial⟩

/-! ## Types -/

lemma named_does (name : String) : Does c regs b (.named name) := by
  intro _ act h
  obtain rfl := Option.some.inj h
  exact adds_of_node .type (fun _ => rfl) (instantiated_adds name [] fun _ => by simp)
    (fun _ _ ⟨_, _, _, hn, _⟩ => ⟨_, hn.node⟩) fun _ id ⟨_, _, _, hn, hname, _⟩ _ later =>
      ⟨id, rfl, (later.grows.qualifies hname).shows (later.grows.node?_fixed hn.node rfl)⟩

lemma instantiated_does (name : String) (args : List Nat) :
    Does c regs b (.instantiated name args) := by
  intro hregs act h
  obtain ⟨args, hargs, h⟩ := Option.bind_eq_some_iff.1 h
  obtain rfl := Option.some.inj h
  exact adds_of_node .type (fun _ => rfl)
    (instantiated_adds name args (all_sound hregs refs_of_type? hargs))
    (fun _ _ ⟨_, _, _, hn, _⟩ => ⟨_, hn.node⟩) fun _ id ⟨_, _, _, hn, hname, _⟩ _ later =>
      ⟨id, rfl, (later.grows.qualifies hname).shows (later.grows.node?_fixed hn.node rfl)⟩

lemma pointer_does (elem : Nat) : Does c regs b (.pointer elem) := by
  intro hregs act h
  obtain ⟨elem, helem, h⟩ := Option.bind_eq_some_iff.1 h
  obtain rfl := Option.some.inj h
  exact adds_of_plain .type (fun _ => rfl) (fun _ _ => trivial)
    (pointer_adds elem (one_in hregs refs_of_type? helem))

lemma slice_does (elem : Nat) : Does c regs b (.slice elem) := by
  intro hregs act h
  obtain ⟨elem, helem, h⟩ := Option.bind_eq_some_iff.1 h
  obtain rfl := Option.some.inj h
  exact adds_of_plain .type (fun _ => rfl) (fun _ _ => trivial)
    (slice_adds elem (one_in hregs refs_of_type? helem))

lemma parenType_does (inner : Nat) : Does c regs b (.parenType inner) := by
  intro hregs act h
  obtain ⟨inner, hinner, h⟩ := Option.bind_eq_some_iff.1 h
  obtain rfl := Option.some.inj h
  exact adds_of_plain .type (fun _ => rfl) (fun _ _ => trivial)
    (parenType_adds inner (one_in hregs refs_of_type? hinner))

lemma array_does (length : String) (elem : Nat) : Does c regs b (.array length elem) := by
  intro hregs act h
  obtain ⟨elem, helem, h⟩ := Option.bind_eq_some_iff.1 h
  obtain rfl := Option.some.inj h
  refine adds_of_node .type (fun _ => rfl)
    (array_adds length elem (one_in hregs refs_of_type? helem)) ?_ ?_
  · intro st id hid
    split at hid
    · exact ⟨_, hid.node⟩
    · obtain ⟨e, sp, hn, -⟩ := hid
      exact ⟨_, hn.node⟩
  · intro st id hid st' later hlength
    rw [if_neg hlength] at hid
    obtain ⟨e, sp, hn, he, hcut⟩ := hid
    exact ⟨id, e, elem, sp, rfl, later.grows.node?_fixed hn.node rfl,
      later.grows.node?_fixed he rfl, (later.grows.cuts hcut).text_eq⟩

lemma map_does (key val : Nat) : Does c regs b (.map key val) := by
  intro hregs act h
  obtain ⟨key, hkey, h⟩ := Option.bind_eq_some_iff.1 h
  obtain ⟨val, hval, h⟩ := Option.bind_eq_some_iff.1 h
  obtain rfl := Option.some.inj h
  exact adds_of_plain .type (fun _ => rfl) (fun _ _ => trivial)
    (map_adds key val (one_in hregs refs_of_type? hkey) (one_in hregs refs_of_type? hval))

lemma chan_does (dir : ChanDir) (elem : Nat) : Does c regs b (.chan dir elem) := by
  intro hregs act h
  obtain ⟨elem, helem, h⟩ := Option.bind_eq_some_iff.1 h
  obtain rfl := Option.some.inj h
  exact adds_of_plain .type (fun _ => rfl) (fun _ _ => trivial)
    (chan_adds dir elem (one_in hregs refs_of_type? helem))

lemma funcType_does (sig : Nat) : Does c regs b (.funcType sig) := by
  intro hregs act h
  obtain ⟨sig, hsig, h⟩ := Option.bind_eq_some_iff.1 h
  obtain rfl := Option.some.inj h
  exact adds_of_plain .type (fun _ => rfl) (fun _ _ => trivial)
    (funcType_adds sig (one_in hregs refs_of_signature? hsig))

lemma struct_does (fields : List Nat) : Does c regs b (.struct fields) := by
  intro hregs act h
  obtain ⟨fields, hfields, h⟩ := Option.bind_eq_some_iff.1 h
  obtain rfl := Option.some.inj h
  exact adds_of_list .type (fun _ => rfl) (fun _ _ => trivial)
    (struct_adds fields (all_sound hregs refs_of_field? hfields))

lemma interface_does (elems : List Nat) : Does c regs b (.interface elems) := by
  intro hregs act h
  obtain ⟨elems, helems, h⟩ := Option.bind_eq_some_iff.1 h
  obtain rfl := Option.some.inj h
  exact adds_of_list .type (fun _ => rfl) (fun _ _ => trivial)
    (interface_adds elems (all_sound hregs refs_of_elem? helems))

lemma badType_does : Does c regs b .badType := by
  intro _ act h
  obtain rfl := Option.some.inj h
  exact adds_of_plain .type (fun _ => rfl) (fun _ _ => trivial) badType_adds

/-! ## Interface elements and type parameters -/

lemma methodElem_does (doc : List String) (name : String) (sig : Nat) :
    Does c regs b (.methodElem doc name sig) := by
  intro hregs act h
  obtain ⟨sig, hsig, h⟩ := Option.bind_eq_some_iff.1 h
  obtain rfl := Option.some.inj h
  refine (methodElem_adds doc name sig).map ?_
  rintro st _ g ⟨d, i, rfl, hdoc, hi⟩
  refine ⟨fun hc => ?_, fun _ later =>
    ⟨d, i, sig, rfl, (later.grows.docLined hdoc).docLines?_eq later.comments,
      (later.grows.spells hi).shows⟩⟩
  exact Store.sound_cons.2 ⟨g.reference (one_in hregs refs_of_signature? hsig hc),
    hdoc.documents.sound⟩

lemma embedElem_does (terms : List Nat) : Does c regs b (.embedElem terms) := by
  intro hregs act h
  obtain ⟨terms, hterms, h⟩ := Option.bind_eq_some_iff.1 h
  obtain rfl := Option.some.inj h
  refine (embedElem_adds terms (all_sound hregs refs_of_term? hterms)).map ?_
  rintro st _ g ⟨r, rfl, hold⟩
  exact ⟨fun _ => by simpa [Register.refs, InterfaceElemNode.refs] using hold.sound,
    fun _ _ => trivial⟩

lemma term_does (type : Nat) : Does c regs b (.term type) := by
  intro hregs act h
  obtain ⟨type, htype, h⟩ := Option.bind_eq_some_iff.1 h
  obtain rfl := Option.some.inj h
  exact .pure ⟨fun hc => by
    simpa [Register.refs, TypeTermNode.refs] using one_in hregs refs_of_type? htype hc,
    fun _ _ => trivial⟩

lemma tilde_does (type : Nat) : Does c regs b (.tilde type) := by
  intro hregs act h
  obtain ⟨type, htype, h⟩ := Option.bind_eq_some_iff.1 h
  obtain rfl := Option.some.inj h
  refine (tilde_adds type).map ?_
  rintro st _ g ⟨sp, rfl⟩
  exact ⟨fun hc => by
    simpa [Register.refs, TypeTermNode.refs] using
      g.reference (one_in hregs refs_of_type? htype hc), fun _ _ => trivial⟩

lemma anyConstraint_does : Does c regs b .anyConstraint := by
  intro _ act h
  obtain rfl := Option.some.inj h
  refine anyConstraint_adds.map ?_
  rintro st _ g ⟨sp, rfl⟩
  exact ⟨fun _ => Store.sound_nil, fun _ _ => trivial⟩

lemma unionConstraint_does (terms : List Nat) : Does c regs b (.unionConstraint terms) := by
  intro hregs act h
  obtain ⟨terms, hterms, h⟩ := Option.bind_eq_some_iff.1 h
  obtain rfl := Option.some.inj h
  refine (unionConstraint_adds terms (all_sound hregs refs_of_term? hterms)).map ?_
  rintro st _ g ⟨r, rfl, hold⟩
  exact ⟨fun _ => by simpa [Register.refs, ConstraintNode.refs] using hold.sound,
    fun _ _ => trivial⟩

lemma interfaceConstraint_does (type : Nat) : Does c regs b (.interfaceConstraint type) := by
  intro hregs act h
  obtain ⟨type, htype, h⟩ := Option.bind_eq_some_iff.1 h
  obtain rfl := Option.some.inj h
  exact .pure ⟨fun hc => by
    simpa [Register.refs, ConstraintNode.refs] using one_in hregs refs_of_type? htype hc,
    fun _ _ => trivial⟩

lemma typeParams_does (decls : List (List String × Nat)) : Does c regs b (.typeParams decls) := by
  intro hregs act h
  obtain ⟨ds, hds, h⟩ := Option.bind_eq_some_iff.1 h
  obtain rfl := Option.some.inj h
  obtain ⟨hnames, hds⟩ := paramDecls_of_mapM hds
  refine adds_of_node .typeParams (fun _ => rfl) (typeParams_adds ds ?_)
    (fun _ _ ⟨_, _, hn, _⟩ => ⟨_, hn.node⟩) fun st id ⟨r, ids, hn, hold, hbind⟩ st' later => ?_
  · intro hc d hd
    obtain ⟨i, hi⟩ := hds d hd
    exact one_sound hregs refs_of_constraint? hi hc
  · refine ⟨id, r, ids, rfl, later.grows.node?_fixed hn.node rfl, later.grows.holds hold, ?_⟩
    rw [← hnames, List.forall₂_map_left_iff]
    refine hbind.imp ?_
    rintro d id ⟨r, hn, hnames⟩
    exact ⟨_, later.grows.node?_fixed hn rfl, (later.grows.spellsAll hnames).shows later.names⟩

/-! ## Fields and signatures -/

/-- An entry with names, from a step that was handed these. -/
lemma adds_of_entry {T : FieldId → Prop} {names : List String} {variadic : Bool} {type : TypeId}
    (htype : c → type.ref.In b.toStore)
    (hstep : ∀ (st : Store) (id : FieldId) (f : FieldNode), st.node? id = some f →
      st.ShowsAll f.names names → step.Recovered st (.field id)) :
    Adds c T [] b (Register.field <$> Builder.fieldEntry names variadic type false)
      (step.Yields c) := by
  refine adds_of_node .field (fun _ => rfl) (fieldEntry_adds names variadic type false htype)
    (fun _ _ ⟨_, _, hn, _⟩ => ⟨_, hn.node⟩) fun st id ⟨r, ellipsis, hn, hnames, _⟩ st' later => ?_
  -- a tag and comments may have been attached since, but the names are still there
  obtain ⟨tag, doc, comment, hn', -⟩ := later.grows.field? hn.node
  exact hstep st' id _ hn' ((later.grows.spellsAll hnames).shows later.names)

lemma field_does (names : List String) (type : Nat) : Does c regs b (.field names type) := by
  intro hregs act h
  obtain ⟨type, htype, h⟩ := Option.bind_eq_some_iff.1 h
  obtain rfl := Option.some.inj h
  exact adds_of_entry (one_in hregs refs_of_type? htype) fun _ id f hf hnames =>
    ⟨id, f, rfl, hf, hnames⟩

lemma variadic_does (names : List String) (type : Nat) : Does c regs b (.variadic names type) := by
  intro hregs act h
  obtain ⟨type, htype, h⟩ := Option.bind_eq_some_iff.1 h
  obtain rfl := Option.some.inj h
  exact adds_of_entry (one_in hregs refs_of_type? htype) fun _ id f hf hnames =>
    ⟨id, f, rfl, hf, hnames⟩

lemma embedded_does (type : Nat) : Does c regs b (.embedded type) := by
  intro hregs act h
  obtain ⟨type, htype, h⟩ := Option.bind_eq_some_iff.1 h
  obtain rfl := Option.some.inj h
  exact adds_of_node .field (fun _ => rfl)
    (fieldEntry_adds [] false type true (one_in hregs refs_of_type? htype))
    (fun _ _ ⟨_, _, hn, _⟩ => ⟨_, hn.node⟩) fun _ _ _ _ _ => trivial

lemma tag_does (f : Nat) (raw : String) : Does c regs b (.tag f raw) := by
  intro hregs act h
  obtain ⟨id, hid, h⟩ := Option.bind_eq_some_iff.1 h
  obtain rfl := Option.some.inj h
  refine (tag_adds id raw hid).bind fun _ b₁ g₁ htag => .pure ⟨fun hc => ?_, fun st' later => ?_⟩
  · exact g₁.sound (one_sound hregs refs_of_field? hid hc)
  · obtain ⟨sp, hcut, htag⟩ := htag
    obtain ⟨f, hf⟩ := ((b₁.nodes.arena .field).lt_size_iff id.index).1
      (Store.sound_cons.1 later.sound).1
    obtain ⟨tag, doc, comment, hf', hsame⟩ := later.grows.field? hf
    refine ⟨id, _, sp, rfl, hf', ?_, (later.grows.cuts hcut).text_eq⟩
    rw [← htag f hf]
    exact hsame fun h => h ⟨rfl, rfl⟩

lemma fieldDoc_does (f : Nat) (lines : List String) : Does c regs b (.fieldDoc f lines) := by
  intro hregs act h
  obtain ⟨id, hid, h⟩ := Option.bind_eq_some_iff.1 h
  obtain rfl := Option.some.inj h
  exact adds_of_comment (one_sound hregs refs_of_field? hid) (fun _ _ => trivial)
    (fieldDoc_adds id lines)

lemma fieldComment_does (f : Nat) (lines : List String) :
    Does c regs b (.fieldComment f lines) := by
  intro hregs act h
  obtain ⟨id, hid, h⟩ := Option.bind_eq_some_iff.1 h
  obtain rfl := Option.some.inj h
  exact adds_of_comment (one_sound hregs refs_of_field? hid) (fun _ _ => trivial)
    (fieldComment_adds id lines)

lemma signature_does (params results : List Nat) : Does c regs b (.signature params results) := by
  intro hregs act h
  obtain ⟨params, hparams, h⟩ := Option.bind_eq_some_iff.1 h
  obtain ⟨results, hresults, h⟩ := Option.bind_eq_some_iff.1 h
  obtain rfl := Option.some.inj h
  refine adds_of_node .signature (fun _ => rfl)
    (signature_adds params results (all_sound hregs refs_of_field? hparams)
      (all_sound hregs refs_of_field? hresults)) ?_ fun _ _ _ _ _ => trivial
  rintro st id ⟨r, -, hid⟩
  split at hid
  · exact ⟨_, hid.node⟩
  · obtain ⟨r', hn, -⟩ := hid
    exact ⟨_, hn.node⟩

lemma signatureReturning_does (params : List Nat) (result : Nat) :
    Does c regs b (.signatureReturning params result) := by
  intro hregs act h
  obtain ⟨params, hparams, h⟩ := Option.bind_eq_some_iff.1 h
  obtain ⟨result, hresult, h⟩ := Option.bind_eq_some_iff.1 h
  obtain rfl := Option.some.inj h
  exact adds_of_node .signature (fun _ => rfl)
    (signatureReturning_adds params result (all_sound hregs refs_of_field? hparams)
      (one_in hregs refs_of_type? hresult))
    (fun _ _ ⟨_, _, hn⟩ => ⟨_, hn.node⟩) fun _ _ _ _ _ => trivial

/-! ## Expressions -/

lemma identExpr_does (name : String) : Does c regs b (.identExpr name) := by
  intro _ act h
  obtain rfl := Option.some.inj h
  exact adds_of_node .expr (fun _ => rfl) (identExpr_adds name) (fun _ _ ⟨_, hn, _⟩ => ⟨_, hn.node⟩)
    fun _ id ⟨i, hn, hi⟩ _ later =>
      ⟨id, i, rfl, later.grows.node?_fixed hn.node rfl, (later.grows.spells hi).shows⟩

lemma literal_does (kind : LiteralKind) (raw : String) : Does c regs b (.literal kind raw) := by
  intro _ act h
  obtain rfl := Option.some.inj h
  exact adds_of_node .expr (fun _ => rfl) (literal_adds kind raw)
    (fun _ _ ⟨_, hn, _⟩ => ⟨_, hn.node⟩)
    fun _ id ⟨sp, hn, hcut⟩ _ later =>
      ⟨id, sp, rfl, later.grows.node?_fixed hn.node rfl, (later.grows.cuts hcut).text_eq⟩

lemma selector_does (base : Nat) (name : String) : Does c regs b (.selector base name) := by
  intro hregs act h
  obtain ⟨base, hbase, h⟩ := Option.bind_eq_some_iff.1 h
  obtain rfl := Option.some.inj h
  exact adds_of_node .expr (fun _ => rfl)
    (selector_adds base name (one_in hregs refs_of_expr? hbase)) (fun _ _ ⟨_, hn, _⟩ => ⟨_, hn.node⟩)
    fun _ id ⟨i, hn, hi⟩ _ later =>
      ⟨id, base, i, rfl, later.grows.node?_fixed hn.node rfl, (later.grows.spells hi).shows⟩

lemma call_does (callee : Nat) (args : List Nat) : Does c regs b (.call callee args) := by
  intro hregs act h
  obtain ⟨callee, hcallee, h⟩ := Option.bind_eq_some_iff.1 h
  obtain ⟨args, hargs, h⟩ := Option.bind_eq_some_iff.1 h
  obtain rfl := Option.some.inj h
  exact adds_of_list .expr (fun _ => rfl) (fun _ _ => trivial)
    (applied_adds (.expr callee) none args false (one_sound hregs refs_of_expr? hcallee)
      (fun _ => Store.sound_nil) (all_sound hregs refs_of_expr? hargs))

lemma callSpread_does (callee : Nat) (args : List Nat) :
    Does c regs b (.callSpread callee args) := by
  intro hregs act h
  obtain ⟨callee, hcallee, h⟩ := Option.bind_eq_some_iff.1 h
  obtain ⟨args, hargs, h⟩ := Option.bind_eq_some_iff.1 h
  obtain rfl := Option.some.inj h
  exact adds_of_list .expr (fun _ => rfl) (fun _ _ => trivial)
    (applied_adds (.expr callee) none args true (one_sound hregs refs_of_expr? hcallee)
      (fun _ => Store.sound_nil) (all_sound hregs refs_of_expr? hargs))

lemma conversion_does (type arg : Nat) : Does c regs b (.conversion type arg) := by
  intro hregs act h
  obtain ⟨type, htype, h⟩ := Option.bind_eq_some_iff.1 h
  obtain ⟨arg, harg, h⟩ := Option.bind_eq_some_iff.1 h
  obtain rfl := Option.some.inj h
  exact adds_of_list .expr (fun _ => rfl) (fun _ _ => trivial)
    (applied_adds (.type type) none [arg] false (one_sound hregs refs_of_type? htype)
      (fun _ => Store.sound_nil) (by simpa using one_in hregs refs_of_expr? harg))

lemma builtin_does (name : String) (type : Nat) (args : List Nat) :
    Does c regs b (.builtin name type args) := by
  intro hregs act h
  obtain ⟨type, htype, h⟩ := Option.bind_eq_some_iff.1 h
  obtain ⟨args, hargs, h⟩ := Option.bind_eq_some_iff.1 h
  obtain rfl := Option.some.inj h
  exact adds_of_node .expr (fun _ => rfl)
    (builtin_adds name type args (one_in hregs refs_of_type? htype)
      (all_sound hregs refs_of_expr? hargs))
    (fun _ _ ⟨_, _, _, hn, _⟩ => ⟨_, hn.node⟩) fun _ id ⟨e, i, r, hn, _, he, hi⟩ _ later =>
      ⟨id, e, i, type, r, rfl, later.grows.node?_fixed hn.node rfl,
        later.grows.node?_fixed he rfl, (later.grows.spells hi).shows⟩

lemma unary_does (op : UnaryOp) (operand : Nat) : Does c regs b (.unary op operand) := by
  intro hregs act h
  obtain ⟨operand, hoperand, h⟩ := Option.bind_eq_some_iff.1 h
  obtain rfl := Option.some.inj h
  exact adds_of_plain .expr (fun _ => rfl) (fun _ _ => trivial)
    (unary_adds op operand (one_in hregs refs_of_expr? hoperand))

lemma binary_does (left : Nat) (op : BinaryOp) (right : Nat) :
    Does c regs b (.binary left op right) := by
  intro hregs act h
  obtain ⟨left, hleft, h⟩ := Option.bind_eq_some_iff.1 h
  obtain ⟨right, hright, h⟩ := Option.bind_eq_some_iff.1 h
  obtain rfl := Option.some.inj h
  exact adds_of_plain .expr (fun _ => rfl) (fun _ _ => trivial)
    (binary_adds left op right (one_in hregs refs_of_expr? hleft)
      (one_in hregs refs_of_expr? hright))

lemma paren_does (inner : Nat) : Does c regs b (.paren inner) := by
  intro hregs act h
  obtain ⟨inner, hinner, h⟩ := Option.bind_eq_some_iff.1 h
  obtain rfl := Option.some.inj h
  exact adds_of_plain .expr (fun _ => rfl) (fun _ _ => trivial)
    (paren_adds inner (one_in hregs refs_of_expr? hinner))

lemma index_does (base : Nat) (args : List Nat) : Does c regs b (.index base args) := by
  intro hregs act h
  obtain ⟨base, hbase, h⟩ := Option.bind_eq_some_iff.1 h
  obtain ⟨args, hargs, h⟩ := Option.bind_eq_some_iff.1 h
  obtain rfl := Option.some.inj h
  exact adds_of_list .expr (fun _ => rfl) (fun _ _ => trivial)
    (index_adds base args (one_in hregs refs_of_expr? hbase)
      (all_sound hregs refs_of_operand? hargs))

lemma sliceExpr_does (base : Nat) (low high max : Option Nat) :
    Does c regs b (.sliceExpr base low high max) := by
  intro hregs act h
  obtain ⟨base, hbase, h⟩ := Option.bind_eq_some_iff.1 h
  obtain ⟨low, hlow, h⟩ := Option.bind_eq_some_iff.1 h
  obtain ⟨high, hhigh, h⟩ := Option.bind_eq_some_iff.1 h
  obtain ⟨max, hmax, h⟩ := Option.bind_eq_some_iff.1 h
  obtain rfl := Option.some.inj h
  exact adds_of_plain .expr (fun _ => rfl) (fun _ _ => trivial)
    (sliceExpr_adds base low high max (one_in hregs refs_of_expr? hbase)
      (opt_in hregs refs_of_expr? hlow) (opt_in hregs refs_of_expr? hhigh)
      (opt_in hregs refs_of_expr? hmax))

lemma typeAssert_does (base type : Nat) : Does c regs b (.typeAssert base type) := by
  intro hregs act h
  obtain ⟨base, hbase, h⟩ := Option.bind_eq_some_iff.1 h
  obtain ⟨type, htype, h⟩ := Option.bind_eq_some_iff.1 h
  obtain rfl := Option.some.inj h
  exact adds_of_plain .expr (fun _ => rfl) (fun _ _ => trivial)
    (typeAssert_adds base type (one_in hregs refs_of_expr? hbase)
      (one_in hregs refs_of_type? htype))

lemma funcLit_does (sig : Nat) (body : String) : Does c regs b (.funcLit sig body) := by
  intro hregs act h
  obtain ⟨sig, hsig, h⟩ := Option.bind_eq_some_iff.1 h
  obtain rfl := Option.some.inj h
  exact adds_of_node .expr (fun _ => rfl)
    (funcLit_adds sig body (one_in hregs refs_of_signature? hsig))
    (fun _ _ ⟨_, hn, _⟩ => ⟨_, hn.node⟩) fun _ id ⟨block, hn, hcut⟩ _ later hbody =>
      ⟨id, sig, block, rfl, later.grows.node?_fixed hn.node rfl,
        (later.grows.cuts (hcut hbody)).text_eq⟩

lemma badExpr_does : Does c regs b .badExpr := by
  intro _ act h
  obtain rfl := Option.some.inj h
  exact adds_of_plain .expr (fun _ => rfl) (fun _ _ => trivial) badExpr_adds

/-! ## Composite literals -/

lemma keyed_does (name : String) (value : Nat) : Does c regs b (.keyed name value) := by
  intro hregs act h
  obtain ⟨value, hvalue, h⟩ := Option.bind_eq_some_iff.1 h
  obtain rfl := Option.some.inj h
  refine (keyed_adds name value).map ?_
  rintro st _ g ⟨i, rfl, hi⟩
  refine ⟨fun hc => ?_, fun _ later => ⟨i, _, rfl, (later.grows.spells hi).shows⟩⟩
  exact g.sound (one_sound hregs refs_of_expr? hvalue hc)

lemma keyedExpr_does (key value : Nat) : Does c regs b (.keyedExpr key value) := by
  intro hregs act h
  obtain ⟨key, hkey, h⟩ := Option.bind_eq_some_iff.1 h
  obtain ⟨value, hvalue, h⟩ := Option.bind_eq_some_iff.1 h
  obtain rfl := Option.some.inj h
  exact .pure ⟨fun hc => Store.sound_append.2 ⟨one_sound hregs refs_of_expr? hkey hc,
    one_sound hregs refs_of_expr? hvalue hc⟩, fun _ _ => trivial⟩

lemma element_does (value : Nat) : Does c regs b (.element value) := by
  intro hregs act h
  obtain ⟨value, hvalue, h⟩ := Option.bind_eq_some_iff.1 h
  obtain rfl := Option.some.inj h
  exact .pure ⟨one_sound hregs refs_of_expr? hvalue, fun _ _ => trivial⟩

lemma literalValue_does (elems : List Nat) : Does c regs b (.literalValue elems) := by
  intro hregs act h
  obtain ⟨elems, helems, h⟩ := Option.bind_eq_some_iff.1 h
  obtain rfl := Option.some.inj h
  refine (literalValue_adds elems (all_sound hregs refs_of_keyed? helems)).map ?_
  rintro st v g ⟨hold, -⟩
  exact ⟨fun _ => by simpa [Register.refs, LiteralNode.refs] using hold.sound,
    fun _ _ => trivial⟩

lemma keyValue_does (key : Option Nat) (value : Nat) : Does c regs b (.keyValue key value) := by
  intro hregs act h
  obtain ⟨key, hkey, h⟩ := Option.bind_eq_some_iff.1 h
  obtain ⟨value, hvalue, h⟩ := Option.bind_eq_some_iff.1 h
  obtain rfl := Option.some.inj h
  exact .pure ⟨fun hc => Store.sound_append.2 ⟨opt_sound hregs refs_of_key? hkey hc,
    one_sound hregs refs_of_element? hvalue hc⟩, fun _ _ => trivial⟩

lemma composite_does (type : Option Nat) (elems : List Nat) :
    Does c regs b (.composite type elems) := by
  intro hregs act h
  obtain ⟨type, htype, h⟩ := Option.bind_eq_some_iff.1 h
  obtain ⟨elems, helems, h⟩ := Option.bind_eq_some_iff.1 h
  obtain rfl := Option.some.inj h
  exact adds_of_node .expr (fun _ => rfl)
    (composite_adds type elems (opt_in hregs refs_of_type? htype)
      (all_sound hregs refs_of_keyed? helems))
    (fun _ _ ⟨_, hn, _⟩ => ⟨_, hn.node⟩) fun _ _ _ _ _ => trivial

/-! ## Specs -/

lemma importSpec_does (name : Option String) (path : String) :
    Does c regs b (.importSpec name path) := by
  intro _ act h
  obtain rfl := Option.some.inj h
  refine (importSpec_adds name path).map ?_
  rintro st _ g ⟨n, sp, rfl, hname, hcut⟩
  refine ⟨fun _ => Store.sound_nil, fun st' later => ⟨_, rfl, ?_, (later.grows.cuts hcut).text_eq⟩⟩
  exact Store.map_eq_of_rel hname fun _ _ h => (later.grows.namesImport h).importText_eq

lemma importRaw_does (name : Option String) (raw : String) :
    Does c regs b (.importRaw name raw) := by
  intro _ act h
  obtain rfl := Option.some.inj h
  refine (importSpec_adds name "").bind ?_
  rintro _ b₁ g₁ ⟨n, sp, rfl, hname, -⟩
  refine (ident_adds raw).bind fun i b₂ g₂ hi => .pure ⟨fun _ => Store.sound_nil, ?_⟩
  refine fun st' later => ⟨_, rfl, ?_, (later.grows.spells hi).text_eq⟩
  exact Store.map_eq_of_rel hname fun _ _ h =>
    (later.grows.namesImport (g₂.namesImport h)).importText_eq

lemma importSpan_does (spec : Nat) (path : Span) : Does c regs b (.importSpan spec path) := by
  intro hregs act h
  obtain ⟨spec, hspec, h⟩ := Option.bind_eq_some_iff.1 h
  obtain rfl := Option.some.inj h
  refine .pure ⟨fun hc => ?_, fun _ _ => trivial⟩
  have hsound := one_sound hregs refs_of_spec? hspec hc
  cases spec <;> exact hsound

lemma valueSpec_does (names : List String) (type : Option Nat) (values : List Nat) :
    Does c regs b (.valueSpec names type values) := by
  intro hregs act h
  obtain ⟨type, htype, h⟩ := Option.bind_eq_some_iff.1 h
  obtain ⟨values, hvalues, h⟩ := Option.bind_eq_some_iff.1 h
  obtain rfl := Option.some.inj h
  refine (valueSpec_adds names type values (all_sound hregs refs_of_expr? hvalues)).map ?_
  rintro st _ g ⟨r, r', rfl, hnames, hold⟩
  refine ⟨fun hc => ?_, fun st' later => ⟨_, rfl, (later.grows.spellsAll hnames).shows later.names⟩⟩
  have hsound := g.sound (opt_in hregs refs_of_type? htype hc)
  simpa [Register.refs, SpecNode.refs] using ⟨hnames.sound, hold.sound, hsound⟩

/-- A type spec with or without type parameters, from a step that was handed its name. -/
lemma adds_of_typeSpec {T : FieldId → Prop} {name : String} {params : Option TypeParamsId}
    {type : TypeId} {isAlias : Bool} (hparams : c → b.toStore.Sound (Id.optRefs params))
    (htype : c → type.ref.In b.toStore)
    (hstep : ∀ st (s : TypeSpecNode), st.Shows s.name name → step.Recovered st (.spec (.type s))) :
    Adds c T [] b (Register.spec <$> Builder.typeSpec name params type isAlias)
      (step.Yields c) := by
  refine (typeSpec_adds name params type isAlias).map ?_
  rintro st _ g ⟨i, assign, rfl, hi⟩
  refine ⟨fun hc => ?_, fun st' later => hstep st' _ (later.grows.spells hi).shows⟩
  have hsound := g.reference (htype hc)
  have hsound' := g.sound (hparams hc)
  simpa [Register.refs, SpecNode.refs] using ⟨hsound, hsound'⟩

lemma typeSpec_does (name : String) (type : Nat) : Does c regs b (.typeSpec name type) := by
  intro hregs act h
  obtain ⟨type, htype, h⟩ := Option.bind_eq_some_iff.1 h
  obtain rfl := Option.some.inj h
  exact adds_of_typeSpec (fun _ => Store.sound_nil) (one_in hregs refs_of_type? htype)
    fun _ s hname => ⟨s, rfl, hname⟩

lemma aliasSpec_does (name : String) (type : Nat) : Does c regs b (.aliasSpec name type) := by
  intro hregs act h
  obtain ⟨type, htype, h⟩ := Option.bind_eq_some_iff.1 h
  obtain rfl := Option.some.inj h
  exact adds_of_typeSpec (fun _ => Store.sound_nil) (one_in hregs refs_of_type? htype)
    fun _ s hname => ⟨s, rfl, hname⟩

lemma genericTypeSpec_does (name : String) (params type : Nat) :
    Does c regs b (.genericTypeSpec name params type) := by
  intro hregs act h
  obtain ⟨params, hparams, h⟩ := Option.bind_eq_some_iff.1 h
  obtain ⟨type, htype, h⟩ := Option.bind_eq_some_iff.1 h
  obtain rfl := Option.some.inj h
  exact adds_of_typeSpec (one_sound hregs refs_of_typeParams? hparams)
    (one_in hregs refs_of_type? htype) fun _ s hname => ⟨s, rfl, hname⟩

lemma specAlias_does (spec : Nat) (isAlias : Bool) : Does c regs b (.specAlias spec isAlias) := by
  intro hregs act h
  obtain ⟨spec, hspec, h⟩ := Option.bind_eq_some_iff.1 h
  obtain rfl := Option.some.inj h
  refine .pure ⟨fun hc => ?_, fun _ _ => trivial⟩
  have hsound := one_sound hregs refs_of_spec? hspec hc
  cases spec <;> exact hsound

lemma withDoc_does (spec : Nat) (lines : List String) : Does c regs b (.withDoc spec lines) := by
  intro hregs act h
  obtain ⟨spec, hspec, h⟩ := Option.bind_eq_some_iff.1 h
  obtain rfl := Option.some.inj h
  exact (withDoc_adds spec lines (one_sound hregs refs_of_spec? hspec)).map fun _ s _ hs =>
    ⟨hs.1, fun _ later => ⟨s, rfl, (later.grows.docLined hs.2).docLines?_eq later.comments⟩⟩

lemma withComment_does (spec : Nat) (lines : List String) :
    Does c regs b (.withComment spec lines) := by
  intro hregs act h
  obtain ⟨spec, hspec, h⟩ := Option.bind_eq_some_iff.1 h
  obtain rfl := Option.some.inj h
  exact (withComment_adds spec lines (one_sound hregs refs_of_spec? hspec)).map fun _ _ _ hs =>
    ⟨hs, fun _ _ => trivial⟩

/-! ## Declarations -/

lemma decl_does (group : DeclGroup) (spec : Nat) : Does c regs b (.decl group spec) := by
  intro hregs act h
  obtain ⟨spec, hspec, h⟩ := Option.bind_eq_some_iff.1 h
  obtain rfl := Option.some.inj h
  exact adds_of_list .decl (fun _ => rfl) (fun _ _ => trivial)
    (decl_adds group spec (one_sound hregs refs_of_spec? hspec))

lemma declGroup_does (group : DeclGroup) (specs : List Nat) :
    Does c regs b (.declGroup group specs) := by
  intro hregs act h
  obtain ⟨specs, hspecs, h⟩ := Option.bind_eq_some_iff.1 h
  obtain rfl := Option.some.inj h
  exact adds_of_list .decl (fun _ => rfl) (fun _ _ => trivial)
    (declGroup_adds group specs (all_sound hregs refs_of_spec? hspecs))

lemma declDoc_does (d : Nat) (lines : List String) : Does c regs b (.declDoc d lines) := by
  intro hregs act h
  obtain ⟨id, hid, h⟩ := Option.bind_eq_some_iff.1 h
  obtain rfl := Option.some.inj h
  exact adds_of_comment (one_sound hregs refs_of_decl? hid) (fun _ _ => trivial)
    (declDoc_adds id lines)

lemma badDecl_does : Does c regs b .badDecl := by
  intro _ act h
  obtain rfl := Option.some.inj h
  exact adds_of_plain .decl (fun _ => rfl) (fun _ _ => trivial) badDecl_adds

lemma receiver_does (name : Option String) (type : Nat) : Does c regs b (.receiver name type) := by
  intro hregs act h
  obtain ⟨type, htype, h⟩ := Option.bind_eq_some_iff.1 h
  obtain rfl := Option.some.inj h
  refine (receiver_adds name type).map fun st v g hv => ⟨fun hc => ?_, fun st' later => ?_⟩
  · exact hv.1.sound (g.reference (one_in hregs refs_of_type? htype hc))
  · exact ⟨v, rfl, Store.map_eq_of_rel hv.1.name fun _ _ h => (later.grows.spells h).text_eq⟩

lemma genericReceiver_does (name : Option String) (type : Nat) (params : List String) :
    Does c regs b (.genericReceiver name type params) := by
  intro hregs act h
  obtain ⟨type, htype, h⟩ := Option.bind_eq_some_iff.1 h
  obtain rfl := Option.some.inj h
  refine (genericReceiver_adds name type params).map fun st v g hv =>
    ⟨fun hc => ?_, fun st' later => ?_⟩
  · exact hv.1.sound (g.reference (one_in hregs refs_of_type? htype hc))
  · obtain ⟨p, hp⟩ := Option.ne_none_iff_exists'.1 hv.2
    have hparams := hv.1.params
    rw [hp] at hparams
    exact ⟨v, p, rfl, Store.map_eq_of_rel hv.1.name fun _ _ h => (later.grows.spells h).text_eq, hp,
      (later.grows.spellsAll hparams).shows later.names⟩

/-- A function or method, from a step that was handed its name. -/
lemma adds_of_func {T : FieldId → Prop} {recv : Option ReceiverNode} {name : String}
    {params : Option TypeParamsId} {sig : SignatureId}
    (hrecv : c → b.toStore.Sound (recv.elim [] ReceiverNode.refs))
    (hparams : c → b.toStore.Sound (Id.optRefs params)) (hsig : c → sig.ref.In b.toStore)
    (hstep : ∀ (st : Store) (id : FuncId) (f : FuncNode), st.node? id = some f →
      st.Shows f.name name → step.Recovered st (.func id)) :
    Adds c T [] b (Register.func <$> Builder.func recv name params sig) (step.Yields c) := by
  refine adds_of_node .func (fun _ => rfl) (func_adds recv name params sig hrecv hparams hsig)
    (fun _ _ ⟨_, _, hn, _⟩ => ⟨_, hn.node⟩) fun st id ⟨i, body, hn, hi⟩ st' later => ?_
  -- documentation may have been added since, but the name is still there
  obtain ⟨doc, hn'⟩ := later.grows.func? hn.node
  exact hstep st' id _ hn' (later.grows.spells hi).shows

lemma func_does (name : String) (sig : Nat) : Does c regs b (.func name sig) := by
  intro hregs act h
  obtain ⟨sig, hsig, h⟩ := Option.bind_eq_some_iff.1 h
  obtain rfl := Option.some.inj h
  exact adds_of_func (fun _ => Store.sound_nil) (fun _ => Store.sound_nil)
    (one_in hregs refs_of_signature? hsig) fun _ id f hf hname => ⟨id, f, rfl, hf, hname⟩

lemma genericFunc_does (name : String) (params sig : Nat) :
    Does c regs b (.genericFunc name params sig) := by
  intro hregs act h
  obtain ⟨params, hparams, h⟩ := Option.bind_eq_some_iff.1 h
  obtain ⟨sig, hsig, h⟩ := Option.bind_eq_some_iff.1 h
  obtain rfl := Option.some.inj h
  exact adds_of_func (fun _ => Store.sound_nil) (one_sound hregs refs_of_typeParams? hparams)
    (one_in hregs refs_of_signature? hsig) fun _ id f hf hname => ⟨id, f, rfl, hf, hname⟩

lemma method_does (recv : Nat) (name : String) (sig : Nat) :
    Does c regs b (.method recv name sig) := by
  intro hregs act h
  obtain ⟨recv, hrecv, h⟩ := Option.bind_eq_some_iff.1 h
  obtain ⟨sig, hsig, h⟩ := Option.bind_eq_some_iff.1 h
  obtain rfl := Option.some.inj h
  exact adds_of_func (one_sound hregs refs_of_receiver? hrecv) (fun _ => Store.sound_nil)
    (one_in hregs refs_of_signature? hsig) fun _ id f hf hname => ⟨id, f, rfl, hf, hname⟩

lemma funcDoc_does (fn : Nat) (lines : List String) : Does c regs b (.funcDoc fn lines) := by
  intro hregs act h
  obtain ⟨id, hid, h⟩ := Option.bind_eq_some_iff.1 h
  obtain rfl := Option.some.inj h
  exact adds_of_comment (one_sound hregs refs_of_func? hid) (fun _ _ => trivial)
    (funcDoc_adds id lines)

/-- What a step does, whatever is in the registers. -/
theorem does (c : Prop) (regs : Registers) (b : Builder) (step : Step) : Does c regs b step := by
  cases step with
  | comment lines => exact comment_does lines
  | fileDoc lines => exact fileDoc_does lines
  | ident name => exact ident_does name
  | idents names => exact idents_does names
  | named name => exact named_does name
  | instantiated name args => exact instantiated_does name args
  | pointer elem => exact pointer_does elem
  | slice elem => exact slice_does elem
  | parenType inner => exact parenType_does inner
  | array length elem => exact array_does length elem
  | map key val => exact map_does key val
  | chan dir elem => exact chan_does dir elem
  | funcType sig => exact funcType_does sig
  | struct fields => exact struct_does fields
  | interface elems => exact interface_does elems
  | badType => exact badType_does
  | methodElem doc name sig => exact methodElem_does doc name sig
  | embedElem terms => exact embedElem_does terms
  | term type => exact term_does type
  | tilde type => exact tilde_does type
  | anyConstraint => exact anyConstraint_does
  | unionConstraint terms => exact unionConstraint_does terms
  | interfaceConstraint type => exact interfaceConstraint_does type
  | typeParams decls => exact typeParams_does decls
  | field names type => exact field_does names type
  | variadic names type => exact variadic_does names type
  | embedded type => exact embedded_does type
  | tag f raw => exact tag_does f raw
  | fieldDoc f lines => exact fieldDoc_does f lines
  | fieldComment f lines => exact fieldComment_does f lines
  | signature params results => exact signature_does params results
  | signatureReturning params result => exact signatureReturning_does params result
  | identExpr name => exact identExpr_does name
  | literal kind raw => exact literal_does kind raw
  | selector base name => exact selector_does base name
  | call callee args => exact call_does callee args
  | callSpread callee args => exact callSpread_does callee args
  | conversion type arg => exact conversion_does type arg
  | builtin name type args => exact builtin_does name type args
  | unary op operand => exact unary_does op operand
  | binary left op right => exact binary_does left op right
  | paren inner => exact paren_does inner
  | index base args => exact index_does base args
  | sliceExpr base low high max => exact sliceExpr_does base low high max
  | typeAssert base type => exact typeAssert_does base type
  | keyed name value => exact keyed_does name value
  | keyedExpr key value => exact keyedExpr_does key value
  | element value => exact element_does value
  | literalValue elems => exact literalValue_does elems
  | keyValue key value => exact keyValue_does key value
  | composite type elems => exact composite_does type elems
  | funcLit sig body => exact funcLit_does sig body
  | badExpr => exact badExpr_does
  | importSpec name path => exact importSpec_does name path
  | importRaw name raw => exact importRaw_does name raw
  | importSpan spec path => exact importSpan_does spec path
  | valueSpec names type values => exact valueSpec_does names type values
  | typeSpec name type => exact typeSpec_does name type
  | aliasSpec name type => exact aliasSpec_does name type
  | genericTypeSpec name params type => exact genericTypeSpec_does name params type
  | specAlias spec isAlias => exact specAlias_does spec isAlias
  | withDoc spec lines => exact withDoc_does spec lines
  | withComment spec lines => exact withComment_does spec lines
  | decl group spec => exact decl_does group spec
  | declGroup group specs => exact declGroup_does group specs
  | declDoc d lines => exact declDoc_does d lines
  | badDecl => exact badDecl_does
  | receiver name type => exact receiver_does name type
  | genericReceiver name type params => exact genericReceiver_does name type params
  | func name sig => exact func_does name sig
  | genericFunc name params sig => exact genericFunc_does name params sig
  | method recv name sig => exact method_does recv name sig
  | funcDoc fn lines => exact funcDoc_does fn lines
  | diagnostic d => exact diagnostic_does d

end Step

end GoOutline
