/-
# A logic of construction

`Adds c T log b m Q` says what the construction `m` does to the builder `b`: the store grows, the
comment groups that are listed on the way have the lines in `log`, declarations are only added to
the list of declarations, and the result satisfies `Q` in the store that was reached. It is proved
for the few elementary constructions and carried over to composed ones by `Adds.bind`, so that no
construction has to be unfolded twice.
-/
import GoOutline.Proofs.Tree.Reading

namespace GoOutline

namespace Store

variable {s : NodeSort} {c : Prop} {T : FieldId → Prop} {a b : Store}

/-- The span is the extent of the node, or the span that stands for it if there is no node. -/
def Extent (st : Store) (id : Id s) (sp : Span) : Prop := sp = default ∨ st.span? id = some sp

lemma Grows.extent (h : Grows c T a b) {id : Id s} {sp : Span} (hsp : a.Extent id sp) :
    b.Extent id sp :=
  hsp.imp (fun h => h) h.span?

lemma Extent.fits {st : Store} {id : Id s} {sp : Span} (h : st.Extent id sp) (hst : st.SpansFit) :
    sp.Fits st.source := by
  rcases h with rfl | h
  · exact Span.fits_default _
  · exact hst s id sp h

end Store

open Store (Grows)

/-- What a construction does to a builder beside its store. -/
structure Builder.Books (c : Prop) (log : List (List String)) (b b' : Builder) : Prop where
  groups : ∃ gs, b'.commentGroups.toList = b.commentGroups.toList ++ gs ∧
    List.Forall₂ b'.toStore.Lined gs log
  decls : ∃ ds, b'.decls.toList = b.decls.toList ++ ds ∧
    (c → ∀ d ∈ ds, b'.toStore.Sound (TopDeclNode.refs d))
  doc : b'.doc = b.doc ∨ b'.toStore.Documents b'.doc
  packageName : b'.packageName = b.packageName

/-- The sorts of items that have a line of their own in the source. -/
def ListSort.written (l : ListSort) : Bool := l = .idents || l = .comments

/-- The buffers of names and of comments have grown by no more items than the source by bytes. -/
def Store.Paced (a b : Store) : Prop :=
  ∀ l : ListSort, l.written → (b.lists.buffer l).size + a.source.utf8ByteSize ≤
    (a.lists.buffer l).size + b.source.utf8ByteSize

lemma Store.Paced.trans {a b d : Store} (h : a.Paced b) (h' : b.Paced d) : a.Paced d := by
  intro l hl
  have h₁ := h l hl
  have h₂ := h' l hl
  omega

lemma Store.Paced.of_lists {a b : Store} (hlists : b.lists = a.lists)
    (hsource : a.source.utf8ByteSize ≤ b.source.utf8ByteSize) : a.Paced b := by
  intro l _
  rw [hlists]
  omega

/-- What the construction `m` does to the builder `b`, and what holds of its result. -/
structure Adds {α : Type} (c : Prop) (T : FieldId → Prop) (log : List (List String)) (b : Builder)
    (m : Build α) (Q : Store → α → Prop) : Prop where
  grows : Grows c T b.toStore (m b).2.toStore
  paced : b.toStore.Paced (m b).2.toStore
  books : Builder.Books c log b (m b).2
  result : Q (m b).2.toStore (m b).1

namespace Builder

variable {c : Prop} {T : FieldId → Prop} {log log' : List (List String)} {b b' b'' : Builder}

/-- Only the store has changed. -/
lemma Books.of_store (hgroups : b'.commentGroups = b.commentGroups) (hdecls : b'.decls = b.decls)
    (hdoc : b'.doc = b.doc) (hname : b'.packageName = b.packageName) : Books c [] b b' :=
  ⟨⟨[], by simp [hgroups], .nil⟩, ⟨[], by simp [hdecls], by simp⟩, .inl hdoc, hname⟩

lemma Books.refl (c : Prop) (b : Builder) : Books c [] b b := .of_store rfl rfl rfl rfl

lemma Books.trans (h : Books c log b b') (h' : Books c log' b' b'')
    (hg : Grows c T b'.toStore b''.toStore) : Books c (log ++ log') b b'' := by
  obtain ⟨⟨gs, hgs, hlines⟩, ⟨ds, hds, hsound⟩, hdoc, hname⟩ := h
  obtain ⟨⟨gs', hgs', hlines'⟩, ⟨ds', hds', hsound'⟩, hdoc', hname'⟩ := h'
  refine ⟨⟨gs ++ gs', by rw [hgs', hgs, List.append_assoc], ?_⟩,
    ⟨ds ++ ds', by rw [hds', hds, List.append_assoc], ?_⟩, ?_, hname'.trans hname⟩
  · exact List.rel_append (hlines.imp fun _ _ h => hg.lined h) hlines'
  · intro hc d hd
    rcases List.mem_append.1 hd with hd | hd
    · exact hg.sound (hsound hc d hd)
    · exact hsound' hc d hd
  · rcases hdoc' with hdoc' | hdoc'
    · rcases hdoc with hdoc | hdoc
      · exact .inl (hdoc'.trans hdoc)
      · exact .inr (hdoc' ▸ hg.documents hdoc)
    · exact .inr hdoc'

end Builder

/-! ## Composed constructions -/

namespace Adds

variable {α β : Type} {c : Prop} {T : FieldId → Prop} {log log' : List (List String)} {b : Builder}
  {m : Build α} {f : α → Build β} {Q : Store → α → Prop} {R : Store → β → Prop}

lemma pure {a : α} (h : Q b.toStore a) : Adds c T [] b (pure a) Q :=
  ⟨.refl, .of_lists rfl (Nat.le_refl _), .refl c b, h⟩

/-- Logs of two constructions, one after the other. -/
lemma bind_log (h : Adds c T log b m Q)
    (h' : ∀ a b', Grows c T b.toStore b'.toStore → Q b'.toStore a → Adds c T log' b' (f a) R) :
    Adds c T (log ++ log') b (m >>= f) R := by
  have h₂ := h' _ _ h.grows h.result
  exact ⟨h.grows.trans h₂.grows, h.paced.trans h₂.paced, h.books.trans h₂.books h₂.grows, h₂.result⟩

lemma bind (h : Adds c T [] b m Q)
    (h' : ∀ a b', Grows c T b.toStore b'.toStore → Q b'.toStore a → Adds c T log b' (f a) R) :
    Adds c T log b (m >>= f) R :=
  h.bind_log h'

/-- The form of `bind` for a first part that lists comment groups. -/
lemma bind_logged (h : Adds c T log b m Q)
    (h' : ∀ a b', Grows c T b.toStore b'.toStore → Q b'.toStore a → Adds c T [] b' (f a) R) :
    Adds c T log b (m >>= f) R := by
  simpa using h.bind_log h'

lemma imp {Q' : Store → α → Prop} (h : Adds c T log b m Q)
    (hQ : ∀ st a, Grows c T b.toStore st → Q st a → Q' st a) : Adds c T log b m Q' :=
  ⟨h.grows, h.paced, h.books, hQ _ _ h.grows h.result⟩

lemma map {g : α → β} (h : Adds c T log b m Q)
    (hR : ∀ st a, Grows c T b.toStore st → Q st a → R st (g a)) : Adds c T log b (g <$> m) R :=
  ⟨h.grows, h.paced, h.books, hR _ _ h.grows h.result⟩

/-- A construction for each member of a list. -/
lemma mapM {xs : List α} {R : Store → α → β → Prop}
    (hmono : ∀ {a b : Store} {x y}, Grows c T a b → R a x y → R b x y)
    (h : ∀ x ∈ xs, ∀ b', Grows c T b.toStore b'.toStore → Adds c T [] b' (f x) fun st => R st x) :
    Adds c T [] b (xs.mapM f) fun st ys => List.Forall₂ (R st) xs ys := by
  induction xs generalizing b with
  | nil => exact pure .nil
  | cons x xs ih =>
    rw [List.mapM_cons]
    refine (h x (by simp) b .refl).bind fun y b₁ g₁ hy => ?_
    have htail : ∀ x ∈ xs, ∀ b', Grows c T b₁.toStore b'.toStore →
        Adds c T [] b' (f x) fun st => R st x :=
      fun x hx b' g => h x (by simp [hx]) b' (g₁.trans g)
    refine (ih htail).bind fun ys b₂ g₂ hys => ?_
    exact pure (.cons (hmono g₂ hy) hys)

/-- A construction that may be left out. -/
lemma optM {x : Option α} {R : Store → α → β → Prop}
    (h : ∀ a, x = some a → Adds c T [] b (f a) fun st => R st a) :
    Adds c T [] b (x.mapM f) fun st => Option.Rel (R st) x := by
  cases x with
  | none => exact pure .none
  | some a => exact (h a rfl).map fun _ _ _ hr => .some hr

end Adds

/-! ## Elementary constructions -/

namespace Builder

variable {s : NodeSort} {l : ListSort} {α β : Type} {c : Prop} {T : FieldId → Prop}
  {log : List (List String)} {b : Builder}

/-- A line takes at least one byte, that of its end. -/
lemma lt_size_pushText (t : String) (b : Builder) :
    b.source.utf8ByteSize < (pushText t b).2.source.utf8ByteSize := by
  show _ < (b.source ++ t ++ "\n").utf8ByteSize
  have hline : ("\n" : String).utf8ByteSize = 1 := rfl
  simp only [String.utf8ByteSize_append, hline]
  omega

lemma pushText_adds (t : String) :
    Adds c T [] b (pushText t) fun st sp => sp.Cuts st.source t := by
  refine ⟨.text t .refl, .of_lists rfl (Nat.le_of_lt (lt_size_pushText t b)),
    .of_store rfl rfl rfl rfl, ?_⟩
  exact Span.cuts_end b.source t "\n"

lemma intern_adds (name : String) :
    Adds c T [] b (intern name) fun st sym => st.Knows sym name := by
  refine ⟨.name name .refl, .of_lists rfl (Nat.le_refl _), .of_store rfl rfl rfl rfl, ?_⟩
  show (b.symbols.intern name).2.names[(b.symbols.intern name).1.index]? = some name
  unfold Symbols.intern
  cases h : b.symbols.find? name with
  | some sym => simpa using List.find?_some h
  | none => simp [Symbols.add]

lemma alloc_adds (s : NodeSort) (n : s.Node) (sp : Span) (sound : c → b.toStore.Sound (s.refs n))
    (fits : b.toStore.SpansFit → sp.Fits b.source) :
    Adds c T [] b (alloc s n sp) fun st id =>
      b.toStore.Gains st id n ∧ st.span? id = some sp := by
  refine ⟨.node s n sp .refl sound fits, .of_lists rfl (Nat.le_refl _),
    .of_store rfl rfl rfl rfl, ⟨?_, Nat.lt_irrefl _⟩, ?_⟩
  · show ((b.nodes.modify s (·.push n sp)).arena s).node? (b.nodes.arena s).size = some n
    rw [Nodes.arena_modify, Arena.node?_push, if_pos rfl]
  · show ((b.nodes.modify s (·.push n sp)).arena s).span? (b.nodes.arena s).size = some sp
    rw [Nodes.arena_modify, Arena.span?_push, if_pos rfl]

lemma pushList_holds (l : ListSort) (items : List l.Item) :
    (pushList l items b).2.toStore.Holds (pushList l items b).1 items := by
  refine ⟨(b.lists.buffer l).toList, [], ?_, ?_⟩
  · show ((b.lists.append l items).buffer l).toList = _
    simp
  · show (⟨(b.lists.buffer l).size, items.length⟩ : ListRef l) = _
    simp

lemma pushList_adds (l : ListSort) (items : List l.Item)
    (sound : c → ∀ i ∈ items, b.toStore.Sound (l.refs i)) (hl : l.written = false) :
    Adds c T [] b (pushList l items) fun st r => st.Holds r items := by
  refine ⟨.list l items .refl sound, ?_, .of_store rfl rfl rfl rfl, pushList_holds l items⟩
  intro k hk
  have hne : k ≠ l := by
    rintro rfl
    simp [hk] at hl
  show ((b.lists.append l items).buffer k).size + _ ≤ _
  rw [Lists.buffer_append_of_ne _ hne]
  exact Nat.le_refl _

lemma spanOf_adds (id : Id s) : Adds c T [] b (spanOf id) fun st sp => st.Extent id sp := by
  refine ⟨.refl, .of_lists rfl (Nat.le_refl _), .refl c b, ?_⟩
  show b.toStore.Extent id ((b.span? id).getD default)
  cases h : b.span? id with
  | none => exact .inl rfl
  | some sp => exact .inr h

lemma firstSpan?_adds {names : ListRef .idents} {texts : List String}
    (h : b.toStore.SpellsAll names texts) :
    Adds c T [] b (firstSpan? names) fun st first => ∀ sp, first = some sp → sp.Fits st.source := by
  refine ⟨.refl, .of_lists rfl (Nat.le_refl _), .refl c b, ?_⟩
  intro sp hsp
  obtain ⟨ids, hold, hspell⟩ := h
  obtain ⟨i, hi, rfl⟩ := Option.map_eq_some_iff.1 hsp
  have hmem : i ∈ ids := hold.list_prefix.subset (List.mem_of_head? hi)
  obtain ⟨name, -, hname⟩ := hspell.exists_of_mem hmem
  exact hname.place.fits

lemma tag_update_adds (id : FieldId) (sp : Span) (may : T id) :
    Adds c T [] b (update id fun f => { f with tag := some sp }) fun st _ =>
      ∀ f, st.node? id = some f → f.tag = some sp := by
  refine ⟨.tag id sp .refl may, .of_lists rfl (Nat.le_refl _), .of_store rfl rfl rfl rfl, ?_⟩
  intro f hf
  change ((b.nodes.modify .field _).arena .field).node? id.index = some f at hf
  rw [Nodes.arena_modify, Arena.node?_modify, if_pos rfl] at hf
  obtain ⟨f', -, rfl⟩ := Option.map_eq_some_iff.1 hf
  rfl

lemma doc_update_adds (id : Id s) {doc : Option CommentGroupId} {f : s.Node → s.Node}
    (hdoc : b.toStore.Documents doc) (hf : Store.SetsDoc doc s f) :
    Adds c T [] b (update id f) fun _ _ => True :=
  ⟨.doc id doc f .refl hdoc hf, .of_lists rfl (Nat.le_refl _), .of_store rfl rfl rfl rfl, trivial⟩

end Builder

/-! ## Lists of what was just written -/

/-- A construction writes a line for each of its results and leaves the lists alone. -/
structure Writes {α : Type} (m : Build (List α)) (b : Builder) : Prop where
  lists_eq : (m b).2.lists = b.lists
  length_le : b.source.utf8ByteSize + (m b).1.length ≤ (m b).2.source.utf8ByteSize

lemma Writes.mapM {α β : Type} {f : α → Build β}
    (h : ∀ x b, Writes (fun b => ([(f x b).1], (f x b).2)) b) (xs : List α) (b : Builder) :
    Writes (xs.mapM f) b := by
  induction xs generalizing b with
  | nil => exact ⟨rfl, Nat.le_refl _⟩
  | cons x xs ih =>
    rw [List.mapM_cons]
    have h₁ := h x b
    have h₂ := ih (f x b).2
    refine ⟨h₂.lists_eq.trans h₁.lists_eq, ?_⟩
    have hlen₁ := h₁.length_le
    have hlen₂ := h₂.length_le
    show _ + (_ :: (xs.mapM f (f x b).2).1).length ≤ (xs.mapM f (f x b).2).2.source.utf8ByteSize
    simp only [List.length_cons, List.length_nil] at hlen₁ ⊢
    omega

lemma Adds.bind_pushList {l : ListSort} {β : Type} {c : Prop} {T : FieldId → Prop}
    {log : List (List String)} {b : Builder} {m : Build (List l.Item)}
    {Q : Store → List l.Item → Prop} {f : List l.Item → ListRef l → Build β}
    {R : Store → β → Prop} (h : Adds c T [] b m Q) (hm : Writes m b)
    (sound : c → ∀ i ∈ (m b).1, (m b).2.toStore.Sound (l.refs i))
    (h' : ∀ items r (b₁ b₂ : Builder), Q b₁.toStore items → Grows c T b.toStore b₁.toStore →
      Grows c T b₁.toStore b₂.toStore → b₂.toStore.Holds r items → Adds c T log b₂ (f items r) R) :
    Adds c T log b (m >>= fun items => Builder.pushList l items >>= f items) R := by
  have g₂ : Grows c T (m b).2.toStore (Builder.pushList l (m b).1 (m b).2).2.toStore :=
    .list l (m b).1 .refl sound
  have hlast := h' _ _ (m b).2 (Builder.pushList l (m b).1 (m b).2).2 h.result h.grows g₂
    (Builder.pushList_holds l (m b).1)
  have hbooks : Builder.Books c ([] ++ []) b (Builder.pushList l (m b).1 (m b).2).2 :=
    h.books.trans (.of_store rfl rfl rfl rfl) g₂
  refine ⟨h.grows.trans (g₂.trans hlast.grows), Store.Paced.trans ?_ hlast.paced,
    hbooks.trans hlast.books hlast.grows, hlast.result⟩
  -- the items pushed are at most as many as the bytes written before
  intro k _
  have hlen := hm.length_le
  show (((m b).2.lists.append l (m b).1).buffer k).size + _ ≤ _ + (m b).2.source.utf8ByteSize
  by_cases hk : k = l
  · subst hk
    rw [Lists.buffer_append, hm.lists_eq, ← Array.length_toList, Array.toList_appendList,
      List.length_append, Array.length_toList]
    omega
  · rw [Lists.buffer_append_of_ne _ hk, hm.lists_eq]
    omega

namespace Builder

variable {c : Prop} {T : FieldId → Prop} {log : List (List String)} {b : Builder}

/-! ## Names -/

lemma ident_adds (name : String) : Adds c T [] b (ident name) fun st i => st.Spells i name := by
  refine (pushText_adds name).bind fun sp b₁ g₁ hcut => ?_
  refine (intern_adds name).bind fun sym b₂ g₂ hsym => ?_
  exact .pure ⟨g₂.cuts hcut, hsym⟩

lemma ident_writes (name : String) (b : Builder) :
    Writes (fun b => ([(ident name b).1], (ident name b).2)) b :=
  ⟨rfl, lt_size_pushText name b⟩

lemma idents_adds (names : List String) :
    Adds c T [] b (idents names) fun st r => st.SpellsAll r names := by
  have hids : Adds c T [] b (names.mapM ident) fun st ids =>
      List.Forall₂ (fun name i => st.Spells i name) names ids :=
    Adds.mapM (fun g h => g.spells h) fun name _ b' _ => ident_adds name
  refine hids.bind_pushList (f := fun _ r => Pure.pure r) (.mapM ident_writes names b) ?_ ?_
  · intro _ i _
    exact Store.sound_nil
  · intro ids r b₁ b₂ hspell _ g hold
    exact .pure ⟨ids, hold, (hspell.imp fun _ _ h => g.spells h).flip⟩

/-! ## Comments -/

/-- The lines of a documentation, if there are any. -/
def docLog (lines : List String) : List (List String) := if lines.isEmpty then [] else [lines]

lemma comment_adds (line : String) :
    Adds c T [] b (comment line) fun st id =>
      ∃ sp, st.span? id = some sp ∧ sp.Cuts st.source line := by
  refine (pushText_adds line).bind fun sp b₁ g₁ hcut => ?_
  refine (alloc_adds .comment ⟨commentStyle line⟩ sp ?_ ?_).imp fun st id g h => ?_
  · exact fun _ => Store.sound_nil
  · exact fun _ => hcut.fits
  · exact ⟨sp, h.2, g.cuts hcut⟩

lemma comment_writes (line : String) (b : Builder) :
    Writes (fun b => ([(comment line b).1], (comment line b).2)) b :=
  ⟨rfl, lt_size_pushText line b⟩

/-- The comments of a group may be listed before its extent is computed. -/
lemma commentGroup_eq (lines : List String) : commentGroup lines = (do
    let ids ← lines.mapM comment
    let comments ← pushList .comments ids
    let span ← match ids.head?, ids.getLast? with
      | some first, some last => pure ((← spanOf first).cover (← spanOf last))
      | _, _ => pure default
    let id ← alloc .commentGroup ⟨comments⟩ span
    modify fun b => { b with commentGroups := b.commentGroups.push id }
    return id) := by
  unfold commentGroup
  congr 1
  funext ids b
  cases ids.head? <;> cases ids.getLast? <;> rfl

lemma listGroup_adds {g : CommentGroupId} {lines : List String} (h : b.toStore.Lined g lines) :
    Adds c T [lines] b (modify fun b => { b with commentGroups := b.commentGroups.push g })
      fun st _ => st.Lined g lines := by
  refine ⟨.refl, .of_lists rfl (Nat.le_refl _), ⟨⟨[g], ?_, .cons h .nil⟩, ⟨[], ?_, by simp⟩, .inl rfl,
    rfl⟩, h⟩
  · exact Array.toList_push
  · exact (List.append_nil _).symm

lemma commentGroup_adds (lines : List String) :
    Adds c T [lines] b (commentGroup lines) fun st g => st.Lined g lines := by
  have hids : Adds c T [] b (lines.mapM comment) fun st ids => List.Forall₂
      (fun line id => ∃ sp, st.span? id = some sp ∧ sp.Cuts st.source line) lines ids := by
    refine Adds.mapM (fun g => ?_) fun line _ b' _ => comment_adds line
    rintro ⟨sp, hspan, hcut⟩
    exact ⟨sp, g.span? hspan, g.cuts hcut⟩
  rw [commentGroup_eq]
  refine hids.bind_pushList (l := .comments) (.mapM comment_writes lines b) ?_ ?_
  · intro _ id hid
    obtain ⟨line, -, sp, hspan, -⟩ := hids.result.flip.exists_of_mem hid
    exact .one (Store.in_of_span? hspan)
  · intro ids r b₁ b₂ hlines _ g hold
    have hlast : ∀ (sp : Span) (b₃ : Builder), Grows c T b₂.toStore b₃.toStore →
        (b₃.toStore.SpansFit → sp.Fits b₃.source) → Adds c T [lines] b₃ (do
          let id ← alloc .commentGroup ⟨r⟩ sp
          modify fun b => { b with commentGroups := b.commentGroups.push id }
          return id) fun st g => st.Lined g lines := by
      intro sp b₃ g₃ hfits
      refine (alloc_adds .commentGroup ⟨r⟩ sp ?_ hfits).bind fun id b₄ g₄ hid => ?_
      · exact fun _ => .one (g₃.holds hold).sound
      · have hgrow := (g.trans g₃).trans g₄
        have hlined : b₄.toStore.Lined id lines := by
          refine ⟨r, ids, hid.1.node, g₄.holds (g₃.holds hold), (hlines.imp ?_).flip⟩
          rintro line id ⟨sp, hspan, hcut⟩
          exact ⟨sp, hgrow.span? hspan, hgrow.cuts hcut⟩
        exact (listGroup_adds hlined).bind_logged fun _ _ _ h => .pure h
    split
    · next first last _ _ =>
      refine (spanOf_adds first).bind fun sp b₃ g₃ hsp => ?_
      refine (spanOf_adds last).bind fun sp' b₄ g₄ hsp' => ?_
      exact hlast _ b₄ (g₃.trans g₄) fun h => ((g₄.extent hsp).fits h).cover (hsp'.fits h)
    · exact hlast _ b₂ .refl fun _ => Span.fits_default _

lemma commentGroup?_adds (lines : List String) :
    Adds c T (docLog lines) b (commentGroup? lines) fun st doc => st.DocLined doc lines := by
  unfold commentGroup? docLog
  cases lines with
  | nil => exact .pure rfl
  | cons line lines => exact (commentGroup_adds (line :: lines)).map fun _ _ _ h => h

lemma fileDoc_adds (lines : List String) :
    Adds c T (docLog lines) b (fileDoc lines) fun _ _ => True := by
  refine (commentGroup?_adds lines).bind_logged fun doc b₁ _ hdoc => ?_
  refine ⟨.refl, .of_lists rfl (Nat.le_refl _), ⟨⟨[], ?_, .nil⟩, ⟨[], ?_, by simp⟩, .inr hdoc.documents, rfl⟩,
    trivial⟩ <;> exact (List.append_nil _).symm

lemma diagnostic_adds (d : Diagnostic) : Adds c T [] b (diagnostic d) fun _ _ => True :=
  ⟨.refl, .of_lists rfl (Nat.le_refl _), .of_store rfl rfl rfl rfl, trivial⟩

lemma declare_adds (d : TopDeclNode) (sound : c → b.toStore.Sound d.refs) :
    Adds c T [] b (declare d) fun st _ => st = b.toStore := by
  refine ⟨.refl, .of_lists rfl (Nat.le_refl _), ⟨⟨[], ?_, .nil⟩, ⟨[d], ?_, ?_⟩, .inl rfl, rfl⟩,
    rfl⟩
  · exact (List.append_nil _).symm
  · exact Array.toList_push
  · intro hc d' hd'
    rw [List.mem_singleton.1 hd']
    exact sound hc

end Builder

end GoOutline
