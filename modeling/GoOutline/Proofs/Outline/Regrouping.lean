/-
# Regrouping

A general declaration that carries no documentation can be cut into several ones, and specs can be put
into parentheses or taken out of them. The outline of the file stays the same, as long as no constant
or variable loses the type that it takes over from a spec before it. Where one does, it has no type
any more, and so have those after it up to the next type that is stated. Nothing else changes: types
decide neither about keys nor about numbers nor about what is reported.
-/
import GoOutline.Proofs.Outline.Borders
import Mathlib.Data.List.TakeWhile

namespace GoOutline

/-! ## Files

Types are no part of what decides where a declaration is stored. -/

section Files

variable {R : Decl → Decl → Prop}

/-- The entries are the same, up to related declarations. -/
inductive Entry.Rel (R : Decl → Decl → Prop) : Entry → Entry → Prop
  | decl {d d' : Decl} (h : R d d') : Rel R (.decl d) (.decl d')
  | imported (i : Import) : Rel R (.imported i) (.imported i)
  | issue (i : Issue) : Rel R (.issue i) (.issue i)

/-- The filings are the same, up to related declarations. -/
inductive Filing.Rel (R : Decl → Decl → Prop) : Filing → Filing → Prop
  | decl (key : String) {d d' : Decl} (h : R d d') : Rel R (.decl key d) (.decl key d')
  | imported (i : Import) : Rel R (.imported i) (.imported i)
  | issue (i : Issue) : Rel R (.issue i) (.issue i)

lemma Entry.Rel.refl (hR : ∀ d, R d d) (e : Entry) : e.Rel R e := by
  cases e with
  | decl d => exact .decl (hR d)
  | imported i => exact .imported i
  | issue i => exact .issue i

/-- Related declarations get the same keys. -/
lemma fileUnder_rel (hR : ∀ d d', R d d' → d'.key = d.key ∧ d'.mayRepeat = d.mayRepeat)
    {entries entries' : List Entry} (h : List.Forall₂ (Entry.Rel R) entries entries')
    (seen : List String) :
    List.Forall₂ (Filing.Rel R) (fileUnder seen entries) (fileUnder seen entries') := by
  induction h generalizing seen with
  | nil => exact .nil
  | cons hentry _ ih =>
    cases hentry with
    | decl hd =>
      obtain ⟨hkey, hrepeat⟩ := hR _ _ hd
      simp only [fileUnder, hkey, hrepeat]
      split
      · exact .cons (.decl _ hd) (ih _)
      · exact .cons (.decl _ hd) (ih _)
    | imported i => exact .cons (.imported i) (ih seen)
    | issue i => exact .cons (.issue i) (ih seen)

namespace Filing.Rel

variable {filings filings' : List Filing}

lemma pairs (h : List.Forall₂ (Filing.Rel R) filings filings') :
    List.Forall₂ (fun p q => q.1 = p.1 ∧ R p.2 q.2) (filings.filterMap Filing.pair?)
      (filings'.filterMap Filing.pair?) := by
  induction h with
  | nil => exact .nil
  | cons hx _ ih =>
    cases hx with
    | decl key hd => exact .cons ⟨rfl, hd⟩ ih
    | imported i => exact ih
    | issue i => exact ih

lemma keys_eq (h : List.Forall₂ (Filing.Rel R) filings filings') :
    (filings'.filterMap Filing.pair?).map Prod.fst = (filings.filterMap Filing.pair?).map Prod.fst := by
  rw [← List.forall₂_eq_eq_eq, List.forall₂_map_left_iff, List.forall₂_map_right_iff]
  exact (pairs h).flip.imp fun _ _ hpq => hpq.1

lemma imports_eq (h : List.Forall₂ (Filing.Rel R) filings filings') :
    filings'.filterMap Filing.import? = filings.filterMap Filing.import? := by
  refine (h.filterMap_eq fun x y hxy => ?_).symm
  cases hxy <;> rfl

lemma reports_eq (h : List.Forall₂ (Filing.Rel R) filings filings') :
    filings'.mapBefore Filing.reports = filings.mapBefore Filing.reports := by
  rw [← List.forall₂_eq_eq_eq]
  refine List.Forall₂.mapBefore h.flip .nil fun before before' x y hbefore hxy => ?_
  cases hxy with
  | decl key hd => rw [Filing.reports, Filing.reports, keys_eq hbefore.flip]
  | imported i => rw [Filing.reports, Filing.reports, imports_eq hbefore.flip]
  | issue i => rfl

end Filing.Rel

lemma OrderedMap.firstValue?_rel {V : Type} {S : V → V → Prop} {ps qs : List (String × V)}
    (h : List.Forall₂ (fun p q => q.1 = p.1 ∧ S p.2 q.2) ps qs) (key : String) :
    Option.Rel S (firstValue? ps key) (firstValue? qs key) := by
  induction h with
  | nil => exact .none
  | @cons p q ps qs hpq _ ih =>
    by_cases hkey : p.1 = key
    · simpa [firstValue?, hpq.1, hkey] using Option.Rel.some hpq.2
    · simpa [firstValue?, hpq.1, hkey] using ih

lemma Redeclaration.value?_rel {V : Type} {S : V → V → Prop} {ps qs : List (String × V)}
    (h : List.Forall₂ (fun p q => q.1 = p.1 ∧ S p.2 q.2) ps qs) (policy : Redeclaration)
    (key : String) : Option.Rel S (policy.value? ps key) (policy.value? qs key) := by
  cases policy with
  | keepFirst => exact OrderedMap.firstValue?_rel h key
  | replace => exact OrderedMap.firstValue?_rel (List.rel_reverse h) key

/-- The outline `f'` is `f` with related declarations in place of those of `f`. -/
structure File.Rel (R : Decl → Decl → Prop) (f f' : File) : Prop where
  imports : f'.imports = f.imports
  doc : f'.doc = f.doc
  comments : f'.comments = f.comments
  issues : f'.issues = f.issues
  keys : f'.decls.keys = f.decls.keys
  decls : ∀ key, Option.Rel R (f.decls.get? key) (f'.decls.get? key)

lemma File.Stores.rel {policy : Redeclaration} {blank f f' : File} {filings filings' : List Filing}
    (h : File.Stores policy blank filings f) (h' : File.Stores policy blank filings' f')
    (hrel : List.Forall₂ (Filing.Rel R) filings filings') : f.Rel R f' where
  imports := (Filing.Rel.imports_eq hrel ▸ h'.imports).unique h.imports
  doc := h'.doc.trans h.doc.symm
  comments := h'.comments.trans h.comments.symm
  issues := by rw [h'.issues, h.issues, Filing.Rel.reports_eq hrel]
  keys := by rw [h'.decls.keys, h.decls.keys, Filing.Rel.keys_eq hrel]
  decls key := by
    rw [h.decls.get?, h'.decls.get?]
    exact policy.value?_rel (Filing.Rel.pairs hrel) key

end Files

/-! ## Declarations of trees -/

namespace Store

variable {st st' : Store} {file : FileId} {group : DeclGroup} {specs : List SpecNode}
  {d : TopDeclNode}

/-- A declaration of the group with these specs that carries no documentation. -/
def Undocumented (st : Store) (group : DeclGroup) (specs : List SpecNode) (d : TopDeclNode) : Prop :=
  ∃ id g, d = .decl id ∧ st.node? id = some (.general g) ∧ g.group = group ∧ g.doc = none ∧
    st.list g.specs = specs

/-- The specs are read as the same ones. -/
abbrev SameSpecs (st st' : Store) (group : DeclGroup) (specs specs' : List SpecNode) : Prop :=
  List.Forall₂ (fun s s' => st.SameSpec st' group s s' []) specs specs'

/-- No type is taken over across a cut between two pieces: the next spec of constants or variables, if
there is one, has a type of its own, or no spec before the cut has one. -/
def TypesStay (pieces : List (List SpecNode)) : Prop :=
  ∀ i, (∀ v ∈ (pieces.drop i).flatten.findSome? SpecNode.value?, v.type.isSome) ∨
    ∀ s ∈ (pieces.take i).flatten, s.type? = none

/-- The declarations `ds'` are `ds`, where some that carry no documentation are cut into pieces, with
or without parentheses, in such a way that no type is lost. -/
inductive Regroups (st st' : Store) : List TopDeclNode → List TopDeclNode → Prop
  | nil : Regroups st st' [] []
  | same {d d' : TopDeclNode} {ds ds' : List TopDeclNode} (h : st'.topDecl? d' = st.topDecl? d)
    (hrest : Regroups st st' ds ds') : Regroups st st' (d :: ds) (d' :: ds')
  | cut {group : DeclGroup} {specs : List SpecNode} {pieces : List (List SpecNode)}
    {d : TopDeclNode} {parts ds ds' : List TopDeclNode} (hd : st.Undocumented group specs d)
    (hparts : List.Forall₂ (st'.Undocumented group) pieces parts)
    (hspecs : st.SameSpecs st' group specs pieces.flatten)
    (htypes : group.HasValues → TypesStay pieces) (hrest : Regroups st st' ds ds') :
    Regroups st st' (d :: ds) (parts ++ ds')

lemma SameSpecs.read {specs' : List SpecNode} (h : st.SameSpecs st' group specs specs') :
    ∃ xs, specs.mapM (st.spec? group) = some xs ∧ specs'.mapM (st'.spec? group) = some xs := by
  simp only [List.mapM_eq_some_iff]
  induction h with
  | nil => exact ⟨[], .nil, .nil⟩
  | cons hsame _ ih =>
    obtain ⟨-, x, hx, hx'⟩ := hsame
    obtain ⟨xs, hxs, hxs'⟩ := ih
    exact ⟨x :: xs, .cons hx hxs, .cons hx' hxs'⟩

/-- What is read from a declaration without documentation. -/
lemma Undocumented.exists_eq (h : st.Undocumented group specs d) {xs : List Source.Spec}
    (hxs : specs.mapM (st.spec? group) = some xs) :
    ∃ g : Source.GeneralDecl, st.topDecl? d = some (.general g) ∧ g.group = group ∧ g.doc = none ∧
      g.specs = xs := by
  obtain ⟨id, node, rfl, hnode, rfl, hdoc, rfl⟩ := h
  have hnone : st.generalDoc? node xs = some none := by simp [generalDoc?, hdoc, optLines?]
  exact ⟨⟨none, node.group, node.grouped, xs⟩, topDecl?_general hnode hnone hxs, rfl, rfl, rfl⟩

lemma declEntries_of_general {g : Source.GeneralDecl} (h : st.topDecl? d = some (.general g)) :
    st.declEntries file d = g.entries file := by
  rw [declEntries, h]
  rfl

/-- What is read from pieces without documentation. -/
lemma parts_read {pieces : List (List SpecNode)} {parts : List TopDeclNode}
    (h : List.Forall₂ (st.Undocumented group) pieces parts) {xs : List Source.Spec}
    (hxs : List.Forall₂ (fun s x => st.spec? group s = some x) pieces.flatten xs) :
    ∃ gs : List Source.GeneralDecl,
      parts.flatMap (st.declEntries file) = gs.flatMap (Source.GeneralDecl.entries file) ∧
      (∀ g ∈ gs, g.group = group ∧ g.doc = none) ∧
      List.Forall₂ (List.Forall₂ fun s x => st.spec? group s = some x) pieces
        (gs.map Source.GeneralDecl.specs) ∧
      (gs.map Source.GeneralDecl.specs).flatten = xs := by
  induction h generalizing xs with
  | nil =>
    cases hxs
    exact ⟨[], rfl, by simp, .nil, rfl⟩
  | cons hd _ ih =>
    obtain ⟨ys, zs, rfl, hys, hzs⟩ := List.Forall₂.exists_append hxs
    obtain ⟨gs, hentries, hbare, hread, hspecs⟩ := ih hzs
    obtain ⟨g, hg, hgroup, hdoc, rfl⟩ := hd.exists_eq (List.mapM_eq_some_iff.2 hys)
    refine ⟨g :: gs, ?_, List.forall_mem_cons.2 ⟨⟨hgroup, hdoc⟩, hbare⟩, .cons hys hread, ?_⟩
    · rw [List.flatMap_cons, List.flatMap_cons, hentries, declEntries_of_general hg]
    · rw [List.map_cons, List.flatten_cons, hspecs]

section Types

variable {xs : List Source.Spec}

/-- A spec of constants or variables is read as one that has a type if it has one. -/
lemma spec?_type (hgroup : group.HasValues) {s : SpecNode} {x : Source.Spec}
    (hx : st.spec? group s = some x) : s.type? = none ↔ x.typeText? = none := by
  rcases spec?_cases hgroup hx with ⟨v, y, rfl, rfl, hy⟩ | ⟨hvalue, rfl⟩
  · obtain ⟨htype, -⟩ := valueSpec?_parts hy
    show v.type = none ↔ y.type.map _ = none
    rw [Option.map_eq_none_iff]
    cases hv : v.type with
    | none =>
      rw [hv] at htype
      simp [← Option.some.inj htype]
    | some id =>
      rw [hv] at htype
      obtain ⟨type, -, hsome⟩ := Option.map_eq_some_iff.1 htype
      simp [← hsome]
  · simp [SpecNode.type?, hvalue, Source.Spec.typeText?]

lemma untyped_of_read (hgroup : group.HasValues)
    (h : List.Forall₂ (fun s x => st.spec? group s = some x) specs xs)
    (hnone : ∀ s ∈ specs, s.type? = none) : Source.Untyped xs := by
  intro x hx
  obtain ⟨s, hs, hread⟩ := h.flip.exists_of_mem hx
  exact (spec?_type hgroup hread).1 (hnone s hs)

lemma startsTyped_of_read (hgroup : group.HasValues)
    (h : List.Forall₂ (fun s x => st.spec? group s = some x) specs xs)
    (hfirst : ∀ v ∈ specs.findSome? SpecNode.value?, v.type.isSome) : Source.StartsTyped xs := by
  induction h with
  | nil => exact fun s hs => absurd hs (by simp)
  | @cons s x specs xs hx _ ih =>
    rcases spec?_cases hgroup hx with ⟨v, y, rfl, rfl, -⟩ | ⟨hvalue, rfl⟩
    · intro z hz
      obtain rfl : y = z := Option.some.inj hz
      have hv : v.type.isSome := hfirst v rfl
      have htype : (Source.Spec.value y).typeText? ≠ none := by
        rw [ne_eq, ← spec?_type hgroup hx]
        exact Option.isSome_iff_ne_none.1 hv
      exact Option.isSome_iff_ne_none.2 fun hnone => htype (by simp [Source.Spec.typeText?, hnone])
    · rw [List.findSome?_cons, hvalue] at hfirst
      exact ih hfirst

lemma TypesStay.apart (hgroup : group.HasValues) {pieces : List (List SpecNode)}
    {xss : List (List Source.Spec)} (h : TypesStay pieces)
    (hread : List.Forall₂ (List.Forall₂ fun s x => st.spec? group s = some x) pieces xss)
    {ps qs : List (List Source.Spec)} (hxss : xss = ps ++ qs) : Source.Apart ps.flatten qs.flatten := by
  subst hxss
  obtain ⟨before, after, rfl, hbefore, hafter⟩ := hread.flip.exists_append
  have hcut := h before.length
  rw [List.drop_left, List.take_left] at hcut
  refine hcut.imp (fun hfirst => ?_) fun hnone => ?_
  · exact startsTyped_of_read hgroup (List.rel_flatten hafter.flip) hfirst
  · exact untyped_of_read hgroup (List.rel_flatten hbefore.flip) hnone

end Types

/-- After the specs without a type comes one with a type, if there are any more. -/
lemma dropWhile_typed (specs : List SpecNode) :
    ∀ v ∈ (specs.dropWhile fun s => s.type?.isNone).findSome? SpecNode.value?, v.type.isSome := by
  induction specs with
  | nil => simp
  | cons s specs ih =>
    cases htype : s.type? with
    | none => simpa [htype] using ih
    | some id =>
      obtain ⟨v, hv, hid⟩ := Option.bind_eq_some_iff.1 htype
      simp [htype, hv, hid]

/-- What a declaration of constants or variables without documentation contributes is told by any
declaration that is like it. -/
lemma Undocumented.valueEntries_eq (h : st.Undocumented group specs d) (hgroup : group.HasValues)
    {xs : List Source.Spec} (hxs : specs.mapM (st.spec? group) = some xs) {g : Source.GeneralDecl}
    (hg : g.group = group) (hdoc : g.doc = none) :
    st.declEntries file d = Source.valueEntries file g "" xs := by
  obtain ⟨g', hg', hgroup', hdoc', rfl⟩ := h.exists_eq hxs
  have halike : g.Alike g' := Source.GeneralDecl.alike_of_doc (hgroup'.trans hg.symm) hdoc hdoc'
  rw [declEntries_of_general hg', Source.GeneralDecl.entries_eq_values (hgroup' ▸ hgroup),
    halike.valueEntries_eq]

/-- A declaration without documentation contributes the same in pieces. -/
lemma parts_entries {pieces : List (List SpecNode)} {parts : List TopDeclNode}
    (hd : st.Undocumented group specs d) (hparts : List.Forall₂ (st'.Undocumented group) pieces parts)
    (hspecs : st.SameSpecs st' group specs pieces.flatten)
    (htypes : group.HasValues → TypesStay pieces) :
    parts.flatMap (st'.declEntries file) = st.declEntries file d := by
  obtain ⟨xs, hxs, hxs'⟩ := hspecs.read
  obtain ⟨g, hg, hgroup, hdoc, rfl⟩ := hd.exists_eq hxs
  obtain ⟨gs, hentries, hbare, hread, hflatten⟩ := parts_read hparts (List.mapM_eq_some_iff.1 hxs')
  rw [hentries, declEntries_of_general hg]
  refine Source.GeneralDecl.entries_pieces (fun g' hg' => ?_) hflatten fun hvalues ps qs heq => ?_
  · exact Source.GeneralDecl.alike_of_doc ((hbare g' hg').1.trans hgroup.symm) hdoc (hbare g' hg').2
  · have hvalues : group.HasValues := hgroup ▸ hvalues
    exact (htypes hvalues).apart hvalues hread heq

/-- Regrouped declarations contribute the same to the outline of their file. -/
lemma Regroups.entries_eq {ds ds' : List TopDeclNode} (h : st.Regroups st' ds ds') :
    ds'.flatMap (st'.declEntries file) = ds.flatMap (st.declEntries file) := by
  induction h with
  | nil => rfl
  | same h _ ih => rw [List.flatMap_cons, List.flatMap_cons, ih, declEntries, declEntries, h]
  | cut hd hparts hspecs htypes _ ih =>
    rw [List.flatMap_append, List.flatMap_cons, ih, parts_entries hd hparts hspecs htypes]

lemma same_entries {ds ds' : List TopDeclNode}
    (h : List.Forall₂ (fun d d' => st'.topDecl? d' = st.topDecl? d) ds ds') :
    ds'.flatMap (st'.declEntries file) = ds.flatMap (st.declEntries file) := by
  induction h with
  | nil => rfl
  | cons h _ ih => rw [List.flatMap_cons, List.flatMap_cons, ih, declEntries, declEntries, h]

end Store

namespace Tree

variable {t t' : Tree}

/-- The trees agree on all that is not part of a declaration. -/
structure SameFrame (t t' : Tree) : Prop where
  path : t'.path = t.path
  packageName : t'.packageName = t.packageName
  doc : t'.docLines? t'.root.doc = t.docLines? t.root.doc
  comments : t'.commentGroups.map t'.lines? = t.commentGroups.map t.lines?

/-- The tree `t'` is `t` with declarations cut into pieces that lose no type. -/
structure Regrouped (t t' : Tree) : Prop extends t.SameFrame t' where
  decls : t.Regroups t'.toStore t.topDecls t'.topDecls

/-- The tree `t'` is `t` with a declaration of the group, which comes after the declarations `earlier`
and carries no documentation, cut in two: the specs `before` are in the first part and the specs
`after` in the second one. -/
inductive Cut (t t' : Tree) (group : DeclGroup) (earlier : List TopDeclNode)
    (before after : List SpecNode) : Prop
  | intro {d first second : TopDeclNode} {earlier' later later' : List TopDeclNode}
    {before' after' : List SpecNode} (hframe : t.SameFrame t')
    (htop : t.topDecls = earlier ++ d :: later)
    (htop' : t'.topDecls = earlier' ++ first :: second :: later')
    (hearlier : List.Forall₂ (fun d d' => t'.topDecl? d' = t.topDecl? d) earlier earlier')
    (hlater : List.Forall₂ (fun d d' => t'.topDecl? d' = t.topDecl? d) later later')
    (hd : t.Undocumented group (before ++ after) d) (hfirst : t'.Undocumented group before' first)
    (hsecond : t'.Undocumented group after' second)
    (hbefore : t.SameSpecs t'.toStore group before before')
    (hafter : t.SameSpecs t'.toStore group after after')

lemma SameFrame.blankOutline_eq (h : t.SameFrame t') (id : FileId) (package : String) :
    t'.blankOutline id package = t.blankOutline id package := by
  have hpackage : t'.sourceFile.package = t.sourceFile.package := h.packageName
  have hdoc : t'.sourceFile.doc = t.sourceFile.doc := congrArg (·.getD []) h.doc
  simp only [blankOutline, File.packageIssue?, h.path, hpackage, hdoc,
    sourceFile_comments_eq h.comments]

lemma ofTree_eq_foldl (policy : Redeclaration) (id : FileId) (package : String) (t : Tree) :
    File.ofTree policy id package t =
      (t.filings id).foldl (File.store policy) (t.blankOutline id package) := rfl

lemma Regrouped.ofTree_eq (h : t.Regrouped t') (policy : Redeclaration) (id : FileId)
    (package : String) : File.ofTree policy id package t' = File.ofTree policy id package t := by
  rw [ofTree_eq_foldl, ofTree_eq_foldl, filings_eq, filings_eq, h.decls.entries_eq,
    h.toSameFrame.blankOutline_eq]

/-- The second declaration is the first one or, if that is among `changed`, the first one without its
type. -/
def LosesType (changed : List Decl) (d d' : Decl) : Prop :=
  d' = d ∨ d ∈ changed ∧ d' = d.withType ""

/-- A cut of constants or variables changes the types of those that are declared between the cut and
the next type that is stated. These have taken over the type before the cut, and now they have none. -/
structure CutChanges (t t' : Tree) (id : FileId) (group : DeclGroup) (earlier : List TopDeclNode)
    (before after : List SpecNode) (kept changed later : List Decl) : Prop where
  old : t.declarations id = kept ++ changed ++ later
  new : t'.declarations id = kept ++ changed.map (Decl.withType "") ++ later
  kept_keys : kept.map Decl.key =
    (earlier.filter fun d => (t.topDecl? d).isSome).flatMap t.declKeys ++
      before.flatMap (t.specKeys group)
  changed_keys : changed.map Decl.key =
    (after.takeWhile fun s => s.type?.isNone).flatMap (t.specKeys group)
  type : ∃ text, t.CarriesType before text ∧ ∀ d ∈ changed, d.declaredType? = some text
  /-- Nothing else changes in the outlines. -/
  files : ∀ policy package, (File.ofTree policy id package t).Rel (LosesType changed)
    (File.ofTree policy id package t')

end Tree

/-! ## Cuts between constants or variables -/

section Cuts

variable {t t' : Tree}

lemma Decl.withType_key (type : String) (d : Decl) :
    (d.withType type).key = d.key ∧ (d.withType type).mayRepeat = d.mayRepeat := by
  cases d <;> exact ⟨rfl, rfl⟩

lemma filterMap_decl?_withType (type : String) (entries : List Entry) :
    (entries.map (Entry.withType type)).filterMap Entry.decl? =
      (entries.filterMap Entry.decl?).map (Decl.withType type) := by
  rw [List.filterMap_map, List.map_filterMap]
  refine List.filterMap_congr fun e _ => ?_
  cases e <;> rfl

/-- Entries that are the same up to some in the middle, which lose their types. -/
lemma Tree.losesType_entries (first middle last : List Entry) :
    List.Forall₂ (Entry.Rel (LosesType (middle.filterMap Entry.decl?))) (first ++ middle ++ last)
      (first ++ middle.map (Entry.withType "") ++ last) := by
  have hrefl (entries : List Entry) :
      List.Forall₂ (Entry.Rel (LosesType (middle.filterMap Entry.decl?))) entries entries :=
    List.forall₂_same.2 fun e _ => Entry.Rel.refl (fun _ => .inl rfl) e
  refine List.rel_append (List.rel_append (hrefl first) ?_) (hrefl last)
  rw [List.forall₂_map_right_iff, List.forall₂_same]
  intro e he
  cases e with
  | decl d => exact .decl (.inr ⟨List.mem_filterMap.2 ⟨_, he, rfl⟩, rfl⟩)
  | imported i => exact .imported i
  | issue i => exact .issue i

/-- The entries of a tree where it is cut: those between the cut and the next type that is stated take
over a type in one tree and not in the other. -/
lemma Tree.Cut.exists_entries {group : DeclGroup} {earlier : List TopDeclNode}
    {before after : List SpecNode} (hgroup : group.HasValues)
    (h : t.Cut t' group earlier before after) (id : FileId) :
    ∃ (g : Source.GeneralDecl) (xs zone : List Source.Spec) (later : List Entry),
      List.Forall₂ (fun s x => t.spec? group s = some x) before xs ∧
      List.Forall₂ (fun s x => t.spec? group s = some x)
        (after.takeWhile fun s => s.type?.isNone) zone ∧
      t.topDecls.flatMap (t.declEntries id) = earlier.flatMap (t.declEntries id) ++
        Source.valueEntries id g "" xs ++ Source.valueEntries id g (Source.carriedType xs) zone ++
          later ∧
      t'.topDecls.flatMap (t'.declEntries id) = earlier.flatMap (t.declEntries id) ++
        Source.valueEntries id g "" xs ++ Source.valueEntries id g "" zone ++ later := by
  obtain @⟨d, first, second, earlier', later, later', before', after', -, htop, htop', hearlier,
    hlater, hd, hfirst, hsecond, hbefore, hafter⟩ := h
  obtain ⟨xs, hxs, hxs'⟩ := hbefore.read
  obtain ⟨ys, hys, hys'⟩ := hafter.read
  have hread : (before ++ after).mapM (t.spec? group) = some (xs ++ ys) :=
    List.mapM_eq_some_iff.2
      (List.rel_append (List.mapM_eq_some_iff.1 hxs) (List.mapM_eq_some_iff.1 hys))
  have hsplit : List.Forall₂ (fun s x => t.spec? group s = some x)
      ((after.takeWhile fun s => s.type?.isNone) ++ after.dropWhile fun s => s.type?.isNone) ys := by
    rw [List.takeWhile_append_dropWhile]
    exact List.mapM_eq_some_iff.1 hys
  obtain ⟨zone, rest, rfl, hzone, hrest⟩ := hsplit.exists_append
  have hrest : Source.StartsTyped rest :=
    Store.startsTyped_of_read hgroup hrest (Store.dropWhile_typed after)
  -- the parts of the declaration are like a declaration without specs
  let g : Source.GeneralDecl := ⟨none, group, true, []⟩
  have hwhole : t.declEntries id d = Source.valueEntries id g "" xs ++
      (Source.valueEntries id g (Source.carriedType xs) zone ++ Source.valueEntries id g "" rest) := by
    rw [hd.valueEntries_eq (g := g) hgroup hread rfl rfl, ← Source.valueEntries_zone hrest]
    exact Source.valueEntries_append [] xs (zone ++ rest)
  have hfirst : t'.declEntries id first = Source.valueEntries id g "" xs :=
    hfirst.valueEntries_eq hgroup hxs' rfl rfl
  have hsecond : t'.declEntries id second =
      Source.valueEntries id g "" zone ++ Source.valueEntries id g "" rest := by
    rw [hsecond.valueEntries_eq (g := g) hgroup hys' rfl rfl]
    exact Source.valueEntries_zone hrest []
  refine ⟨g, xs, zone, Source.valueEntries id g "" rest ++ later.flatMap (t.declEntries id),
    List.mapM_eq_some_iff.1 hxs, hzone, ?_, ?_⟩
  · rw [htop, List.flatMap_append, List.flatMap_cons, hwhole]
    simp only [List.append_assoc]
  · rw [htop', List.flatMap_append, List.flatMap_cons, List.flatMap_cons, hfirst, hsecond,
      Store.same_entries hearlier, Store.same_entries hlater]
    simp only [List.append_assoc]

lemma Tree.Cut.toSameFrame {group : DeclGroup} {earlier : List TopDeclNode}
    {before after : List SpecNode} (h : t.Cut t' group earlier before after) : t.SameFrame t' := by
  cases h
  assumption

lemma Tree.declarations_eq_filterMap (t : Tree) (id : FileId) :
    t.declarations id = (t.topDecls.flatMap (t.declEntries id)).filterMap Entry.decl? := by
  rw [declarations_eq, List.filterMap_flatMap]

lemma Store.entries_keys {st : Store} {file : FileId} (ds : List TopDeclNode) :
    ((ds.flatMap (st.declEntries file)).filterMap Entry.decl?).map Decl.key =
      (ds.filter fun d => (st.topDecl? d).isSome).flatMap st.declKeys := by
  have hdecls : (ds.flatMap (st.declEntries file)).filterMap Entry.decl? =
      (ds.map fun d => (st.topDecl? d).getD .bad).flatMap (Source.TopDecl.decls file) := by
    rw [List.filterMap_flatMap, List.flatMap_map]
    exact List.flatMap_congr fun d _ => Source.TopDecl.entries_decls file _
  rw [hdecls, decls_keys]

lemma Tree.Cut.changes {group : DeclGroup} {earlier : List TopDeclNode}
    {before after : List SpecNode} (hgroup : group.HasValues)
    (h : t.Cut t' group earlier before after) (id : FileId) :
    ∃ kept changed later, t.CutChanges t' id group earlier before after kept changed later := by
  obtain ⟨g, xs, zone, later, hxs, hzone, hold, hnew⟩ := h.exists_entries hgroup id
  have huntyped : Source.Untyped zone := by
    refine Store.untyped_of_read hgroup hzone fun s hs => ?_
    simpa using List.mem_takeWhile_imp hs
  rw [← Source.valueEntries_withType huntyped (Source.carriedType xs) ""] at hnew
  refine ⟨(earlier.flatMap (t.declEntries id) ++ Source.valueEntries id g "" xs).filterMap Entry.decl?,
    (Source.valueEntries id g (Source.carriedType xs) zone).filterMap Entry.decl?,
    later.filterMap Entry.decl?, ?_, ?_, ?_, ?_, ?_, ?_⟩
  · rw [declarations_eq_filterMap, hold, List.filterMap_append, List.filterMap_append]
  · rw [declarations_eq_filterMap, hnew, List.filterMap_append, List.filterMap_append,
      filterMap_decl?_withType]
  · rw [List.filterMap_append, List.map_append, Store.entries_keys]
    congr 1
    exact (congrArg _ (Source.valueEntries_decls [] xs)).trans (Store.valueSpecs_keys hgroup hxs [])
  · rw [Source.valueEntries_decls]
    exact Store.valueSpecs_keys hgroup hzone xs
  · refine ⟨_, Store.carriesType_of_read hgroup hxs, fun d hd => ?_⟩
    obtain ⟨e, he, hd⟩ := List.mem_filterMap.1 hd
    cases e with
    | decl e =>
      obtain rfl := Option.some.inj hd
      exact Source.valueEntries_type huntyped he
    | _ => cases hd
  · intro policy package
    have hstores := File.ofTree_stores policy id package t'
    rw [h.toSameFrame.blankOutline_eq] at hstores
    refine (File.ofTree_stores policy id package t).rel hstores ?_
    rw [filings_eq, filings_eq, hold, hnew]
    refine fileUnder_rel ?_ (losesType_entries _ _ _) []
    rintro d d' (rfl | ⟨-, rfl⟩)
    · exact ⟨rfl, rfl⟩
    · exact d.withType_key ""

end Cuts

/-- Declarations without documentation can be cut and put together in any way, with or without
parentheses, as long as no constant or variable loses the type that it takes over. Any other cut
between constants or variables makes those without a type that follow it lose this type, up to the
next type that is stated, and changes nothing else. -/
theorem regrouping_invariant :
    (∀ t t' : Tree, t.Regrouped t' → ∀ policy id package,
      File.ofTree policy id package t' = File.ofTree policy id package t) ∧
    ∀ (t t' : Tree) (group : DeclGroup) (earlier : List TopDeclNode) (before after : List SpecNode),
      group.HasValues → t.Cut t' group earlier before after →
      ∀ id, ∃ kept changed later,
        t.CutChanges t' id group earlier before after kept changed later :=
  ⟨fun _ _ h => h.ofTree_eq, fun _ _ _ _ _ _ hgroup h => h.changes hgroup⟩

/-- The script of `const (a int; b; c int)` and `type T int`, then the same in pieces, and last the
constants with a cut in front of `b`. -/
def Step.cutConstants : List Step :=
  [.named "int", .valueSpec ["a"] (some 0) [], .valueSpec ["b"] none [],
    .valueSpec ["c"] (some 0) [], .typeSpec "T" 0, .declGroup .consts [1, 2, 3], .decl .types 4,
    .declGroup .consts [1, 2], .decl .consts 3, .declGroup .types [4], .decl .consts 1,
    .declGroup .consts [2, 3]]

theorem regrouping_invariant_constants :
    ∃ p, (Progress.mk (.start "a.go" "main") #[]).run Step.cutConstants = some p ∧
      let t := p.builder.finish
      let whole : Tree := { t with root.decls := ⟨0, 2⟩ }
      let pieces : Tree := { t with root.decls := ⟨2, 3⟩ }
      let constants : Tree := { t with root.decls := ⟨0, 1⟩ }
      let cut : Tree := { t with root.decls := ⟨5, 2⟩ }
      whole.Regrouped pieces ∧
      File.ofTree .keepFirst ⟨0, 0⟩ "main" pieces = File.ofTree .keepFirst ⟨0, 0⟩ "main" whole ∧
      DeclGroup.consts.HasValues ∧
      ∃ a b c, constants.Cut cut .consts [] [a] [b, c] ∧
        (∃ kept changed later,
          constants.CutChanges cut ⟨0, 0⟩ .consts [] [a] [b, c] kept changed later) ∧
        ((File.ofTree .keepFirst ⟨0, 0⟩ "main" constants).decls.values.map Decl.declaredType?,
          (File.ofTree .keepFirst ⟨0, 0⟩ "main" cut).decls.values.map Decl.declaredType?) =
          ([some "int", some "int", some "int"], [some "int", some "", some "int"]) := by
  let a : SpecNode := .value ⟨none, ⟨0, 1⟩, some ⟨0⟩, ⟨0, 0⟩⟩
  let b : SpecNode := .value ⟨none, ⟨1, 1⟩, none, ⟨0, 0⟩⟩
  let c : SpecNode := .value ⟨none, ⟨2, 1⟩, some ⟨0⟩, ⟨0, 0⟩⟩
  let type : SpecNode := .type ⟨none, ⟨⟨5⟩, ⟨23, 24⟩⟩, none, none, ⟨0⟩, false⟩
  have hrun : ((Progress.mk (.start "a.go" "main") #[]).run Step.cutConstants).any fun p =>
      let t := p.builder.finish
      let decl (i : Nat) : Option DeclNode := t.node? (⟨i⟩ : DeclId)
      let specs (i n : Nat) : List SpecNode := t.list (⟨i, n⟩ : ListRef .specs)
      let tops (i n : Nat) : List TopDeclNode := t.list (⟨i, n⟩ : ListRef .topDecls)
      tops 0 2 = [.decl ⟨0⟩, .decl ⟨1⟩] && tops 2 3 = [.decl ⟨2⟩, .decl ⟨3⟩, .decl ⟨4⟩] &&
      tops 0 1 = [.decl ⟨0⟩] && tops 5 2 = [.decl ⟨5⟩, .decl ⟨6⟩] &&
      decl 0 = some (.general ⟨none, .consts, true, ⟨0, 3⟩⟩) && specs 0 3 = [a, b, c] &&
      decl 1 = some (.general ⟨none, .types, false, ⟨3, 1⟩⟩) && specs 3 1 = [type] &&
      decl 2 = some (.general ⟨none, .consts, true, ⟨4, 2⟩⟩) && specs 4 2 = [a, b] &&
      decl 3 = some (.general ⟨none, .consts, false, ⟨6, 1⟩⟩) && specs 6 1 = [c] &&
      decl 4 = some (.general ⟨none, .types, true, ⟨7, 1⟩⟩) && specs 7 1 = [type] &&
      decl 5 = some (.general ⟨none, .consts, false, ⟨8, 1⟩⟩) && specs 8 1 = [a] &&
      decl 6 = some (.general ⟨none, .consts, true, ⟨9, 2⟩⟩) && specs 9 2 = [b, c] &&
      (t.spec? .consts a).isSome && (t.spec? .consts b).isSome && (t.spec? .consts c).isSome &&
      (t.spec? .types type).isSome &&
      ((File.ofTree .keepFirst ⟨0, 0⟩ "main" { t with root.decls := ⟨0, 1⟩ }).decls.values.map
          Decl.declaredType?,
        (File.ofTree .keepFirst ⟨0, 0⟩ "main" { t with root.decls := ⟨5, 2⟩ }).decls.values.map
          Decl.declaredType?) =
        ([some "int", some "int", some "int"], [some "int", some "", some "int"]) := by
    decide +kernel
  obtain ⟨p, hp, hcheck⟩ := (Option.any_eq_true _ _).1 hrun
  simp only [Bool.and_eq_true, decide_eq_true_eq, Option.isSome_iff_exists, and_assoc] at hcheck
  obtain ⟨hwhole, hpieces, hconstants, hcut, hd0, hs0, hd1, hs1, hd2, hs2, hd3, hs3, hd4, hs4, hd5,
    hs5, hd6, hs6, ⟨xa, ha⟩, ⟨xb, hb⟩, ⟨xc, hc⟩, ⟨xt, ht⟩, htypes⟩ := hcheck
  refine ⟨p, hp, ?_⟩
  intro t whole pieces constants cut
  have hregrouped : whole.Regrouped pieces := by
    refine ⟨⟨rfl, rfl, rfl, rfl⟩, ?_⟩
    show t.Regroups t.toStore (t.list (⟨0, 2⟩ : ListRef .topDecls))
      (t.list (⟨2, 3⟩ : ListRef .topDecls))
    rw [hwhole, hpieces]
    have hconsts : Store.TypesStay [[a, b], [c]] := by
      rintro (_ | _ | i)
      · exact .inr (by simp)
      · exact .inl (by simp [SpecNode.value?, c])
      · exact .inl (by simp)
    have htype : Store.TypesStay [[type]] := by
      rintro (_ | i)
      · exact .inr (by simp)
      · exact .inl (by simp)
    exact .cut ⟨_, _, rfl, hd0, rfl, rfl, hs0⟩
      (.cons ⟨_, _, rfl, hd2, rfl, rfl, hs2⟩ (.cons ⟨_, _, rfl, hd3, rfl, rfl, hs3⟩ .nil))
      (.cons ⟨rfl, xa, ha, ha⟩ (.cons ⟨rfl, xb, hb, hb⟩ (.cons ⟨rfl, xc, hc, hc⟩ .nil)))
      (fun _ => hconsts)
      (.cut ⟨_, _, rfl, hd1, rfl, rfl, hs1⟩ (.cons ⟨_, _, rfl, hd4, rfl, rfl, hs4⟩ .nil)
        (.cons ⟨rfl, xt, ht, ht⟩ .nil) (fun _ => htype) .nil)
  have hcutAt : constants.Cut cut .consts [] [a] [b, c] := by
    have htop : constants.topDecls = [] ++ .decl ⟨0⟩ :: [] := hconstants
    have htop' : cut.topDecls = [] ++ .decl ⟨5⟩ :: .decl ⟨6⟩ :: [] := hcut
    exact .intro ⟨rfl, rfl, rfl, rfl⟩ htop htop' .nil .nil
      ⟨_, _, rfl, hd0, rfl, rfl, hs0⟩ ⟨_, _, rfl, hd5, rfl, rfl, hs5⟩ ⟨_, _, rfl, hd6, rfl, rfl, hs6⟩
      (.cons ⟨rfl, xa, ha, ha⟩ .nil) (.cons ⟨rfl, xb, hb, hb⟩ (.cons ⟨rfl, xc, hc, hc⟩ .nil))
  obtain ⟨hsame, hchanges⟩ := regrouping_invariant
  have hvalues : DeclGroup.consts.HasValues := .inl rfl
  exact ⟨hregrouped, hsame _ _ hregrouped .keepFirst ⟨0, 0⟩ "main", hvalues, a, b, c, hcutAt,
    hchanges _ _ _ _ _ _ hvalues hcutAt ⟨0, 0⟩, htypes⟩

end GoOutline
