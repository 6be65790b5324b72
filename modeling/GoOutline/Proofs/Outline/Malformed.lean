/-
# Malformed parts are left out

A declaration that could not be understood, a spec in a declaration of another kind, the definition
of a type that could not be understood, a field that cannot stand in its list: each of them is
reported once and otherwise changes nothing. Everything else in the outline is as if the part were
not there, although much of it depends on what stands before: types that constants take over from
the spec in front of them, numbers in keys, and keys that are in use.

The argument is the same at every step of outlining. If malformed parts are inserted into what goes
into the step, then their reports are inserted into what comes out of it.
-/
import GoOutline.Proofs.Outline.Declarations
import GoOutline.Tree.Script

namespace GoOutline

open List (Merges Inserts)

/-! ## Reports -/

/-- The issue reports the misplaced part. -/
abbrev Issue.Flags (i : Issue) (part : Misplaced) : Prop := i = .unexpected part

/-- The item reports the misplaced part. -/
abbrev Item.Flags {V : Type} (x : Item V) (part : Misplaced) : Prop := x = .issue (.unexpected part)

/-- The entry reports the misplaced part. -/
abbrev Entry.Flags (e : Entry) (part : Misplaced) : Prop := e = .issue (.unexpected part)

/-- The filing reports the misplaced part. -/
abbrev Filing.Flags (x : Filing) (part : Misplaced) : Prop := x = .issue (.unexpected part)

variable {parts : List Misplaced}

/-! ## Fields -/

lemma collect_merges {V : Type} {items items' : List (Item V)}
    (h : Merges Item.Flags parts items items') (m : OrderedMap V) :
    (collect m items').1 = (collect m items).1 ∧
      Merges Issue.Flags parts (collect m items).2 (collect m items').2 := by
  induction h generalizing m with
  | nil => exact ⟨rfl, .nil⟩
  | cons item _ ih =>
    cases item with
    | issue i => exact ⟨(ih m).1, .cons i (ih m).2⟩
    | entry key label value =>
      simp only [collect]
      cases m.insertNew key value with
      | ok inserted => exact ih inserted.2
      | error _ => exact ⟨(ih m).1, .cons _ (ih m).2⟩
  | insert hnew _ ih =>
    obtain rfl := hnew
    exact ⟨(ih m).1, .insert rfl (ih m).2⟩

/-- A misplaced entry does not advance the numbers in the keys. -/
lemma fieldItems_merges {kind : FieldListKind} {entries entries' : List Source.Field}
    (h : Merges (fun e part => e.misplaced? kind = some part) parts entries entries') (i : Nat) :
    Merges Item.Flags parts (fieldItems kind i entries) (fieldItems kind i entries') := by
  induction h generalizing i with
  | nil => exact .nil
  | cons entry _ ih =>
    rw [fieldItems, fieldItems]
    cases entry.misplaced? kind with
    | some part => exact .cons _ (ih i)
    | none => exact (Merges.refl _).append (ih _)
  | insert hnew _ ih =>
    rw [fieldItems, hnew]
    exact .insert rfl (ih i)

namespace Store

/-- The names that an entry binds. -/
def fieldNames (st : Store) (id : FieldId) : List String :=
  (st.node? id : Option FieldNode).elim [] fun f => st.names f.names

/-- What is wrong with an entry in a list of the given kind, if anything is. In a struct the entries
without names are the embedded ones, and in a parameter list nothing is embedded. -/
def misplacedField? (st : Store) (kind : FieldListKind) (id : FieldId) : Option Misplaced :=
  (st.node? id : Option FieldNode).bind fun f =>
    match kind with
    | .struct =>
      if f.embedded = (st.fieldNames id).isEmpty then none else some (.structField f.embedded)
    | .params => if f.embedded then some .param else none

variable {st : Store} {lines : Option CommentGroupId → Option Source.Lines}
  {type : TypeId → Option Source.TypeExpr} {kind : FieldListKind} {id : FieldId} {x : Source.Field}

lemma readField_misplaced? (hx : st.readField lines type id = some x) :
    x.misplaced? kind = st.misplacedField? kind id := by
  obtain ⟨f, t, doc, comment, hf, -, -, -, rfl⟩ := readField_parts hx
  rw [misplacedField?, fieldNames, hf]
  cases kind <;> rfl

/-- A field that cannot stand in a list of the given kind. In a struct the fields without names are
the embedded ones, and in a parameter list nothing is embedded. -/
inductive IllFormedField (st : Store) : FieldListKind → FieldId → Misplaced → Prop
  | struct {id : FieldId} {f : FieldNode} (hf : st.node? id = some f)
    (h : f.embedded ≠ (st.names f.names).isEmpty) :
    IllFormedField st .struct id (.structField f.embedded)
  | param {id : FieldId} {f : FieldNode} (hf : st.node? id = some f) (h : f.embedded = true) :
    IllFormedField st .params id .param

lemma IllFormedField.misplaced {part : Misplaced} (h : st.IllFormedField kind id part)
    (hx : st.readField lines type id = some x) :
    x.misplaced? kind = some part := by
  rw [readField_misplaced? hx]
  cases h with
  | struct hf hne => simp [misplacedField?, fieldNames, hf, hne]
  | param hf hembedded => simp [misplacedField?, hf, hembedded]

lemma readFields_merges {ids ids' : List FieldId} {entries' : List Source.Field}
    (h : Merges (st.IllFormedField kind) parts ids ids')
    (hread : ids'.mapM (st.readField lines type) = some entries') :
    ∃ entries, ids.mapM (st.readField lines type) = some entries ∧
      Merges (fun e part => e.misplaced? kind = some part) parts entries entries' := by
  rw [List.mapM_eq_some_iff] at hread
  induction h generalizing entries' with
  | nil =>
    cases hread
    exact ⟨[], rfl, .nil⟩
  | cons id _ ih =>
    cases hread with
    | cons hx hread =>
      obtain ⟨entries, hentries, hmerges⟩ := ih hread
      refine ⟨_ :: entries, ?_, .cons _ hmerges⟩
      rw [List.mapM_eq_some_iff] at hentries ⊢
      exact .cons hx hentries
  | insert hnew _ ih =>
    cases hread with
    | cons hx hread =>
      obtain ⟨entries, hentries, hmerges⟩ := ih hread
      exact ⟨entries, hentries, .insert (hnew.misplaced hx) hmerges⟩

end Store

/-! ## Specs -/

namespace Source

/-- A spec that declares nothing in a declaration of the given group, and is reported for it. -/
inductive Spec.Malformed : DeclGroup → Spec → Misplaced → Prop
  | misplaced (group : DeclGroup) : Malformed group .misplaced (.spec group)
  | badType : Malformed .types .badType .badType

variable {file : FileId} {g : GeneralDecl} {specs specs' : List Spec}

/-- A spec of another kind does not change the type that is carried on. -/
lemma valueEntries_merges (h : Merges (Spec.Malformed g.group) parts specs specs')
    (hgroup : g.group ≠ .types) (all : List Spec) (carried : String) :
    Merges Entry.Flags parts (valueEntries file g carried specs)
      (valueEntries file { g with specs := all } carried specs') := by
  induction h generalizing carried with
  | nil => exact .nil
  | cons s _ ih =>
    cases s with
    | value s =>
      have hsame (type : String) :
          s.entries file { g with specs := all } type = s.entries file g type := rfl
      rw [valueEntries, valueEntries, hsame]
      exact (Merges.refl _).append (ih _)
    | _ => exact .cons _ (ih carried)
  | insert hnew _ ih =>
    generalize hg : g.group = group at hnew
    cases hnew with
    | misplaced group =>
      subst hg
      exact .insert rfl (ih carried)
    | badType => exact absurd hg hgroup

/-- Malformed specs have no need for documentation. -/
lemma Spec.lacksDoc_merges {group : DeclGroup}
    (h : Merges (Spec.Malformed group) parts specs specs') :
    specs'.any Spec.lacksDoc = specs.any Spec.lacksDoc := by
  induction h with
  | nil => rfl
  | cons s _ ih => rw [List.any_cons, List.any_cons, ih]
  | insert hnew _ ih =>
    rw [List.any_cons, ih]
    cases hnew <;> rfl

lemma GeneralDecl.entries_merges (h : Merges (Spec.Malformed g.group) parts g.specs specs') :
    Merges Entry.Flags parts (g.entries file) ({ g with specs := specs' }.entries file) := by
  obtain ⟨doc, group, grouped, specs⟩ := g
  cases group with
  | imports =>
    simp only [GeneralDecl.entries, List.map_eq_flatMap]
    refine h.flatMap (fun s => by cases s <;> rfl) fun s part hnew => ?_
    cases hnew with
    | misplaced => exact Merges.single rfl
  | types =>
    refine h.flatMap (fun s => by cases s <;> rfl) fun s part hnew => ?_
    cases hnew with
    | misplaced => exact Merges.single rfl
    | badType => exact Merges.single rfl
  | consts => exact valueEntries_merges h (by simp) specs' ""
  | vars => exact valueEntries_merges h (by simp) specs' ""

end Source

/-! ## Storing -/

lemma fileUnder_merges {entries entries' : List Entry}
    (h : Merges Entry.Flags parts entries entries') (seen : List String) :
    Merges Filing.Flags parts (fileUnder seen entries) (fileUnder seen entries') := by
  induction h generalizing seen with
  | nil => exact .nil
  | cons entry _ ih =>
    cases entry with
    | decl d =>
      rw [fileUnder, fileUnder]
      split
      · exact .cons _ (ih _)
      · exact .cons _ (ih seen)
    | imported i => exact .cons _ (ih seen)
    | issue i => exact .cons _ (ih seen)
  | insert hnew _ ih =>
    obtain rfl := hnew
    exact .insert rfl (ih seen)

lemma Filing.Flags.pair?_eq {x : Filing} {part : Misplaced} (h : x.Flags part) : x.pair? = none := by
  rw [h]
  rfl

lemma Filing.Flags.import?_eq {x : Filing} {part : Misplaced} (h : x.Flags part) :
    x.import? = none := by
  rw [h]
  rfl

/-- A report in front of a filing does not change what the filing itself reports: that depends on
the keys that are in use, and these are the same. -/
lemma reports_merges {filings filings' : List Filing}
    (h : Merges Filing.Flags parts filings filings') (before before' : List Filing)
    (hpairs : before'.filterMap Filing.pair? = before.filterMap Filing.pair?)
    (himports : before'.filterMap Filing.import? = before.filterMap Filing.import?) :
    Merges Issue.Flags parts
      (filings.mapBefore fun later => Filing.reports (before ++ later)).flatten
      (filings'.mapBefore fun later => Filing.reports (before' ++ later)).flatten := by
  induction h generalizing before before' with
  | nil => exact .nil
  | cons x _ ih =>
    have hsame : x.reports before' = x.reports before := by
      cases x with
      | decl key d => rw [Filing.reports, Filing.reports, hpairs]
      | imported i => rw [Filing.reports, Filing.reports, himports]
      | issue i => rfl
    rw [List.mapBefore_cons_after, List.mapBefore_cons_after, List.flatten_cons, List.flatten_cons,
      hsame]
    refine (Merges.refl _).append (ih _ _ ?_ ?_)
    · rw [List.filterMap_append, List.filterMap_append, hpairs]
    · rw [List.filterMap_append, List.filterMap_append, himports]
  | insert hnew _ ih =>
    obtain rfl := hnew
    rw [List.mapBefore_cons_after, List.flatten_cons]
    refine .insert rfl (ih _ _ ?_ ?_)
    · rw [List.filterMap_append, hpairs]
      exact List.append_nil _
    · rw [List.filterMap_append, himports]
      exact List.append_nil _

namespace File

/-- The outline `f'` is `f` with the misplaced parts reported. -/
structure Reported (parts : List Misplaced) (f f' : File) : Prop where
  imports : f'.imports = f.imports
  decls : f'.decls = f.decls
  doc : f'.doc = f.doc
  comments : f'.comments = f.comments
  /-- There is one more issue for each part. -/
  issues : Merges Issue.Flags parts f.issues f'.issues

/-- Reports that are stored between other filings are all that they change. -/
lemma Stores.reported {policy : Redeclaration} {blank blank' f f' : File}
    {filings filings' : List Filing} (h : Stores policy blank filings f)
    (h' : Stores policy blank' filings' f') (hmerges : Merges Filing.Flags parts filings filings')
    (hdoc : blank'.doc = blank.doc) (hcomments : blank'.comments = blank.comments)
    (hissues : blank'.issues = blank.issues) : Reported parts f f' := by
  have hpairs := hmerges.filterMap_eq fun _ _ => Filing.Flags.pair?_eq
  have himports := hmerges.filterMap_eq fun _ _ => Filing.Flags.import?_eq
  refine ⟨?_, ?_, ?_, ?_, ?_⟩
  · exact (himports ▸ h'.imports).unique h.imports
  · exact (hpairs ▸ h'.decls).unique h.decls
  · rw [h'.doc, h.doc, hdoc]
  · rw [h'.comments, h.comments, hcomments]
  · rw [h'.issues, h.issues, hissues]
    exact (Merges.refl _).append (reports_merges hmerges [] [] rfl rfl)

end File

/-! ## Trees

Two trees number their nodes in their own ways, and insertions shift the numbers. A declaration of one
tree is that of another if both are read as the same. -/

/-- The spec is of the kind that stands in declarations of the group. -/
def SpecNode.FitsIn : SpecNode → DeclGroup → Prop
  | .imported _, group => group = .imports
  | .value _, group => group = .consts ∨ group = .vars
  | .type _, group => group = .types

namespace Store

variable {st st' : Store} {group : DeclGroup}

/-- A spec that has no place in a declaration of the given group, or that defines a type as one that
could not be understood. -/
inductive MalformedSpec (st : Store) : DeclGroup → SpecNode → Misplaced → Prop
  | kind {group : DeclGroup} {s : SpecNode} (h : ¬s.FitsIn group) :
    MalformedSpec st group s (.spec group)
  | badType {s : TypeSpecNode} (h : st.node? s.type = some .bad) :
    MalformedSpec st .types (.type s) .badType

/-- The specs can be read, and they are the same. Nothing can be inserted inside a spec. -/
def SameSpec (st st' : Store) (group : DeclGroup) (s s' : SpecNode) (inside : List Misplaced) :
    Prop :=
  inside = [] ∧ ∃ x, st.spec? group s = some x ∧ st'.spec? group s' = some x

/-- The declarations are the same, up to malformed specs inside the second one. -/
inductive SameDecl (st st' : Store) : TopDeclNode → TopDeclNode → List Misplaced → Prop
  | same {d d' : TopDeclNode} (h : st'.topDecl? d' = st.topDecl? d) : SameDecl st st' d d' []
  /-- Specs are inserted into a general declaration. What it says besides is the same and can be
  read: a declaration that cannot be read is bad as a whole, whatever specs it has. -/
  | specs {id id' : DeclId} {d d' : GeneralDeclNode} {parts : List Misplaced}
    (hd : st.node? id = some (.general d)) (hd' : st'.node? id' = some (.general d'))
    (hgroup : d'.group = d.group) (hgrouped : d'.grouped = d.grouped)
    (hdoc : st'.optLines? d'.doc = st.optLines? d.doc) (hread : (st.topDecl? (.decl id)).isSome)
    (hspecs : Inserts (st.SameSpec st' d.group) (st'.MalformedSpec d.group) parts
      (st.list d.specs) (st'.list d'.specs)) : SameDecl st st' (.decl id) (.decl id') parts

/-- A declaration that could not be understood. -/
inductive BadDecl (st : Store) : TopDeclNode → Misplaced → Prop
  | intro {id : DeclId} (h : st.node? id = some .bad) : BadDecl st (.decl id) .badDecl

lemma MalformedSpec.spec?_eq {s : SpecNode} {part : Misplaced} (h : st.MalformedSpec group s part) :
    ∃ x, st.spec? group s = some x ∧ Source.Spec.Malformed group x part := by
  cases h with
  | kind h =>
    refine ⟨.misplaced, ?_, .misplaced group⟩
    cases s with
    | imported s =>
      cases group with
      | imports => exact absurd rfl h
      | _ => rfl
    | value s =>
      cases group with
      | consts => exact absurd (.inl rfl) h
      | vars => exact absurd (.inr rfl) h
      | _ => rfl
    | type s =>
      cases group with
      | types => exact absurd rfl h
      | _ => rfl
  | badType h =>
    refine ⟨.badType, ?_, .badType⟩
    simp [spec?, typeSpec?, h]

lemma specs_merges {specs specs' : List SpecNode}
    (h : Inserts (st.SameSpec st' group) (st'.MalformedSpec group) parts specs specs') :
    ∃ xs xs', specs.mapM (st.spec? group) = some xs ∧ specs'.mapM (st'.spec? group) = some xs' ∧
      Merges (Source.Spec.Malformed group) parts xs xs' := by
  simp only [List.mapM_eq_some_iff]
  induction h with
  | nil => exact ⟨[], [], .nil, .nil, .nil⟩
  | keep hkeep _ ih =>
    obtain ⟨rfl, x, hx, hx'⟩ := hkeep
    obtain ⟨xs, xs', hxs, hxs', hmerges⟩ := ih
    exact ⟨x :: xs, x :: xs', .cons hx hxs, .cons hx' hxs', .cons x hmerges⟩
  | insert hnew _ ih =>
    obtain ⟨x, hx, hmalformed⟩ := hnew.spec?_eq
    obtain ⟨xs, xs', hxs, hxs', hmerges⟩ := ih
    exact ⟨xs, x :: xs', hxs, .cons hx hxs', .insert hmalformed hmerges⟩

lemma topDecl?_general {id : DeclId} {d : GeneralDeclNode} {doc : Option Source.Lines}
    {specs : List Source.Spec} (hd : st.node? id = some (.general d))
    (hdoc : st.generalDoc? d specs = some doc)
    (hspecs : (st.list d.specs).mapM (st.spec? d.group) = some specs) :
    st.topDecl? (.decl id) = some (.general ⟨doc, d.group, d.grouped, specs⟩) := by
  simp [topDecl?, hd, hdoc, hspecs]

/-- What a top-level declaration contributes to the outline of its file. -/
def declEntries (st : Store) (file : FileId) (d : TopDeclNode) : List Entry :=
  ((st.topDecl? d).getD .bad).entries file

lemma SameDecl.entries_merges {d d' : TopDeclNode} {inside : List Misplaced}
    (h : st.SameDecl st' d d' inside) (file : FileId) :
    Merges Entry.Flags inside (st.declEntries file d) (st'.declEntries file d') := by
  cases h with
  | same h =>
    rw [declEntries, declEntries, h]
    exact .refl _
  | @specs id id' d d' _ hd hd' hgroup hgrouped hdoc hread hspecs =>
    obtain ⟨xs, xs', hxs, hxs', hmerges⟩ := specs_merges hspecs
    have hsame : st'.generalDoc? d' xs' = st.generalDoc? d xs := by
      rw [generalDoc?, generalDoc?, hgrouped, hdoc, Source.Spec.lacksDoc_merges hmerges]
    obtain ⟨x, hx⟩ := Option.isSome_iff_exists.1 hread
    obtain ⟨hbad, -⟩ | ⟨g, ys, doc, hg, hys, hdoc, rfl⟩ := topDecl?_decl hx
    · simp [hd] at hbad
    obtain rfl := DeclNode.general.inj (Option.some.inj (hd.symm.trans hg))
    obtain rfl := Option.some.inj (hxs.symm.trans hys)
    rw [← hgroup] at hxs'
    rw [declEntries, declEntries, hx, topDecl?_general hd' (hsame.trans hdoc) hxs', hgroup, hgrouped]
    exact Source.GeneralDecl.entries_merges (g := ⟨doc, d.group, d.grouped, xs⟩) hmerges

lemma BadDecl.entries_eq {d : TopDeclNode} {part : Misplaced} (h : st.BadDecl d part)
    (file : FileId) : st.declEntries file d = [.issue (.unexpected part)] := by
  cases h with
  | @intro id h =>
    have hread : st.topDecl? (.decl id) = some .bad := by simp [topDecl?, h]
    rw [declEntries, hread]
    rfl

end Store

namespace Tree

variable {t t' : Tree}

/-- The tree `t'` is `t` with the misplaced parts inserted: declarations that could not be
understood at the top, and malformed specs in general declarations. -/
structure Inserted (parts : List Misplaced) (t t' : Tree) : Prop where
  packageName : t'.packageName = t.packageName
  doc : t'.docLines? t'.root.doc = t.docLines? t.root.doc
  comments : t'.commentGroups.map t'.lines? = t.commentGroups.map t.lines?
  decls : Inserts (t.SameDecl t'.toStore) t'.BadDecl parts t.topDecls t'.topDecls

lemma filings_eq (t : Tree) (file : FileId) :
    t.filings file = fileUnder [] (t.topDecls.flatMap (t.declEntries file)) := by
  rw [filings, sourceFile, List.flatMap_map]
  rfl

lemma Inserted.filings_merges (h : Inserted parts t t') (file : FileId) :
    Merges Filing.Flags parts (t.filings file) (t'.filings file) := by
  rw [filings_eq, filings_eq]
  refine fileUnder_merges (h.decls.flatMap (fun d d' inside hsame => ?_) fun d part hbad => ?_) []
  · exact hsame.entries_merges file
  · rw [hbad.entries_eq file]
    exact Merges.single rfl

lemma sourceFile_comments_eq (h : t'.commentGroups.map t'.lines? = t.commentGroups.map t.lines?) :
    t'.sourceFile.comments = t.sourceFile.comments := by
  have hgetD (t : Tree) : t.sourceFile.comments = (t.commentGroups.map t.lines?).map (·.getD []) := by
    rw [List.map_map]
    rfl
  rw [hgetD, hgetD, h]

lemma Inserted.reported (h : Inserted parts t t') (policy : Redeclaration) (id : FileId)
    (package : String) :
    File.Reported parts (File.ofTree policy id package t) (File.ofTree policy id package t') := by
  refine (File.ofTree_stores policy id package t).reported (File.ofTree_stores policy id package t')
    (h.filings_merges id) ?_ (sourceFile_comments_eq h.comments) ?_
  · exact congrArg (·.getD []) h.doc
  · have hpackage : t'.sourceFile.package = t.sourceFile.package := h.packageName
    simp only [blankOutline, File.packageIssue?, hpackage]

end Tree

/-- Malformed parts are reported, one by one, and change nothing else: neither in the outline of a
file, if they are declarations and specs, nor in the keys and fields of a list, if they are fields of
this list. -/
theorem malformed_contained :
    (∀ (policy : Redeclaration) (id : FileId) (package : String) (t t' : Tree)
      (parts : List Misplaced), t.Inserted parts t' →
      File.Reported parts (File.ofTree policy id package t) (File.ofTree policy id package t')) ∧
    ∀ (st : Store) (type : TypeId → Option Source.TypeExpr) (kind : FieldListKind)
      (ids ids' : List FieldId) (parts : List Misplaced) (entries' : List Source.Field),
      Merges (st.IllFormedField kind) parts ids ids' →
      ids'.mapM (st.readField st.docLines? type) = some entries' →
      ∃ entries, ids.mapM (st.readField st.docLines? type) = some entries ∧
        (outlineFields kind entries').1 = (outlineFields kind entries).1 ∧
        Merges Issue.Flags parts (outlineFields kind entries).2 (outlineFields kind entries').2 := by
  constructor
  · intro policy id package t t' parts h
    exact h.reported policy id package
  · intro st type kind ids ids' parts entries' h hread
    obtain ⟨entries, hentries, hmerges⟩ := Store.readFields_merges h hread
    exact ⟨entries, hentries, collect_merges (fieldItems_merges hmerges 0) ∅⟩

/-- The script of constants and a type, first as they should be and then with malformed parts between
them: a type among the constants, a declaration that could not be understood, and in front of the
type one that could not be understood and a constant. The last steps are fields, one of them
embedded. -/
def Step.malformedParts : List Step :=
  [.named "int", .valueSpec ["a"] (some 0) [], .valueSpec ["b"] none [], .typeSpec "T" 0, .badType,
    .typeSpec "U" 4, .declGroup .consts [1, 2], .declGroup .types [3], .declGroup .consts [1, 3, 2],
    .badDecl, .declGroup .types [5, 1, 3], .field ["x"] 0, .embedded 0, .field [] 0]

theorem malformed_contained_constants :
    ∃ p, (Progress.mk (.start "a.go" "main") #[]).run Step.malformedParts = some p ∧
      let t := p.builder.finish
      let sound : Tree := { t with root.decls := ⟨0, 2⟩ }
      let marred : Tree := { t with root.decls := ⟨2, 3⟩ }
      let parts : List Misplaced := [.spec .consts, .badDecl, .badType, .spec .types]
      sound.Inserted parts marred ∧
      File.Reported parts (File.ofTree .replace ⟨0, 0⟩ "main" sound)
        (File.ofTree .replace ⟨0, 0⟩ "main" marred) ∧
      (File.ofTree .replace ⟨0, 0⟩ "main" marred).decls.keys = ["a", "b", "T"] ∧
      ∃ entries entries', [⟨0⟩, ⟨2⟩].mapM (t.readField t.docLines? t.type?) = some entries ∧
        [⟨0⟩, ⟨1⟩, ⟨2⟩].mapM (t.readField t.docLines? t.type?) = some entries' ∧
        (outlineFields .params entries').1 = (outlineFields .params entries).1 ∧
        (outlineFields .params entries').1.keys = ["x", "int#1"] ∧
        Merges Issue.Flags [.param] (outlineFields .params entries).2
          (outlineFields .params entries').2 := by
  let a : SpecNode := .value ⟨none, ⟨0, 1⟩, some ⟨0⟩, ⟨0, 0⟩⟩
  let b : SpecNode := .value ⟨none, ⟨1, 1⟩, none, ⟨0, 0⟩⟩
  let type : TypeSpecNode := ⟨none, ⟨⟨4⟩, ⟨21, 22⟩⟩, none, none, ⟨0⟩, false⟩
  let badType : TypeSpecNode := ⟨none, ⟨⟨5⟩, ⟨29, 30⟩⟩, none, none, ⟨1⟩, false⟩
  have hrun : ((Progress.mk (.start "a.go" "main") #[]).run Step.malformedParts).any fun p =>
      let t := p.builder.finish
      let decl (i : Nat) : Option DeclNode := t.node? (⟨i⟩ : DeclId)
      let specs (i n : Nat) : List SpecNode := t.list (⟨i, n⟩ : ListRef .specs)
      let tops (i n : Nat) : List TopDeclNode := t.list (⟨i, n⟩ : ListRef .topDecls)
      tops 0 2 = [.decl ⟨0⟩, .decl ⟨1⟩] && tops 2 3 = [.decl ⟨2⟩, .decl ⟨3⟩, .decl ⟨4⟩] &&
      decl 0 = some (.general ⟨none, .consts, true, ⟨0, 2⟩⟩) && specs 0 2 = [a, b] &&
      decl 2 = some (.general ⟨none, .consts, true, ⟨3, 3⟩⟩) && specs 3 3 = [a, .type type, b] &&
      decl 3 = some .bad &&
      decl 1 = some (.general ⟨none, .types, true, ⟨2, 1⟩⟩) && specs 2 1 = [.type type] &&
      decl 4 = some (.general ⟨none, .types, true, ⟨6, 3⟩⟩) &&
      specs 6 3 = [.type badType, a, .type type] && t.node? badType.type = some .bad &&
      (t.topDecl? (.decl ⟨0⟩)).isSome && (t.topDecl? (.decl ⟨1⟩)).isSome &&
      (t.spec? .consts a).isSome && (t.spec? .consts b).isSome &&
      (t.spec? .types (.type type)).isSome && (t.node? (⟨1⟩ : FieldId)).any FieldNode.embedded &&
      (File.ofTree .replace ⟨0, 0⟩ "main" { t with root.decls := ⟨2, 3⟩ }).decls.keys =
        ["a", "b", "T"] &&
      ([⟨0⟩, ⟨1⟩, ⟨2⟩].mapM (t.readField t.docLines? t.type?)).any fun entries' =>
        (outlineFields .params entries').1.keys = ["x", "int#1"] := by
    decide +kernel
  obtain ⟨p, hp, hcheck⟩ := (Option.any_eq_true _ _).1 hrun
  simp only [Bool.and_eq_true, decide_eq_true_eq, Option.any_eq_true, Option.isSome_iff_exists,
    and_assoc] at hcheck
  obtain ⟨hsound, hmarred, hd0, hs0, hd2, hs2, hd3, hd1, hs1, hd4, hs4, hbad, hread0, hread1,
    ⟨xa, ha⟩, ⟨xb, hb⟩, ⟨xt, ht⟩, ⟨f, hf, hembedded⟩, hkeys, entries', hentries', hfields⟩ := hcheck
  refine ⟨p, hp, ?_⟩
  intro t sound marred parts
  have hinserted : sound.Inserted parts marred := by
    refine ⟨rfl, rfl, rfl, ?_⟩
    have hconsts : t.SameDecl t.toStore (.decl ⟨0⟩) (.decl ⟨2⟩) [.spec .consts] := by
      refine .specs hd0 hd2 rfl rfl rfl (Option.isSome_iff_exists.2 hread0) ?_
      rw [hs0, hs2]
      exact .same ⟨rfl, xa, ha, ha⟩ (.insert (.kind (by simp [SpecNode.FitsIn]))
        (.same ⟨rfl, xb, hb, hb⟩ .nil))
    have htypes : t.SameDecl t.toStore (.decl ⟨1⟩) (.decl ⟨4⟩) [.badType, .spec .types] := by
      refine .specs hd1 hd4 rfl rfl rfl (Option.isSome_iff_exists.2 hread1) ?_
      rw [hs1, hs4]
      exact .insert (.badType hbad) (.insert (.kind (by simp [SpecNode.FitsIn, a]))
        (.same ⟨rfl, xt, ht, ht⟩ .nil))
    show Inserts _ _ _ (t.list (⟨0, 2⟩ : ListRef .topDecls)) (t.list (⟨2, 3⟩ : ListRef .topDecls))
    rw [hsound, hmarred]
    exact .keep hconsts (.insert ⟨hd3⟩ (.keep htypes .nil))
  have hill : Merges (t.IllFormedField .params) [.param] [⟨0⟩, ⟨2⟩] [⟨0⟩, ⟨1⟩, ⟨2⟩] :=
    .cons _ (.insert (.param hf hembedded) (.cons _ .nil))
  obtain ⟨htrees, hlists⟩ := malformed_contained
  obtain ⟨entries, hentries, hmap, hissues⟩ :=
    hlists t.toStore t.type? .params _ _ _ entries' hill hentries'
  exact ⟨hinserted, htrees .replace ⟨0, 0⟩ "main" sound marred parts hinserted, hkeys, entries,
    entries', hentries, hentries', hmap, hfields, hissues⟩

end GoOutline
