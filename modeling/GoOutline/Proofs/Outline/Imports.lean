/-
# The imports of a file

The outline of a file lists its import specs by path. The first spec of a path is kept, each later
one is reported, and the order is that of the source. A path is written in quotes, and without them
it is the path that a builder was handed, whatever characters it has.
-/
import GoOutline.Proofs.Outline.Declarations
import GoOutline.Proofs.Outline.Selectors

namespace GoOutline

/-! ## Quotes -/

lemma insideQuotes_quoted (q : Char) (cs : List Char) : insideQuotes q (q :: cs ++ [q]) = some cs := by
  simp [insideQuotes]

lemma unquote_quoted (path : String) : unquote ("\"" ++ path ++ "\"") = path := by
  have hlist : ("\"" ++ path ++ "\"").toList = '"' :: path.toList ++ ['"'] := by simp
  rw [unquote, hlist, insideQuotes_quoted]
  simp

/-! ## Specs -/

namespace Store

/-- An import spec with the declaration it stands in. -/
structure ImportSite where
  decl : GeneralDeclNode
  spec : ImportSpecNode

/-- The import spec among the specs of an import declaration. -/
def importSite? (g : GeneralDeclNode) : SpecNode → Option ImportSite
  | .imported s => some ⟨g, s⟩
  | _ => none

/-- The import specs of a top-level declaration. -/
def declImports (st : Store) : TopDeclNode → List ImportSite
  | .func _ => []
  | .decl id =>
    match (st.node? id : Option DeclNode) with
    | some (.general g) =>
      if g.group = .imports then (st.list g.specs).filterMap (importSite? g) else []
    | _ => []

/-- The import is the outline of the spec. A spec that stands alone and is without documentation
has that of its declaration. -/
structure OutlinesImport (st : Store) (x : ImportSite) (i : Import) : Prop where
  name : i.name = st.importName x.spec.name
  path : i.path = unquote (st.text x.spec.path)
  doc : st.docLines? (x.spec.doc.or (if x.decl.grouped then none else x.decl.doc)) = some i.doc
  comment : st.docLines? x.spec.comment = some i.comment

end Store

/-- The import of an entry. -/
def Entry.imported? : Entry → Option Import
  | .imported i => some i
  | _ => none

lemma filterMap_imported?_issues (issues : List Issue) :
    (issues.map Entry.issue).filterMap Entry.imported? = [] :=
  List.filterMap_eq_nil_iff.2 fun e he => by
    obtain ⟨i, -, rfl⟩ := List.mem_map.1 he
    rfl

namespace Source

/-- Only import declarations contribute imports. -/
lemma valueEntries_imports (file : FileId) (g : GeneralDecl) (carried : String)
    (specs : List Spec) : (valueEntries file g carried specs).filterMap Entry.imported? = [] := by
  induction specs generalizing carried with
  | nil => rfl
  | cons s specs ih =>
    cases s with
    | value s =>
      have hdecls : (s.entries file g (s.type.elim carried TypeExpr.text)).filterMap
          Entry.imported? = [] := by
        rw [ValueSpec.entries, List.filterMap_append, filterMap_imported?_issues, List.nil_append,
          List.filterMap_map]
        exact List.filterMap_eq_nil_iff.2 fun _ _ => rfl
      rw [valueEntries, List.filterMap_append, hdecls, ih, List.nil_append]
    | _ => exact ih carried

lemma GeneralDecl.entries_imports {g : GeneralDecl} (h : g.group ≠ .imports) (file : FileId) :
    (g.entries file).filterMap Entry.imported? = [] := by
  cases hgroup : g.group with
  | imports => exact absurd hgroup h
  | types =>
    simp only [entries, hgroup, List.filterMap_flatMap]
    refine List.flatMap_eq_nil_iff.2 fun s _ => ?_
    cases s with
    | type s =>
      rw [typeEntries, TypeSpec.entries, List.filterMap_append, filterMap_imported?_issues]
      rfl
    | _ => rfl
  | consts => simp only [entries, hgroup, valueEntries_imports]
  | vars => simp only [entries, hgroup, valueEntries_imports]

end Source

namespace Store

variable {st : Store} {file : FileId}

/-- What is looked up for a spec is its documentation in the outline. That of the declaration is read
if there is a spec which lacks its own. -/
lemma docLines?_specDoc {g : GeneralDeclNode} {specs : List Source.Spec}
    {whole doc : Option Source.Lines} (hwhole : st.generalDoc? g specs = some whole)
    {own : Option CommentGroupId} (hdoc : st.optLines? own = some doc)
    (hlacks : doc = none → specs.any Source.Spec.lacksDoc) (group : DeclGroup) :
    st.docLines? (own.or (if g.grouped then none else g.doc)) =
      some (Source.GeneralDecl.specDoc ⟨whole, group, g.grouped, specs⟩ doc) := by
  cases own with
  | some id =>
    obtain ⟨lines, hlines, rfl⟩ := Option.map_eq_some_iff.1 hdoc
    simp [docLines?, optLines?, hlines, Source.GeneralDecl.specDoc]
  | none =>
    obtain rfl : none = doc := Option.some.inj hdoc
    cases hgrouped : g.grouped with
    | true => simp [docLines?, optLines?, Source.GeneralDecl.specDoc]
    | false =>
      rw [generalDoc?, hgrouped, hlacks rfl] at hwhole
      simp only [Bool.not_false, Bool.and_self, if_true] at hwhole
      simp [docLines?, hwhole, Source.GeneralDecl.specDoc]

lemma importSpec?_outlines {g : GeneralDeclNode} {s : ImportSpecNode} {x : Source.ImportSpec}
    (hx : st.importSpec? s = some x) {specs : List Source.Spec} {whole : Option Source.Lines}
    (hwhole : st.generalDoc? g specs = some whole) (hmem : .imported x ∈ specs) (group : DeclGroup) :
    ∃ i, x.entry ⟨whole, group, g.grouped, specs⟩ = .imported i ∧ st.OutlinesImport ⟨g, s⟩ i := by
  obtain ⟨own, hown, hx⟩ := Option.bind_eq_some_iff.1 hx
  obtain ⟨comment, hcomment, hx⟩ := Option.bind_eq_some_iff.1 hx
  obtain rfl := Option.some.inj hx
  refine ⟨_, rfl, rfl, rfl, docLines?_specDoc hwhole hown (fun hnone => ?_) group, hcomment⟩
  exact List.any_eq_true.2 ⟨_, hmem, by simp [Source.Spec.lacksDoc, hnone]⟩

/-- The imports of a declaration are the outlines of its specs. -/
lemma topDecl?_imports {d : TopDeclNode} {x : Source.TopDecl} (hx : st.topDecl? d = some x) :
    List.Forall₂ st.OutlinesImport (st.declImports d)
      ((x.entries file).filterMap Entry.imported?) := by
  cases d with
  | func id =>
    obtain ⟨f, hf, rfl⟩ := topDecl?_func hx
    have hnone : ((Source.TopDecl.func f).entries file).filterMap Entry.imported? = [] := by
      rw [Source.TopDecl.entries, Source.FuncDecl.entries, List.filterMap_append,
        filterMap_imported?_issues]
      rfl
    rw [hnone]
    exact .nil
  | decl id =>
    obtain ⟨hnode, rfl⟩ | ⟨g, specs, whole, hnode, hspecs, hwhole, rfl⟩ := topDecl?_decl hx
    · simp only [declImports, hnode]
      exact .nil
    · simp only [declImports, hnode]
      -- only a declaration of imports is asked for its import specs
      by_cases hgroup : g.group = .imports
      · have hspecs := (List.mapM_eq_some_iff.1 hspecs).mem_right
        rw [if_pos hgroup, Source.TopDecl.entries]
        simp only [Source.GeneralDecl.entries, hgroup, List.filterMap_map] at hspecs ⊢
        -- specs and their readings correspond, and so do those of them that are imports
        refine List.rel_filterMap ?_ hspecs
        rintro s x ⟨hmem, hx⟩
        cases s with
        | imported s =>
          obtain ⟨y, hy, hx⟩ := Option.bind_eq_some_iff.1 hx
          obtain rfl := Option.some.inj hx
          obtain ⟨i, hi, houtlines⟩ := importSpec?_outlines hy hwhole hmem .imports
          simp only [importSite?, Function.comp_apply, hi]
          exact .some houtlines
        | _ =>
          obtain rfl := Option.some.inj hx
          exact .none
      · rw [if_neg hgroup, Source.TopDecl.entries, Source.GeneralDecl.entries_imports hgroup]
        exact .nil

end Store

/-! ## Paths -/

lemma fileUnder_imports (entries : List Entry) (seen : List String) :
    (fileUnder seen entries).filterMap Filing.import? =
      (entries.filterMap Entry.imported?).map fun i => (i.path, i) := by
  -- the keys that have been seen matter to declarations only
  induction entries generalizing seen with
  | nil => rfl
  | cons entry entries ih =>
    cases entry with
    | decl d =>
      rw [fileUnder]
      split
      · exact ih (d.key :: seen)
      · exact ih seen
    | imported i => exact congrArg ((i.path, i) :: ·) (ih seen)
    | issue i => exact ih seen

/-- One issue for each path that has come before. -/
def pathReports (paths : List String) : List Issue :=
  (paths.mapBefore fun before path => if path ∈ before then [.redeclared path] else []).flatten

/-- The issues that imports add when filings are stored. -/
def importReports (filings : List Filing) : List Issue :=
  (filings.mapBefore fun before x => if x.import?.isSome then x.reports before else []).flatten

lemma importReports_eq (filings : List Filing) :
    importReports filings = pathReports ((filings.filterMap Filing.import?).map Prod.fst) := by
  -- what a filing adds depends on the earlier ones, of which the reports of an import see the imports
  induction filings using List.reverseRecOn with
  | nil => rfl
  | append_singleton filings x ih =>
    have hleft : importReports (filings ++ [x]) =
        importReports filings ++ if x.import?.isSome then x.reports filings else [] := by
      simp [importReports, List.mapBefore_concat]
    rw [hleft, ih, List.filterMap_append]
    cases x with
    | imported i =>
      have hright : [Filing.imported i].filterMap Filing.import? = [(i.path, i)] := rfl
      simp [hright, pathReports, List.mapBefore_concat, Filing.reports, Filing.import?]
    | decl key d =>
      have hright : [Filing.decl key d].filterMap Filing.import? = [] := rfl
      simp [hright, Filing.import?]
    | issue i =>
      have hright : [Filing.issue i].filterMap Filing.import? = [] := rfl
      simp [hright, Filing.import?]

namespace Tree

/-- The import specs of a tree in source order, without the declarations that cannot be read. -/
def importSpecs (t : Tree) : List Store.ImportSite :=
  (t.topDecls.filter fun d => (t.topDecl? d).isSome).flatMap t.declImports

/-- The imports of a tree. -/
def importEntries (t : Tree) (file : FileId) : List Import :=
  (t.sourceFile.decls.flatMap (Source.TopDecl.entries file)).filterMap Entry.imported?

lemma filings_imports (t : Tree) (file : FileId) :
    (t.filings file).filterMap Filing.import? = (t.importEntries file).map fun i => (i.path, i) :=
  fileUnder_imports _ []

lemma importEntries_outlines (t : Tree) (file : FileId) :
    List.Forall₂ t.OutlinesImport t.importSpecs (t.importEntries file) := by
  rw [importEntries, importSpecs, Tree.sourceFile, List.filterMap_flatMap, List.flatMap_map]
  induction t.topDecls with
  | nil => exact .nil
  | cons d ds ih =>
    rw [List.flatMap_cons]
    cases hx : t.topDecl? d with
    | none =>
      -- what cannot be read is left out on both sides
      rw [List.filter_cons_of_neg (by simp [hx])]
      exact ih
    | some x =>
      rw [List.filter_cons_of_pos (by simp [hx]), List.flatMap_cons]
      exact List.rel_append (Store.topDecl?_imports hx) ih

/-- The outline `f` of the tree lists the import specs by path. -/
structure ListsImports (t : Tree) (id : FileId) (package : String) (f : File) : Prop where
  /-- The first spec of each path is kept, in source order, and the later ones are reported. -/
  specs : ∃ imports, List.Forall₂ t.OutlinesImport t.importSpecs imports ∧
    f.imports.Lists OrderedMap.firstValue? (imports.map fun i => (i.path, i)) ∧
    importReports (t.filings id) = pathReports (imports.map Import.path)
  issues : f.issues = (File.packageIssue? package t.sourceFile).toList ++
    ((t.filings id).mapBefore Filing.reports).flatten

lemma ofTree_listsImports (t : Tree) (policy : Redeclaration) (id : FileId) (package : String) :
    t.ListsImports id package (File.ofTree policy id package t) := by
  have hstores := File.ofTree_stores policy id package t
  have himports := hstores.imports
  rw [t.filings_imports id] at himports
  refine ⟨⟨t.importEntries id, t.importEntries_outlines id, himports, ?_⟩, hstores.issues⟩
  rw [importReports_eq, t.filings_imports id, List.map_map]
  rfl

end Tree

/-! ## Built specs -/

namespace Progress

variable {path package target : String} {name : Option String} {before rest : List Step}
  {p : Progress}

/-- The path of a spec that a script has built stands in quotes in the finished tree. -/
lemma importSpec_text
    (h : (Progress.mk (.start path package) #[]).run (before ++ .importSpec name target :: rest) =
      some p) :
    ∃ s, p.registers[before.length]? = some (.spec (.imported s)) ∧
      p.builder.finish.text s.path = "\"" ++ target ++ "\"" := by
  have hregs : Registers.Sound #[] (Builder.start path package).toStore := by
    simp [Registers.Sound]
  obtain ⟨-, hall⟩ := ran_of_start h
  -- the run up to the step, the step, and the run after it
  rw [run, List.foldlM_append] at h
  obtain ⟨p₁, hbefore, h⟩ := Option.bind_eq_some_iff.1 h
  rw [List.foldlM_cons] at h
  obtain ⟨p₂, hstep, hrest⟩ := Option.bind_eq_some_iff.1 h
  obtain ⟨trace, htrace, hran⟩ := ran_of_run hregs hbefore
  have hregs₁ := hran.registers_sound hregs
  obtain ⟨r, hran₁⟩ := ran_of_advance hregs₁ hstep
  obtain ⟨trace', -, hran₂⟩ := ran_of_run (hran₁.registers_sound hregs₁) hrest
  have hp₂ : p₂ = ⟨(Builder.importSpec name target p₁.builder).2,
      p₁.registers.push (.spec (Builder.importSpec name target p₁.builder).1)⟩ :=
    (Option.some.inj hstep).symm
  obtain ⟨n, sp, hspec, -, hcut⟩ := (Builder.importSpec_adds (c := True) (T := fun _ => True)
    (b := p₁.builder) name target).result
  refine ⟨⟨none, n, sp, none⟩, ?_, ?_⟩
  · have hlength : before.length = p₁.registers.size := by
      have hlen := congrArg List.length hran.registers
      rw [← htrace]
      simpa using hlen.symm
    rw [← Array.getElem?_toList, hran₂.registers, hp₂, hlength, hspec]
    simp
  · have hcut₂ : sp.Cuts p₂.builder.source ("\"" ++ target ++ "\"") := by
      rw [hp₂]
      exact hcut
    exact (hall.finish_grows (T := fun _ => True) |>.cuts (hran₂.grows.cuts hcut₂)).text_eq

/-- The finished tree keeps the imports that the steps have built: all its declarations can be read,
and the paths of the specs are those that the steps were handed. -/
structure KeepsImports (steps : List Step) (p : Progress) : Prop where
  readable : ∀ d ∈ p.builder.finish.topDecls, (p.builder.finish.topDecl? d).isSome
  paths : ∀ before name target rest, steps = before ++ .importSpec name target :: rest →
    ∃ s, p.registers[before.length]? = some (.spec (.imported s)) ∧
      unquote (p.builder.finish.text s.path) = target

lemma keepsImports_of_run {steps : List Step}
    (h : (Progress.mk (.start path package) #[]).run steps = some p) : p.KeepsImports steps := by
  refine ⟨topDecl?_finish h, ?_⟩
  rintro before name target rest rfl
  obtain ⟨s, hs, htext⟩ := importSpec_text h
  refine ⟨s, hs, ?_⟩
  rw [htext, unquote_quoted]

end Progress

/-! ## Selectors -/

namespace File

/-- A selector refers to an import of the file that binds its package side. -/
structure ResolvesSelectors (f : File) : Prop where
  no_dot : ∀ selector, '.' ∉ selector.toList → f.resolveImport selector = none
  empty_side : ∀ pkg name, '.' ∉ pkg.toList → pkg = "" ∨ name = "" →
    f.resolveImport (pkg ++ "." ++ name) = none
  resolves : ∀ selector pkg, Selects selector pkg →
    Resolves f.imports.values pkg (f.resolveImport selector)
  boundName : ∀ selector pkg i, Selects selector pkg → f.resolveImport selector = some i →
    i.boundName = pkg
  isSome_iff : ∀ selector pkg, Selects selector pkg →
    ((f.resolveImport selector).isSome = true ↔ ∃ i ∈ f.imports.values, i.Binds pkg)

lemma resolvesSelectors (f : File) : f.ResolvesSelectors where
  no_dot selector h := by rw [resolveImport, GoOutline.resolveImport, splitSelector_of_no_dot h]; rfl
  empty_side pkg name h hempty := by
    rw [resolveImport, GoOutline.resolveImport, splitSelector_of_empty_side h hempty]
    rfl
  resolves _ _ h := h.resolves
  boundName selector pkg i h hi := by
    have hfound : Resolves f.imports.values pkg (f.resolveImport selector) := h.resolves
    rw [hi] at hfound
    exact hfound.found.2.name
  isSome_iff _ _ h := h.resolves.isSome_iff

end File

/-- Imports from the source to the selectors: the outline of every tree lists its import specs by
path, built specs have the paths that were asked for, and every selector is resolved through the
names that the imports bind. -/
theorem imports_resolved :
    (∀ (t : Tree) policy id package,
      t.ListsImports id package (File.ofTree policy id package t)) ∧
    (∀ path package steps p, (Progress.mk (.start path package) #[]).run steps = some p →
      p.KeepsImports steps) ∧
    ∀ f : File, f.ResolvesSelectors :=
  ⟨Tree.ofTree_listsImports, fun _ _ _ _ => Progress.keepsImports_of_run, File.resolvesSelectors⟩

/-- The script of an import declaration with a versioned path, a path that ends in the same segment
and is given twice, and a path under another name. -/
def Step.versionedImports : List Step :=
  [.importSpec none "example/foo/v2", .importSpec none "foo", .importSpec (some "f") "foo",
    .importSpec (some "v2") "yaml.v3", .declGroup .imports [0, 1, 2, 3]]

theorem imports_resolved_versioned :
    ∃ p, (Progress.mk (.start "a.go" "main") #[]).run Step.versionedImports = some p ∧
      let f := File.ofTree .replace ⟨0, 0⟩ "main" p.builder.finish
      (f.resolveImport "foo.Bar").map Import.path = some "foo" ∧
      (f.resolveImport "v2.Bar").map Import.path = some "yaml.v3" ∧
      f.issues = [.redeclared "foo"] ∧
      Resolves f.imports.values "foo" (f.resolveImport "foo.Bar") ∧
      (∃ s, p.registers[0]? = some (.spec (.imported s)) ∧
        unquote (p.builder.finish.text s.path) = "example/foo/v2") ∧
      p.builder.finish.ListsImports ⟨0, 0⟩ "main" f := by
  have hrun : ((Progress.mk (.start "a.go" "main") #[]).run Step.versionedImports).any fun p =>
      let f := File.ofTree .replace ⟨0, 0⟩ "main" p.builder.finish
      (f.resolveImport "foo.Bar").map Import.path == some "foo" &&
        (f.resolveImport "v2.Bar").map Import.path == some "yaml.v3" &&
        decide (f.issues = [.redeclared "foo"]) := by
    decide +kernel
  obtain ⟨p, hp, hcheck⟩ := (Option.any_eq_true _ _).1 hrun
  simp only [Bool.and_eq_true, beq_iff_eq, decide_eq_true_eq] at hcheck
  obtain ⟨hlists, hkeeps, hresolves⟩ := imports_resolved
  refine ⟨p, hp, hcheck.1.1, hcheck.1.2, hcheck.2, ?_, ?_, hlists _ _ _ _⟩
  · refine (hresolves _).resolves "foo.Bar" "foo" ⟨by decide, by decide, "Bar", by decide, ?_⟩
    decide
  · exact (hkeeps _ _ _ _ hp).paths [] none "example/foo/v2" _ rfl

end GoOutline
