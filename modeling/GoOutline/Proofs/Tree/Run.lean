/-
# Runs of scripts

What every step does carries over to whole runs: from the step lemma by induction over the steps of
the script. A run is described by its trace, the steps with their results.
-/
import GoOutline.Proofs.Tree.Builder.Step

namespace GoOutline

open Store (Grows)

/-- The steps of a run with their results. -/
abbrev Trace := List (Step × Register)

/-- A step of the trace sets the tag of the field. -/
def Trace.Tags (trace : Trace) (id : FieldId) : Prop :=
  ∃ step : Step, step.setsTag ∧ (step, Register.field id) ∈ trace

/-- The comment groups that the steps of the trace list. -/
def Trace.commentLines (trace : Trace) : List (List String) :=
  trace.flatMap fun e => e.1.commentLines

/-- The tag that the step may have set is not set again in the rest of the trace. -/
def Trace.Spares (rest : Trace) (step : Step) (r : Register) : Prop :=
  ∀ id, step.setsTag → r = .field id → ¬rest.Tags id

namespace Progress

/-- What a run does, given by its trace. -/
structure Ran (p : Progress) (trace : Trace) (p' : Progress) : Prop where
  registers : p'.registers.toList = p.registers.toList ++ trace.map Prod.snd
  grows : Grows True trace.Tags p.builder.toStore p'.builder.toStore
  paced : p.builder.toStore.Paced p'.builder.toStore
  books : Builder.Books True trace.commentLines p.builder p'.builder
  sound : ∀ e ∈ trace, p'.builder.toStore.Sound e.2.refs
  kept : ∀ (before rest : Trace) step r, trace = before ++ (step, r) :: rest → rest.Spares step r →
    step.Kept p'.builder.toStore r

variable {p p₁ p' : Progress} {step : Step} {r : Register} {trace : Trace} {steps : List Step}

lemma Ran.refl (p : Progress) : Ran p [] p where
  registers := by simp
  grows := .refl
  paced := .of_lists rfl (Nat.le_refl _)
  books := .refl True p.builder
  sound := by simp
  kept := by simp

/-- The texts of a step are kept by the steps after it. -/
lemma kept_of_ran (h : step.Kept p.builder.toStore r) (hsound : p.builder.toStore.Sound r.refs)
    (hran : Ran p trace p') (hspare : trace.Spares step r) : step.Kept p'.builder.toStore r := by
  intro st' later
  refine h st' ⟨(hran.grows.weaken (fun _ => trivial) ?_).trans later.grows, later.names,
    later.comments, hsound⟩
  rintro id htag ⟨hset, hr⟩
  exact hspare id hset hr htag

lemma Ran.cons (h : Ran p [(step, r)] p₁) (h' : Ran p₁ trace p') :
    Ran p ((step, r) :: trace) p' where
  registers := by simp [h'.registers, h.registers]
  grows := by
    have hleft : ∀ id, Trace.Tags [(step, r)] id → Trace.Tags ((step, r) :: trace) id := by
      rintro id ⟨s, hs, hmem⟩
      exact ⟨s, hs, List.mem_cons.2 (.inl (List.mem_singleton.1 hmem))⟩
    have hright : ∀ id, trace.Tags id → Trace.Tags ((step, r) :: trace) id := by
      rintro id ⟨s, hs, hmem⟩
      exact ⟨s, hs, List.mem_cons_of_mem _ hmem⟩
    exact (h.grows.weaken id hleft).trans (h'.grows.weaken id hright)
  paced := h.paced.trans h'.paced
  books := by simpa [Trace.commentLines] using h.books.trans h'.books h'.grows
  sound := by
    intro e he
    rcases List.mem_cons.1 he with rfl | he
    · exact h'.grows.sound (h.sound _ (by simp))
    · exact h'.sound e he
  kept := by
    intro before rest step' r' heq hspare
    cases before with
    | nil =>
      obtain ⟨he, rfl⟩ := List.cons.inj heq
      obtain ⟨rfl, rfl⟩ := Prod.mk.inj he
      have hkept := h.kept [] [] step r rfl (by simp [Trace.Spares, Trace.Tags])
      exact kept_of_ran hkept (h.sound (step, r) (by simp)) h' hspare
    | cons e before =>
      obtain ⟨-, rfl⟩ := List.cons.inj heq
      exact h'.kept before rest step' r' rfl hspare

lemma Ran.registers_sound (h : Ran p trace p') (hregs : p.registers.Sound p.builder.toStore) :
    p'.registers.Sound p'.builder.toStore := by
  intro r hr
  rw [← Array.mem_toList_iff, h.registers] at hr
  rcases List.mem_append.1 hr with hr | hr
  · exact h.grows.sound (hregs r (Array.mem_toList_iff.1 hr))
  · obtain ⟨e, he, rfl⟩ := List.mem_map.1 hr
    exact h.sound e he

/-! ## One step -/

/-- A field gets a tag only in a step that has this field as its result. -/
lemma tags_of_action {regs : Registers} {act : Build Register} {b : Builder}
    (h : step.action regs = some act) {id : FieldId} (htag : step.Tags regs id) :
    Trace.Tags [(step, (act b).1)] id := by
  cases step with
  | tag f raw =>
    change regs.one Register.field? f = some id at htag
    simp only [Step.action, htag] at h
    obtain rfl := Option.some.inj h
    exact ⟨.tag f raw, rfl, List.mem_singleton.2 rfl⟩
  | _ => exact htag.elim

lemma ran_of_advance (hregs : p.registers.Sound p.builder.toStore) (h : p.advance step = some p') :
    ∃ r, Ran p [(step, r)] p' := by
  obtain ⟨act, hact, h⟩ := Option.bind_eq_some_iff.1 h
  obtain rfl := Option.some.inj h
  have hadds := Step.does True p.registers p.builder step (fun _ => hregs) act hact
  refine ⟨(act p.builder).1, ?_, ?_, hadds.paced, ?_, ?_, ?_⟩
  · exact Array.toList_push
  · exact hadds.grows.weaken id fun id htag => tags_of_action hact htag
  · simpa [Trace.commentLines] using hadds.books
  · rintro e he
    obtain rfl := List.mem_singleton.1 he
    exact hadds.result.sound trivial
  · intro before rest step' r heq _
    cases before with
    | nil =>
      obtain ⟨he, -⟩ := List.cons.inj heq
      obtain ⟨rfl, rfl⟩ := Prod.mk.inj he
      exact hadds.result.kept
    | cons e before => simp at heq

/-! ## Many steps -/

theorem ran_of_run (hregs : p.registers.Sound p.builder.toStore) (h : p.run steps = some p') :
    ∃ trace : Trace, trace.map Prod.fst = steps ∧ Ran p trace p' := by
  induction steps generalizing p with
  | nil =>
    obtain rfl := Option.some.inj h
    exact ⟨[], rfl, .refl p⟩
  | cons step steps ih =>
    obtain ⟨p₁, hstep, hrest⟩ := Option.bind_eq_some_iff.1 h
    obtain ⟨r, hran⟩ := ran_of_advance hregs hstep
    obtain ⟨trace, rfl, hran'⟩ := ih (hran.registers_sound hregs) hrest
    exact ⟨(step, r) :: trace, rfl, hran.cons hran'⟩

/-- The trace of a run from empty registers pairs the steps with the final registers. -/
lemma Ran.trace_eq (h : Ran p trace p') (hp : p.registers = #[]) :
    (trace.map Prod.fst).zip p'.registers.toList = trace := by
  rw [h.registers, hp]
  exact (List.zip_of_prod rfl rfl).symm

end Progress

/-! ## Beginning and end -/

namespace Builder

variable {c : Prop} {T : FieldId → Prop}

lemma start_adds (path package : String) :
    Adds c T [] { path } (do let _ ← pushText "package"; ident package) fun st i =>
      st.Spells i package :=
  (pushText_adds "package").bind fun _ _ _ _ => ident_adds package

lemma start_grows (path package : String) : Grows c T {} (start path package).toStore :=
  (start_adds path package).grows

lemma start_paced (path package : String) : Store.Paced {} (start path package).toStore :=
  (start_adds (c := True) (T := fun _ => True) path package).paced

lemma start_knows (path package : String) :
    (start path package).toStore.Knows (start path package).packageName package :=
  (start_adds (c := True) (T := fun _ => True) path package).result.symbol

lemma finish_grows (b : Builder) (hdecls : c → ∀ d ∈ b.decls.toList, b.toStore.Sound d.refs)
    (hgroups : c → ∀ g ∈ b.commentGroups.toList, b.toStore.Sound [g.ref]) :
    Grows c T b.toStore b.finish.toStore := by
  have hstep : Grows c T b.toStore
      { b.toStore with lists := b.lists.append .topDecls b.decls.toList } :=
    .list .topDecls b.decls.toList .refl hdecls
  exact hstep.list .commentGroups b.commentGroups.toList fun hc g hg => hstep.sound (hgroups hc g hg)

lemma finish_decls (b : Builder) : b.finish.toStore.Holds b.finish.root.decls b.decls.toList := by
  refine ⟨b.lists.topDecls.toList, [], ?_, ?_⟩
  · show (b.lists.topDecls.appendList b.decls.toList).toList = _
    simp
  · simp [finish, Lists.push, Lists.buffer]

lemma finish_comments (b : Builder) :
    b.finish.toStore.Holds b.finish.root.comments b.commentGroups.toList := by
  refine ⟨b.lists.commentGroups.toList, [], ?_, ?_⟩
  · show (b.lists.commentGroups.appendList b.commentGroups.toList).toList = _
    simp
  · simp [finish, Lists.push, Lists.buffer, Lists.append]

end Builder

/-! ## Complete runs -/

namespace Progress

variable {path package : String} {p : Progress} {trace : Trace} {T : FieldId → Prop}

lemma ran_of_start {steps : List Step}
    (h : (Progress.mk (.start path package) #[]).run steps = some p) :
    (steps.zip p.registers.toList).map Prod.fst = steps ∧
      Ran ⟨.start path package, #[]⟩ (steps.zip p.registers.toList) p := by
  have hregs : Registers.Sound #[] (Builder.start path package).toStore := by
    simp [Registers.Sound]
  obtain ⟨trace, rfl, hran⟩ := ran_of_run hregs h
  rw [hran.trace_eq rfl]
  exact ⟨rfl, hran⟩

variable (h : Ran ⟨.start path package, #[]⟩ trace p)
include h

/-- The groups listed in a complete run have the lines of its steps. -/
lemma Ran.groups_lined :
    List.Forall₂ p.builder.toStore.Lined p.builder.commentGroups.toList trace.commentLines := by
  obtain ⟨gs, hgs, hlines⟩ := h.books.groups
  rw [hgs]
  exact hlines

lemma Ran.decls_sound : ∀ d ∈ p.builder.decls.toList, p.builder.toStore.Sound d.refs := by
  obtain ⟨ds, hds, hsound⟩ := h.books.decls
  rw [hds]
  exact hsound trivial

lemma Ran.documents : p.builder.toStore.Documents p.builder.doc := by
  rcases h.books.doc with hdoc | hdoc
  · rw [hdoc]
    exact p.builder.toStore.documents_none
  · exact hdoc

lemma Ran.finish_grows : Grows True T p.builder.toStore p.builder.finish.toStore := by
  refine Builder.finish_grows p.builder (fun _ => h.decls_sound) fun _ g hg => ?_
  obtain ⟨lines, -, hlines⟩ := h.groups_lined.exists_of_mem hg
  simpa using hlines.sound

/-- The finished tree has grown from nothing. -/
lemma Ran.tree_grows : Grows True (fun _ => True) {} p.builder.finish.toStore :=
  ((Builder.start_grows path package).trans (h.grows.weaken id fun _ _ => trivial)).trans
    h.finish_grows

lemma Ran.tree_knows :
    p.builder.finish.toStore.Knows p.builder.finish.root.packageName package := by
  have hknow := h.finish_grows (T := fun _ => True) |>.knows
    (h.grows.knows (Builder.start_knows path package))
  rw [← h.books.packageName] at hknow
  exact hknow

/-- In a complete run there are at most as many names and as many comments as bytes. -/
lemma Ran.size_le (l : ListSort) (hl : l.written) :
    (p.builder.lists.buffer l).size ≤ p.builder.source.utf8ByteSize := by
  have hpaced := ((Builder.start_paced path package).trans h.paced) l hl
  have hempty : ((({} : Store).lists).buffer l).size = 0 := by cases l <;> rfl
  rw [hempty] at hpaced
  simpa using hpaced

end Progress

end GoOutline
