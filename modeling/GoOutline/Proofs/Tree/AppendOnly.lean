/-
# Building only appends

Ids, spans, symbols and list references are handed out while a tree is built, and they stay in use
until the tree is finished. So no step may disturb what earlier steps have left behind: it appends
to the source, the arenas, the buffers and the symbol table. Five steps also change one node that is
there, each in one place: the tag, the documentation or the comment of a field, the documentation of
a declaration or of a function. What one step does carries over to runs by induction on the script.

The declarations of the finished tree are those that the steps declared, in the order of the script.
-/
import GoOutline.Proofs.Tree.Builder.Frame
import GoOutline.Proofs.Tree.Order
import GoOutline.Proofs.Tree.Run

namespace GoOutline

open Store (Grows)

/-! ## Stores -/

namespace Store

variable {s t : NodeSort} {l : ListSort} {c : Prop} {T : FieldId → Prop} {a b : Store}

/-- What the store `a` holds beside its nodes is found in `b` where it was. -/
structure Keeps (a b : Store) : Prop where
  source : ∃ more, b.source = a.source ++ more
  names : ∀ sym name, a.Knows sym name → b.Knows sym name
  spans : ∀ (s : NodeSort) (id : Id s) sp, a.span? id = some sp → b.span? id = some sp
  lists : ∀ (l : ListSort) (r : ListRef l), r.ref.In a → b.list r = a.list r

lemma Grows.keeps (h : Grows c T a b) : a.Keeps b :=
  ⟨h.source_eq, fun _ _ => h.knows, fun _ _ _ => h.span?, fun _ _ => h.list_eq⟩

lemma node?_edit_self (st : Store) {id : Id s} (f : s.Node → s.Node) {n : s.Node}
    (h : st.node? id = some n) : (st.edit id f).node? id = some (f n) := by
  have hn : (st.nodes.arena s).node? id.index = some n := h
  show ((st.nodes.modify s (·.modify id.index f)).arena s).node? id.index = some (f n)
  rw [Nodes.arena_modify, Arena.node?_modify, if_pos rfl, hn]
  rfl

lemma node?_edit_of_ne (st : Store) {id : Id s} (f : s.Node → s.Node) {id' : Id t}
    (h : id.ref ≠ id'.ref) : (st.edit id f).node? id' = st.node? id' := by
  show ((st.nodes.modify s (·.modify id.index f)).arena t).node? id'.index = _
  by_cases hst : t = s
  · subst hst
    have hindex : id.index ≠ id'.index := by
      intro heq
      obtain rfl : id = id' := by
        cases id
        cases id'
        exact congrArg Id.mk heq
      exact h rfl
    rw [Nodes.arena_modify, Arena.node?_modify, if_neg hindex]
    rfl
  · rw [Nodes.arena_modify_of_ne _ hst]
    rfl

/-- A list reference of two 32-bit numbers covers nothing if it does not lie inside its buffer. It
covers nothing either if the sum of the numbers takes more than 32 bits. -/
lemma list_eq_nil (st : Store) {r : ListRef l} (hstart : r.start < UInt32.size)
    (hlength : r.length < UInt32.size)
    (h : ¬r.ref.In st ∨ UInt32.size ≤ r.start + r.length) : st.list r = [] := by
  have hnot : ¬(r.start ≤ r.stop ∧ r.stop ≤ (st.lists.buffer l).size) := by
    rintro ⟨horder, hstop⟩
    by_cases hwrap : UInt32.size ≤ r.start + r.length
    · -- the sum has lost its carry and is now smaller than the start
      have hsum : r.stop = r.start + r.length - UInt32.size := by
        rw [ListRef.stop, Nat.mod_eq_sub_mod hwrap]
        exact Nat.mod_eq_of_lt (by omega)
      omega
    · have hsum : r.stop = r.start + r.length := Nat.mod_eq_of_lt (by omega)
      rcases h with h | h
      · exact h (show r.start + r.length ≤ _ by omega)
      · exact hwrap h
  rw [list_eq, if_neg hnot]

end Store

/-! ## One step -/

namespace Step

open Registers Builder

/-- What a step makes of the node that it is to change. A declaration that could not be understood
has no documentation and stays as it is. -/
inductive Alters (st : Store) : Step → {s : NodeSort} → s.Node → s.Node → Prop
  | tag {i : Nat} {raw : String} {f : FieldNode} {sp : Span} (hraw : sp.Cuts st.source raw) :
    Alters st (.tag i raw) (s := .field) f { f with tag := some sp }
  | fieldDoc {i : Nat} {lines : List String} {f : FieldNode} {doc : Option CommentGroupId}
    (hdoc : st.DocLined doc lines) : Alters st (.fieldDoc i lines) (s := .field) f { f with doc }
  | fieldComment {i : Nat} {lines : List String} {f : FieldNode} {comment : Option CommentGroupId}
    (hdoc : st.DocLined comment lines) :
    Alters st (.fieldComment i lines) (s := .field) f { f with comment }
  | declDoc {i : Nat} {lines : List String} {d : GeneralDeclNode} {doc : Option CommentGroupId}
    (hdoc : st.DocLined doc lines) :
    Alters st (.declDoc i lines) (s := .decl) (.general d) (.general { d with doc })
  | badDecl {i : Nat} {lines : List String} :
    Alters st (.declDoc i lines) (s := .decl) .bad .bad
  | funcDoc {i : Nat} {lines : List String} {f : FuncNode} {doc : Option CommentGroupId}
    (hdoc : st.DocLined doc lines) : Alters st (.funcDoc i lines) (s := .func) f { f with doc }

/-- What a step leaves of all that is there, and what it adds to the declarations. -/
structure Frames (step : Step) (p p' : Progress) : Prop where
  store : p.builder.toStore.Keeps p'.builder.toStore
  others : ∀ (s : NodeSort) (id : Id s) n, p.builder.node? id = some n →
    step.target? p.registers ≠ some id.ref → p'.builder.node? id = some n
  named : ∀ (s : NodeSort) (id : Id s) n, p.builder.node? id = some n →
    step.target? p.registers = some id.ref →
      ∃ n', p'.builder.node? id = some n' ∧ step.Alters p'.builder.toStore n n'
  result : ∃ r ds, p'.registers = p.registers.push r ∧ step.AddsDecls r ds ∧
    p'.builder.decls.toList = p.builder.decls.toList ++ ds
  buffer : p'.builder.lists.topDecls = p.builder.lists.topDecls

variable {step : Step} {p p' : Progress}

/-- A script advances by the action of its step, whose result goes into the next register. -/
lemma exists_action (h : p.advance step = some p') : ∃ act, step.action p.registers = some act ∧
    p' = ⟨(act p.builder).2, p.registers.push (act p.builder).1⟩ := by
  obtain ⟨act, hact, h⟩ := Option.bind_eq_some_iff.1 h
  exact ⟨act, hact, (Option.some.inj h).symm⟩

lemma grows_of_advance (h : p.advance step = some p') :
    Grows False (fun _ => True) p.builder.toStore p'.builder.toStore := by
  obtain ⟨act, hact, rfl⟩ := exists_action h
  have hadds := Step.does False p.registers p.builder step False.elim act hact
  exact hadds.grows.weaken id fun _ _ => trivial

/-- A step that changes no node. -/
lemma frames_of_appending {act : Build Register} (htarget : step.target? p.registers = none)
    (hstep : step.Appending (some act)) (hkeeps : p.builder.toStore.Keeps p'.builder.toStore)
    (hp' : p' = ⟨(act p.builder).2, p.registers.push (act p.builder).1⟩) : step.Frames p p' := by
  subst hp'
  obtain ⟨ds, hact, hds⟩ := hstep act rfl
  refine ⟨hkeeps, fun s id n hn _ => hact.nodes p.builder id n hn, fun s id n _ ht => ?_,
    ⟨_, _, rfl, hds p.builder, hact.decls p.builder⟩, hact.buffer p.builder⟩
  rw [htarget] at ht
  simp at ht

/-- A step that appends and then changes one node. -/
lemma frames_of_edit {s : NodeSort} {id : Id s} {α : Type} {m : Build α} {f : s.Node → s.Node}
    {r : Register} (hm : Plain m) (hkeeps : p.builder.toStore.Keeps p'.builder.toStore)
    (hp' : p' = ⟨(update id f (m p.builder).2).2, p.registers.push r⟩)
    (htarget : step.target? p.registers = some id.ref) (hr : step.AddsDecls r [])
    (halters : ∀ n, step.Alters ((m p.builder).2.toStore.edit id f) n (f n)) :
    step.Frames p p' := by
  subst hp'
  refine ⟨hkeeps, fun t id' n hn hne => ?_, fun t id' n hn ht => ?_,
    ⟨r, [], rfl, hr, hm.decls p.builder⟩, hm.buffer p.builder⟩
  · have hold := hm.nodes p.builder id' n hn
    rw [htarget] at hne
    exact (Store.node?_edit_of_ne _ _ fun heq => hne (congrArg some heq)).trans hold
  · have hid : Reference.node s id = Reference.node t id' := Option.some.inj (htarget.symm.trans ht)
    cases hid
    exact ⟨_, Store.node?_edit_self _ _ (hm.nodes p.builder id n hn), halters n⟩

/-- The lines of a comment group are still there after the group was attached to a node. -/
lemma docLined_edit {s : NodeSort} (id : Id s) {f : s.Node → s.Node} (lines : List String)
    (b : Builder) (hf : Store.SetsDoc (commentGroup? lines b).1 s f) :
    ((commentGroup? lines b).2.toStore.edit id f).DocLined (commentGroup? lines b).1 lines := by
  have hdoc : (commentGroup? lines b).2.toStore.DocLined (commentGroup? lines b).1 lines :=
    (commentGroup?_adds (c := False) (T := fun _ => False) lines).result
  have hgrows : Grows False (fun _ => False) (commentGroup? lines b).2.toStore
      ((commentGroup? lines b).2.toStore.edit id f) :=
    .doc id _ _ .refl hdoc.documents hf
  exact hgrows.docLined hdoc

lemma frames_of_advance (h : p.advance step = some p') : step.Frames p p' := by
  have hkeeps := (grows_of_advance h).keeps
  obtain ⟨act, hact, hp'⟩ := exists_action h
  cases step with
  | tag i raw =>
    obtain ⟨id, hid, hact⟩ := Option.bind_eq_some_iff.1 hact
    obtain rfl := Option.some.inj hact
    have hcuts := (pushText_adds (c := False) (T := fun _ => False) (b := p.builder) raw).result
    exact frames_of_edit (pushText_plain raw) hkeeps hp' (congrArg (Option.map Id.ref) hid) rfl
      fun _ => .tag hcuts
  | fieldDoc i lines =>
    obtain ⟨id, hid, hact⟩ := Option.bind_eq_some_iff.1 hact
    obtain rfl := Option.some.inj hact
    have hdoc := docLined_edit id lines p.builder .field
    exact frames_of_edit (commentGroup?_plain lines) hkeeps hp' (congrArg (Option.map Id.ref) hid)
      rfl fun _ => .fieldDoc hdoc
  | fieldComment i lines =>
    obtain ⟨id, hid, hact⟩ := Option.bind_eq_some_iff.1 hact
    obtain rfl := Option.some.inj hact
    have hdoc := docLined_edit id lines p.builder .comment
    exact frames_of_edit (commentGroup?_plain lines) hkeeps hp' (congrArg (Option.map Id.ref) hid)
      rfl fun _ => .fieldComment hdoc
  | declDoc i lines =>
    obtain ⟨id, hid, hact⟩ := Option.bind_eq_some_iff.1 hact
    obtain rfl := Option.some.inj hact
    have hdoc := docLined_edit id lines p.builder .decl
    refine frames_of_edit (commentGroup?_plain lines) hkeeps hp' (congrArg (Option.map Id.ref) hid)
      rfl fun n => ?_
    cases n with
    | general d => exact .declDoc hdoc
    | bad => exact .badDecl
  | funcDoc i lines =>
    obtain ⟨id, hid, hact⟩ := Option.bind_eq_some_iff.1 hact
    obtain rfl := Option.some.inj hact
    have hdoc := docLined_edit id lines p.builder .func
    exact frames_of_edit (commentGroup?_plain lines) hkeeps hp' (congrArg (Option.map Id.ref) hid)
      rfl fun _ => .funcDoc hdoc
  | _ => exact frames_of_appending rfl (hact ▸ action_appending rfl) hkeeps hp'

/-! ## Targets

A register keeps its content, so the node that a step is to change is the same at the end of the
script. -/

lemma one_of_append {α : Type} {view : Register → Option α} {regs regs' : Registers}
    {more : List Register} (hregs : regs'.toList = regs.toList ++ more) {i : Nat} {x : α}
    (h : regs.one view i = some x) : regs'.one view i = some x := by
  obtain ⟨r, hr, hx⟩ := Option.bind_eq_some_iff.1 h
  have hr' : regs'[i]? = some r := by
    have hlt : i < regs.toList.length := (Array.getElem?_eq_some_iff.1 hr).1
    rw [← Array.getElem?_toList, hregs, List.getElem?_append_left hlt, Array.getElem?_toList, hr]
  exact Option.bind_eq_some_iff.2 ⟨r, hr', hx⟩

lemma target?_of_append {regs regs' : Registers} {more : List Register}
    (hregs : regs'.toList = regs.toList ++ more) {x : Reference} (h : step.target? regs = some x) :
    step.target? regs' = some x := by
  have hone {s : NodeSort} {view : Register → Option (Id s)} {i : Nat}
      (h : (regs.one view i).map Id.ref = some x) : (regs'.one view i).map Id.ref = some x := by
    obtain ⟨id, hid, rfl⟩ := Option.map_eq_some_iff.1 h
    exact Option.map_eq_some_iff.2 ⟨id, one_of_append hregs hid, rfl⟩
  cases step with
  | tag => exact hone h
  | fieldDoc => exact hone h
  | fieldComment => exact hone h
  | declDoc => exact hone h
  | funcDoc => exact hone h
  | _ => exact absurd h (Option.some_ne_none x).symm

end Step

/-! ## Many steps -/

/-- The declarations `ds` are the results of the steps of the trace that declare something. -/
def Trace.AddsDecls (trace : Trace) (ds : List TopDeclNode) : Prop :=
  (trace.filter fun e => e.1.declares).map (fun e => e.2.topDecl?) = ds.map some

lemma Trace.AddsDecls.cons {step : Step} {r : Register} {trace : Trace} {ds ds' : List TopDeclNode}
    (h : step.AddsDecls r ds) (h' : trace.AddsDecls ds') :
    Trace.AddsDecls ((step, r) :: trace) (ds ++ ds') := by
  rw [AddsDecls, List.map_append, ← h, ← h', List.filter_cons]
  split <;> rfl

namespace Progress

variable {p p₁ p' : Progress} {step : Step} {steps : List Step}

/-- What a list of steps leaves of all that is there, and what it adds to the declarations. -/
structure Appended (p : Progress) (steps : List Step) (p' : Progress) : Prop where
  grows : Grows False (fun _ => True) p.builder.toStore p'.builder.toStore
  nodes : ∀ (s : NodeSort) (id : Id s) n, p.builder.node? id = some n →
    (∀ step ∈ steps, step.target? p'.registers ≠ some id.ref) → p'.builder.node? id = some n
  results : ∃ (rs : List Register) (ds : List TopDeclNode), rs.length = steps.length ∧
    p'.registers.toList = p.registers.toList ++ rs ∧ Trace.AddsDecls (steps.zip rs) ds ∧
    p'.builder.decls.toList = p.builder.decls.toList ++ ds
  buffer : p'.builder.lists.topDecls = p.builder.lists.topDecls

lemma Appended.refl (p : Progress) : Appended p [] p :=
  ⟨.refl, fun _ _ _ hn _ => hn,
    ⟨[], [], rfl, (List.append_nil _).symm, rfl, (List.append_nil _).symm⟩, rfl⟩

lemma Appended.cons (h : p.advance step = some p₁) (h' : Appended p₁ steps p') :
    Appended p (step :: steps) p' := by
  have hframes := Step.frames_of_advance h
  obtain ⟨r, ds, hr, hds, hdecls⟩ := hframes.result
  obtain ⟨rs, ds', hlength, hregs, hds', hdecls'⟩ := h'.results
  have hregs₁ : p'.registers.toList = p.registers.toList ++ r :: rs := by
    rw [hregs, hr, Array.toList_push, List.append_assoc]
    rfl
  refine ⟨(Step.grows_of_advance h).trans h'.grows, fun s id n hn hfree => ?_,
    ⟨r :: rs, ds ++ ds', ?_, hregs₁, .cons hds hds', ?_⟩, h'.buffer.trans hframes.buffer⟩
  · have htarget : step.target? p.registers ≠ some id.ref := fun ht =>
      hfree step (by simp) (Step.target?_of_append hregs₁ ht)
    have hn₁ := hframes.others s id n hn htarget
    exact h'.nodes s id n hn₁ fun later hlater => hfree later (by simp [hlater])
  · simp [hlength]
  · rw [hdecls', hdecls, List.append_assoc]

lemma appended_of_run (h : p.run steps = some p') : Appended p steps p' := by
  induction steps generalizing p with
  | nil =>
    obtain rfl := Option.some.inj h
    exact .refl p
  | cons step steps ih =>
    obtain ⟨p₁, hstep, hrest⟩ := Option.bind_eq_some_iff.1 h
    exact .cons hstep (ih hrest)

/-- A script can be stopped before any of its steps. -/
lemma exists_stage {before after : List Step} (h : p.run (before ++ step :: after) = some p') :
    ∃ p₁ p₂, p.run before = some p₁ ∧ p₁.advance step = some p₂ ∧ p₂.run after = some p' := by
  rw [run, List.foldlM_append] at h
  obtain ⟨p₁, hbefore, h⟩ := Option.bind_eq_some_iff.1 h
  obtain ⟨p₂, hstep, hafter⟩ := Option.bind_eq_some_iff.1 h
  exact ⟨p₁, p₂, hbefore, hstep, hafter⟩

/-! ## Complete runs -/

/-- Every reference that was handed out or stored leads to something. In particular every list
reference lies inside its buffer. -/
structure Issued (p : Progress) : Prop where
  registers : p.registers.Sound p.builder.toStore
  store : p.builder.toStore.Closed

/-- What is there is found again in the tree that is finished after some more steps. A node can be
another one only if one of them is to change it. -/
structure Lasts (p : Progress) (after : List Step) (p' : Progress) : Prop where
  store : p.builder.toStore.Keeps p'.builder.finish.toStore
  nodes : ∀ (s : NodeSort) (id : Id s) n, p.builder.node? id = some n →
    (∀ step ∈ after, step.target? p'.registers ≠ some id.ref) →
      p'.builder.finish.node? id = some n

/-- The script that begins with `p` and ends with `p'` only appends. -/
structure AppendOnly (p : Progress) (steps : List Step) (p' : Progress) : Prop where
  /-- Each step leaves alone what is there before it, and so do the steps after it. -/
  stages : ∀ before step after, steps = before ++ step :: after → ∃ p₁ p₂,
    p.run before = some p₁ ∧ p₁.advance step = some p₂ ∧ p₂.run after = some p' ∧
      p₁.Issued ∧ step.Frames p₁ p₂ ∧ p₂.Lasts after p'
  finished : p'.Issued ∧ p'.Lasts [] p'
  /-- The finished tree lists what was declared, in the order of the steps. -/
  decls : ∃ ds, Trace.AddsDecls (steps.zip p'.registers.toList) ds ∧
    p'.builder.finish.toStore.Holds p'.builder.finish.root.decls ds ∧
    (ds.length < UInt32.size → p'.builder.finish.topDecls = ds)

lemma issued_of_start {path package : String}
    (h : (Progress.mk (.start path package) #[]).run steps = some p) : p.Issued := by
  obtain ⟨-, hran⟩ := ran_of_start h
  have hgrows : Grows True (fun _ => True) {} p.builder.toStore :=
    (Builder.start_grows path package).trans (hran.grows.weaken id fun _ _ => trivial)
  exact ⟨hran.registers_sound (by simp [Registers.Sound]), hgrows.closed Store.closed_empty⟩

lemma Appended.lasts (h : Appended p steps p') : p.Lasts steps p' := by
  have hfinish : Grows False (fun _ => True) p'.builder.toStore p'.builder.finish.toStore :=
    p'.builder.finish_grows False.elim False.elim
  exact ⟨(h.grows.trans hfinish).keeps, h.nodes⟩

/-- The buffer of the declarations of a file has nothing else in it. -/
lemma topDecls_finish (hbuffer : p.builder.lists.topDecls = #[])
    (hlength : p.builder.decls.toList.length < UInt32.size) :
    p.builder.finish.topDecls = p.builder.decls.toList := by
  refine (Builder.finish_decls p.builder).list_eq ?_
  show (p.builder.lists.topDecls.appendList p.builder.decls.toList).size < UInt32.size
  rw [hbuffer]
  simpa using hlength

lemma appendOnly_of_start {path package : String}
    (h : (Progress.mk (.start path package) #[]).run steps = some p) :
    AppendOnly ⟨.start path package, #[]⟩ steps p := by
  have happended := appended_of_run h
  refine ⟨?_, ⟨issued_of_start h, (Appended.refl p).lasts⟩, ?_⟩
  · rintro before step after rfl
    obtain ⟨p₁, p₂, hbefore, hstep, hafter⟩ := exists_stage h
    exact ⟨p₁, p₂, hbefore, hstep, hafter, issued_of_start hbefore, Step.frames_of_advance hstep,
      (appended_of_run hafter).lasts⟩
  · obtain ⟨rs, ds, -, hregs, hds, hdecls⟩ := happended.results
    -- the script begins without registers and without declarations
    obtain rfl : p.registers.toList = rs := hregs
    obtain rfl : p.builder.decls.toList = ds := hdecls
    exact ⟨_, hds, p.builder.finish_decls, topDecls_finish happended.buffer⟩

end Progress

/-- Every script only appends, whatever it builds. A list reference of two 32-bit numbers that does
not lie inside its buffer is read as the empty list, also if their sum takes more than 32 bits. -/
theorem Builder.append_only :
    (∀ (path package : String) (steps : List Step) (p : Progress),
      (Progress.mk (.start path package) #[]).run steps = some p →
        Progress.AppendOnly ⟨.start path package, #[]⟩ steps p) ∧
    ∀ (st : Store) (l : ListSort) (r : ListRef l), r.start < UInt32.size → r.length < UInt32.size →
      ¬r.ref.In st ∨ UInt32.size ≤ r.start + r.length → st.list r = [] :=
  ⟨fun _ _ _ _ => Progress.appendOnly_of_start, fun st _ _ => st.list_eq_nil⟩

/-- The script of a type and a function that get their tag and documentation after they were built,
with a declaration that could not be understood at the end. -/
def Step.attachedLate : List Step :=
  [.named "int", .field ["x"] 0, .struct [1], .typeSpec "P" 2, .decl .types 3, .signature [1] [],
    .func "main" 5, .tag 1 "`json:\"x\"`", .fieldDoc 1 ["// X is late."],
    .fieldComment 1 ["// So is this."], .declDoc 4 ["// P has a field."],
    .funcDoc 6 ["// Main starts.", "// It ends."], .badDecl, .declDoc 12 ["// Nothing."]]

theorem Builder.append_only_attachedLate :
    (∃ p, (Progress.mk (.start "a.go" "main") #[]).run Step.attachedLate = some p ∧
      Progress.AppendOnly ⟨.start "a.go" "main", #[]⟩ Step.attachedLate p ∧
      p.builder.finish.topDecls = [.decl ⟨0⟩, .func ⟨0⟩, .decl ⟨1⟩]) ∧
    Store.list {} (⟨2, UInt32.size - 1⟩ : ListRef .fields) = [] := by
  have hrun : ((Progress.mk (.start "a.go" "main") #[]).run Step.attachedLate).any
      fun p => p.builder.finish.topDecls = [.decl ⟨0⟩, .func ⟨0⟩, .decl ⟨1⟩] := by
    decide +kernel
  obtain ⟨p, hp, hdecls⟩ := (Option.any_eq_true _ _).1 hrun
  refine ⟨⟨p, hp, append_only.1 _ _ _ _ hp, of_decide_eq_true hdecls⟩, ?_⟩
  exact append_only.2 {} .fields ⟨2, UInt32.size - 1⟩ (by decide) (by decide) (.inr (by decide))

end GoOutline
