/-
# Every text is recovered

The spans of a tree that was built step by step all cut out whole characters of its source, and what
they cut out is what the steps were handed. Nothing that comes later moves a text, and nothing but a
new tag replaces one.
-/
import GoOutline.Proofs.Tree.Run

namespace GoOutline

open Store (Grows)

/-- The span has its ends in order, inside the source and between characters, so that its text is not
the empty text of a span that cuts out nothing. -/
structure Span.Regular (sp : Span) (source : String) : Prop where
  start_le_stop : sp.start ≤ sp.stop
  stop_le : sp.stop ≤ source.utf8ByteSize
  start_boundary : Boundary source sp.start
  stop_boundary : Boundary source sp.stop
  cuts : (sp.chars? source.toList).isSome

lemma Span.Fits.regular {sp : Span} {source : String} (h : sp.Fits source) : sp.Regular source :=
  ⟨h.start_le_stop, h.stop_le, h.start_boundary, h.stop_boundary, h.chars?_isSome⟩

/-- The tree gives back all that the steps of the trace were handed. For the list of comments there have
to be fewer than `2 ^ 32` groups, as is asserted wherever a list is pushed. The length of the source
does not bound their number, since groups without lines take no bytes of it. -/
structure Tree.Recovers (t : Tree) (package : String) (trace : Trace) : Prop where
  spans : ∀ (s : NodeSort) (id : Id s) (sp : Span), t.span? id = some sp → sp.Regular t.source
  package : t.packageName = package
  texts : ∀ (before rest : Trace) step r, trace = before ++ (step, r) :: rest →
    rest.Spares step r → step.Recovered t.toStore r
  comments : t.Addressable .commentGroups →
    t.commentGroups.map t.lines? = trace.commentLines.map some

/-- The buffers of names and of comments can be addressed if every byte of the source can. -/
lemma Progress.Ran.addressable {path package : String} {trace : Trace} {p : Progress}
    (h : Ran ⟨.start path package, #[]⟩ trace p)
    (hsource : p.builder.finish.source.utf8ByteSize < UInt32.size) {l : ListSort}
    (hl : l.written) : p.builder.finish.toStore.Addressable l := by
  have hle := h.size_le l hl
  have hbuffer : p.builder.finish.lists.buffer l = p.builder.lists.buffer l := by
    cases l <;> first | rfl | simp [ListSort.written] at hl
  rw [Store.Addressable, hbuffer]
  exact Nat.lt_of_le_of_lt hle hsource

/-- Whatever the steps of a complete run are handed is recovered from the finished tree, if its
source is shorter than `2 ^ 32` bytes. -/
theorem Builder.finish_recovers {path package : String} {steps : List Step} {p : Progress}
    (hrun : (Progress.mk (.start path package) #[]).run steps = some p)
    (hsource : p.builder.finish.source.utf8ByteSize < UInt32.size) :
    steps.length = p.registers.size ∧
      p.builder.finish.Recovers package (steps.zip p.registers.toList) := by
  obtain ⟨hsteps, hran⟩ := Progress.ran_of_start hrun
  have hnames : p.builder.finish.toStore.Addressable .idents := hran.addressable hsource rfl
  have hcomments : p.builder.finish.toStore.Addressable .comments := hran.addressable hsource rfl
  refine ⟨?_, ?_, ?_, ?_, ?_⟩
  · have hlen := congrArg List.length hran.registers
    simp only [Array.length_toList, List.length_append, List.length_map] at hlen
    have hlen' := congrArg List.length hsteps
    simp only [List.length_map] at hlen'
    rw [hlen, ← hlen']
    simp
  · intro s id sp hsp
    have hfit : p.builder.finish.toStore.SpansFit := hran.tree_grows.spansFit fun s id sp h => by
      cases s <;> simp [Store.span?, Arena.span?, Nodes.arena] at h
    exact (hfit s id sp hsp).regular
  · exact hran.tree_knows.name_eq
  · intro before rest step r htrace hspare
    have hkept := hran.kept before rest step r htrace hspare
    refine hkept _ ⟨hran.finish_grows.weaken (fun _ => trivial) fun _ h => h, hnames, hcomments, ?_⟩
    exact hran.sound (step, r) (by rw [htrace]; simp)
  · intro hgroups
    rw [Tree.commentGroups, (finish_comments p.builder).list_eq hgroups, ← List.forall₂_eq_eq_eq,
      List.forall₂_map_left_iff, List.forall₂_map_right_iff]
    refine hran.groups_lined.imp fun g lines hlined => ?_
    exact (hran.finish_grows (T := fun _ => True) |>.lined hlined).lines?_eq hcomments

/-- The script of a field with a tag, and a comment with more bytes than characters. -/
def Step.taggedField : List Step :=
  [.named "time.Duration", .field ["wait"] 0, .tag 1 "`json:\"wait\"`", .comment ["// für später"]]

theorem Builder.taggedField_recovers :
    ∃ p, (Progress.mk (.start "a.go" "main") #[]).run Step.taggedField = some p ∧
      p.builder.finish.Recovers "main" (Step.taggedField.zip p.registers.toList) := by
  have hrun : ((Progress.mk (.start "a.go" "main") #[]).run Step.taggedField).any
      fun p => p.builder.finish.source.utf8ByteSize < UInt32.size := by
    decide +kernel
  obtain ⟨p, hp, hsize⟩ := (Option.any_eq_true _ _).1 hrun
  exact ⟨p, hp, (finish_recovers hp (of_decide_eq_true hsize)).2⟩

end GoOutline
