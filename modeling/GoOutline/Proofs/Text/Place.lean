/-
# Places of texts

A span is the *place* of a text in a source if the text stands there, byte for byte. A span *fits* a
source if it is the place of some text, that is, if its ends are in order and lie between characters
of the source. Both survive every lengthening of the source, and the cover of two fitting spans fits.
-/
import GoOutline.Text.Span
import Mathlib.Tactic.Common

namespace GoOutline.Span

/-- The span is the place of `text` in `source`. -/
def Cuts (sp : Span) (source text : String) : Prop :=
  ∃ front back, source = front ++ text ++ back ∧
    sp = ⟨front.utf8ByteSize, front.utf8ByteSize + text.utf8ByteSize⟩

/-- The span is the place of some text in `source`. -/
def Fits (sp : Span) (source : String) : Prop := ∃ text, sp.Cuts source text

/-- Position `n` lies between two characters of `source` or at one of its ends. -/
def Boundary (source : String) (n : Nat) : Prop :=
  ∃ front back, source = front ++ back ∧ n = front.utf8ByteSize

variable {sp a b : Span} {source t : String}

lemma Cuts.text_eq (h : sp.Cuts source t) : sp.text source = t := by
  obtain ⟨front, back, rfl, rfl⟩ := h
  exact text_append front t back

lemma Cuts.fits (h : sp.Cuts source t) : sp.Fits source := ⟨t, h⟩

lemma Cuts.append (h : sp.Cuts source t) (more : String) : sp.Cuts (source ++ more) t := by
  obtain ⟨front, back, rfl, rfl⟩ := h
  exact ⟨front, back ++ more, by simp only [String.append_assoc], rfl⟩

lemma Fits.append (h : sp.Fits source) (more : String) : sp.Fits (source ++ more) := by
  obtain ⟨text, h⟩ := h
  exact ⟨text, h.append more⟩

/-- A text that was just written stands at the end of the source. -/
lemma cuts_end (source text back : String) :
    Cuts ⟨source.utf8ByteSize, source.utf8ByteSize + text.utf8ByteSize⟩
      (source ++ text ++ back) text :=
  ⟨source, back, rfl, rfl⟩

lemma fits_default (source : String) : Fits default source :=
  ⟨"", "", source, by simp, by simp; rfl⟩

/-- Of two beginnings of a source the one with fewer bytes is a beginning of the other. -/
lemma exists_append_of_size_le {front front' back back' : String}
    (h : front ++ back = front' ++ back') (hle : front.utf8ByteSize ≤ front'.utf8ByteSize) :
    ∃ between, front' = front ++ between ∧ back = between ++ back' := by
  have hlist : front.toList ++ back.toList = front'.toList ++ back'.toList := by
    simpa using congrArg String.toList h
  rcases List.append_eq_append_iff.1 hlist with ⟨cs, hfront, hback⟩ | ⟨cs, hfront, hback⟩
  · refine ⟨String.ofList cs, ?_, ?_⟩ <;> apply String.toList_inj.1 <;> simpa
  · -- the other way round there is nothing between the two beginnings
    have hbetween : front = front' ++ String.ofList cs := by
      apply String.toList_inj.1
      simpa using hfront
    have hnil : String.ofList cs = "" := by
      apply String.utf8ByteSize_eq_zero_iff.1
      rw [hbetween, String.utf8ByteSize_append] at hle
      omega
    have hcs : cs = [] := by simpa using congrArg String.toList hnil
    subst hcs
    refine ⟨"", by simpa using hbetween.symm, ?_⟩
    apply String.toList_inj.1
    simpa using hback.symm

lemma Fits.start_boundary (h : sp.Fits source) : Boundary source sp.start := by
  obtain ⟨text, front, back, rfl, rfl⟩ := h
  exact ⟨front, text ++ back, by rw [String.append_assoc], rfl⟩

lemma Fits.stop_boundary (h : sp.Fits source) : Boundary source sp.stop := by
  obtain ⟨text, front, back, rfl, rfl⟩ := h
  exact ⟨front ++ text, back, rfl, by rw [String.utf8ByteSize_append]⟩

lemma Fits.start_le_stop (h : sp.Fits source) : sp.start ≤ sp.stop := by
  obtain ⟨text, front, back, rfl, rfl⟩ := h
  exact Nat.le_add_right _ _

lemma Fits.stop_le (h : sp.Fits source) : sp.stop ≤ source.utf8ByteSize := by
  obtain ⟨text, front, back, rfl, rfl⟩ := h
  simp only [String.utf8ByteSize_append]
  omega

/-- Ends in order and between characters are all that a span needs to fit. -/
lemma fits_of_boundaries (hle : sp.start ≤ sp.stop) (hstart : Boundary source sp.start)
    (hstop : Boundary source sp.stop) : sp.Fits source := by
  obtain ⟨front, back, hsource, hfront⟩ := hstart
  obtain ⟨front', back', hsource', hfront'⟩ := hstop
  obtain ⟨text, rfl, -⟩ :=
    exists_append_of_size_le (hsource.symm.trans hsource') (by rw [← hfront, ← hfront']; exact hle)
  rw [String.utf8ByteSize_append] at hfront'
  exact ⟨text, front, back', hsource', by rw [← hfront', ← hfront]⟩

lemma Fits.cover (ha : a.Fits source) (hb : b.Fits source) : (a.cover b).Fits source := by
  refine fits_of_boundaries ?_ ?_ ?_
  · have h := ha.start_le_stop
    simp only [Span.cover]
    omega
  · rcases Nat.le_total a.start b.start with h | h
    · simpa [Span.cover, Nat.min_eq_left h] using ha.start_boundary
    · simpa [Span.cover, Nat.min_eq_right h] using hb.start_boundary
  · rcases Nat.le_total a.stop b.stop with h | h
    · simpa [Span.cover, Nat.max_eq_right h] using hb.stop_boundary
    · simpa [Span.cover, Nat.max_eq_left h] using ha.stop_boundary

/-- A fitting span cuts out characters, so its text is never the one for spans that do not. -/
lemma Fits.chars?_isSome (h : sp.Fits source) : (sp.chars? source.toList).isSome := by
  obtain ⟨text, front, back, rfl, rfl⟩ := h
  simp [chars?, ← byteLength_toList, skipBytes_append, takeBytes_append]

end GoOutline.Span
