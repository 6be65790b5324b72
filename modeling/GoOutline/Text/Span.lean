/-
# Spans

A span is a range of bytes of the UTF-8 text of one file. Nothing forces its ends to be in order
or to lie between two characters; a span that does not cut out whole characters has the empty
text.
-/
namespace GoOutline

/-- The characters after the first `n` bytes, unless byte `n` lies inside a character or behind
the end. -/
def skipBytes : Nat → List Char → Option (List Char)
  | 0, cs => some cs
  | _ + 1, [] => none
  | n + 1, c :: cs => if c.utf8Size ≤ n + 1 then skipBytes (n + 1 - c.utf8Size) cs else none

/-- The characters that fill the first `n` bytes, unless byte `n` lies inside a character or
behind the end. -/
def takeBytes : Nat → List Char → Option (List Char)
  | 0, _ => some []
  | _ + 1, [] => none
  | n + 1, c :: cs =>
    if c.utf8Size ≤ n + 1 then (takeBytes (n + 1 - c.utf8Size) cs).map (c :: ·) else none

/-- The number of bytes of a list of characters. -/
def byteLength : List Char → Nat
  | [] => 0
  | c :: cs => c.utf8Size + byteLength cs

theorem byteLength_toList (s : String) : byteLength s.toList = s.utf8ByteSize := by
  have ofList : ∀ cs : List Char, (String.ofList cs).utf8ByteSize = byteLength cs := by
    intro cs
    induction cs with
    | nil => rfl
    | cons c cs ih =>
      rw [String.ofList_cons, String.utf8ByteSize_append, ih]
      simp [byteLength]
  rw [← ofList, String.ofList_toList]

/-- Skipping the bytes of the front leaves the rest. -/
theorem skipBytes_append (xs ys : List Char) : skipBytes (byteLength xs) (xs ++ ys) = some ys := by
  induction xs with
  | nil => simp [byteLength, skipBytes]
  | cons c cs ih =>
    have pos := c.utf8Size_pos
    obtain ⟨n, hn⟩ : ∃ n, c.utf8Size = n + 1 := ⟨c.utf8Size - 1, by omega⟩
    have total : byteLength (c :: cs) = n + byteLength cs + 1 := by
      rw [byteLength, hn]
      omega
    rw [total, List.cons_append, skipBytes, if_pos (by omega),
      show n + byteLength cs + 1 - c.utf8Size = byteLength cs by omega, ih]

/-- Taking the bytes of the front gives the front. -/
theorem takeBytes_append (xs ys : List Char) : takeBytes (byteLength xs) (xs ++ ys) = some xs := by
  induction xs with
  | nil => cases ys <;> simp [byteLength, takeBytes]
  | cons c cs ih =>
    have pos := c.utf8Size_pos
    obtain ⟨n, hn⟩ : ∃ n, c.utf8Size = n + 1 := ⟨c.utf8Size - 1, by omega⟩
    have total : byteLength (c :: cs) = n + byteLength cs + 1 := by
      rw [byteLength, hn]
      omega
    rw [total, List.cons_append, takeBytes, if_pos (by omega),
      show n + byteLength cs + 1 - c.utf8Size = byteLength cs by omega, ih]
    rfl

/-- A range of bytes, from `start` up to but not including `stop`. Both are words of 32 bits. Sources
are assumed to have fewer than `2 ^ 32` bytes, so the ends are not cut off when a span is made. -/
structure Span where
  start : Nat
  stop : Nat
deriving DecidableEq, Repr, Inhabited

namespace Span

/-- The smallest span that covers both. -/
def cover (a b : Span) : Span := ⟨min a.start b.start, max a.stop b.stop⟩

/-- The number of bytes; a span with its ends out of order has none. -/
def length (s : Span) : Nat := s.stop - s.start

/-- Whether the span has no bytes. -/
def isEmpty (s : Span) : Bool := s.length == 0

/-- The characters of `cs` inside the span, if its ends are in order and between characters. -/
def chars? (s : Span) (cs : List Char) : Option (List Char) :=
  if s.start ≤ s.stop then skipBytes s.start cs >>= takeBytes (s.stop - s.start) else none

/-- The text of `source` inside the span, empty where the span does not cut out characters. -/
def text (s : Span) (source : String) : String :=
  (s.chars? source.toList).elim "" String.ofList

/-- The span of a part of a text has that part as its text. -/
theorem text_append (front part back : String) :
    text ⟨front.utf8ByteSize, front.utf8ByteSize + part.utf8ByteSize⟩ (front ++ part ++ back) =
      part := by
  simp [text, chars?, ← byteLength_toList, skipBytes_append, takeBytes_append]

end Span

end GoOutline
