import EmbeddedJsx.Proofs.Lexical.Extent
import EmbeddedJsx.Proofs.Reporting.Block

/-!
# Places and offsets

A place names an offset by a line and a column.  Both come out of the characters before the offset,
the line by counting line feeds and the column by going back to the last one.  That they speak of
the same line feed is what `Text.IsLineAt.ofOffset_eq` says, and from there on everything is counted
from the beginning of a line.

Where the lines of a text begin is told by `lineStarts`, without regard to any place.  The main
statement is `Position.ofOffset_orders_and_recovers`: places are in the order of their offsets, and
an offset can be got back from the line and the column.
-/

namespace EmbeddedJsx

open Text

variable {text before line after : List Char} {offset later : Nat}

namespace Text

/-- The offsets at which the lines of a text begin: the beginning of the text, and the offsets right
after the line feeds. -/
def lineStarts (text : List Char) : List Nat := 0 :: (text.idxsOf '\n').map (· + 1)

/-- The line with a number of line feeds before it is the one of that number. -/
lemma lineStarts_count (hbefore : before = [] ∨ ∃ front, before = front ++ ['\n'])
    (rest : List Char) : (lineStarts (before ++ rest))[before.count '\n']? = some before.length := by
  rcases hbefore with rfl | ⟨front, rfl⟩
  · rfl
  · have hcount : (front ++ ['\n']).count '\n' = front.count '\n' + 1 := by simp
    have hfront : (front.idxsOf '\n').length = front.count '\n' := List.length_idxsOf
    rw [hcount, lineStarts, List.getElem?_cons_succ, List.getElem?_map, List.append_assoc,
      List.idxsOf_append, List.getElem?_append_right hfront.le, hfront, Nat.sub_self]
    simp

namespace IsLineAt

/-- The line of a place begins where the line of that number does. -/
lemma lineStarts_eq (h : IsLineAt text offset before line after) :
    (lineStarts text)[before.count '\n']? = some before.length := by
  rw [h.text_eq, List.append_assoc]
  exact lineStarts_count h.before_eq _

/-- Between the beginning of the line and the place there is no line feed. -/
lemma not_mem_slice (h : IsLineAt text offset before line after) :
    '\n' ∉ Span.slice ⟨before.length, offset⟩ text := by
  have hslice : Span.slice ⟨before.length, offset⟩ text = line.take (offset - before.length) := by
    have hle := h.offset_le
    rw [Span.slice, h.text_eq, List.append_assoc, List.drop_left,
      List.take_append_of_le_length (by simp only; omega)]
  rw [hslice]
  exact fun hmem => h.not_mem (List.mem_of_mem_take hmem)

end IsLineAt

end Text

namespace Position

/-- The line and the column of a place, in the order in which places are compared. -/
def lineAndColumn (p : Position) : Nat ×ₗ Nat := toLex (p.line, p.column)

/-- What comes later in a text is on a later line, or on the same line and in a later column. -/
lemma lineAndColumn_lt (h : offset < later) (hlength : later ≤ text.length) :
    (ofOffset text offset).lineAndColumn < (ofOffset text later).lineAndColumn := by
  obtain ⟨before, line, after, hline⟩ := exists_isLineAt (h.le.trans hlength)
  have hlow := hline.le_offset
  rw [lineAndColumn, lineAndColumn, Prod.Lex.toLex_lt_toLex, hline.ofOffset_eq]
  by_cases hsame : later ≤ before.length + line.length
  · have hlater : IsLineAt text later before line after :=
      { hline with le_offset := hlow.trans h.le, offset_le := hsame }
    rw [hlater.ofOffset_eq]
    refine .inr ⟨rfl, ?_⟩
    dsimp only
    omega
  · exact .inl (hline.line_lt (Nat.lt_of_not_le hsame) hlength)

/-- The nearest offset inside the text has the same place. -/
lemma ofOffset_clamp (text : List Char) (offset : Int) :
    ofOffset text (clamp text.length offset) = ofOffset text offset := by
  have hclamp : clamp text.length (clamp text.length offset) = clamp text.length offset := by
    unfold clamp
    omega
  rw [ofOffset, ofOffset, hclamp]

lemma clamp_cast (length : Nat) (offset : Int) :
    (clamp length offset : Int) = max 0 (min offset length) := by
  unfold clamp
  omega

/-- Places are in the order of their offsets. -/
lemma lineAndColumn_lt_iff (text : List Char) (p q : Int) :
    (ofOffset text p).lineAndColumn < (ofOffset text q).lineAndColumn ↔
      clamp text.length p < clamp text.length q := by
  have hlt {p q : Int} (h : clamp text.length p < clamp text.length q) :
      (ofOffset text p).lineAndColumn < (ofOffset text q).lineAndColumn := by
    rw [← ofOffset_clamp text p, ← ofOffset_clamp text q]
    exact lineAndColumn_lt h (clamp_le _ _)
  refine ⟨fun hplaces => ?_, hlt⟩
  rcases Nat.lt_trichotomy (clamp text.length p) (clamp text.length q) with h | h | h
  · exact h
  · rw [← ofOffset_clamp text p, ← ofOffset_clamp text q, h] at hplaces
    exact absurd hplaces (lt_irrefl _)
  · exact absurd (hplaces.trans (hlt h)) (lt_irrefl _)

/-- **Places.**  The place at any integer is that of the nearest offset inside the text.  Of two
offsets the smaller one has the smaller line, or the same line and the smaller column; both count
from one.  The offset is got back from the line and the column: it is the column, counted from zero,
behind the beginning of the line, which no line feed parts from it. -/
theorem ofOffset_orders_and_recovers (text : List Char) (p q : Int) :
    ((ofOffset text p).offset : Int) = max 0 (min p text.length) ∧
      ((ofOffset text p).offset < (ofOffset text q).offset ↔
        (ofOffset text p).lineAndColumn < (ofOffset text q).lineAndColumn) ∧
      1 ≤ (ofOffset text p).line ∧ 1 ≤ (ofOffset text p).column ∧
      ∃ start, (lineStarts text)[(ofOffset text p).line - 1]? = some start ∧
        (ofOffset text p).offset = (ofOffset text p).column - 1 + start ∧
        '\n' ∉ Span.slice ⟨start, (ofOffset text p).offset⟩ text := by
  refine ⟨?_, ?_, line_pos _, column_pos _, ?_⟩
  · rw [offset_ofOffset, clamp_cast]
  · rw [offset_ofOffset, offset_ofOffset, lineAndColumn_lt_iff]
  · obtain ⟨before, line, after, hline⟩ := exists_isLineAt (clamp_le text.length p)
    rw [← ofOffset_clamp, hline.ofOffset_eq]
    refine ⟨before.length, hline.lineStarts_eq, ?_, hline.not_mem_slice⟩
    have hlow := hline.le_offset
    dsimp only
    omega

/-- Right after a line feed, and right in front of it. -/
example : ofOffset "a\nb".toList 2 = ⟨2, 1, 2⟩ ∧ ofOffset "a\nb".toList 1 = ⟨1, 2, 1⟩ ∧
    ofOffset "a\nb".toList 9 = ⟨2, 2, 3⟩ ∧ ofOffset "a\nb".toList (-1) = ⟨1, 1, 0⟩ := by decide

end Position

end EmbeddedJsx
