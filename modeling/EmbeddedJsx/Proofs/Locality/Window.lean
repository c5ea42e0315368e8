import EmbeddedJsx.Proofs.Lexical.Place
import EmbeddedJsx.Proofs.Locality.Relocation

/-!
# Windows on a text

A window leaves out a number of characters at the front of a text and a number at the end.  What
lies between two places of the window is there as it was in the text, and so are tokens, but for
one thing: what makes a `<`, a `</` or a dot a token is also what stands after it, up to the first
character that is neither a space nor a dot.  Where the window has such a character (`Decides`),
these tokens stay what they are.

Other tokens never see the end of the window.  An identifier and a run of raw text end with the
window, if they reach it, and all other tokens end with a character of their own.
-/

namespace EmbeddedJsx

open Text

/-- What a token of the kind is depends on the characters after it. -/
def TokenKind.LooksAhead : TokenKind → Prop
  | .tagOpen | .closingOpen | .dot => True
  | _ => False

/-- The text is long enough to tell a token before it from others. -/
def Decides (text : List Char) : Prop := ∃ c ∈ text, isTagSpace c = false ∧ c ≠ '.'

lemma mem_head?_of_isPrefix {c : Char} {before after : List Char} (h : before <+: after)
    (hc : c ∈ before.head?) : c ∈ after.head? := by
  obtain ⟨rest, rfl⟩ := h
  cases before with
  | nil => simp at hc
  | cons => exact hc

lemma Ahead.of_isPrefix {c : Char} {before after : List Char} (h : Ahead c after)
    (hpre : before <+: after) (hdecides : Decides before) : Ahead c before := by
  obtain ⟨space, rest, hspace, hc, rfl⟩ := h
  obtain ⟨d, hd, hsolid, -⟩ := hdecides
  have houtside (hd : d ∈ space) : False := by
    rw [hspace d hd] at hsolid
    exact absurd hsolid (by simp)
  -- the shorter text goes on after the spaces, for it has a character that is none
  rcases List.prefix_or_prefix_of_prefix hpre (List.prefix_append space (c :: rest))
    with hle | ⟨more, rfl⟩
  · exact (houtside (hle.subset hd)).elim
  · rcases List.prefix_cons_iff.1 ((List.prefix_append_right_inj space).1 hpre)
      with rfl | ⟨rest', rfl, -⟩
    · rw [List.append_nil] at hd
      exact (houtside hd).elim
    · exact ⟨space, rest', hspace, hc, rfl⟩

/-- A token stays one if less comes after it, provided that what comes after it still decides. -/
lemma Lexeme.of_isPrefix {kind : TokenKind} {lexeme before after : List Char}
    (h : Lexeme kind lexeme after) (hpre : before <+: after)
    (hdecides : kind.LooksAhead → Decides before) : Lexeme kind lexeme before := by
  cases h with
  | tagOpen hahead hslash hclose =>
    exact .tagOpen (hahead.of_isPrefix hpre (hdecides trivial)) hslash hclose
  | tagClose => exact .tagClose
  | selfClose hspace => exact .selfClose hspace
  | closingOpen hspace hahead hclose =>
    exact .closingOpen hspace (hahead.of_isPrefix hpre (hdecides trivial)) hclose
  | fragmentOpen hspace => exact .fragmentOpen hspace
  | fragmentClose hspace hspace' => exact .fragmentClose hspace hspace'
  | identifier hstart hmore hend =>
    -- if anything is left after the identifier, it begins as before
    exact .identifier hstart hmore fun d hd => hend d (mem_head?_of_isPrefix hpre hd)
  | string hquote hinside => exact .string hquote hinside
  | assign => exact .assign
  | colon => exact .colon
  | dot hdots hdot =>
    refine .dot (fun h => hdots (h.trans hpre)) ?_
    rintro rfl
    obtain ⟨c, hc, -, hne⟩ := hdecides trivial
    exact hne (List.mem_singleton.1 hc)
  | comma => exact .comma
  | spread => exact .spread
  | braceOpen => exact .braceOpen
  | braceClose => exact .braceClose

namespace Place

/-- The place, seen through the window that leaves out the given numbers of characters at the front
and at the end of the text. -/
def window (front tail : ℕ) (p : Place) : Place :=
  ⟨p.offset - front, p.rest.take (p.rest.length - tail)⟩

/-- The place is in the window. -/
structure Within (front tail : ℕ) (p : Place) : Prop where
  front_le : front ≤ p.offset
  tail_le : tail ≤ p.rest.length

variable {p m q : Place} {kind : TokenKind} {e : Excerpt} {front tail : ℕ} {run : List Char}

/-- What lies between places in the window is in the window. -/
lemma Within.between (hp : p.Within front tail) (hq : q.Within front tail) (h : p.Reaches m)
    (h' : m.Reaches q) : m.Within front tail :=
  ⟨hp.front_le.trans h.offset_le, hq.tail_le.trans h'.length_le⟩

lemma window_rest_isPrefix (p : Place) : (p.window front tail).rest <+: p.rest :=
  List.take_prefix _ _

lemma Passes.window (h : p.Passes run q) (hp : p.Within front tail) (hq : q.Within front tail) :
    (p.window front tail).Passes run (q.window front tail) := by
  obtain ⟨hrest, hoff⟩ := h
  have hfront := hp.front_le
  have htail := hq.tail_le
  have hlen : run.length + q.rest.length - tail = run.length + (q.rest.length - tail) := by omega
  refine ⟨?_, ?_⟩
  · simp only [Place.window, hrest, List.length_append, hlen, List.take_length_add_append]
  · simp only [Place.window]
    omega

lemma Skips.window (h : p.Skips q) (hp : p.Within front tail) (hq : q.Within front tail) :
    (p.window front tail).Skips (q.window front tail) := by
  obtain ⟨run, hrun, hpass⟩ := h
  exact ⟨run, hrun, hpass.window hp hq⟩

lemma Reads.window (h : p.Reads kind e q) (hp : p.Within front tail) (hq : q.Within front tail)
    (hdecides : kind.LooksAhead → Decides (q.window front tail).rest) :
    (p.window front tail).Reads kind (e.back front) (q.window front tail) := by
  obtain ⟨lexeme, hpass, hlex, rfl⟩ := h
  exact ⟨lexeme, hpass.window hp hq, hlex.of_isPrefix (window_rest_isPrefix q) hdecides, rfl⟩

lemma Next.window (h : p.Next kind e q) (hp : p.Within front tail) (hq : q.Within front tail)
    (hdecides : kind.LooksAhead → Decides (q.window front tail).rest) :
    (p.window front tail).Next kind (e.back front) (q.window front tail) := by
  obtain ⟨m, hskip, hread⟩ := h
  have hm := hp.between hq hskip.reaches hread.reaches
  exact ⟨m.window front tail, hskip.window hp hm, hread.window hm hq hdecides⟩

/-! ### Deciding -/

lemma Reaches.decides (h : p.Reaches q) (hq : Decides q.rest) : Decides p.rest := by
  obtain ⟨run, hrest, -⟩ := h
  obtain ⟨c, hc, hsolid⟩ := hq
  exact ⟨c, by rw [hrest]; exact List.mem_append_right run hc, hsolid⟩

/-- A token that begins with no dot decides what stands before it. -/
lemma Next.decides (h : p.Next kind e q) (hkind : kind ≠ .dot ∧ kind ≠ .spread) :
    Decides p.rest := by
  obtain ⟨m, hskip, lexeme, ⟨hrest, -⟩, hlex, -⟩ := h
  refine hskip.reaches.decides ?_
  -- the first character of the token decides: it is no space, and a dot begins other tokens
  obtain ⟨c, more, rfl, hc⟩ := hlex.exists_cons
  refine ⟨c, by simp [hrest], ?_, ?_⟩
  · by_contra hspace
    rw [isSignificant_of_isTagSpace (by simpa using hspace)] at hc
    exact absurd hc (by simp)
  · rintro rfl
    generalize hlexeme : '.' :: more = lexeme at hlex
    cases hlex with
    | identifier hstart =>
      obtain ⟨rfl, -⟩ := List.cons.inj hlexeme
      exact absurd hstart (by decide)
    | string hquote =>
      obtain ⟨rfl, -⟩ := List.cons.inj hlexeme
      simp at hquote
    | _ => simp at hlexeme hkind

end Place

end EmbeddedJsx
