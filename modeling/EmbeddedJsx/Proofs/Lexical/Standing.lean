import EmbeddedJsx.Proofs.Lexical.Place

/-!
# Cursors on tokens

Productions are called on cursors that stand on a token, and for some of them it matters after
which place that token is the next one.  There is one such cursor for each place before a token,
so that going on from a token is determined by the place alone.
-/

namespace EmbeddedJsx

namespace Cursor

/-- The cursor stands on a token. -/
def Stands (c : Cursor) : Prop := ∃ kind, c.On kind

/-- The cursor stands on the token that comes next after the place. -/
def Follows (p : Place) (c : Cursor) : Prop := ∃ kind, c.After p kind

variable {c c' : Cursor} {p : Place} {kind : TokenKind}

lemma Stands.token_ne (h : c.Stands) : c.token ≠ some .endOfInput := by
  obtain ⟨kind, h⟩ := h
  exact h.token_ne

lemma Stands.follows (h : c.Stands) : c.Follows c.origin := by
  obtain ⟨kind, h⟩ := h
  exact ⟨kind, h.after⟩

lemma Follows.stands (h : c.Follows p) : c.Stands := by
  obtain ⟨kind, h⟩ := h
  exact ⟨kind, h.2⟩

lemma Follows.skips (h : c.Follows p) : p.Skips c.origin := by
  obtain ⟨kind, h⟩ := h
  exact h.1

lemma Follows.length_lt (h : c.Follows p) : c.rest.length < p.rest.length := by
  obtain ⟨kind, h⟩ := h
  exact h.next.length_lt

lemma On.stands (h : c.On kind) : c.Stands := ⟨kind, h⟩

lemma Stands.on (h : c.Stands) (htoken : c.token = some kind) : c.On kind := by
  obtain ⟨kind', h⟩ := h
  obtain rfl : kind' = kind := Option.some.inj (h.token_eq.symm.trans htoken)
  exact h

lemma Follows.after (h : c.Follows p) (htoken : c.token = some kind) : c.After p kind :=
  ⟨h.skips, h.stands.on htoken⟩

/-- Where a token stands, a cursor can stand on it. -/
lemma exists_on {q : Place} {e : Excerpt} (h : p.Reads kind e q) :
    ∃ c : Cursor, c.On kind ∧ c.origin = p ∧ c.excerpt = e ∧ c.place = q := by
  obtain ⟨lexeme, ⟨hrest, hoff⟩, hlex, rfl⟩ := h
  refine ⟨⟨some kind, p.offset, lexeme, q.rest⟩, ⟨rfl, hlex⟩, ?_, ?_, ?_⟩
  · rw [origin, ← hrest]
  · simp [excerpt, Place.excerpt, span, stop, hoff]
  · simp [place, stop, ← hoff]

lemma exists_follows {q : Place} {e : Excerpt} (h : p.Next kind e q) :
    ∃ c : Cursor, c.After p kind ∧ c.Follows p := by
  obtain ⟨c, hc, -, -⟩ := exists_after h
  exact ⟨c, hc, kind, hc⟩

lemma After.follows (h : c.After p kind) : c.Follows p := ⟨kind, h⟩

/-- Only one cursor stands on the token that comes next. -/
lemma Follows.unique (h : c.Follows p) (h' : c'.Follows p) : c = c' := by
  obtain ⟨kind, h⟩ := h
  obtain ⟨kind', h'⟩ := h'
  exact (h.unique h').1

/-- A cursor on the token that comes next knows all about it. -/
lemma Follows.of_next {q : Place} {e : Excerpt} (h : c.Follows p) (hnext : p.Next kind e q) :
    c.After p kind ∧ c.excerpt = e ∧ c.place = q := by
  obtain ⟨kind', h⟩ := h
  obtain ⟨rfl, he, hq⟩ := h.of_next hnext
  exact ⟨h, he, hq⟩

/-- A cursor on a token knows all about it. -/
lemma Stands.of_reads {q : Place} {e : Excerpt} (h : c.Stands) (hread : c.origin.Reads kind e q) :
    c.On kind ∧ c.excerpt = e ∧ c.place = q := by
  obtain ⟨hafter, he, hq⟩ := h.follows.of_next hread.next
  exact ⟨hafter.2, he, hq⟩

end Cursor

namespace Production

variable {c c' : Cursor} {p : Place} {kind : TokenKind} {what : Expectation} {e : Excerpt}

lemma advance_follows {u : Unit} (h : advance c = .ok u c') : c'.Follows c.place := by
  obtain ⟨kind, h⟩ := advance_eq_ok.1 h
  exact ⟨kind, (Cursor.next_eq_ok_iff.1 h).2⟩

lemma take_eq_ok :
    take kind what c = .ok e c' ↔ c.token = some kind ∧ e = c.excerpt ∧ advance c = .ok () c' := by
  simp only [take, bind_eq_ok, expect_eq_ok, pure_apply, EStateM.Result.ok.injEq]
  constructor
  · rintro ⟨_, _, ⟨htoken, rfl, rfl⟩, _, _, hadvance, rfl, rfl⟩
    exact ⟨htoken, rfl, hadvance⟩
  · rintro ⟨htoken, rfl, hadvance⟩
    exact ⟨_, c, ⟨htoken, rfl, rfl⟩, (), c', hadvance, rfl, rfl⟩

/-- What is expected matters only to failures. -/
lemma take_expecting (what' : Expectation) (h : take kind what c = .ok e c') :
    take kind what' c = .ok e c' :=
  take_eq_ok.2 (take_eq_ok.1 h)

lemma take_sound (hc : c.Follows p) (h : take kind what c = .ok e c') :
    ∃ q, p.Next kind e q ∧ c'.Follows q := by
  obtain ⟨htoken, rfl, hadvance⟩ := take_eq_ok.1 h
  exact ⟨_, (hc.after htoken).next, advance_follows hadvance⟩

lemma take_sound_of_stands (hc : c.Stands) (h : take kind what c = .ok e c') :
    c.origin.Reads kind e c.place ∧ c'.Follows c.place := by
  obtain ⟨htoken, rfl, hadvance⟩ := take_eq_ok.1 h
  exact ⟨(hc.on htoken).reads, advance_follows hadvance⟩

/-- Going on from a token leads to the cursor on the one that follows. -/
lemma advance_complete (htoken : c.token ≠ some .endOfInput) (h : c'.Follows c.place) :
    advance c = .ok () c' := by
  obtain ⟨kind, h⟩ := h
  exact advance_eq_ok.2 ⟨kind, Cursor.next_eq_ok_iff.2 ⟨htoken, h⟩⟩

lemma take_complete {q : Place} (hc : c.Follows p) (hnext : p.Next kind e q)
    (hc' : c'.Follows q) : take kind what c = .ok e c' := by
  obtain ⟨hafter, rfl, rfl⟩ := hc.of_next hnext
  exact take_eq_ok.2 ⟨hafter.2.token_eq, rfl, advance_complete hafter.2.token_ne hc'⟩

end Production

end EmbeddedJsx
