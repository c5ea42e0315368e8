import EmbeddedJsx.Production
import EmbeddedJsx.Proofs.Lexical.Scan

/-!
# Places and the tokens between them

A place is an offset together with the text after it.  The relations of this file say what lies
between two places: any characters (`Place.Passes`), characters that belong to no token
(`Place.Skips`), one token (`Place.Reads`), or one token after characters that belong to none
(`Place.Next`).  They are stated by the table alone.

A cursor has a place before its token and one after it.  The main statement is
`Cursor.next_eq_ok_iff`: to read a token is to go to the one cursor that stands on the token which
comes next after the place of the cursor.
-/

namespace EmbeddedJsx

/-- An offset and the text after it. -/
@[ext]
structure Place where
  /-- The number of characters before the place. -/
  offset : ℕ
  /-- The text after the place. -/
  rest : List Char
deriving DecidableEq, Repr

namespace Place

/-- The place before the first character of a text. -/
def ofText (text : List Char) : Place := ⟨0, text⟩

/-- The characters `run` lie between the places. -/
def Passes (p : Place) (run : List Char) (q : Place) : Prop :=
  p.rest = run ++ q.rest ∧ q.offset = p.offset + run.length

/-- Going on from the first place leads to the second. -/
def Reaches (p q : Place) : Prop := ∃ run, p.Passes run q

/-- Only characters that belong to no token lie between the places. -/
def Skips (p q : Place) : Prop := ∃ run, Insignificant run ∧ p.Passes run q

/-- What lies between two places, as a part of the text. -/
def excerpt (p : Place) (run : List Char) (q : Place) : Excerpt :=
  ⟨⟨p.offset, q.offset⟩, String.ofList run⟩

/-- Exactly one token lies between the places. -/
def Reads (p : Place) (kind : TokenKind) (e : Excerpt) (q : Place) : Prop :=
  ∃ lexeme, p.Passes lexeme q ∧ Lexeme kind lexeme q.rest ∧ e = p.excerpt lexeme q

/-- After characters that belong to no token comes exactly one token. -/
def Next (p : Place) (kind : TokenKind) (e : Excerpt) (q : Place) : Prop :=
  ∃ m, p.Skips m ∧ m.Reads kind e q

/-- After characters that belong to no token comes what the error is about. -/
def Faults (p : Place) (error : SyntaxError) : Prop :=
  ∃ m lexeme after, p.Skips m ∧ m.rest = lexeme ++ after ∧ Breaks error.fault lexeme after ∧
    error.span = ⟨m.offset, m.offset + lexeme.length⟩

/-- No token comes any more. -/
def Ends (p : Place) : Prop := Insignificant p.rest

variable {p q r : Place} {kind : TokenKind} {e : Excerpt}

lemma Passes.trans {run run' : List Char} (h : p.Passes run q) (h' : q.Passes run' r) :
    p.Passes (run ++ run') r := by
  obtain ⟨hrest, hoff⟩ := h
  obtain ⟨hrest', hoff'⟩ := h'
  refine ⟨by rw [hrest, hrest', List.append_assoc], ?_⟩
  rw [hoff', hoff, List.length_append, Nat.add_assoc]

/-- What lies between two places can be counted off. -/
lemma Passes.take_rest {run : List Char} (h : p.Passes run q) :
    p.rest.take (q.offset - p.offset) = run := by
  obtain ⟨hrest, hoff⟩ := h
  rw [hrest, hoff, Nat.add_sub_cancel_left, List.take_left]

@[simp] lemma passes_nil : p.Passes [] q ↔ p = q := by
  rw [Passes, Place.ext_iff]
  simp [and_comm, eq_comm]

lemma Reaches.refl (p : Place) : p.Reaches p := ⟨[], passes_nil.2 rfl⟩

lemma Reaches.trans (h : p.Reaches q) (h' : q.Reaches r) : p.Reaches r := by
  obtain ⟨run, hrun⟩ := h
  obtain ⟨run', hrun'⟩ := h'
  exact ⟨run ++ run', hrun.trans hrun'⟩

lemma Reaches.offset_le (h : p.Reaches q) : p.offset ≤ q.offset := by
  obtain ⟨run, -, hoff⟩ := h
  omega

lemma Reaches.length_le (h : p.Reaches q) : q.rest.length ≤ p.rest.length := by
  obtain ⟨run, hrest, -⟩ := h
  simp [hrest]

lemma Skips.refl (p : Place) : p.Skips p := ⟨[], insignificant_nil, passes_nil.2 rfl⟩

lemma Skips.trans (h : p.Skips q) (h' : q.Skips r) : p.Skips r := by
  obtain ⟨run, hrun, hpass⟩ := h
  obtain ⟨run', hrun', hpass'⟩ := h'
  exact ⟨run ++ run', hrun.append hrun', hpass.trans hpass'⟩

lemma Skips.reaches (h : p.Skips q) : p.Reaches q := by
  obtain ⟨run, -, hpass⟩ := h
  exact ⟨run, hpass⟩

lemma Reads.reaches (h : p.Reads kind e q) : p.Reaches q := by
  obtain ⟨lexeme, hpass, -, -⟩ := h
  exact ⟨lexeme, hpass⟩

lemma Reads.offset_lt (h : p.Reads kind e q) : p.offset < q.offset := by
  obtain ⟨lexeme, ⟨-, hoff⟩, hlex, -⟩ := h
  have := hlex.length_pos
  omega

lemma Reads.length_lt (h : p.Reads kind e q) : q.rest.length < p.rest.length := by
  obtain ⟨lexeme, ⟨hrest, -⟩, hlex, -⟩ := h
  have := hlex.length_pos
  simp only [hrest, List.length_append]
  omega

lemma Reads.span_eq (h : p.Reads kind e q) : e.span = ⟨p.offset, q.offset⟩ := by
  obtain ⟨lexeme, -, -, rfl⟩ := h
  rfl

lemma Reads.span_start (h : p.Reads kind e q) : e.span.start = p.offset := by
  rw [h.span_eq]

lemma Reads.next (h : p.Reads kind e q) : p.Next kind e q := ⟨p, .refl p, h⟩

lemma Next.reaches (h : p.Next kind e q) : p.Reaches q := by
  obtain ⟨m, hskip, hread⟩ := h
  exact hskip.reaches.trans hread.reaches

lemma Next.length_lt (h : p.Next kind e q) : q.rest.length < p.rest.length := by
  obtain ⟨m, hskip, hread⟩ := h
  exact hread.length_lt.trans_le hskip.reaches.length_le

lemma Next.span_stop (h : p.Next kind e q) : e.span.stop = q.offset := by
  obtain ⟨m, -, hread⟩ := h
  rw [hread.span_eq]

lemma Skips.next (h : p.Skips q) (h' : q.Next kind e r) : p.Next kind e r := by
  obtain ⟨m, hskip, hread⟩ := h'
  exact ⟨m, h.trans hskip, hread⟩

end Place

namespace Cursor

/-- The place after the token of a cursor. -/
def place (c : Cursor) : Place := ⟨c.stop, c.rest⟩

/-- The place before the token of a cursor. -/
def origin (c : Cursor) : Place := ⟨c.start, c.lexeme ++ c.rest⟩

/-- The cursor stands on a token of the given kind. -/
def On (kind : TokenKind) (c : Cursor) : Prop :=
  c.token = some kind ∧ Lexeme kind c.lexeme c.rest

/-- The cursor stands on the token that comes next after the place, which is of the given kind. -/
def After (p : Place) (kind : TokenKind) (c : Cursor) : Prop :=
  p.Skips c.origin ∧ c.On kind

variable {c c' : Cursor} {p q : Place} {kind kind' : TokenKind} {e : Excerpt}

@[simp] lemma place_ofText (text : List Char) : (ofText text).place = Place.ofText text := rfl

@[simp] lemma token_ofText (text : List Char) : (ofText text).token = none := rfl

lemma origin_passes (c : Cursor) : c.origin.Passes c.lexeme c.place := ⟨rfl, rfl⟩

lemma On.token_eq (h : c.On kind) : c.token = some kind := h.1

lemma On.reads (h : c.On kind) : c.origin.Reads kind c.excerpt c.place :=
  ⟨c.lexeme, c.origin_passes, h.2, rfl⟩

lemma On.token_ne (h : c.On kind) : c.token ≠ some .endOfInput := by
  rw [h.token_eq, ne_eq, Option.some.injEq]
  exact h.2.kind_ne_endOfInput

lemma On.after (h : c.On kind) : c.After c.origin kind := ⟨.refl _, h⟩

lemma After.next (h : c.After p kind) : p.Next kind c.excerpt c.place :=
  ⟨c.origin, h.1, h.2.reads⟩

/-- Where a token comes next, a cursor can stand on it. -/
lemma exists_after (h : p.Next kind e q) :
    ∃ c : Cursor, c.After p kind ∧ c.excerpt = e ∧ c.place = q := by
  obtain ⟨m, hskip, lexeme, ⟨hrest, hoff⟩, hlex, rfl⟩ := h
  refine ⟨⟨some kind, m.offset, lexeme, q.rest⟩, ⟨?_, rfl, hlex⟩, ?_, ?_⟩
  · rwa [origin, ← hrest]
  · simp [excerpt, Place.excerpt, span, stop, hoff]
  · simp [place, stop, ← hoff]

/-- To read a token is to go to the one cursor that stands on the token which comes next. -/
theorem next_eq_ok_iff :
    c.next = .ok kind c' ↔ c.token ≠ some .endOfInput ∧ c'.After c.place kind := by
  unfold next
  split
  · next h => simp [fail, h]
  next htoken =>
  simp only [ne_eq, htoken, not_false_eq_true, true_and]
  constructor
  · intro h
    rcases hscan : scan c.rest with ⟨n, found⟩
    obtain ⟨run, hrest, rfl, hrun, hfits⟩ := scan_eq_iff.1 hscan
    rw [hscan] at h
    cases found with
    | token kind₀ lexeme rest =>
      simp only [proceed, EStateM.Result.ok.injEq] at h
      obtain ⟨rfl, rfl⟩ := h
      exact ⟨⟨run, hrun, hrest, rfl⟩, rfl, hfits⟩
    | _ => simp [proceed, fail] at h
  · rintro ⟨⟨run, hrun, hrest, hoff⟩, htok, hlex⟩
    have hscan : scan c.rest = (run.length, .token kind c'.lexeme c'.rest) :=
      scan_eq_iff.2 ⟨run, hrest, rfl, hrun, hlex⟩
    have hstart : c'.start = c.stop + run.length := hoff
    rw [hscan, proceed, ← hstart, ← htok]

variable {error : SyntaxError}

lemma faults_or_ends_of_next_eq_error (htoken : c.token ≠ some .endOfInput)
    (h : c.next = .error error c') :
    c.place.Faults error ∨
      c.place.Ends ∧ error =
        ⟨.endOfInput, ⟨c.stop + c.rest.length, c.stop + c.rest.length⟩⟩ := by
  rw [next, if_neg htoken] at h
  rcases hscan : scan c.rest with ⟨n, found⟩
  obtain ⟨run, hrest, rfl, hrun, hfits⟩ := scan_eq_iff.1 hscan
  rw [hscan] at h
  cases found with
  | token kind lexeme rest => simp [proceed] at h
  | truncated cause lexeme =>
    -- a construct that is cut short reaches to the end of the text
    simp only [proceed, fail, EStateM.Result.error.injEq] at h
    obtain ⟨rfl, -⟩ := h
    exact .inl ⟨⟨c.stop + run.length, lexeme⟩, lexeme, [], ⟨run, hrun, hrest, rfl⟩, by simp,
      hfits, rfl⟩
  | loneSlash lexeme rest =>
    simp only [proceed, fail, EStateM.Result.error.injEq] at h
    obtain ⟨rfl, -⟩ := h
    exact .inl ⟨⟨c.stop + run.length, lexeme ++ rest⟩, lexeme, rest, ⟨run, hrun, hrest, rfl⟩,
      rfl, hfits, rfl⟩
  | nothing =>
    obtain rfl : c.rest = run := by simpa [Found.text] using hrest
    simp only [proceed, fail, EStateM.Result.error.injEq] at h
    obtain ⟨rfl, -⟩ := h
    exact .inr ⟨hrun, rfl⟩

lemma exists_next_eq_error_of_faults (htoken : c.token ≠ some .endOfInput)
    (h : c.place.Faults error) : ∃ c', c.next = .error error c' := by
  obtain ⟨m, lexeme, after, ⟨run, hrun, hrest, hoff⟩, hm, hbreaks, hspan⟩ := h
  have hstart : m.offset = c.stop + run.length := hoff
  obtain ⟨fault, span⟩ := error
  obtain rfl : span = _ := hspan
  rw [hstart, next, if_neg htoken]
  change c.rest = run ++ m.rest at hrest
  -- the scanner tells what is cut short by the end of the text from a slash
  rcases hbreaks.fault_cases with ⟨cause, rfl, rfl⟩ | rfl
  · have hscan : scan c.rest = (run.length, .truncated cause lexeme) :=
      scan_eq_iff.2 ⟨run, by simp [hrest, hm, Found.text], rfl, hrun, hbreaks⟩
    rw [hscan]
    exact ⟨_, rfl⟩
  · have hscan : scan c.rest = (run.length, .loneSlash lexeme after) :=
      scan_eq_iff.2 ⟨run, by simp [hrest, hm, Found.text], rfl, hrun, hbreaks⟩
    rw [hscan]
    exact ⟨_, rfl⟩

lemma exists_next_eq_error_of_ends (htoken : c.token ≠ some .endOfInput) (h : c.place.Ends) :
    ∃ c', c.next =
      .error ⟨.endOfInput, ⟨c.stop + c.rest.length, c.stop + c.rest.length⟩⟩ c' := by
  have hscan : scan c.rest = (c.rest.length, .nothing) :=
    scan_eq_iff.2 ⟨c.rest, by simp [Found.text], rfl, h, trivial⟩
  rw [next, if_neg htoken, hscan]
  exact ⟨_, rfl⟩

/-- Reading fails where the table has a fault, and where no token comes any more. -/
theorem next_eq_error_iff (htoken : c.token ≠ some .endOfInput) :
    (∃ c', c.next = .error error c') ↔
      c.place.Faults error ∨
        c.place.Ends ∧ error =
          ⟨.endOfInput, ⟨c.stop + c.rest.length, c.stop + c.rest.length⟩⟩ := by
  constructor
  · rintro ⟨c', h⟩
    exact faults_or_ends_of_next_eq_error htoken h
  · rintro (hfaults | ⟨hends, rfl⟩)
    · exact exists_next_eq_error_of_faults htoken hfaults
    · exact exists_next_eq_error_of_ends htoken hends

/-! ### What comes next is determined -/

/-- The cursor that has read up to a place and holds no token. -/
def upTo (p : Place) : Cursor := ⟨none, p.offset, [], p.rest⟩

@[simp] lemma place_upTo (p : Place) : (upTo p).place = p := rfl

@[simp] lemma token_upTo (p : Place) : (upTo p).token = none := rfl

lemma next_upTo_eq_ok (h : c.After p kind) : (upTo p).next = .ok kind c :=
  next_eq_ok_iff.2 ⟨by simp, h⟩

/-- Only one cursor stands on the token that comes next. -/
lemma After.unique (h : c.After p kind) (h' : c'.After p kind') : c = c' ∧ kind = kind' := by
  have hread := next_upTo_eq_ok h
  rw [next_upTo_eq_ok h'] at hread
  simp only [EStateM.Result.ok.injEq] at hread
  exact ⟨hread.2.symm, hread.1.symm⟩

/-- A cursor that stands on the token which comes next knows all about that token. -/
lemma After.of_next (h : c.After p kind) (hnext : p.Next kind' e q) :
    kind = kind' ∧ c.excerpt = e ∧ c.place = q := by
  obtain ⟨c', h', rfl, rfl⟩ := exists_after hnext
  obtain ⟨rfl, rfl⟩ := h.unique h'
  exact ⟨rfl, rfl, rfl⟩

end Cursor

namespace Place

variable {p q : Place} {kind : TokenKind} {e : Excerpt} {error error' : SyntaxError}

lemma Faults.exists_next_eq (h : p.Faults error) :
    ∃ c, (Cursor.upTo p).next = .error error c :=
  (Cursor.next_eq_error_iff (by simp)).2 (.inl h)

/-- Only one token comes next. -/
lemma Next.unique {q' : Place} {kind' : TokenKind} {e' : Excerpt} (h : p.Next kind e q)
    (h' : p.Next kind' e' q') : kind = kind' ∧ e = e' ∧ q = q' := by
  obtain ⟨c, hc, rfl, rfl⟩ := Cursor.exists_after h
  exact hc.of_next h'

lemma Next.not_faults (h : p.Next kind e q) : ¬ p.Faults error := by
  intro hfaults
  obtain ⟨c, hc, -, -⟩ := Cursor.exists_after h
  obtain ⟨c', hc'⟩ := hfaults.exists_next_eq
  rw [Cursor.next_upTo_eq_ok hc] at hc'
  exact absurd hc' nofun

/-- Before a token not everything is passed over. -/
lemma Next.not_ends (h : p.Next kind e q) : ¬ p.Ends := by
  intro hends
  obtain ⟨m, ⟨run, -, hrest, -⟩, lexeme, ⟨hm, -⟩, hlex, -⟩ := h
  obtain ⟨c, rest, rfl, hc⟩ := hlex.exists_cons
  have := hends c (by simp [hrest, hm])
  simp [hc] at this

/-- Before a fault not everything is passed over. -/
lemma Faults.not_ends (h : p.Faults error) : ¬ p.Ends := by
  intro hends
  obtain ⟨m, lexeme, after, ⟨run, -, hrest, -⟩, hm, hbreaks, -⟩ := h
  obtain ⟨c, rest, rfl, hc⟩ := hbreaks.exists_cons
  have := hends c (by simp [hrest, hm])
  simp [hc] at this

/-- A fault of the table is not the end of the input. -/
lemma Faults.family_ne_boundary (h : p.Faults error) : error.fault.family ≠ .boundary := by
  obtain ⟨m, lexeme, after, -, -, hbreaks, -⟩ := h
  rcases hbreaks.fault_cases with ⟨cause, hfault, -⟩ | hfault <;> simp [hfault, Fault.family]

/-- There is one fault at most. -/
lemma Faults.unique (h : p.Faults error) (h' : p.Faults error') : error = error' := by
  obtain ⟨c, hc⟩ := h.exists_next_eq
  obtain ⟨c', hc'⟩ := h'.exists_next_eq
  rw [hc] at hc'
  exact (EStateM.Result.error.inj hc').1

end Place

end EmbeddedJsx
