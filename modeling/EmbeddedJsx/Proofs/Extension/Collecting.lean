import EmbeddedJsx.Proofs.Extension.Productions
import EmbeddedJsx.Proofs.Runs.Constructs

/-!
# Collecting in longer texts

`Collects` says how collecting goes from a place to the end of the text or to an error, without a
bound on its rounds.  In that form the two runs that are put together in a longer text fit: where
the first text ends, collecting goes on with the second (`Collects.embed_end`), and an error that
has nothing to do with the end of the first text ends both (`Collects.embed_error`).

Between the two texts one thing may happen.  A word at the end of the first text grows into the
second, and what is left of the second begins in the middle of a word.  As words at the top are
passed over, this makes no difference (`Collects.after_word`).
-/

namespace EmbeddedJsx

open Text Production

/-! ### Skipping less -/

namespace Place

variable {p m q : Place} {kind : TokenKind} {e : Excerpt} {error : SyntaxError}

/-- What is passed over before something significant ends there. -/
lemma Skips.of_skips (h : p.Skips m) (h' : p.Skips q)
    (hm : ∃ d rest, m.rest = d :: rest ∧ isSignificant d = true) : q.Skips m := by
  obtain ⟨run, hrun, hrest, hoff⟩ := h
  obtain ⟨run', hrun', hrest', hoff'⟩ := h'
  obtain ⟨d, rest, hd, hsignificant⟩ := hm
  rw [hrest] at hrest'
  rcases List.append_eq_append_iff.1 hrest' with ⟨gap, rfl, hgap⟩ | ⟨gap, rfl, hgap⟩
  · cases gap with
    | nil =>
      refine ⟨[], insignificant_nil, by simpa using hgap.symm, ?_⟩
      simp only [List.append_nil] at hoff'
      simp [hoff, hoff']
    | cons x gap =>
      -- something significant would have been passed over
      rw [hd, List.cons_append] at hgap
      obtain ⟨rfl, -⟩ := List.cons.inj hgap
      have hx := hrun' d (by simp)
      rw [hsignificant] at hx
      exact absurd hx (by simp)
  · refine ⟨gap, fun c hc => hrun c (List.mem_append_right _ hc), hgap, ?_⟩
    rw [hoff, hoff', List.length_append]
    omega

lemma Faults.of_skips (h : p.Faults error) (h' : p.Skips q) : q.Faults error := by
  obtain ⟨r, lexeme, after, hskip, hrest, hbreaks, hspan⟩ := h
  refine ⟨r, lexeme, after, hskip.of_skips h' ?_, hrest, hbreaks, hspan⟩
  obtain ⟨d, rest, rfl, hd⟩ := hbreaks.exists_cons
  exact ⟨d, rest ++ after, hrest, hd⟩

lemma Ends.of_skips (h : p.Ends) (h' : p.Skips q) : q.Ends := by
  obtain ⟨run, -, hrest, -⟩ := h'
  exact fun c hc => h c (by simp [hrest, hc])

lemma Ends.skips (h : q.Ends) (h' : p.Skips q) : p.Ends := by
  obtain ⟨run, hrun, hrest, -⟩ := h'
  rw [Place.Ends, hrest]
  exact hrun.append h

lemma Faults.skips (h : q.Faults error) (h' : p.Skips q) : p.Faults error := by
  obtain ⟨r, lexeme, after, hskip, hr⟩ := h
  exact ⟨r, lexeme, after, h'.trans hskip, hr⟩

end Place

lemma Cursor.After.of_skips {p q : Place} {c : Cursor} {kind : TokenKind} (h : c.After p kind)
    (h' : p.Skips q) : c.After q kind := by
  refine ⟨h.1.of_skips h' ?_, h.2⟩
  obtain ⟨d, rest, hlexeme, hd⟩ := h.2.2.exists_cons
  exact ⟨d, rest ++ c.rest, by rw [Cursor.origin, hlexeme]; rfl, hd⟩

/-- What continues an identifier and does not begin one belongs to no token. -/
lemma insignificant_of_continue {d : Char} (hd : isIdentifierContinue d = true)
    (hstart : isIdentifierStart d = false) : isSignificant d = false := by
  have hothers : ∀ x ∈ ['<', '/', '>', '=', '{', '}', ',', ':', '"', '\'', '.'],
      isIdentifierContinue x = false := by
    simp only [List.forall_mem_cons, List.not_mem_nil, false_imp_iff, implies_true, and_true]
    and_intros <;> decide
  by_contra hsignificant
  simp only [isSignificant, hstart, Bool.or_false, Bool.not_eq_false, decide_eq_true_eq]
    at hsignificant
  rw [hothers d hsignificant] at hd
  exact absurd hd (by simp)

/-! ### How collecting goes -/

/-- From the place to the end of the text, or to the error, the nodes are collected. -/
inductive Collects (markup : Production Node) : Place → List Node → Option SyntaxError → Prop where
  /-- No token comes any more. -/
  | done {p : Place} : p.Ends → Collects markup p [] none
  /-- What comes is no token. -/
  | fault {p : Place} {error : SyntaxError} :
      p.Faults error → Collects markup p [] (some error)
  /-- A token that begins no markup is passed over. -/
  | token {p : Place} {c : Cursor} {kind : TokenKind} {nodes : List Node}
      {error? : Option SyntaxError} :
      c.After p kind → kind.opensMarkup = false → Collects markup c.place nodes error? →
      Collects markup p nodes error?
  /-- Markup is collected. -/
  | markup {p : Place} {c c' : Cursor} {kind : TokenKind} {node : Node} {nodes : List Node}
      {error? : Option SyntaxError} :
      c.After p kind → kind.opensMarkup = true → markup c = .ok node c' →
      Collects markup c'.place nodes error? → Collects markup p (node :: nodes) error?
  /-- What should be markup is refused. -/
  | refused {p : Place} {c c' : Cursor} {kind : TokenKind} {error : SyntaxError} :
      c.After p kind → kind.opensMarkup = true → markup c = .error (.fault error) c' →
      Collects markup p [] (some error)

namespace Collects

variable {nested nested' : Production Node} {p q : Place} {nodes nodes' : List Node}
  {error? error?' : Option SyntaxError} {error : SyntaxError} {levels : ℕ}

lemma of_skips (h : Collects nested p nodes error?) (hskip : p.Skips q) :
    Collects nested q nodes error? := by
  cases h with
  | done hends => exact .done (hends.of_skips hskip)
  | fault hfaults => exact .fault (hfaults.of_skips hskip)
  | token hafter hkind hrest => exact .token (hafter.of_skips hskip) hkind hrest
  | markup hafter hkind hnode hrest => exact .markup (hafter.of_skips hskip) hkind hnode hrest
  | refused hafter hkind hnode => exact .refused (hafter.of_skips hskip) hkind hnode

lemma skips (h : Collects nested q nodes error?) (hskip : p.Skips q) :
    Collects nested p nodes error? := by
  cases h with
  | done hends => exact .done (hends.skips hskip)
  | fault hfaults => exact .fault (hfaults.skips hskip)
  | token hafter hkind hrest => exact .token ⟨hskip.trans hafter.1, hafter.2⟩ hkind hrest
  | markup hafter hkind hnode hrest =>
    exact .markup ⟨hskip.trans hafter.1, hafter.2⟩ hkind hnode hrest
  | refused hafter hkind hnode => exact .refused ⟨hskip.trans hafter.1, hafter.2⟩ hkind hnode

/-- Where an identifier comes next, collecting goes on after it. -/
lemma of_identifier {e : Excerpt} (h : Collects nested p nodes error?)
    (hnext : p.Next .identifier e q) : Collects nested q nodes error? := by
  cases h with
  | done hends => exact absurd hends hnext.not_ends
  | fault hfaults => exact absurd hfaults hnext.not_faults
  | token hafter _ hrest =>
    obtain ⟨-, -, rfl⟩ := hafter.of_next hnext
    exact hrest
  | markup hafter hkind _ _ | refused hafter hkind _ =>
    obtain ⟨rfl, -, -⟩ := hafter.of_next hnext
    exact absurd hkind (by decide)

/-- In the middle of a word, collecting goes on after the word. -/
lemma after_word {o : ℕ} {word rest : List Char}
    (hword : ∀ d ∈ word, isIdentifierContinue d = true)
    (hrest : ∀ d ∈ rest.head?, isIdentifierContinue d = false)
    (h : Collects nested ⟨o, word ++ rest⟩ nodes error?) :
    Collects nested ⟨o + word.length, rest⟩ nodes error? := by
  induction word generalizing o with
  | nil => exact h
  | cons d word ih =>
    obtain ⟨hd, hword⟩ := List.forall_mem_cons.1 hword
    cases hstart : isIdentifierStart d with
    | true =>
      -- what is left of the word is an identifier
      refine h.of_identifier (Place.Reads.next ⟨d :: word, ⟨rfl, rfl⟩, ?_, rfl⟩)
      exact .identifier hstart hword hrest
    | false =>
      have hskip : Place.Skips ⟨o, d :: word ++ rest⟩ ⟨o + 1, word ++ rest⟩ :=
        ⟨[d], by simpa [Insignificant] using insignificant_of_continue hd hstart, rfl, rfl⟩
      have hafter := ih hword (h.of_skips hskip)
      rwa [Nat.add_assoc, Nat.add_comm 1] at hafter

/-! ### In a longer text -/

variable {E : Embedding}

/-- Where a cursor of the text leads on, that of the longer text does, though its token may have
grown. -/
lemma of_place {c : Cursor} (h : Collects nested (E.place c.place) nodes error?) :
    Collects nested (E.cursor c).place nodes error? := by
  by_cases hgrows : c.AtGrowingEnd
  · have hplace : E.place c.place =
        ⟨c.stop + E.front, E.more.takeWhile isIdentifierContinue ++
          E.more.dropWhile isIdentifierContinue⟩ := by
      rw [List.takeWhile_append_dropWhile, Embedding.place, Cursor.place, hgrows.2, List.nil_append]
    have hcursor : (E.cursor c).place =
        ⟨c.stop + E.front + (E.more.takeWhile isIdentifierContinue).length,
          E.more.dropWhile isIdentifierContinue⟩ := by
      rw [Embedding.cursor_of_growing hgrows]
      simp only [Cursor.place, Cursor.stop, List.length_append, Place.mk.injEq, and_true]
      omega
    rw [hplace] at h
    rw [hcursor]
    exact h.after_word (fun d hd => List.mem_takeWhile_imp hd) fun d hd =>
      eq_false_of_mem_head?_dropWhile hd
  · rwa [Embedding.cursor_place (.inl hgrows)]

/-- A cursor on the token after a place of the text stands in the text. -/
lemma within_of_after {c : Cursor} {kind : TokenKind} {text : List Char} (hp : p.InText text)
    (h : c.After p kind) : c.Within text := by
  have horigin := hp.reaches h.1.reaches
  exact ⟨horigin.offset_le, horigin.rest_eq.symm⟩

lemma cursor_after {c : Cursor} {kind : TokenKind} (hc : c.Within E.text) (h : c.After p kind) :
    (E.cursor c).After (E.place p) kind :=
  ⟨Embedding.cursor_origin c ▸ Embedding.place_skips h.1, Embedding.cursor_on hc h.2⟩

section Embed

variable (hsimulates : E.Simulates (Node.shift E.front) nested nested')
include hsimulates

/-- Where nothing fails in the text, collecting goes on after it. -/
lemma embed_end (h : Collects nested p nodes error?) (hp : p.InText E.text)
    (hnone : error? = none)
    (hmore : Collects nested' ⟨E.text.length + E.front, E.more⟩ nodes' error?') :
    Collects nested' (E.place p) (Node.shiftAll E.front nodes ++ nodes') error?' := by
  induction h with
  | done hends =>
    -- what is left of the text is passed over
    refine hmore.skips ⟨_, hends, rfl, ?_⟩
    have hlen := hp.offset_add_length
    simp only [Embedding.place]
    omega
  | token hafter hkind _ ih =>
    have hc := within_of_after hp hafter
    exact .token (cursor_after hc hafter) hkind (ih hc.inText_place hnone).of_place
  | markup hafter hkind hnode _ ih =>
    have hc := within_of_after hp hafter
    obtain ⟨hnode', hc'⟩ := hsimulates.answer hc hnode
    exact .markup (cursor_after hc hafter) hkind hnode' (ih hc'.inText_place hnone).of_place
  | fault | refused => simp at hnone

/-- An error that has nothing to do with the end of the text is one of the longer text. -/
lemma embed_error (h : Collects nested p nodes error?) (hp : p.InText E.text)
    (hsome : error? = some error) (hkeeps : E.Keeps error) :
    ∃ error', E.Moves error error' ∧
      Collects nested' (E.place p) (Node.shiftAll E.front nodes) (some error') := by
  induction h with
  | done => simp at hsome
  | fault hfaults =>
    obtain rfl := Option.some.inj hsome
    exact ⟨_, Embedding.moves_shift _, .fault (Embedding.place_faults hfaults hkeeps)⟩
  | token hafter hkind _ ih =>
    have hc := within_of_after hp hafter
    obtain ⟨error', hmoves, hrest⟩ := ih hc.inText_place hsome
    exact ⟨error', hmoves, .token (cursor_after hc hafter) hkind hrest.of_place⟩
  | markup hafter hkind hnode _ ih =>
    have hc := within_of_after hp hafter
    obtain ⟨hnode', hc'⟩ := hsimulates.answer hc hnode
    obtain ⟨error', hmoves, hrest⟩ := ih hc'.inText_place hsome
    exact ⟨error', hmoves, .markup (cursor_after hc hafter) hkind hnode' hrest.of_place⟩
  | refused hafter hkind hnode =>
    obtain rfl := Option.some.inj hsome
    have hc := within_of_after hp hafter
    obtain ⟨error', c', hnode', hmoves⟩ := hsimulates.failure hc hnode hkeeps
    exact ⟨error', hmoves, .refused (cursor_after hc hafter) hkind hnode'⟩

end Embed

end Collects

end EmbeddedJsx
