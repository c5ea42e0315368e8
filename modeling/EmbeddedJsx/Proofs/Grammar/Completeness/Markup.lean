import EmbeddedJsx.Production.Markup
import EmbeddedJsx.Proofs.Grammar.Completeness.Names
import EmbeddedJsx.Proofs.Grammar.Depth
import EmbeddedJsx.Proofs.Lexical.Raw

/-!
# Constructs of the grammar are read

Whatever the grammar derives is read by the production for it, if loops have more steps than there
are characters left and nesting is allowed deep enough.  `Complete` says what that means for each
kind of phrase, and `derives_complete` proves it by induction on the derivation.

The loops over expressions and children are read from one token to the next.  For them the
statement is about what comes after the phrase as well: if the loop, called after the phrase, would
answer with some nodes, then, called before the phrase, it answers with those of the phrase in
front of them.
-/

namespace EmbeddedJsx.Production

open Grammar

variable {c c' : Cursor} {p q : Place} {node : Node} {nodes : List Node} {steps : ℕ}

/-! ### First tokens -/

lemma markup_first (h : Derives (.markup node) p q) :
    ∃ kind e a, (kind = .tagOpen ∨ kind = .fragmentOpen) ∧ p.Reads kind e a := by
  cases h with
  | selfClosed h _ _ _ => exact ⟨_, _, _, .inl rfl, h⟩
  | element h _ _ _ _ _ _ _ _ => exact ⟨_, _, _, .inl rfl, h⟩
  | fragment h _ _ => exact ⟨_, _, _, .inr rfl, h⟩

lemma expression_first (h : Derives (.expression node) p q) :
    ∃ e a, p.Reads .braceOpen e a := by
  cases h with
  | expression h _ _ _ _ => exact ⟨_, _, h⟩

lemma value_first (h : Derives (.value node) p q) : ∃ c : Cursor, c.Follows p := by
  cases h with
  | valueString h =>
    obtain ⟨c, -, hc⟩ := Cursor.exists_follows h
    exact ⟨c, hc⟩
  | valueExpression hskip h =>
    obtain ⟨e, a, hread⟩ := expression_first h
    obtain ⟨c, -, hc⟩ := Cursor.exists_follows (hskip.next hread.next)
    exact ⟨c, hc⟩
  | valueMarkup hskip h =>
    obtain ⟨kind, e, a, -, hread⟩ := markup_first h
    obtain ⟨c, -, hc⟩ := Cursor.exists_follows (hskip.next hread.next)
    exact ⟨c, hc⟩

lemma attribute_first (h : Derives (.attribute node) p q) :
    ∃ c : Cursor, c.Follows p ∧ (c.token = some .braceOpen ∨ c.token = some .identifier) := by
  cases h with
  | spread hskip hread _ _ _ =>
    obtain ⟨c, hafter, hc⟩ := Cursor.exists_follows (hskip.next hread.next)
    exact ⟨c, hc, .inl hafter.2.token_eq⟩
  | bareAttribute h =>
    obtain ⟨c, hafter, hc⟩ := attributeName_first h
    exact ⟨c, hc, .inr hafter.2.token_eq⟩
  | setAttribute h _ _ =>
    obtain ⟨c, hafter, hc⟩ := attributeName_first h
    exact ⟨c, hc, .inr hafter.2.token_eq⟩

/-- A token that ends a tag. -/
def EndsTag (kind : TokenKind) : Prop := kind = .tagClose ∨ kind = .selfClose

/-- Before an attribute, and where a tag ends, stands no token with which a name or an attribute
goes on. -/
lemma attributes_first {kind : TokenKind} (h : Derives (.attributes nodes) p q)
    (hc' : c'.After q kind) (hkind : EndsTag kind) :
    ∃ c : Cursor, c.Follows p ∧ c.token ≠ some .dot ∧ c.token ≠ some .colon ∧
      c.token ≠ some .assign := by
  cases h with
  | attributesNil =>
    refine ⟨c', hc'.follows, ?_⟩
    rw [hc'.2.token_eq]
    rcases hkind with rfl | rfl <;> simp
  | attributesCons h _ =>
    obtain ⟨c, hc, htoken⟩ := attribute_first h
    refine ⟨c, hc, ?_⟩
    rcases htoken with htoken | htoken <;> simp [htoken]

/-! ### What it is to be complete -/

/-- The production for the phrase reads it, wherever nesting is allowed deep enough for it. -/
def Complete (steps : ℕ) : Phrase → Place → Place → Prop
  | .markup node, p, q => ∀ levels c, node.depth ≤ levels → c.Stands → c.origin = p →
    p.rest.length < steps →
    ∃ c', markup steps levels c = .ok node c' ∧ c'.Stands ∧ c'.place = q
  | .expression node, p, q => ∀ levels c, node.depth ≤ levels → c.Stands → c.origin = p →
    p.rest.length < steps →
    ∃ c', expression (markup steps levels) steps c = .ok node c' ∧ c'.Stands ∧ c'.place = q
  | .body nodes, p, q => ∀ levels depth later last, Node.deepest nodes ≤ levels →
    p.rest.length < steps →
    (∀ c k, c.token ≠ some .endOfInput → c.place = q → q.rest.length < k →
      expressionMarkup (markup steps levels) k depth c = .ok later last) →
    ∀ c k, c.token ≠ some .endOfInput → c.place = p → p.rest.length < k →
      expressionMarkup (markup steps levels) k depth c = .ok (nodes ++ later) last
  | .value node, p, q => ∀ levels c, node.depth ≤ levels → c.Follows p → p.rest.length < steps →
    ∃ c', assigned (markup steps levels) steps c = .ok node c' ∧ c'.Stands ∧ c'.place = q
  | .attribute node, p, q => ∀ levels c c', node.depth ≤ levels → c.Follows p → c'.Follows q →
    c'.token ≠ some .colon → c'.token ≠ some .assign → p.rest.length < steps →
    oneAttribute (markup steps levels) steps c = .ok (some node) c'
  | .attributes nodes, p, q => ∀ levels kind c c' k, Node.deepest nodes ≤ levels →
    c.Follows p → c'.After q kind → EndsTag kind → p.rest.length < steps → p.rest.length < k →
    attributes (markup steps levels) steps k c = .ok nodes c'
  | .child node, p, q => ∀ levels later last, node.depth ≤ levels → p.rest.length < steps →
    (∀ c k, c.token ≠ some .endOfInput → c.place = q → q.rest.length < k →
      children (markup steps levels) steps k c = .ok later last) →
    ∀ c k, c.token ≠ some .endOfInput → c.place = p → p.rest.length < k →
      children (markup steps levels) steps k c = .ok (node :: later) last
  | .children nodes, p, q => ∀ levels kind last, Node.deepest nodes ≤ levels →
    last.On kind → last.origin = q → kind = .closingOpen ∨ kind = .fragmentClose →
    p.rest.length < steps →
    ∀ c k, c.token ≠ some .endOfInput → c.place = p → p.rest.length < k →
      children (markup steps levels) steps k c = .ok nodes last

lemma exists_succ {k n : ℕ} (h : n < k) : ∃ k', k = k' + 1 :=
  Nat.exists_eq_succ_of_ne_zero (Nat.ne_zero_of_lt h)

/-! ### Expressions -/

section Expressions

variable {nested : Production Node} {k depth : ℕ} {c₁ : Cursor} {kind : TokenKind}

lemma advance_bind {α : Type} (htoken : c.token ≠ some .endOfInput) (h : c₁.After c.place kind)
    (f : Unit → Production α) : (advance >>= f) c = f () c₁ := by
  simp only [bind, EStateM.bind, advance_complete htoken h.follows]

lemma expressionMarkup_braceOpen (htoken : c.token ≠ some .endOfInput)
    (h : c₁.After c.place .braceOpen) :
    expressionMarkup nested (k + 1) depth c = expressionMarkup nested k (depth + 1) c₁ := by
  refine (advance_bind htoken h _).trans ?_
  simp only [bind, EStateM.bind, current_apply, h.2.token_eq]

lemma expressionMarkup_braceClose (htoken : c.token ≠ some .endOfInput)
    (h : c₁.After c.place .braceClose) :
    expressionMarkup nested (k + 1) (depth + 1) c = expressionMarkup nested k depth c₁ := by
  refine (advance_bind htoken h _).trans ?_
  simp only [bind, EStateM.bind, current_apply, h.2.token_eq]

lemma expressionMarkup_end (htoken : c.token ≠ some .endOfInput)
    (h : c₁.After c.place .braceClose) :
    expressionMarkup nested (k + 1) 0 c = .ok [] c₁ := by
  refine (advance_bind htoken h _).trans ?_
  simp only [bind, EStateM.bind, current_apply, h.2.token_eq, pure_apply]

lemma expressionMarkup_token (htoken : c.token ≠ some .endOfInput) (h : c₁.After c.place kind)
    (htag : kind ≠ .tagOpen) (hfragment : kind ≠ .fragmentOpen) (hopen : kind ≠ .braceOpen)
    (hclose : kind ≠ .braceClose) :
    expressionMarkup nested (k + 1) depth c = expressionMarkup nested k depth c₁ := by
  refine (advance_bind htoken h _).trans ?_
  simp only [bind, EStateM.bind, current_apply, h.2.token_eq]
  split <;> simp_all

lemma expressionMarkup_markup {last : Cursor} (htoken : c.token ≠ some .endOfInput)
    (h : c₁.After c.place kind) (hkind : kind = .tagOpen ∨ kind = .fragmentOpen)
    (hnode : nested c₁ = .ok node c') (hnodes : expressionMarkup nested k depth c' = .ok nodes last) :
    expressionMarkup nested (k + 1) depth c = .ok (node :: nodes) last := by
  refine (advance_bind htoken h _).trans ?_
  rcases hkind with rfl | rfl <;>
    simp only [bind, EStateM.bind, current_apply, h.2.token_eq, hnode, hnodes, pure_apply]

end Expressions

lemma body_complete_token {p a q : Place} {kind : TokenKind} {e : Excerpt}
    (hnext : p.Next kind e a) (htag : kind ≠ .tagOpen) (hfragment : kind ≠ .fragmentOpen)
    (hopen : kind ≠ .braceOpen) (hclose : kind ≠ .braceClose)
    (ih : Complete steps (.body nodes) a q) : Complete steps (.body nodes) p q := by
  rintro levels depth later last hdepth hsteps hlater c k htoken rfl hk
  obtain ⟨k, rfl⟩ := exists_succ hk
  obtain ⟨c₁, hc₁, -, rfl⟩ := Cursor.exists_after hnext
  have hshort := hnext.length_lt
  rw [expressionMarkup_token htoken hc₁ htag hfragment hopen hclose]
  exact ih levels depth later last hdepth (by omega) hlater c₁ k hc₁.2.token_ne rfl (by omega)

lemma body_complete_markup {p m a q : Place} (hskip : p.Skips m)
    (hderives : Derives (.markup node) m a) (ih : Complete steps (.markup node) m a)
    (ih' : Complete steps (.body nodes) a q) : Complete steps (.body (node :: nodes)) p q := by
  rintro levels depth later last hdepth hsteps hlater c k htoken rfl hk
  obtain ⟨k, rfl⟩ := exists_succ hk
  obtain ⟨kind, e, x, hkind, hread⟩ := markup_first hderives
  obtain ⟨c₁, hc₁, rfl, -, -⟩ := Cursor.exists_on hread
  obtain ⟨hnode, hnodes⟩ := Nat.max_le.1 hdepth
  have hlen := hskip.reaches.length_le
  have hshort := hderives.markup_length_lt
  obtain ⟨c₂, hread₂, hc₂, rfl⟩ := ih levels c₁ hnode hc₁.stands rfl (by omega)
  refine expressionMarkup_markup htoken ⟨hskip, hc₁⟩ hkind hread₂ ?_
  exact ih' levels depth later last hnodes (by omega) hlater c₂ k hc₂.token_ne rfl (by omega)

lemma body_complete_braces {p a b d q : Place} {opening close : Excerpt} {inner : List Node}
    (hopen : p.Next .braceOpen opening a) (hinner : Derives (.body inner) a b)
    (hclose : b.Next .braceClose close d) (ih : Complete steps (.body inner) a b)
    (ih' : Complete steps (.body nodes) d q) : Complete steps (.body (inner ++ nodes)) p q := by
  rintro levels depth later last hdepth hsteps hlater c k htoken rfl hk
  obtain ⟨k, rfl⟩ := exists_succ hk
  obtain ⟨c₁, hc₁, -, rfl⟩ := Cursor.exists_after hopen
  rw [Node.deepest_append] at hdepth
  obtain ⟨hleft, hright⟩ := Nat.max_le.1 hdepth
  have hlen := hinner.reaches.length_le
  have hshort := hopen.length_lt
  have hshort' := hclose.length_lt
  rw [expressionMarkup_braceOpen htoken hc₁, List.append_assoc]
  refine ih levels (depth + 1) (nodes ++ later) last hleft (by omega) ?_ c₁ k hc₁.2.token_ne rfl
    (by omega)
  -- the right brace leads back to the depth at which the left one was read
  rintro c k htoken rfl hk
  obtain ⟨k, rfl⟩ := exists_succ hk
  obtain ⟨c₂, hc₂, -, rfl⟩ := Cursor.exists_after hclose
  rw [expressionMarkup_braceClose htoken hc₂]
  exact ih' levels depth later last hright (by omega) hlater c₂ k hc₂.2.token_ne rfl (by omega)

lemma expression_complete {p a b m q : Place} {opening close : Excerpt} {inside : List Char}
    (hopen : p.Reads .braceOpen opening a) (hbody : Derives (.body nodes) a b)
    (hskip : b.Skips m) (hclose : m.Reads .braceClose close q) (hinside : a.Passes inside m)
    (ih : Complete steps (.body nodes) a b) :
    Complete steps (.expression (.expression ⟨p.offset, q.offset⟩ ⟨a.offset, m.offset⟩
      (String.ofList inside) nodes)) p q := by
  rintro levels c hdepth hc rfl hsteps
  obtain ⟨hon, -, rfl⟩ := hc.of_reads hopen
  obtain ⟨c', hc', rfl, -, rfl⟩ := Cursor.exists_on hclose
  have hshort := hopen.length_lt
  have hlen := hbody.reaches.length_le
  have hnodes : expressionMarkup (markup steps levels) steps 0 c = .ok nodes c' := by
    have hend := ih levels 0 [] c' hdepth (by omega) ?_ c steps hc.token_ne rfl (by omega)
    · rwa [List.append_nil] at hend
    · -- after the body no brace is open, so that the right brace ends the loop
      rintro c k htoken rfl hk
      obtain ⟨k, rfl⟩ := exists_succ hk
      exact expressionMarkup_end htoken ⟨hskip, hc'⟩
  have htext : c.rest.take (c'.start - c.stop) = inside := hinside.take_rest
  refine ⟨c', ?_, hc'.stands, rfl⟩
  refine bind_eq_ok.2 ⟨_, c, expect_eq_ok.2 ⟨hon.token_eq, rfl, rfl⟩, ?_⟩
  refine bind_eq_ok.2 ⟨c, c, get_apply, ?_⟩
  refine bind_eq_ok.2 ⟨nodes, c', hnodes, ?_⟩
  refine bind_eq_ok.2 ⟨c', c', get_apply, ?_⟩
  simp only [htext, pure_apply]
  rfl

/-! ### Attributes -/

lemma value_complete_string {e : Excerpt} (hnext : p.Next .string e q) :
    Complete steps (.value (.string e.span e.text)) p q := by
  rintro levels c - hc -
  obtain ⟨hafter, rfl, rfl⟩ := hc.of_next hnext
  refine ⟨c, ?_, hc.stands, rfl⟩
  refine bind_eq_ok.2 ⟨_, c, current_apply, ?_⟩
  rw [hafter.2.token_eq]
  exact bind_eq_ok.2 ⟨_, c, expect_eq_ok.2 ⟨hafter.2.token_eq, rfl, rfl⟩, rfl⟩

lemma value_complete_expression {m : Place} (hskip : p.Skips m)
    (hderives : Derives (.expression node) m q) (ih : Complete steps (.expression node) m q) :
    Complete steps (.value node) p q := by
  rintro levels c hdepth hc hsteps
  obtain ⟨e, a, hread⟩ := expression_first hderives
  obtain ⟨c₁, hon, rfl, -, -⟩ := Cursor.exists_on hread
  obtain rfl := hc.unique ⟨_, hskip, hon⟩
  obtain ⟨c', hnode, hc', hplace⟩ :=
    ih levels c hdepth hon.stands rfl (hskip.reaches.length_le.trans_lt hsteps)
  refine ⟨c', ?_, hc', hplace⟩
  refine bind_eq_ok.2 ⟨_, c, current_apply, ?_⟩
  rw [hon.token_eq]
  exact hnode

lemma value_complete_markup {m : Place} (hskip : p.Skips m)
    (hderives : Derives (.markup node) m q) (ih : Complete steps (.markup node) m q) :
    Complete steps (.value node) p q := by
  rintro levels c hdepth hc hsteps
  obtain ⟨kind, e, a, hkind, hread⟩ := markup_first hderives
  obtain ⟨c₁, hon, rfl, -, -⟩ := Cursor.exists_on hread
  obtain rfl := hc.unique ⟨_, hskip, hon⟩
  obtain ⟨c', hnode, hc', hplace⟩ :=
    ih levels c hdepth hon.stands rfl (hskip.reaches.length_le.trans_lt hsteps)
  refine ⟨c', ?_, hc', hplace⟩
  refine bind_eq_ok.2 ⟨_, c, current_apply, ?_⟩
  rw [hon.token_eq]
  rcases hkind with rfl | rfl <;> exact hnode

lemma attribute_complete_spread {m a b d q : Place} {opening dots argument close : Excerpt}
    (hskip : p.Skips m) (hopen : m.Reads .braceOpen opening a) (hdots : a.Next .spread dots b)
    (hargument : b.Next .identifier argument d) (hclose : d.Next .braceClose close q) :
    Complete steps (.attribute (.spread ⟨m.offset, q.offset⟩ argument)) p q := by
  rintro levels c c' - hc hc' - - -
  obtain ⟨hafter, -, -⟩ := hc.of_next (hskip.next hopen.next)
  obtain ⟨c₁, -, hc₁⟩ := Cursor.exists_follows hdots
  obtain ⟨c₂, -, hc₂⟩ := Cursor.exists_follows hargument
  obtain ⟨c₃, -, hc₃⟩ := Cursor.exists_follows hclose
  refine bind_eq_ok.2 ⟨_, c, current_apply, ?_⟩
  rw [hafter.2.token_eq]
  refine bind_eq_ok.2 ⟨_, c', ?_, rfl⟩
  refine bind_eq_ok.2 ⟨_, c₁, take_complete hc (hskip.next hopen.next) hc₁, ?_⟩
  refine bind_eq_ok.2 ⟨_, c₂, take_complete hc₁ hdots hc₂, ?_⟩
  refine bind_eq_ok.2 ⟨_, c₃, take_complete hc₂ hargument hc₃, ?_⟩
  refine bind_eq_ok.2 ⟨_, c', take_complete hc₃ hclose hc', ?_⟩
  rw [hopen.span_start, hclose.span_stop]
  rfl

lemma attribute_complete_bare {name : Name} (hname : AttributeName p name q) :
    Complete steps (.attribute (.bareAttribute name.span name)) p q := by
  rintro levels c c' - hc hc' hcolon hassign -
  obtain ⟨c₁, hafter, hc₁⟩ := attributeName_first hname
  obtain rfl := hc.unique hc₁
  refine bind_eq_ok.2 ⟨_, c, current_apply, ?_⟩
  rw [hafter.2.token_eq]
  refine bind_eq_ok.2 ⟨_, c', ?_, rfl⟩
  refine bind_eq_ok.2 ⟨name, c', attributeName_complete hname hc hc' hcolon, ?_⟩
  refine bind_eq_ok.2 ⟨none, c', ?_, rfl⟩
  refine bind_eq_ok.2 ⟨_, c', sees_apply _, ?_⟩
  rw [if_neg (by simpa using hassign)]
  rfl

lemma attribute_complete_set {a b q : Place} {sign : Excerpt} {name : Name} {value : Node}
    (hname : AttributeName p name a) (hsign : a.Next .assign sign b)
    (hvalue : Derives (.value value) b q) (ih : Complete steps (.value value) b q) :
    Complete steps (.attribute (.setAttribute ⟨name.span.start, q.offset⟩ name value)) p q := by
  rintro levels c c' hdepth hc hc' - - hsteps
  obtain ⟨c₁, hafter, hc₁⟩ := attributeName_first hname
  obtain rfl := hc.unique hc₁
  obtain ⟨c₂, hafter₂, hc₂⟩ := Cursor.exists_follows hsign
  obtain ⟨-, -, rfl⟩ := hc₂.of_next hsign
  obtain ⟨c₃, hc₃⟩ := value_first hvalue
  have hlen := (hname.reaches.trans hsign.reaches).length_le
  obtain ⟨c₄, hassigned, hc₄, rfl⟩ := ih levels c₃ hdepth hc₃ (hlen.trans_lt hsteps)
  refine bind_eq_ok.2 ⟨_, c, current_apply, ?_⟩
  rw [hafter.2.token_eq]
  refine bind_eq_ok.2 ⟨_, c', ?_, rfl⟩
  refine bind_eq_ok.2 ⟨name, c₂, attributeName_complete hname hc hc₂ ?_, ?_⟩
  · simp [hafter₂.2.token_eq]
  refine bind_eq_ok.2 ⟨some value, c', ?_, ?_⟩
  · refine bind_eq_ok.2 ⟨_, c₂, sees_apply _, ?_⟩
    rw [if_pos (by simp [hafter₂.2.token_eq])]
    refine bind_eq_ok.2 ⟨(), c₃, advance_complete hafter₂.2.token_ne hc₃, ?_⟩
    refine bind_eq_ok.2 ⟨value, c₄, hassigned, ?_⟩
    exact bind_eq_ok.2 ⟨(), c', advance_complete hc₄.token_ne hc', rfl⟩
  · rw [← hvalue.value_span_stop]
    rfl

lemma attributes_complete_nil (p : Place) : Complete steps (.attributes []) p p := by
  rintro levels kind c c' k - hc hc' hkind - hk
  obtain ⟨k, rfl⟩ := exists_succ hk
  obtain rfl := hc.unique hc'.follows
  refine bind_eq_ok.2 ⟨none, c, ?_, rfl⟩
  refine bind_eq_ok.2 ⟨_, c, current_apply, ?_⟩
  rw [hc'.2.token_eq]
  rcases hkind with rfl | rfl <;> rfl

lemma attributes_complete_cons {m : Place} (hattribute : Derives (.attribute node) p m)
    (hattributes : Derives (.attributes nodes) m q) (ih : Complete steps (.attribute node) p m)
    (ih' : Complete steps (.attributes nodes) m q) :
    Complete steps (.attributes (node :: nodes)) p q := by
  rintro levels kind c c' k hdepth hc hc' hkind hsteps hk
  obtain ⟨k, rfl⟩ := exists_succ hk
  obtain ⟨hnode, hnodes⟩ := Nat.max_le.1 hdepth
  obtain ⟨c₁, hc₁, -, hcolon, hassign⟩ := attributes_first hattributes hc' hkind
  have hshort := hattribute.attribute_length_lt
  refine bind_eq_ok.2 ⟨some node, c₁, ih levels c c₁ hnode hc hc₁ hcolon hassign hsteps, ?_⟩
  exact bind_eq_ok.2
    ⟨nodes, c', ih' levels kind c₁ c' k hnodes hc₁ hc' hkind (by omega) (by omega), rfl⟩

/-! ### Children -/

section Children

variable {nested : Production Node} {k : ℕ} {c₁ last : Cursor} {kind : TokenKind}

/-- What is done about the token after raw text, given the node of that text, if any. -/
def childrenAfter (nested : Production Node) (steps k : ℕ) (text : List Node) :
    TokenKind → Production (List Node)
  | .closingOpen | .fragmentClose => return text
  | .tagOpen | .fragmentOpen => do
    let node ← nested
    let nodes ← children nested steps k
    return text ++ node :: nodes
  | .braceOpen => do
    let node ← expression nested steps
    let nodes ← children nested steps k
    return text ++ node :: nodes
  | _ => do
    let nodes ← children nested steps k
    return text ++ nodes

lemma children_eq_bind : children nested steps (k + 1) c =
    (advanceChild >>= childrenAfter nested steps k (textAfter c)) c := rfl

lemma children_succ (htoken : c.token ≠ some .endOfInput) (hon : c₁.On kind)
    (horigin : c₁.origin = c.skipRaw.place) :
    children nested steps (k + 1) c = childrenAfter nested steps k (textAfter c) kind c₁ := by
  have hread : advanceChild c = .ok kind c₁ :=
    advanceChild_eq_ok.2 (Cursor.nextChild_eq_ok_iff.2 ⟨htoken, hon, horigin⟩)
  rw [children_eq_bind]
  simp only [bind, EStateM.bind, hread]

/-- Text in front of what is read is kept there. -/
lemma childrenAfter_text (text : List Node) :
    childrenAfter nested steps k text kind =
      (do let nodes ← childrenAfter nested steps k [] kind
          return text ++ nodes) := by
  cases kind <;> simp [childrenAfter]

/-- Where a token that is looked for among children stands at once, there is no text. -/
lemma textAfter_of_notRaw (h : c.place.NotRaw) : textAfter c = [] ∧ c.skipRaw.place = c.place := by
  obtain ⟨hraw, hplace⟩ := Cursor.raw_of_passes (Place.passes_nil.2 rfl) (by simp) h
  exact ⟨by rw [textAfter, hraw], hplace⟩

lemma children_succ_of_notRaw (htoken : c.token ≠ some .endOfInput) (hon : c₁.On kind)
    (horigin : c₁.origin = c.place) (h : c.place.NotRaw) :
    children nested steps (k + 1) c = childrenAfter nested steps k [] kind c₁ := by
  obtain ⟨htext, hplace⟩ := textAfter_of_notRaw h
  rw [children_succ htoken hon (horigin.trans hplace.symm), htext]

end Children

lemma child_complete_text {run : List Char} (hpass : p.Passes run q) (hne : run ≠ [])
    (hrun : ∀ d ∈ run, Cursor.isRaw d = true) (hq : q.NotRaw) :
    Complete steps (.child (.text ⟨p.offset, q.offset⟩ (String.ofList run))) p q := by
  rintro levels later last - - hlater c k htoken rfl hk
  obtain ⟨k, rfl⟩ := exists_succ hk
  obtain ⟨hraw, hplace⟩ := Cursor.raw_of_passes hpass hrun hq
  -- read from after the text, the loop goes to the same token
  have hafter := hlater (Cursor.upTo q) (k + 1) (by simp) rfl
    ((Place.Reaches.length_le ⟨run, hpass⟩).trans_lt hk)
  obtain ⟨htext', hplace'⟩ := textAfter_of_notRaw (c := Cursor.upTo q) hq
  have htext : textAfter c = [.text ⟨c.place.offset, q.offset⟩ (String.ofList run)] := by
    rw [textAfter, hraw, hpass.2]
    cases run with
    | nil => exact absurd rfl hne
    | cons d run => rfl
  rw [children_eq_bind, htext'] at hafter
  obtain ⟨kind, c₁, hread, hrest⟩ := bind_eq_ok.1 hafter
  obtain ⟨-, hon, horigin⟩ := Cursor.nextChild_eq_ok_iff.1 (advanceChild_eq_ok.1 hread)
  rw [children_succ htoken hon (horigin.trans (hplace'.trans hplace.symm)), htext,
    childrenAfter_text]
  exact bind_eq_ok.2 ⟨later, last, hrest, rfl⟩

lemma child_complete_markup (hderives : Derives (.markup node) p q)
    (ih : Complete steps (.markup node) p q) : Complete steps (.child node) p q := by
  rintro levels later last hdepth hsteps hlater c k htoken rfl hk
  obtain ⟨k, rfl⟩ := exists_succ hk
  obtain ⟨kind, e, a, hkind, hread⟩ := markup_first hderives
  obtain ⟨c₁, hon, horigin, -, -⟩ := Cursor.exists_on hread
  have hshort := hderives.markup_length_lt
  have hraw : c.place.NotRaw :=
    hread.notRaw (by rcases hkind with rfl | rfl <;> simp [BeginsChild])
  obtain ⟨c₂, hnode, hc₂, hplace⟩ := ih levels c₁ hdepth hon.stands horigin hsteps
  have hnodes := hlater c₂ k hc₂.token_ne hplace (by omega)
  rw [children_succ_of_notRaw htoken hon horigin hraw]
  rcases hkind with rfl | rfl <;>
    exact bind_eq_ok.2 ⟨node, c₂, hnode, bind_eq_ok.2 ⟨later, last, hnodes, rfl⟩⟩

lemma child_complete_expression (hderives : Derives (.expression node) p q)
    (ih : Complete steps (.expression node) p q) : Complete steps (.child node) p q := by
  rintro levels later last hdepth hsteps hlater c k htoken rfl hk
  obtain ⟨k, rfl⟩ := exists_succ hk
  obtain ⟨e, a, hread⟩ := expression_first hderives
  obtain ⟨c₁, hon, horigin, -, -⟩ := Cursor.exists_on hread
  have hshort := hderives.expression_length_lt
  have hraw : c.place.NotRaw := hread.notRaw (by simp [BeginsChild])
  obtain ⟨c₂, hnode, hc₂, hplace⟩ := ih levels c₁ hdepth hon.stands horigin hsteps
  have hnodes := hlater c₂ k hc₂.token_ne hplace (by omega)
  rw [children_succ_of_notRaw htoken hon horigin hraw]
  exact bind_eq_ok.2 ⟨node, c₂, hnode, bind_eq_ok.2 ⟨later, last, hnodes, rfl⟩⟩

lemma children_complete_nil (p : Place) : Complete steps (.children []) p p := by
  rintro levels kind last - hon horigin hkind - c k htoken rfl hk
  obtain ⟨k, rfl⟩ := exists_succ hk
  have hraw : c.place.NotRaw := by
    rw [← horigin]
    exact hon.reads.notRaw (by rcases hkind with rfl | rfl <;> simp [BeginsChild])
  rw [children_succ_of_notRaw htoken hon horigin hraw]
  rcases hkind with rfl | rfl <;> rfl

lemma children_complete_cons {m : Place} (hchild : Derives (.child node) p m)
    (ih : Complete steps (.child node) p m) (ih' : Complete steps (.children nodes) m q) :
    Complete steps (.children (node :: nodes)) p q := by
  rintro levels kind last hdepth hon horigin hkind hsteps
  obtain ⟨hnode, hnodes⟩ := Nat.max_le.1 hdepth
  have hlen := hchild.reaches.length_le
  exact ih levels nodes last hnode hsteps
    (ih' levels kind last hnodes hon horigin hkind (hlen.trans_lt hsteps))

/-! ### Tags -/

lemma openingTag_complete {a b d : Place} {opening close : Excerpt} {kind : TokenKind}
    {name : Name} {levels : ℕ} (hopen : c.origin.Reads .tagOpen opening a)
    (hname : ElementName a name b) (hattributes : Derives (.attributes nodes) b d)
    (ih : Complete steps (.attributes nodes) b d) (hclose : d.Next kind close q)
    (hkind : EndsTag kind) (hdepth : Node.deepest nodes ≤ levels) (hc : c.Stands)
    (hsteps : c.origin.rest.length < steps) :
    ∃ c', openingTag (markup steps levels) steps c = .ok ⟨kind == .selfClose, name, nodes⟩ c' ∧
      c'.Stands ∧ c'.place = q := by
  obtain ⟨c', hc', -, rfl⟩ := Cursor.exists_after hclose
  obtain ⟨c₁, -, hc₁⟩ := elementName_first hname
  -- what comes after the name does not go on with it
  obtain ⟨c₂, hc₂, hdot, hcolon, -⟩ := attributes_first hattributes hc' hkind
  have hshort := hopen.length_lt
  have hfirst := hc₁.length_lt
  have hlen := hname.reaches.length_le
  refine ⟨c', ?_, hc'.2.stands, rfl⟩
  refine bind_eq_ok.2 ⟨_, c₁, take_complete hc.follows hopen.next hc₁, ?_⟩
  refine bind_eq_ok.2
    ⟨name, c₂, elementName_complete hname hc₁ hc₂ hdot hcolon (by omega), ?_⟩
  refine bind_eq_ok.2
    ⟨nodes, c', ih levels kind c₂ c' steps hdepth hc₂ hc' hkind (by omega) (by omega), ?_⟩
  refine bind_eq_ok.2 ⟨_, c', current_apply, ?_⟩
  rw [hc'.2.token_eq]
  rcases hkind with rfl | rfl <;> rfl

lemma closing_complete {a b : Place} {opening close : Excerpt} {name name' : Name}
    (hopen : c.origin.Reads .closingOpen opening a) (hname : ElementName a name' b)
    (hclose : b.Next .tagClose close q) (hmatches : name'.Matches name) (hc : c.Stands)
    (hsteps : c.origin.rest.length < steps) :
    ∃ c', closing steps name c = .ok () c' ∧ c'.Stands ∧ c'.place = q := by
  obtain ⟨c', hc', -, rfl⟩ := Cursor.exists_after hclose
  obtain ⟨c₁, -, hc₁⟩ := elementName_first hname
  obtain ⟨hon, -, -⟩ := hc.of_reads hopen
  have hshort := hopen.length_lt
  have hfirst := hc₁.length_lt
  refine ⟨c', ?_, hc'.2.stands, rfl⟩
  refine bind_eq_ok.2 ⟨_, c, sees_apply _, ?_⟩
  rw [if_neg (by simp [hon.token_eq])]
  refine bind_eq_ok.2 ⟨name', c', ?_, ?_⟩
  · refine bind_eq_ok.2 ⟨_, c₁, take_complete hc.follows hopen.next hc₁, ?_⟩
    refine bind_eq_ok.2 ⟨name', c', elementName_complete hname hc₁ hc'.follows ?_ ?_ ?_, ?_⟩
    · simp [hc'.2.token_eq]
    · simp [hc'.2.token_eq]
    · omega
    · exact bind_eq_ok.2 ⟨_, c', expect_eq_ok.2 ⟨hc'.2.token_eq, rfl, rfl⟩, rfl⟩
  · rw [if_pos (Name.agrees_iff_matches.2 hmatches)]
    rfl

/-! ### Elements and fragments -/

lemma markup_succ {levels : ℕ} : markup steps (levels + 1) c =
    (sees .fragmentOpen >>= fun found =>
      if found = true then fragment (markup steps levels) steps
      else element (markup steps levels) steps) c := rfl

lemma markup_of_element {levels : ℕ} (hon : c.On .tagOpen) :
    markup steps (levels + 1) c = element (markup steps levels) steps c := by
  rw [markup_succ]
  simp [bind, EStateM.bind, hon.token_eq]

lemma markup_of_fragment {levels : ℕ} (hon : c.On .fragmentOpen) :
    markup steps (levels + 1) c = fragment (markup steps levels) steps c := by
  rw [markup_succ]
  simp [bind, EStateM.bind, hon.token_eq]

lemma markup_complete_selfClosed {a b d : Place} {opening close : Excerpt} {name : Name}
    (hopen : p.Reads .tagOpen opening a) (hname : ElementName a name b)
    (hattributes : Derives (.attributes nodes) b d) (hclose : d.Next .selfClose close q)
    (ih : Complete steps (.attributes nodes) b d) :
    Complete steps (.markup (.selfClosed ⟨p.offset, q.offset⟩ name nodes)) p q := by
  rintro levels c hdepth hc rfl hsteps
  obtain ⟨levels, rfl⟩ := exists_succ (Nat.lt_of_succ_le hdepth)
  have hdepth := Nat.le_of_succ_le_succ hdepth
  obtain ⟨hon, -, -⟩ := hc.of_reads hopen
  obtain ⟨c', htag, hc', rfl⟩ := openingTag_complete hopen hname hattributes ih hclose (.inr rfl)
    hdepth hc hsteps
  refine ⟨c', ?_, hc', rfl⟩
  rw [markup_of_element hon]
  refine bind_eq_ok.2 ⟨c, c, get_apply, ?_⟩
  exact bind_eq_ok.2 ⟨_, c', htag, rfl⟩

lemma markup_complete_element {a b d e f g h : Place} {opening close opening' close' : Excerpt}
    {name name' : Name} {attributes : List Node} (hopen : p.Reads .tagOpen opening a)
    (hname : ElementName a name b) (hattributes : Derives (.attributes attributes) b d)
    (hclose : d.Next .tagClose close e) (hchildren : Derives (.children nodes) e f)
    (hopen' : f.Reads .closingOpen opening' g) (hname' : ElementName g name' h)
    (hclose' : h.Next .tagClose close' q) (hmatches : name'.Matches name)
    (ih : Complete steps (.attributes attributes) b d)
    (ih' : Complete steps (.children nodes) e f) :
    Complete steps (.markup (.element ⟨p.offset, q.offset⟩ name attributes nodes)) p q := by
  rintro levels c hdepth hc rfl hsteps
  obtain ⟨levels, rfl⟩ := exists_succ (Nat.lt_of_succ_le hdepth)
  -- the level that the element takes is no longer there for what is nested in it
  obtain ⟨hleft, hright⟩ := Nat.max_le.1 (Nat.le_of_succ_le_succ hdepth)
  obtain ⟨hon, -, -⟩ := hc.of_reads hopen
  obtain ⟨c₁, htag, hc₁, rfl⟩ := openingTag_complete hopen hname hattributes ih hclose (.inl rfl)
    hleft hc hsteps
  obtain ⟨c₂, hon₂, rfl, -, -⟩ := Cursor.exists_on hopen'
  have hlen := (hopen.reaches.trans (hname.reaches.trans
    (hattributes.reaches.trans hclose.reaches))).length_le
  have hlen' := hchildren.reaches.length_le
  have hnodes := ih' levels _ c₂ hright hon₂ rfl (.inl rfl) (by omega) c₁ steps hc₁.token_ne rfl
    (by omega)
  have hshort : c₂.origin.rest.length < steps := by omega
  obtain ⟨c', hclosing, hc', rfl⟩ :=
    closing_complete hopen' hname' hclose' hmatches hon₂.stands hshort
  refine ⟨c', ?_, hc', rfl⟩
  rw [markup_of_element hon]
  refine bind_eq_ok.2 ⟨c, c, get_apply, ?_⟩
  refine bind_eq_ok.2 ⟨_, c₁, htag, ?_⟩
  refine bind_eq_ok.2 ⟨nodes, c₂, hnodes, ?_⟩
  exact bind_eq_ok.2 ⟨(), c', hclosing, rfl⟩

lemma markup_complete_fragment {a b : Place} {opening close : Excerpt}
    (hopen : p.Reads .fragmentOpen opening a) (hchildren : Derives (.children nodes) a b)
    (hclose : b.Reads .fragmentClose close q) (ih : Complete steps (.children nodes) a b) :
    Complete steps (.markup (.fragment ⟨p.offset, q.offset⟩ nodes)) p q := by
  rintro levels c hdepth hc rfl hsteps
  obtain ⟨levels, rfl⟩ := exists_succ (Nat.lt_of_succ_le hdepth)
  obtain ⟨hon, -, rfl⟩ := hc.of_reads hopen
  obtain ⟨c', hon', rfl, -, rfl⟩ := Cursor.exists_on hclose
  have hshort := hopen.length_lt
  have hnodes := ih levels _ c' (Nat.le_of_succ_le_succ hdepth) hon' rfl (.inr rfl) (by omega) c
    steps hc.token_ne rfl (by omega)
  refine ⟨c', ?_, hon'.stands, rfl⟩
  rw [markup_of_fragment hon]
  refine bind_eq_ok.2 ⟨_, c, expect_eq_ok.2 ⟨hon.token_eq, rfl, rfl⟩, ?_⟩
  refine bind_eq_ok.2 ⟨nodes, c', hnodes, ?_⟩
  exact bind_eq_ok.2 ⟨_, c', expect_eq_ok.2 ⟨hon'.token_eq, rfl, rfl⟩, rfl⟩

/-- **Completeness.**  The productions read all that the grammar derives. -/
theorem derives_complete {phrase : Phrase} (h : Derives phrase p q) (steps : ℕ) :
    Complete steps phrase p q := by
  induction h with
  | selfClosed hopen hname hattributes hclose ih =>
    exact markup_complete_selfClosed hopen hname hattributes hclose ih
  | element hopen hname hattributes hclose hchildren hopen' hname' hclose' hmatches ih ih' =>
    exact markup_complete_element hopen hname hattributes hclose hchildren hopen' hname' hclose'
      hmatches ih ih'
  | fragment hopen hchildren hclose ih => exact markup_complete_fragment hopen hchildren hclose ih
  | expression hopen hbody hskip hclose hinside ih =>
    exact expression_complete hopen hbody hskip hclose hinside ih
  | bodyNil p => exact fun _ _ _ _ _ _ hlater => hlater
  | bodyToken hnext htag hfragment hopen hclose _ ih =>
    exact body_complete_token hnext htag hfragment hopen hclose ih
  | bodyMarkup hskip hnode _ ih ih' => exact body_complete_markup hskip hnode ih ih'
  | bodyBraces hopen hinner hclose _ ih ih' =>
    exact body_complete_braces hopen hinner hclose ih ih'
  | valueString hnext => exact value_complete_string hnext
  | valueExpression hskip hnode ih => exact value_complete_expression hskip hnode ih
  | valueMarkup hskip hnode ih => exact value_complete_markup hskip hnode ih
  | spread hskip hopen hdots hargument hclose =>
    exact attribute_complete_spread hskip hopen hdots hargument hclose
  | bareAttribute hname => exact attribute_complete_bare hname
  | setAttribute hname hsign hvalue ih => exact attribute_complete_set hname hsign hvalue ih
  | attributesNil p => exact attributes_complete_nil p
  | attributesCons hnode hnodes ih ih' => exact attributes_complete_cons hnode hnodes ih ih'
  | childText hpass hne hrun hraw => exact child_complete_text hpass hne hrun hraw
  | childMarkup hnode ih => exact child_complete_markup hnode ih
  | childExpression hnode ih => exact child_complete_expression hnode ih
  | childrenNil p => exact children_complete_nil p
  | childrenCons hnode _ ih ih' => exact children_complete_cons hnode ih ih'

end EmbeddedJsx.Production
