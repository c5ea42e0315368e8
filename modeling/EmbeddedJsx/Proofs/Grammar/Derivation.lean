import EmbeddedJsx.Node
import EmbeddedJsx.Proofs.Lexical.Place

/-!
# The grammar of markup

The grammar is a relation between the constructs of the language and the places between which they
stand.  It is made of the tokens of the table alone: it knows of no current token, of no looking
ahead, and of no bound on loops or nesting.

There are two ways of reading on from a place.  Inside tags and expressions the next token is
meant, and characters that belong to none may come before it (`Place.Next`).  Among the children of
an element or a fragment every character counts, so that there a token has to begin at the very
place (`Place.Reads`).  Elements, fragments and expressions occur in both surroundings: their
phrases begin at their first character, and where characters may be passed over before them, the
rule that uses them says so.  All phrases end right after their last token.
-/

namespace EmbeddedJsx

/-- Two names have the same form and, part by part, the same identifiers. -/
inductive Name.Matches : Name → Name → Prop where
  | plain {a b : Excerpt} : a.text = b.text → Matches (.plain a) (.plain b)
  | namespaced {a b c d : Excerpt} :
      a.text = c.text → b.text = d.text → Matches (.namespaced a b) (.namespaced c d)
  | member {a b c d : Excerpt} {more more' : List Excerpt} :
      a.text = c.text → b.text = d.text → more.map Excerpt.text = more'.map Excerpt.text →
      Matches (.member a b more) (.member c d more')

lemma Name.agrees_iff_matches {a b : Name} : a.agrees b = true ↔ a.Matches b := by
  constructor
  · intro h
    cases a <;> cases b <;> simp only [agrees, Bool.and_eq_true, beq_iff_eq, reduceCtorEq] at h
    · exact .plain h
    · exact .namespaced h.1 h.2
    · exact .member h.1.1 h.1.2 h.2
  · rintro (h | ⟨h, h'⟩ | ⟨h, h', h''⟩)
    · simp [agrees, h]
    · simp [agrees, h, h']
    · simp [agrees, h, h', h'']

namespace Grammar

/-! ### Names -/

/-- Any number of identifiers, each with a dot in front of it. -/
inductive Members : Place → List Excerpt → Place → Prop where
  | nil (p : Place) : Members p [] p
  | cons {p a b q : Place} {dot part : Excerpt} {parts : List Excerpt} :
      p.Next .dot dot a → a.Next .identifier part b → Members b parts q →
      Members p (part :: parts) q

/-- The name of an attribute: an identifier, or two with a colon between them. -/
inductive AttributeName : Place → Name → Place → Prop where
  | plain {p q : Place} {e : Excerpt} : p.Next .identifier e q → AttributeName p (.plain e) q
  | namespaced {p a b q : Place} {space colon e : Excerpt} :
      p.Next .identifier space a → a.Next .colon colon b → b.Next .identifier e q →
      AttributeName p (.namespaced space e) q

/-- The name of an element: that of an attribute, or two or more identifiers with dots between
them. -/
inductive ElementName : Place → Name → Place → Prop where
  | simple {p q : Place} {name : Name} : AttributeName p name q → ElementName p name q
  | member {p a b c q : Place} {first dot second : Excerpt} {more : List Excerpt} :
      p.Next .identifier first a → a.Next .dot dot b → b.Next .identifier second c →
      Members c more q → ElementName p (.member first second more) q

/-! ### Constructs that nest -/

/-- What a rule of the grammar is about, together with the nodes that stand for it in the tree. -/
inductive Phrase where
  /-- An element or a fragment. -/
  | markup (node : Node)
  /-- An expression with its braces. -/
  | expression (node : Node)
  /-- What stands between the braces of an expression, with the markup found in it. -/
  | body (nodes : List Node)
  /-- What an attribute is set to. -/
  | value (node : Node)
  /-- An attribute. -/
  | attribute (node : Node)
  /-- Any number of attributes. -/
  | attributes (nodes : List Node)
  /-- A child of an element or a fragment. -/
  | child (node : Node)
  /-- All children of an element or a fragment. -/
  | children (nodes : List Node)

/-- The phrase stands between the two places. -/
inductive Derives : Phrase → Place → Place → Prop where
  /-- `<name … />` -/
  | selfClosed {p a b c q : Place} {opening close : Excerpt} {name : Name}
      {attributes : List Node} :
      p.Reads .tagOpen opening a → ElementName a name b → Derives (.attributes attributes) b c →
      c.Next .selfClose close q →
      Derives (.markup (.selfClosed ⟨p.offset, q.offset⟩ name attributes)) p q
  /-- `<name …> … </name>` -/
  | element {p a b c d e f g q : Place} {opening close opening' close' : Excerpt}
      {name name' : Name} {attributes children : List Node} :
      p.Reads .tagOpen opening a → ElementName a name b → Derives (.attributes attributes) b c →
      c.Next .tagClose close d → Derives (.children children) d e →
      e.Reads .closingOpen opening' f → ElementName f name' g → g.Next .tagClose close' q →
      name'.Matches name →
      Derives (.markup (.element ⟨p.offset, q.offset⟩ name attributes children)) p q
  /-- `<> … </>` -/
  | fragment {p a b q : Place} {opening close : Excerpt} {children : List Node} :
      p.Reads .fragmentOpen opening a → Derives (.children children) a b →
      b.Reads .fragmentClose close q →
      Derives (.markup (.fragment ⟨p.offset, q.offset⟩ children)) p q
  /-- `{ … }` -/
  | expression {p a b m q : Place} {opening close : Excerpt} {inside : List Char}
      {markup : List Node} :
      p.Reads .braceOpen opening a → Derives (.body markup) a b → b.Skips m →
      m.Reads .braceClose close q → a.Passes inside m →
      Derives (.expression (.expression ⟨p.offset, q.offset⟩ ⟨a.offset, m.offset⟩
        (String.ofList inside) markup)) p q
  /-- The end of what stands between braces. -/
  | bodyNil (p : Place) : Derives (.body []) p p
  /-- A token between braces that is neither a brace nor the beginning of markup. -/
  | bodyToken {p a q : Place} {kind : TokenKind} {e : Excerpt} {nodes : List Node} :
      p.Next kind e a → kind ≠ .tagOpen → kind ≠ .fragmentOpen → kind ≠ .braceOpen →
      kind ≠ .braceClose → Derives (.body nodes) a q → Derives (.body nodes) p q
  /-- Markup between braces. -/
  | bodyMarkup {p m a q : Place} {node : Node} {nodes : List Node} :
      p.Skips m → Derives (.markup node) m a → Derives (.body nodes) a q →
      Derives (.body (node :: nodes)) p q
  /-- Braces between braces. -/
  | bodyBraces {p a b c q : Place} {opening close : Excerpt} {inner nodes : List Node} :
      p.Next .braceOpen opening a → Derives (.body inner) a b → b.Next .braceClose close c →
      Derives (.body nodes) c q → Derives (.body (inner ++ nodes)) p q
  /-- A string literal as a value. -/
  | valueString {p q : Place} {e : Excerpt} :
      p.Next .string e q → Derives (.value (.string e.span e.text)) p q
  /-- An expression as a value. -/
  | valueExpression {p m q : Place} {node : Node} :
      p.Skips m → Derives (.expression node) m q → Derives (.value node) p q
  /-- Markup as a value. -/
  | valueMarkup {p m q : Place} {node : Node} :
      p.Skips m → Derives (.markup node) m q → Derives (.value node) p q
  /-- `{...argument}` -/
  | spread {p m a b c q : Place} {opening dots argument close : Excerpt} :
      p.Skips m → m.Reads .braceOpen opening a → a.Next .spread dots b →
      b.Next .identifier argument c → c.Next .braceClose close q →
      Derives (.attribute (.spread ⟨m.offset, q.offset⟩ argument)) p q
  /-- `name` -/
  | bareAttribute {p q : Place} {name : Name} :
      AttributeName p name q → Derives (.attribute (.bareAttribute name.span name)) p q
  /-- `name=value` -/
  | setAttribute {p a b q : Place} {sign : Excerpt} {name : Name} {value : Node} :
      AttributeName p name a → a.Next .assign sign b → Derives (.value value) b q →
      Derives (.attribute (.setAttribute ⟨name.span.start, q.offset⟩ name value)) p q
  /-- The end of the attributes. -/
  | attributesNil (p : Place) : Derives (.attributes []) p p
  /-- A further attribute. -/
  | attributesCons {p m q : Place} {node : Node} {nodes : List Node} :
      Derives (.attribute node) p m → Derives (.attributes nodes) m q →
      Derives (.attributes (node :: nodes)) p q
  /-- A run of raw text as a child, as long as it can be. -/
  | childText {p q : Place} {run : List Char} :
      p.Passes run q → run ≠ [] → (∀ c ∈ run, Cursor.isRaw c = true) →
      (∀ c ∈ q.rest.head?, Cursor.isRaw c = false) →
      Derives (.child (.text ⟨p.offset, q.offset⟩ (String.ofList run))) p q
  /-- Markup as a child. -/
  | childMarkup {p q : Place} {node : Node} :
      Derives (.markup node) p q → Derives (.child node) p q
  /-- An expression as a child. -/
  | childExpression {p q : Place} {node : Node} :
      Derives (.expression node) p q → Derives (.child node) p q
  /-- The end of the children. -/
  | childrenNil (p : Place) : Derives (.children []) p p
  /-- A further child. -/
  | childrenCons {p m q : Place} {node : Node} {nodes : List Node} :
      Derives (.child node) p m → Derives (.children nodes) m q →
      Derives (.children (node :: nodes)) p q

/-- From the place to the end of the text stand the given elements and fragments, among other
tokens. -/
inductive DerivesProgram : Place → List Node → Prop where
  | nil {p : Place} : p.Ends → DerivesProgram p []
  | token {p a : Place} {kind : TokenKind} {e : Excerpt} {nodes : List Node} :
      p.Next kind e a → kind ≠ .tagOpen → kind ≠ .fragmentOpen → DerivesProgram a nodes →
      DerivesProgram p nodes
  | markup {p m a : Place} {node : Node} {nodes : List Node} :
      p.Skips m → Derives (.markup node) m a → DerivesProgram a nodes →
      DerivesProgram p (node :: nodes)

/-! ### Derivations go forward -/

variable {p q : Place} {name : Name} {parts : List Excerpt} {φ : Phrase}

lemma Members.reaches (h : Members p parts q) : p.Reaches q := by
  induction h with
  | nil p => exact .refl p
  | cons hdot hpart _ ih => exact hdot.reaches.trans (hpart.reaches.trans ih)

lemma AttributeName.reaches (h : AttributeName p name q) : p.Reaches q := by
  cases h with
  | plain h => exact h.reaches
  | namespaced h hcolon h' => exact h.reaches.trans (hcolon.reaches.trans h'.reaches)

lemma ElementName.reaches (h : ElementName p name q) : p.Reaches q := by
  cases h with
  | simple h => exact h.reaches
  | member h hdot h' hmore =>
    exact h.reaches.trans (hdot.reaches.trans (h'.reaches.trans hmore.reaches))

lemma Derives.reaches (h : Derives φ p q) : p.Reaches q := by
  induction h with
  | selfClosed hopen hname _ hclose ih =>
    exact hopen.reaches.trans (hname.reaches.trans (ih.trans hclose.reaches))
  | element hopen hname _ hclose _ hopen' hname' hclose' _ ih ih' =>
    exact hopen.reaches.trans (hname.reaches.trans (ih.trans (hclose.reaches.trans
      (ih'.trans (hopen'.reaches.trans (hname'.reaches.trans hclose'.reaches))))))
  | fragment hopen _ hclose ih => exact hopen.reaches.trans (ih.trans hclose.reaches)
  | expression hopen _ hskip hclose _ ih =>
    exact hopen.reaches.trans (ih.trans (hskip.reaches.trans hclose.reaches))
  | bodyNil p => exact .refl p
  | bodyToken hnext _ _ _ _ _ ih => exact hnext.reaches.trans ih
  | bodyMarkup hskip _ _ ih ih' => exact hskip.reaches.trans (ih.trans ih')
  | bodyBraces hopen _ hclose _ ih ih' =>
    exact hopen.reaches.trans (ih.trans (hclose.reaches.trans ih'))
  | valueString h => exact h.reaches
  | valueExpression hskip _ ih => exact hskip.reaches.trans ih
  | valueMarkup hskip _ ih => exact hskip.reaches.trans ih
  | spread hskip hopen hdots hargument hclose =>
    exact hskip.reaches.trans (hopen.reaches.trans (hdots.reaches.trans
      (hargument.reaches.trans hclose.reaches)))
  | bareAttribute h => exact h.reaches
  | setAttribute hname hsign _ ih => exact hname.reaches.trans (hsign.reaches.trans ih)
  | attributesNil p => exact .refl p
  | attributesCons _ _ ih ih' => exact ih.trans ih'
  | childText h => exact ⟨_, h⟩
  | childMarkup _ ih => exact ih
  | childExpression _ ih => exact ih
  | childrenNil p => exact .refl p
  | childrenCons _ _ ih ih' => exact ih.trans ih'

/-- An element or a fragment has characters, for it ends with a token. -/
lemma Derives.markup_length_lt {node : Node} (h : Derives (.markup node) p q) :
    q.rest.length < p.rest.length := by
  cases h with
  | selfClosed hopen hname hattributes hclose =>
    exact hclose.length_lt.trans_le
      (hopen.reaches.trans (hname.reaches.trans hattributes.reaches)).length_le
  | element hopen hname hattributes hclose hchildren hopen' hname' hclose' _ =>
    exact hclose'.length_lt.trans_le
      (hopen.reaches.trans (hname.reaches.trans (hattributes.reaches.trans (hclose.reaches.trans
        (hchildren.reaches.trans (hopen'.reaches.trans hname'.reaches)))))).length_le
  | fragment hopen hchildren hclose =>
    exact hclose.length_lt.trans_le (hopen.reaches.trans hchildren.reaches).length_le

lemma Derives.expression_length_lt {node : Node} (h : Derives (.expression node) p q) :
    q.rest.length < p.rest.length := by
  cases h with
  | expression hopen hbody hskip hclose _ =>
    exact hclose.length_lt.trans_le
      (hopen.reaches.trans (hbody.reaches.trans hskip.reaches)).length_le

lemma AttributeName.length_lt (h : AttributeName p name q) : q.rest.length < p.rest.length := by
  cases h with
  | plain h => exact h.length_lt
  | namespaced h hcolon h' => exact h'.length_lt.trans (hcolon.length_lt.trans h.length_lt)

lemma Derives.attribute_length_lt {node : Node} (h : Derives (.attribute node) p q) :
    q.rest.length < p.rest.length := by
  cases h with
  | spread hskip hopen hdots hargument hclose =>
    exact hclose.length_lt.trans_le (hskip.reaches.trans (hopen.reaches.trans
      (hdots.reaches.trans hargument.reaches))).length_le
  | bareAttribute h => exact h.length_lt
  | setAttribute hname hsign hvalue =>
    exact (hsign.reaches.trans hvalue.reaches).length_le.trans_lt hname.length_lt

/-! ### Where nodes stand -/

variable {node : Node}

lemma Derives.markup_span (h : Derives (.markup node) p q) : node.span = ⟨p.offset, q.offset⟩ := by
  cases h <;> rfl

lemma Derives.expression_span (h : Derives (.expression node) p q) :
    node.span = ⟨p.offset, q.offset⟩ := by
  cases h
  rfl

lemma Derives.value_span_stop (h : Derives (.value node) p q) : node.span.stop = q.offset := by
  cases h with
  | valueString h => exact h.span_stop
  | valueExpression _ h => rw [h.expression_span]
  | valueMarkup _ h => rw [h.markup_span]

end Grammar

end EmbeddedJsx
