import EmbeddedJsx.Proofs.Reading.Visits

/-!
# The grammar of visits

The grammar again, as a relation between the constructs of the language and the visits that are
made to read them.  It says nothing about the characters between tokens: what the visits record is
all that a construct depends on, apart from the texts that its nodes show.

The first visit of an element, of a fragment or of an expression may be made in either of the two
ways, so that the grammar says of every phrase how its first token is read.  Everything in a tag and
in an expression is read by asking for the next token, and the children of an element or a fragment
are read after raw text.
-/

namespace EmbeddedJsx.Grammar

/-! ### Names -/

/-- The visits that read any number of identifiers, each with a dot in front of it. -/
inductive SpellsMembers (text : List Char) : List Excerpt → List Visit → Prop where
  | nil : SpellsMembers text [] []
  | cons {o o' : ℕ} {dot : Span} {part : Excerpt} {parts : List Excerpt} {visits : List Visit} :
      part.IsOf text → SpellsMembers text parts visits →
      SpellsMembers text (part :: parts)
        (.token .next o .dot dot :: .token .next o' .identifier part.span :: visits)

/-- The visits that read the name of an attribute. -/
inductive SpellsAttributeName (text : List Char) : Name → List Visit → Prop where
  | plain {o : ℕ} {e : Excerpt} : e.IsOf text →
      SpellsAttributeName text (.plain e) [.token .next o .identifier e.span]
  | namespaced {o o' o'' : ℕ} {space e : Excerpt} {colon : Span} : space.IsOf text → e.IsOf text →
      SpellsAttributeName text (.namespaced space e)
        [.token .next o .identifier space.span, .token .next o' .colon colon,
          .token .next o'' .identifier e.span]

/-- The visits that read the name of an element. -/
inductive SpellsElementName (text : List Char) : Name → List Visit → Prop where
  | simple {name : Name} {visits : List Visit} : SpellsAttributeName text name visits →
      SpellsElementName text name visits
  | member {o o' o'' : ℕ} {first second : Excerpt} {dot : Span} {more : List Excerpt}
      {visits : List Visit} : first.IsOf text → second.IsOf text →
      SpellsMembers text more visits →
      SpellsElementName text (.member first second more)
        (.token .next o .identifier first.span :: .token .next o' .dot dot ::
          .token .next o'' .identifier second.span :: visits)

/-! ### Constructs that nest -/

/-- The visits that read a phrase, the first token of which is read as given. -/
inductive Spells (text : List Char) : Cursor.Call → Phrase → List Visit → Prop where
  /-- `<name … />` -/
  | selfClosed {call : Cursor.Call} {o o' : ℕ} {opening close : Span} {name : Name}
      {attributes : List Node} {us vs : List Visit} :
      SpellsElementName text name us → Spells text .next (.attributes attributes) vs →
      Spells text call (.markup (.selfClosed ⟨opening.start, close.stop⟩ name attributes))
        (.token call o .tagOpen opening :: (us ++ (vs ++ [.token .next o' .selfClose close])))
  /-- `<name …> … </name>` -/
  | element {call : Cursor.Call} {o o' o'' o''' : ℕ} {opening close opening' close' : Span}
      {name name' : Name} {attributes children : List Node} {us vs ws us' : List Visit} :
      SpellsElementName text name us → Spells text .next (.attributes attributes) vs →
      Spells text .nextChild (.children children) ws → SpellsElementName text name' us' →
      name'.Matches name →
      Spells text call (.markup (.element ⟨opening.start, close'.stop⟩ name attributes children))
        (.token call o .tagOpen opening :: (us ++ (vs ++ (.token .next o' .tagClose close ::
          (ws ++ (.token .nextChild o'' .closingOpen opening' ::
            (us' ++ [.token .next o''' .tagClose close'])))))))
  /-- `<> … </>` -/
  | fragment {call : Cursor.Call} {o o' : ℕ} {opening close : Span} {children : List Node}
      {vs : List Visit} :
      Spells text .nextChild (.children children) vs →
      Spells text call (.markup (.fragment ⟨opening.start, close.stop⟩ children))
        (.token call o .fragmentOpen opening ::
          (vs ++ [.token .nextChild o' .fragmentClose close]))
  /-- `{ … }` -/
  | expression {call : Cursor.Call} {o o' : ℕ} {opening close : Span} {markup : List Node}
      {vs : List Visit} :
      Spells text .next (.body markup) vs →
      Spells text call (.expression (.expression ⟨opening.start, close.stop⟩
        ⟨opening.stop, close.start⟩
        (String.ofList (Span.slice ⟨opening.stop, close.start⟩ text)) markup))
        (.token call o .braceOpen opening :: (vs ++ [.token .next o' .braceClose close]))
  /-- The end of what stands between braces. -/
  | bodyNil : Spells text .next (.body []) []
  /-- A token between braces that is neither a brace nor the beginning of markup. -/
  | bodyToken {o : ℕ} {kind : TokenKind} {span : Span} {nodes : List Node} {vs : List Visit} :
      kind ≠ .tagOpen → kind ≠ .fragmentOpen → kind ≠ .braceOpen → kind ≠ .braceClose →
      Spells text .next (.body nodes) vs →
      Spells text .next (.body nodes) (.token .next o kind span :: vs)
  /-- Markup between braces. -/
  | bodyMarkup {node : Node} {nodes : List Node} {us vs : List Visit} :
      Spells text .next (.markup node) us → Spells text .next (.body nodes) vs →
      Spells text .next (.body (node :: nodes)) (us ++ vs)
  /-- Braces between braces. -/
  | bodyBraces {o o' : ℕ} {opening close : Span} {inner nodes : List Node} {us vs : List Visit} :
      Spells text .next (.body inner) us → Spells text .next (.body nodes) vs →
      Spells text .next (.body (inner ++ nodes))
        (.token .next o .braceOpen opening :: (us ++ (.token .next o' .braceClose close :: vs)))
  /-- A string literal as a value. -/
  | valueString {o : ℕ} {e : Excerpt} : e.IsOf text →
      Spells text .next (.value (.string e.span e.text)) [.token .next o .string e.span]
  /-- An expression as a value. -/
  | valueExpression {node : Node} {vs : List Visit} :
      Spells text .next (.expression node) vs → Spells text .next (.value node) vs
  /-- Markup as a value. -/
  | valueMarkup {node : Node} {vs : List Visit} :
      Spells text .next (.markup node) vs → Spells text .next (.value node) vs
  /-- `{...argument}` -/
  | spread {o o' o'' o''' : ℕ} {opening dots close : Span} {argument : Excerpt} :
      argument.IsOf text →
      Spells text .next (.attribute (.spread ⟨opening.start, close.stop⟩ argument))
        [.token .next o .braceOpen opening, .token .next o' .spread dots,
          .token .next o'' .identifier argument.span, .token .next o''' .braceClose close]
  /-- `name` -/
  | bareAttribute {name : Name} {vs : List Visit} : SpellsAttributeName text name vs →
      Spells text .next (.attribute (.bareAttribute name.span name)) vs
  /-- `name=value` -/
  | setAttribute {o : ℕ} {sign : Span} {name : Name} {value : Node} {us vs : List Visit} :
      SpellsAttributeName text name us → Spells text .next (.value value) vs →
      Spells text .next (.attribute (.setAttribute ⟨name.span.start, value.span.stop⟩ name value))
        (us ++ (.token .next o .assign sign :: vs))
  /-- The end of the attributes. -/
  | attributesNil : Spells text .next (.attributes []) []
  /-- A further attribute. -/
  | attributesCons {node : Node} {nodes : List Node} {us vs : List Visit} :
      Spells text .next (.attribute node) us → Spells text .next (.attributes nodes) vs →
      Spells text .next (.attributes (node :: nodes)) (us ++ vs)
  /-- A run of raw text as a child. -/
  | childText {e : Excerpt} : e.IsOf text →
      Spells text .nextChild (.child (.text e.span e.text)) [.raw e.span]
  /-- Markup as a child. -/
  | childMarkup {node : Node} {vs : List Visit} :
      Spells text .nextChild (.markup node) vs → Spells text .nextChild (.child node) vs
  /-- An expression as a child. -/
  | childExpression {node : Node} {vs : List Visit} :
      Spells text .nextChild (.expression node) vs → Spells text .nextChild (.child node) vs
  /-- The end of the children. -/
  | childrenNil : Spells text .nextChild (.children []) []
  /-- A further child. -/
  | childrenCons {node : Node} {nodes : List Node} {us vs : List Visit} :
      Spells text .nextChild (.child node) us → Spells text .nextChild (.children nodes) vs →
      Spells text .nextChild (.children (node :: nodes)) (us ++ vs)

/-- The visits that read a whole text in which the given elements and fragments stand among other
tokens. -/
inductive SpellsProgram (text : List Char) : List Node → List Visit → Prop where
  | nil {o : ℕ} : SpellsProgram text [] [.finish o]
  | token {o : ℕ} {kind : TokenKind} {span : Span} {nodes : List Node} {vs : List Visit} :
      kind ≠ .tagOpen → kind ≠ .fragmentOpen → SpellsProgram text nodes vs →
      SpellsProgram text nodes (.token .next o kind span :: vs)
  | markup {node : Node} {nodes : List Node} {us vs : List Visit} :
      Spells text .next (.markup node) us → SpellsProgram text nodes vs →
      SpellsProgram text (node :: nodes) (us ++ vs)

end EmbeddedJsx.Grammar
