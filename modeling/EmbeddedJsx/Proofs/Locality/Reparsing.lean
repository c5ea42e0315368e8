import Mathlib
import EmbeddedJsx.Proofs.Grammar.Occurrence
import EmbeddedJsx.Proofs.Grammar.Program
import EmbeddedJsx.Proofs.Locality.Window

/-!
# Markup stands on its own

What the grammar derives between two places it derives in any window that has both of them
(`Grammar.Derives.window`).  By induction on the derivation, a token that depends on what comes
after it has in the window what decides: after the beginning of a tag and after a dot in a name
comes an identifier, and what stands between the braces of an expression goes on up to a brace.

So an element or a fragment is derived from its own slice of a text, and the main statement is
`parseWithin_slice`: parsing that slice gives the same tree, moved to the front.
-/

namespace EmbeddedJsx

namespace Grammar

variable {p q a b : Place} {name : Name} {parts : List Excerpt} {e : Excerpt} {kind : TokenKind}
  {phrase : Phrase} {front tail : ℕ}

/-! ### Names -/

lemma Members.window (h : Members p parts q) (hp : p.Within front tail)
    (hq : q.Within front tail) :
    Members (p.window front tail) (parts.map (Excerpt.back front)) (q.window front tail) := by
  induction h with
  | nil => exact .nil _
  | cons hdot hpart hmore ih =>
    have ha := hp.between hq hdot.reaches (hpart.reaches.trans hmore.reaches)
    have hb := ha.between hq hpart.reaches hmore.reaches
    have hpart' := hpart.window ha hb nofun
    have hdot' := hdot.window hp ha fun _ => hpart'.decides (by simp)
    exact .cons hdot' hpart' (ih hb hq)

lemma AttributeName.window (h : AttributeName p name q) (hp : p.Within front tail)
    (hq : q.Within front tail) :
    AttributeName (p.window front tail) (name.back front) (q.window front tail) := by
  cases h with
  | plain h => exact .plain (h.window hp hq nofun)
  | namespaced h hcolon h' =>
    have ha := hp.between hq h.reaches (hcolon.reaches.trans h'.reaches)
    have hb := ha.between hq hcolon.reaches h'.reaches
    exact .namespaced (h.window hp ha nofun) (hcolon.window ha hb nofun) (h'.window hb hq nofun)

lemma ElementName.window (h : ElementName p name q) (hp : p.Within front tail)
    (hq : q.Within front tail) :
    ElementName (p.window front tail) (name.back front) (q.window front tail) := by
  cases h with
  | simple h => exact .simple (h.window hp hq)
  | member h hdot h' hmore =>
    have hc := h'.reaches.trans hmore.reaches
    have ha := hp.between hq h.reaches (hdot.reaches.trans hc)
    have hb := ha.between hq hdot.reaches hc
    have hc := hb.between hq h'.reaches hmore.reaches
    have hsecond := h'.window hb hc nofun
    have hdot' := hdot.window ha hb fun _ => hsecond.decides (by simp)
    exact .member (h.window hp ha nofun) hdot' hsecond (hmore.window hc hq)

lemma AttributeName.decides (h : AttributeName p name q) : Decides p.rest := by
  cases h with
  | plain h => exact h.decides (by simp)
  | namespaced h _ _ => exact h.decides (by simp)

/-- A name decides whether a tag begins before it. -/
lemma ElementName.decides (h : ElementName p name q) : Decides p.rest := by
  cases h with
  | simple h => exact h.decides
  | member h _ _ _ => exact h.decides (by simp)

/-! ### Phrases -/

/-- What stands between braces, the tokens of which may depend on what comes after it. -/
def Phrase.IsBody : Phrase → Prop
  | .body _ => True
  | _ => False

/-- In a window that has both places, the phrase stands between them as well. -/
def Windowed (front tail : ℕ) (phrase : Phrase) (p q : Place) : Prop :=
  p.Within front tail → q.Within front tail →
    (phrase.IsBody → Decides (q.window front tail).rest) →
    Derives (phrase.back front) (p.window front tail) (q.window front tail)

variable {c d f g m : Place} {name' : Name} {opening close opening' close' : Excerpt}
  {attributes nodes : List Node}

lemma windowed_selfClosed (hopen : p.Reads .tagOpen opening a) (hname : ElementName a name b)
    (hattributes : Derives (.attributes attributes) b c) (hclose : c.Next .selfClose close q)
    (ih : Windowed front tail (.attributes attributes) b c) :
    Windowed front tail (.markup (.selfClosed ⟨p.offset, q.offset⟩ name attributes)) p q := by
  intro hp hq _
  have hrest := hattributes.reaches.trans hclose.reaches
  have ha := hp.between hq hopen.reaches (hname.reaches.trans hrest)
  have hb := ha.between hq hname.reaches hrest
  have hc := hb.between hq hattributes.reaches hclose.reaches
  have hname' := hname.window ha hb
  have hopen' := hopen.window hp ha fun _ => hname'.decides
  exact .selfClosed hopen' hname' (ih hb hc nofun) (hclose.window hc hq nofun)

lemma windowed_element (hopen : p.Reads .tagOpen opening a) (hname : ElementName a name b)
    (hattributes : Derives (.attributes attributes) b c) (hclose : c.Next .tagClose close d)
    (hchildren : Derives (.children nodes) d f) (hopen' : f.Reads .closingOpen opening' g)
    (hname' : ElementName g name' m) (hclose' : m.Next .tagClose close' q)
    (hmatches : name'.Matches name) (ih : Windowed front tail (.attributes attributes) b c)
    (ih' : Windowed front tail (.children nodes) d f) :
    Windowed front tail (.markup (.element ⟨p.offset, q.offset⟩ name attributes nodes)) p q := by
  intro hp hq _
  have hend := hopen'.reaches.trans (hname'.reaches.trans hclose'.reaches)
  have hrest := hclose.reaches.trans (hchildren.reaches.trans hend)
  have ha := hp.between hq hopen.reaches (hname.reaches.trans (hattributes.reaches.trans hrest))
  have hb := ha.between hq hname.reaches (hattributes.reaches.trans hrest)
  have hc := hb.between hq hattributes.reaches hrest
  have hd := hc.between hq hclose.reaches (hchildren.reaches.trans hend)
  have hf := hd.between hq hchildren.reaches hend
  have hg := hf.between hq hopen'.reaches (hname'.reaches.trans hclose'.reaches)
  have hm := hg.between hq hname'.reaches hclose'.reaches
  -- the name of either tag decides that the tag begins before it
  have hfirst := hname.window ha hb
  have hlast := hname'.window hg hm
  have hleft := hopen.window hp ha fun _ => hfirst.decides
  have hright := hopen'.window hf hg fun _ => hlast.decides
  exact .element hleft hfirst (ih hb hc nofun) (hclose.window hc hd nofun) (ih' hd hf nofun)
    hright hlast (hclose'.window hm hq nofun) (hmatches.back front)

lemma windowed_expression {inside : List Char} (hopen : p.Reads .braceOpen opening a)
    (hbody : Derives (.body nodes) a b) (hskip : b.Skips m) (hclose : m.Reads .braceClose close q)
    (hinside : a.Passes inside m) (ih : Windowed front tail (.body nodes) a b) :
    Windowed front tail (.expression (.expression ⟨p.offset, q.offset⟩ ⟨a.offset, m.offset⟩
      (String.ofList inside) nodes)) p q := by
  intro hp hq _
  have hrest := hskip.reaches.trans hclose.reaches
  have ha := hp.between hq hopen.reaches (hbody.reaches.trans hrest)
  have hb := ha.between hq hbody.reaches hrest
  have hm := hb.between hq hskip.reaches hclose.reaches
  have hskip' := hskip.window hb hm
  have hclose' := hclose.window hm hq nofun
  have hdecides := (hskip'.next hclose'.next).decides (by simp)
  exact .expression (hopen.window hp ha nofun) (ih ha hb fun _ => hdecides) hskip' hclose'
    (hinside.window ha hm)

lemma windowed_bodyBraces {inner : List Node} (hopen : p.Next .braceOpen opening a)
    (hinner : Derives (.body inner) a b) (hclose : b.Next .braceClose close c)
    (hrest : Derives (.body nodes) c q) (ih : Windowed front tail (.body inner) a b)
    (ih' : Windowed front tail (.body nodes) c q) :
    Windowed front tail (.body (inner ++ nodes)) p q := by
  intro hp hq hdecides
  have hend := hclose.reaches.trans hrest.reaches
  have ha := hp.between hq hopen.reaches (hinner.reaches.trans hend)
  have hb := ha.between hq hinner.reaches hend
  have hc := hb.between hq hclose.reaches hrest.reaches
  have hclose' := hclose.window hb hc nofun
  have hinner' := ih ha hb fun _ => hclose'.decides (by simp)
  rw [Phrase.back, Node.backAll_append]
  exact .bodyBraces (hopen.window hp ha nofun) hinner' hclose' (ih' hc hq hdecides)

lemma windowed_spread {dots argument : Excerpt} (hskip : p.Skips m)
    (hopen : m.Reads .braceOpen opening a) (hdots : a.Next .spread dots b)
    (hargument : b.Next .identifier argument c) (hclose : c.Next .braceClose close q) :
    Windowed front tail (.attribute (.spread ⟨m.offset, q.offset⟩ argument)) p q := by
  intro hp hq _
  have hend := hargument.reaches.trans hclose.reaches
  have hrest := hdots.reaches.trans hend
  have hm := hp.between hq hskip.reaches (hopen.reaches.trans hrest)
  have ha := hm.between hq hopen.reaches hrest
  have hb := ha.between hq hdots.reaches hend
  have hc := hb.between hq hargument.reaches hclose.reaches
  exact .spread (hskip.window hp hm) (hopen.window hm ha nofun) (hdots.window ha hb nofun)
    (hargument.window hb hc nofun) (hclose.window hc hq nofun)

/-- **Windows.**  A phrase that stands between two places stands between them in any window that
has both. -/
theorem Derives.window (h : Derives phrase p q) : Windowed front tail phrase p q := by
  induction h with
  | selfClosed hopen hname hattributes hclose ih =>
    exact windowed_selfClosed hopen hname hattributes hclose ih
  | element hopen hname hattributes hclose hchildren hopen' hname' hclose' hmatches ih ih' =>
    exact windowed_element hopen hname hattributes hclose hchildren hopen' hname' hclose' hmatches
      ih ih'
  | fragment hopen hchildren hclose ih =>
    intro hp hq _
    have ha := hp.between hq hopen.reaches (hchildren.reaches.trans hclose.reaches)
    have hb := ha.between hq hchildren.reaches hclose.reaches
    exact .fragment (hopen.window hp ha nofun) (ih ha hb nofun) (hclose.window hb hq nofun)
  | expression hopen hbody hskip hclose hinside ih =>
    exact windowed_expression hopen hbody hskip hclose hinside ih
  | bodyNil => exact fun _ _ _ => .bodyNil _
  | bodyToken hnext htag hfragment hopen hclose hrest ih =>
    intro hp hq hdecides
    have ha := hp.between hq hnext.reaches hrest.reaches
    -- what is left of the body after the token is what decides about the token
    have hrest' := ih ha hq hdecides
    have hnext' := hnext.window hp ha fun _ => hrest'.reaches.decides (hdecides trivial)
    exact .bodyToken hnext' htag hfragment hopen hclose hrest'
  | bodyMarkup hskip hnode hrest ih ih' =>
    intro hp hq hdecides
    have hm := hp.between hq hskip.reaches (hnode.reaches.trans hrest.reaches)
    have ha := hm.between hq hnode.reaches hrest.reaches
    exact .bodyMarkup (hskip.window hp hm) (ih hm ha nofun) (ih' ha hq hdecides)
  | bodyBraces hopen hinner hclose hrest ih ih' =>
    exact windowed_bodyBraces hopen hinner hclose hrest ih ih'
  | valueString h => exact fun hp hq _ => .valueString (h.window hp hq nofun)
  | valueExpression hskip hnode ih =>
    intro hp hq _
    have hm := hp.between hq hskip.reaches hnode.reaches
    exact .valueExpression (hskip.window hp hm) (ih hm hq nofun)
  | valueMarkup hskip hnode ih =>
    intro hp hq _
    have hm := hp.between hq hskip.reaches hnode.reaches
    exact .valueMarkup (hskip.window hp hm) (ih hm hq nofun)
  | spread hskip hopen hdots hargument hclose =>
    exact windowed_spread hskip hopen hdots hargument hclose
  | bareAttribute h =>
    intro hp hq _
    rw [Phrase.back, Node.back, ← Name.span_back]
    exact .bareAttribute (h.window hp hq)
  | setAttribute hname hsign hvalue ih =>
    intro hp hq _
    have ha := hp.between hq hname.reaches (hsign.reaches.trans hvalue.reaches)
    have hb := ha.between hq hsign.reaches hvalue.reaches
    have hset := Derives.setAttribute (hname.window hp ha) (hsign.window ha hb nofun)
      (ih hb hq nofun)
    rwa [Name.span_back] at hset
  | attributesNil => exact fun _ _ _ => .attributesNil _
  | attributesCons hnode hrest ih ih' =>
    intro hp hq _
    have hm := hp.between hq hnode.reaches hrest.reaches
    exact .attributesCons (ih hp hm nofun) (ih' hm hq nofun)
  | childText hpass hne hraw hend =>
    intro hp hq _
    exact .childText (hpass.window hp hq) hne hraw fun c hc =>
      hend c (mem_head?_of_isPrefix (Place.window_rest_isPrefix _) hc)
  | childMarkup _ ih => exact fun hp hq _ => .childMarkup (ih hp hq nofun)
  | childExpression _ ih => exact fun hp hq _ => .childExpression (ih hp hq nofun)
  | childrenNil => exact fun _ _ _ => .childrenNil _
  | childrenCons hnode hrest ih ih' =>
    intro hp hq _
    have hm := hp.between hq hnode.reaches hrest.reaches
    exact .childrenCons (ih hp hm nofun) (ih' hm hq nofun)

/-- Markup in a text is derived from its own slice of the text. -/
lemma Derives.slice {text : List Char} {node : Node} (h : Derives (.markup node) p q)
    (hp : p.InText text) :
    DerivesProgram (Place.ofText (node.span.slice text)) [node.back node.span.start] := by
  have hpq := h.reaches
  have hq := hp.reaches hpq
  have hlen := hp.offset_add_length
  have hlen' := hq.offset_add_length
  -- the window that begins and ends with the node
  have hpin : p.Within p.offset q.rest.length := ⟨le_rfl, hpq.length_le⟩
  have hqin : q.Within p.offset q.rest.length := ⟨hpq.offset_le, le_rfl⟩
  have hwindow := h.window hpin hqin nofun
  have hfirst : p.window p.offset q.rest.length = Place.ofText (node.span.slice text) := by
    rw [h.markup_span, Place.window, Place.ofText, Span.slice, hp.rest_eq]
    have hcount : (text.drop p.offset).length - q.rest.length = q.offset - p.offset := by
      rw [← hp.rest_eq]
      omega
    rw [hcount, Nat.sub_self]
  rw [hfirst] at hwindow
  have hstart : node.span.start = p.offset := by rw [h.markup_span]
  rw [hstart]
  refine .markup (.refl _) hwindow (.nil ?_)
  simp [Place.Ends, Place.window, insignificant_nil]

end Grammar

/-- Every element or fragment that occurs in a parsed program is parsed from its own slice of the
text: what comes out is that one node, moved to the front. -/
theorem parseWithin_slice {levels : ℕ} {text : String} {program : Program} {node : Node}
    (h : parseWithin levels text = .ok program) (hnode : program.Contains node)
    (hmarkup : node.isMarkup = true) :
    parseWithin levels (String.ofList (node.span.slice text.toList)) =
      .ok ⟨[node.back node.span.start]⟩ := by
  obtain ⟨hderives, hlevels⟩ := derivesProgram_of_parseWithin h
  obtain ⟨p, q, hphrase, hp⟩ := (hderives.hasPhrase hnode).exists_markup hmarkup
  refine parseWithin_of_derivesProgram ?_ ?_
  · rw [String.toList_ofList]
    exact hphrase.slice hp
  · simpa using hnode.depth_le.trans hlevels

/-- The case of markup in an expression. -/
theorem parseWithin_slice_in_braces :
    ∃ program, parseWithin 2 "<>{<e/>}</>" = .ok program ∧
      program.Contains (.selfClosed ⟨3, 7⟩ (.plain ⟨⟨4, 5⟩, "e"⟩) []) ∧
      parseWithin 2 "<e/>" = .ok ⟨[.selfClosed ⟨0, 4⟩ (.plain ⟨⟨1, 2⟩, "e"⟩) []]⟩ := by
  obtain ⟨program, hprogram⟩ : ∃ program : Program, program =
      ⟨[.fragment ⟨0, 11⟩
        [.expression ⟨2, 8⟩ ⟨3, 7⟩ "<e/>"
          [.selfClosed ⟨3, 7⟩ (.plain ⟨⟨4, 5⟩, "e"⟩) []]]]⟩ := ⟨_, rfl⟩
  have h : parseWithin 2 "<>{<e/>}</>" = .ok program := by
    rw [hprogram]
    cbv
  have hnode : program.Contains (.selfClosed ⟨3, 7⟩ (.plain ⟨⟨4, 5⟩, "e"⟩) []) := by
    rw [hprogram]
    exact ⟨_, .head _, .under (.head _) (.under (.head _) .root)⟩
  refine ⟨program, h, hnode, ?_⟩
  have hslice := parseWithin_slice h hnode rfl
  have htext : String.ofList (Span.slice ⟨3, 7⟩ "<>{<e/>}</>".toList) = "<e/>" := by decide
  rwa [Node.span, htext] at hslice

end EmbeddedJsx
