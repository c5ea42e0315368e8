import EmbeddedJsx.Proofs.Grammar.Program
import EmbeddedJsx.Proofs.Reading.Spelling

/-!
# Derivations and visits

A phrase stands between two places exactly if there is a walk from one to the other whose visits
spell it.  One direction is by induction on the derivation (`Derives.exists_walk`), the other by
induction on the spelling (`Spells.derives`).

`Program.ReadBy` says that the visits are all that is done to read a program from a text, from its
beginning to the end of the input.  Whatever is parsed is read by some visits (`exists_readBy`), and
whatever is read by some visits is parsed (`Program.ReadBy.parseWithin_eq`).  That the visits are
calls on a cursor, made one after the other, is `Program.ReadBy.happens`, and that there is no
other way to read a text is `Program.ReadBy.unique`.
-/

namespace EmbeddedJsx

/-- What is entered by a call at the first place begins at the second. -/
def Cursor.Call.Enters : Cursor.Call → Place → Place → Prop
  | .next, p, m => p.Skips m
  | .nextChild, p, m => p = m

section

variable {p a m : Place} {call : Cursor.Call} {kind : TokenKind} {e : Excerpt} {origin : ℕ}
  {span : Span}

lemma Cursor.Call.Enters.reaches (h : call.Enters p m) : p.Reaches m := by
  cases call with
  | next => exact h.reaches
  | nextChild => exact h ▸ .refl p

/-- The first token of what is entered is read by the call. -/
lemma Cursor.Call.Enters.makes (h : call.Enters p m) (hread : m.Reads kind e a)
    (hkind : BeginsChild kind) : p.Makes (.token call p.offset kind e.span) a := by
  cases call with
  | next => exact .next ⟨m, h, hread⟩
  | nextChild =>
    obtain rfl : p = m := h
    exact hread.makes hkind

/-- What a call reads has been entered by it. -/
lemma Place.Makes.exists_enters (h : p.Makes (.token call origin kind span) a) :
    ∃ m e, call.Enters p m ∧ m.Reads kind e a ∧ e.span = span := by
  cases h with
  | next h =>
    obtain ⟨m, hskip, hread⟩ := h
    exact ⟨m, _, hskip, hread, rfl⟩
  | nextChild _ h => exact ⟨p, _, rfl, h, rfl⟩

lemma Place.Makes.exists_next (h : p.Makes (.token .next origin kind span) a) :
    ∃ e, p.Next kind e a ∧ e.span = span := by
  obtain ⟨m, e, hskip, hread, hspan⟩ := h.exists_enters
  exact ⟨e, ⟨m, hskip, hread⟩, hspan⟩

lemma Place.Makes.exists_child (h : p.Makes (.token .nextChild origin kind span) a) :
    ∃ e, p.Reads kind e a ∧ e.span = span := by
  obtain ⟨m, e, rfl, hread, hspan⟩ := h.exists_enters
  exact ⟨e, hread, hspan⟩

end

namespace Grammar

/-- What is read by a call at the first place is the phrase at the second. -/
def Phrase.BeginsAt : Phrase → Cursor.Call → Place → Place → Prop
  | .markup _, call, p, m | .expression _, call, p, m => call.Enters p m
  | .child _, call, p, m | .children _, call, p, m => call = .nextChild ∧ p = m
  | _, call, p, m => call = .next ∧ p = m

variable {text : List Char} {p a b q m : Place} {call : Cursor.Call} {kind : TokenKind}
  {e : Excerpt} {name : Name} {parts : List Excerpt} {phrase : Phrase} {visits : List Visit}
  {nodes : List Node}

/-! ### From derivations to visits -/

lemma Members.exists_walk (h : Members p parts q) (hp : p.InText text) :
    ∃ visits, Walk p visits q ∧ SpellsMembers text parts visits := by
  induction h with
  | nil p => exact ⟨[], .nil p, .nil⟩
  | cons hdot hpart _ ih =>
    have ha := hp.reaches hdot.reaches
    obtain ⟨visits, hwalk, hspells⟩ := ih (ha.reaches hpart.reaches)
    exact ⟨_, .cons (.next hdot) (.cons (.next hpart) hwalk),
      .cons (ha.isOf_of_next hpart) hspells⟩

lemma AttributeName.exists_walk (h : AttributeName p name q) (hp : p.InText text) :
    ∃ visits, Walk p visits q ∧ SpellsAttributeName text name visits := by
  cases h with
  | plain h => exact ⟨_, .of_next h, .plain (hp.isOf_of_next h)⟩
  | namespaced h hcolon h' =>
    have hb := hp.reaches (h.reaches.trans hcolon.reaches)
    exact ⟨_, .cons (.next h) (.cons (.next hcolon) (.of_next h')),
      .namespaced (hp.isOf_of_next h) (hb.isOf_of_next h')⟩

lemma ElementName.exists_walk (h : ElementName p name q) (hp : p.InText text) :
    ∃ visits, Walk p visits q ∧ SpellsElementName text name visits := by
  cases h with
  | simple h =>
    obtain ⟨visits, hwalk, hspells⟩ := h.exists_walk hp
    exact ⟨visits, hwalk, .simple hspells⟩
  | member h hdot h' hmore =>
    have hb := hp.reaches (h.reaches.trans hdot.reaches)
    obtain ⟨visits, hwalk, hspells⟩ := hmore.exists_walk (hb.reaches h'.reaches)
    exact ⟨_, .cons (.next h) (.cons (.next hdot) (.cons (.next h') hwalk)),
      .member (hp.isOf_of_next h) (hb.isOf_of_next h') hspells⟩

/-- What stands between two places is spelled by the visits of a walk between them. -/
lemma Derives.exists_walk (h : Derives phrase p q) (hp : p.InText text) {r : Place}
    (hbegins : phrase.BeginsAt call r p) :
    ∃ visits, Walk r visits q ∧ Spells text call phrase visits := by
  induction h generalizing r call with
  | selfClosed hopen hname hattributes hclose ih =>
    have ha := hp.reaches hopen.reaches
    obtain ⟨us, hus, hname'⟩ := hname.exists_walk ha
    obtain ⟨vs, hvs, hattributes'⟩ := ih (ha.reaches hname.reaches) ⟨rfl, rfl⟩
    have hfirst := hbegins.makes hopen (by simp [BeginsChild])
    rw [← hopen.span_start, ← hclose.span_stop]
    exact ⟨_, .cons hfirst (hus.append (hvs.append (.of_next hclose))),
      .selfClosed hname' hattributes'⟩
  | element hopen hname hattributes hclose hchildren hopen' hname' hclose' hmatches ih ih' =>
    have ha := hp.reaches hopen.reaches
    have hb := ha.reaches hname.reaches
    have hd := hb.reaches (hattributes.reaches.trans hclose.reaches)
    have hf := hd.reaches (hchildren.reaches.trans hopen'.reaches)
    obtain ⟨us, hus, hspells⟩ := hname.exists_walk ha
    obtain ⟨vs, hvs, hattributes'⟩ := ih hb ⟨rfl, rfl⟩
    obtain ⟨ws, hws, hchildren'⟩ := ih' hd ⟨rfl, rfl⟩
    obtain ⟨us', hus', hspells'⟩ := hname'.exists_walk hf
    have hfirst := hbegins.makes hopen (by simp [BeginsChild])
    have hend := hopen'.makes (by simp [BeginsChild])
    rw [← hopen.span_start, ← hclose'.span_stop]
    exact ⟨_, .cons hfirst (hus.append (hvs.append (.cons (.next hclose)
      (hws.append (.cons hend (hus'.append (.of_next hclose'))))))),
      .element hspells hattributes' hchildren' hspells' hmatches⟩
  | fragment hopen hchildren hclose ih =>
    obtain ⟨vs, hvs, hchildren'⟩ := ih (hp.reaches hopen.reaches) ⟨rfl, rfl⟩
    have hfirst := hbegins.makes hopen (by simp [BeginsChild])
    have hend := hclose.makes (by simp [BeginsChild])
    rw [← hopen.span_start, ← hclose.next.span_stop]
    exact ⟨_, .cons hfirst (hvs.append (.of_makes hend)),
      .fragment hchildren'⟩
  | @expression p a b m q opening close inside markup hopen hbody hskip hclose hinside ih =>
    have ha := hp.reaches hopen.reaches
    have hm := ha.passes hinside
    obtain ⟨vs, hvs, hbody'⟩ := ih ha ⟨rfl, rfl⟩
    have hfirst := hbegins.makes hopen (by simp [BeginsChild])
    -- what is shown of the inside is the slice between the braces
    rw [(ha.passes_iff hm (Place.Reaches.offset_le ⟨_, hinside⟩)).1 hinside, ← hopen.span_start,
      ← hopen.next.span_stop, ← hclose.span_start, ← hclose.next.span_stop]
    exact ⟨_, .cons hfirst (hvs.append (.of_next ⟨m, hskip, hclose⟩)),
      .expression hbody'⟩
  | bodyNil p =>
    obtain ⟨rfl, rfl⟩ := hbegins
    exact ⟨[], .nil _, .bodyNil⟩
  | bodyToken hnext htag hfragment hopen hclose _ ih =>
    obtain ⟨rfl, rfl⟩ := hbegins
    obtain ⟨vs, hvs, hbody'⟩ := ih (hp.reaches hnext.reaches) ⟨rfl, rfl⟩
    exact ⟨_, .cons (.next hnext) hvs, .bodyToken htag hfragment hopen hclose hbody'⟩
  | bodyMarkup hskip hnode _ ih ih' =>
    obtain ⟨rfl, rfl⟩ := hbegins
    have hm := hp.reaches hskip.reaches
    obtain ⟨us, hus, hnode'⟩ := @ih .next hm _ hskip
    obtain ⟨vs, hvs, hbody'⟩ := ih' (hm.reaches hnode.reaches) ⟨rfl, rfl⟩
    exact ⟨_, hus.append hvs, .bodyMarkup hnode' hbody'⟩
  | bodyBraces hopen hinner hclose _ ih ih' =>
    obtain ⟨rfl, rfl⟩ := hbegins
    have ha := hp.reaches hopen.reaches
    obtain ⟨us, hus, hinner'⟩ := ih ha ⟨rfl, rfl⟩
    obtain ⟨vs, hvs, hbody'⟩ :=
      ih' (ha.reaches (hinner.reaches.trans hclose.reaches)) ⟨rfl, rfl⟩
    exact ⟨_, .cons (.next hopen) (hus.append (.cons (.next hclose) hvs)),
      .bodyBraces hinner' hbody'⟩
  | valueString h =>
    obtain ⟨rfl, rfl⟩ := hbegins
    exact ⟨_, .of_next h, .valueString (hp.isOf_of_next h)⟩
  | valueExpression hskip _ ih =>
    obtain ⟨rfl, rfl⟩ := hbegins
    obtain ⟨vs, hvs, hnode'⟩ := @ih .next (hp.reaches hskip.reaches) _ hskip
    exact ⟨vs, hvs, .valueExpression hnode'⟩
  | valueMarkup hskip _ ih =>
    obtain ⟨rfl, rfl⟩ := hbegins
    obtain ⟨vs, hvs, hnode'⟩ := @ih .next (hp.reaches hskip.reaches) _ hskip
    exact ⟨vs, hvs, .valueMarkup hnode'⟩
  | spread hskip hopen hdots hargument hclose =>
    obtain ⟨rfl, rfl⟩ := hbegins
    have hb := hp.reaches (hskip.reaches.trans (hopen.reaches.trans hdots.reaches))
    rw [← hopen.span_start, ← hclose.span_stop]
    exact ⟨_, .cons (.next ⟨_, hskip, hopen⟩) (.cons (.next hdots) (.cons (.next hargument)
      (.of_next hclose))), .spread (hb.isOf_of_next hargument)⟩
  | bareAttribute h =>
    obtain ⟨rfl, rfl⟩ := hbegins
    obtain ⟨vs, hvs, hname'⟩ := h.exists_walk hp
    exact ⟨vs, hvs, .bareAttribute hname'⟩
  | setAttribute hname hsign hvalue ih =>
    obtain ⟨rfl, rfl⟩ := hbegins
    obtain ⟨us, hus, hname'⟩ := hname.exists_walk hp
    obtain ⟨vs, hvs, hvalue'⟩ :=
      ih (hp.reaches (hname.reaches.trans hsign.reaches)) ⟨rfl, rfl⟩
    rw [← hvalue.value_span_stop]
    exact ⟨_, hus.append (.cons (.next hsign) hvs), .setAttribute hname' hvalue'⟩
  | attributesNil p =>
    obtain ⟨rfl, rfl⟩ := hbegins
    exact ⟨[], .nil _, .attributesNil⟩
  | attributesCons hnode _ ih ih' =>
    obtain ⟨rfl, rfl⟩ := hbegins
    obtain ⟨us, hus, hnode'⟩ := ih hp ⟨rfl, rfl⟩
    obtain ⟨vs, hvs, hnodes'⟩ := ih' (hp.reaches hnode.reaches) ⟨rfl, rfl⟩
    exact ⟨_, hus.append hvs, .attributesCons hnode' hnodes'⟩
  | childText hpass hne hraw hend =>
    obtain ⟨rfl, rfl⟩ := hbegins
    have hq := hp.passes hpass
    have hrun := (hp.passes_iff hq (Place.Reaches.offset_le ⟨_, hpass⟩)).1 hpass
    exact ⟨_, .of_makes (.raw hpass hne hraw hend),
      .childText (e := ⟨_, _⟩) (congrArg String.ofList hrun)⟩
  | childMarkup _ ih =>
    obtain ⟨rfl, rfl⟩ := hbegins
    obtain ⟨vs, hvs, hnode'⟩ := @ih .nextChild hp _ rfl
    exact ⟨vs, hvs, .childMarkup hnode'⟩
  | childExpression _ ih =>
    obtain ⟨rfl, rfl⟩ := hbegins
    obtain ⟨vs, hvs, hnode'⟩ := @ih .nextChild hp _ rfl
    exact ⟨vs, hvs, .childExpression hnode'⟩
  | childrenNil p =>
    obtain ⟨rfl, rfl⟩ := hbegins
    exact ⟨[], .nil _, .childrenNil⟩
  | childrenCons hnode _ ih ih' =>
    obtain ⟨rfl, rfl⟩ := hbegins
    obtain ⟨us, hus, hnode'⟩ := ih hp ⟨rfl, rfl⟩
    obtain ⟨vs, hvs, hnodes'⟩ := ih' (hp.reaches hnode.reaches) ⟨rfl, rfl⟩
    exact ⟨_, hus.append hvs, .childrenCons hnode' hnodes'⟩

/-! ### From visits to derivations -/

/-- An identifier that is visited is the one that the text has there. -/
lemma next_of_isOf {origin : ℕ} (hp : p.InText text) (he : e.IsOf text)
    (h : p.Makes (.token .next origin kind e.span) q) : p.Next kind e q := by
  obtain ⟨e', hnext, hspan⟩ := h.exists_next
  rwa [he.eq (hp.isOf_of_next hnext) hspan.symm]

lemma SpellsMembers.members (h : SpellsMembers text parts visits) (hwalk : Walk p visits q)
    (hp : p.InText text) : Members p parts q := by
  induction h generalizing p with
  | nil =>
    obtain rfl := Walk.nil_iff.1 hwalk
    exact .nil p
  | cons hpart _ ih =>
    simp only [Walk.cons_iff] at hwalk
    obtain ⟨a, hdot, b, hpart', hrest⟩ := hwalk
    obtain ⟨dot, hdot, -⟩ := hdot.exists_next
    have ha := hp.reaches hdot.reaches
    exact .cons hdot (next_of_isOf ha hpart hpart') (ih hrest (ha.reaches hpart'.reaches))

lemma SpellsAttributeName.attributeName (h : SpellsAttributeName text name visits)
    (hwalk : Walk p visits q) (hp : p.InText text) : AttributeName p name q := by
  cases h with
  | plain he =>
    simp only [Walk.cons_iff, Walk.nil_iff] at hwalk
    obtain ⟨_, h, rfl⟩ := hwalk
    exact .plain (next_of_isOf hp he h)
  | namespaced hspace he =>
    simp only [Walk.cons_iff, Walk.nil_iff] at hwalk
    obtain ⟨a, h, b, hcolon, _, h', rfl⟩ := hwalk
    obtain ⟨colon, hcolon, -⟩ := hcolon.exists_next
    have hb := hp.reaches (h.reaches.trans hcolon.reaches)
    exact .namespaced (next_of_isOf hp hspace h) hcolon (next_of_isOf hb he h')

lemma SpellsElementName.elementName (h : SpellsElementName text name visits)
    (hwalk : Walk p visits q) (hp : p.InText text) : ElementName p name q := by
  cases h with
  | simple h => exact .simple (h.attributeName hwalk hp)
  | member hfirst hsecond hmore =>
    simp only [Walk.cons_iff] at hwalk
    obtain ⟨a, h, b, hdot, c, h', hrest⟩ := hwalk
    obtain ⟨dot, hdot, -⟩ := hdot.exists_next
    have hb := hp.reaches (h.reaches.trans hdot.reaches)
    exact .member (next_of_isOf hp hfirst h) hdot (next_of_isOf hb hsecond h')
      (hmore.members hrest (hb.reaches h'.reaches))

/-- What the visits of a walk spell stands between its ends. -/
lemma Spells.derives (h : Spells text call phrase visits) (hwalk : Walk p visits q)
    (hp : p.InText text) : ∃ m, phrase.BeginsAt call p m ∧ Derives phrase m q := by
  induction h generalizing p q with
  | selfClosed hname _ ih =>
    simp only [Walk.cons_iff, Walk.append_iff, Walk.nil_iff] at hwalk
    obtain ⟨a, hfirst, b, hus, c, hvs, _, hlast, rfl⟩ := hwalk
    have ha := hp.reaches hfirst.reaches
    obtain ⟨m, opening, henters, hopen, rfl⟩ := hfirst.exists_enters
    obtain ⟨close, hclose, rfl⟩ := hlast.exists_next
    obtain ⟨_, ⟨-, rfl⟩, hattributes⟩ := ih hvs (ha.reaches hus.reaches)
    rw [hopen.span_start, hclose.span_stop]
    exact ⟨m, henters, .selfClosed hopen (hname.elementName hus ha) hattributes hclose⟩
  | element hname _ _ hname' hmatches ih ih' =>
    simp only [Walk.cons_iff, Walk.append_iff, Walk.nil_iff] at hwalk
    obtain ⟨a, hfirst, b, hus, c, hvs, d, hclose, e, hws, f, hopen', g, hus', _, hlast, rfl⟩ :=
      hwalk
    have ha := hp.reaches hfirst.reaches
    have hb := ha.reaches hus.reaches
    have hd := hb.reaches (hvs.reaches.trans hclose.reaches)
    have hf := hd.reaches (hws.reaches.trans hopen'.reaches)
    obtain ⟨m, opening, henters, hopen, rfl⟩ := hfirst.exists_enters
    obtain ⟨close, hclose, -⟩ := hclose.exists_next
    obtain ⟨opening', hopen', -⟩ := hopen'.exists_child
    obtain ⟨close', hclose', rfl⟩ := hlast.exists_next
    obtain ⟨_, ⟨-, rfl⟩, hattributes⟩ := ih hvs hb
    obtain ⟨_, ⟨-, rfl⟩, hchildren⟩ := ih' hws hd
    rw [hopen.span_start, hclose'.span_stop]
    exact ⟨m, henters, .element hopen (hname.elementName hus ha) hattributes hclose hchildren
      hopen' (hname'.elementName hus' hf) hclose' hmatches⟩
  | fragment _ ih =>
    simp only [Walk.cons_iff, Walk.append_iff, Walk.nil_iff] at hwalk
    obtain ⟨a, hfirst, b, hvs, _, hlast, rfl⟩ := hwalk
    obtain ⟨_, ⟨-, rfl⟩, hchildren⟩ := ih hvs (hp.reaches hfirst.reaches)
    obtain ⟨m, opening, henters, hopen, rfl⟩ := hfirst.exists_enters
    obtain ⟨close, hclose, rfl⟩ := hlast.exists_child
    rw [hopen.span_start, hclose.next.span_stop]
    exact ⟨m, henters, .fragment hopen hchildren hclose⟩
  | expression _ ih =>
    simp only [Walk.cons_iff, Walk.append_iff, Walk.nil_iff] at hwalk
    obtain ⟨a, hfirst, b, hvs, _, hlast, rfl⟩ := hwalk
    have ha := hp.reaches hfirst.reaches
    obtain ⟨_, ⟨-, rfl⟩, hbody⟩ := ih hvs ha
    obtain ⟨m, opening, henters, hopen, rfl⟩ := hfirst.exists_enters
    obtain ⟨n, close, hskip, hclose, rfl⟩ := hlast.exists_enters
    have hreaches := hvs.reaches.trans hskip.reaches
    rw [hopen.span_start, hopen.next.span_stop, hclose.span_start, hclose.next.span_stop]
    exact ⟨m, henters, .expression hopen hbody hskip hclose
      ((ha.passes_iff (ha.reaches hreaches) hreaches.offset_le).2 rfl)⟩
  | bodyNil =>
    obtain rfl := Walk.nil_iff.1 hwalk
    exact ⟨p, ⟨rfl, rfl⟩, .bodyNil p⟩
  | bodyToken htag hfragment hopen hclose _ ih =>
    obtain ⟨a, hmakes, hvs⟩ := Walk.cons_iff.1 hwalk
    obtain ⟨_, ⟨-, rfl⟩, hbody⟩ := ih hvs (hp.reaches hmakes.reaches)
    obtain ⟨e, hnext, -⟩ := hmakes.exists_next
    exact ⟨p, ⟨rfl, rfl⟩, .bodyToken hnext htag hfragment hopen hclose hbody⟩
  | bodyMarkup _ _ ih ih' =>
    obtain ⟨a, hus, hvs⟩ := Walk.append_iff.1 hwalk
    obtain ⟨m, hskip, hnode⟩ := ih hus hp
    obtain ⟨_, ⟨-, rfl⟩, hbody⟩ := ih' hvs (hp.reaches hus.reaches)
    exact ⟨p, ⟨rfl, rfl⟩, .bodyMarkup hskip hnode hbody⟩
  | bodyBraces _ _ ih ih' =>
    simp only [Walk.cons_iff, Walk.append_iff] at hwalk
    obtain ⟨a, hopen, b, hus, c, hclose, hvs⟩ := hwalk
    have ha := hp.reaches hopen.reaches
    obtain ⟨_, ⟨-, rfl⟩, hinner⟩ := ih hus ha
    obtain ⟨_, ⟨-, rfl⟩, hbody⟩ := ih' hvs (ha.reaches (hus.reaches.trans hclose.reaches))
    obtain ⟨opening, hopen, -⟩ := hopen.exists_next
    obtain ⟨close, hclose, -⟩ := hclose.exists_next
    exact ⟨p, ⟨rfl, rfl⟩, .bodyBraces hopen hinner hclose hbody⟩
  | valueString he =>
    simp only [Walk.cons_iff, Walk.nil_iff] at hwalk
    obtain ⟨_, h, rfl⟩ := hwalk
    exact ⟨p, ⟨rfl, rfl⟩, .valueString (next_of_isOf hp he h)⟩
  | valueExpression _ ih =>
    obtain ⟨m, hskip, hnode⟩ := ih hwalk hp
    exact ⟨p, ⟨rfl, rfl⟩, .valueExpression hskip hnode⟩
  | valueMarkup _ ih =>
    obtain ⟨m, hskip, hnode⟩ := ih hwalk hp
    exact ⟨p, ⟨rfl, rfl⟩, .valueMarkup hskip hnode⟩
  | spread he =>
    simp only [Walk.cons_iff, Walk.nil_iff] at hwalk
    obtain ⟨a, hfirst, b, hdots, c, hargument, _, hlast, rfl⟩ := hwalk
    have hb := hp.reaches (hfirst.reaches.trans hdots.reaches)
    obtain ⟨m, opening, hskip, hopen, rfl⟩ := hfirst.exists_enters
    obtain ⟨dots, hdots, -⟩ := hdots.exists_next
    obtain ⟨close, hclose, rfl⟩ := hlast.exists_next
    rw [hopen.span_start, hclose.span_stop]
    exact ⟨p, ⟨rfl, rfl⟩, .spread hskip hopen hdots (next_of_isOf hb he hargument) hclose⟩
  | bareAttribute hname =>
    exact ⟨p, ⟨rfl, rfl⟩, .bareAttribute (hname.attributeName hwalk hp)⟩
  | setAttribute hname _ ih =>
    simp only [Walk.cons_iff, Walk.append_iff] at hwalk
    obtain ⟨a, hus, b, hsign, hvs⟩ := hwalk
    obtain ⟨_, ⟨-, rfl⟩, hvalue⟩ := ih hvs (hp.reaches (hus.reaches.trans hsign.reaches))
    obtain ⟨sign, hsign, -⟩ := hsign.exists_next
    rw [hvalue.value_span_stop]
    exact ⟨p, ⟨rfl, rfl⟩, .setAttribute (hname.attributeName hus hp) hsign hvalue⟩
  | attributesNil =>
    obtain rfl := Walk.nil_iff.1 hwalk
    exact ⟨p, ⟨rfl, rfl⟩, .attributesNil p⟩
  | attributesCons _ _ ih ih' =>
    obtain ⟨a, hus, hvs⟩ := Walk.append_iff.1 hwalk
    obtain ⟨_, ⟨-, rfl⟩, hnode⟩ := ih hus hp
    obtain ⟨_, ⟨-, rfl⟩, hnodes⟩ := ih' hvs (hp.reaches hus.reaches)
    exact ⟨p, ⟨rfl, rfl⟩, .attributesCons hnode hnodes⟩
  | @childText e he =>
    obtain ⟨a, hmakes, hnil⟩ := Walk.cons_iff.1 hwalk
    obtain rfl := Walk.nil_iff.1 hnil
    refine ⟨p, ⟨rfl, rfl⟩, ?_⟩
    obtain ⟨span, content⟩ := e
    generalize hvisit : Visit.raw span = visit at hmakes
    cases hmakes with
    | @raw _ run hpass hne hraw hend =>
      obtain rfl := Visit.raw.inj hvisit
      have hle := Place.Reaches.offset_le ⟨_, hpass⟩
      obtain rfl : content = String.ofList run := by
        rw [(hp.passes_iff (hp.passes hpass) hle).1 hpass]
        exact he
      exact .childText hpass hne hraw hend
    | _ => simp at hvisit
  | childMarkup _ ih =>
    obtain ⟨_, rfl, hnode⟩ := ih hwalk hp
    exact ⟨p, ⟨rfl, rfl⟩, .childMarkup hnode⟩
  | childExpression _ ih =>
    obtain ⟨_, rfl, hnode⟩ := ih hwalk hp
    exact ⟨p, ⟨rfl, rfl⟩, .childExpression hnode⟩
  | childrenNil =>
    obtain rfl := Walk.nil_iff.1 hwalk
    exact ⟨p, ⟨rfl, rfl⟩, .childrenNil p⟩
  | childrenCons _ _ ih ih' =>
    obtain ⟨a, hus, hvs⟩ := Walk.append_iff.1 hwalk
    obtain ⟨_, ⟨-, rfl⟩, hnode⟩ := ih hus hp
    obtain ⟨_, ⟨-, rfl⟩, hnodes⟩ := ih' hvs (hp.reaches hus.reaches)
    exact ⟨p, ⟨rfl, rfl⟩, .childrenCons hnode hnodes⟩

/-! ### Programs -/

lemma DerivesProgram.exists_walk (h : DerivesProgram p nodes) (hp : p.InText text) :
    ∃ visits q, Walk p visits q ∧ SpellsProgram text nodes visits := by
  induction h with
  | nil hends => exact ⟨_, _, .of_makes (.finish hends), .nil⟩
  | token hnext htag hfragment _ ih =>
    obtain ⟨vs, q, hvs, hrest⟩ := ih (hp.reaches hnext.reaches)
    exact ⟨_, q, .cons (.next hnext) hvs, .token htag hfragment hrest⟩
  | @markup p m a node nodes hskip hnode _ ih =>
    have hm := hp.reaches hskip.reaches
    have hbegins : (Phrase.markup node).BeginsAt .next p m := hskip
    obtain ⟨us, hus, hnode'⟩ := hnode.exists_walk hm hbegins
    obtain ⟨vs, q, hvs, hrest⟩ := ih (hm.reaches hnode.reaches)
    exact ⟨_, q, hus.append hvs, .markup hnode' hrest⟩

lemma SpellsProgram.derivesProgram (h : SpellsProgram text nodes visits) (hwalk : Walk p visits q)
    (hp : p.InText text) : DerivesProgram p nodes := by
  induction h generalizing p with
  | nil =>
    obtain ⟨a, hmakes, -⟩ := Walk.cons_iff.1 hwalk
    cases hmakes with
    | finish hends => exact .nil hends
  | token htag hfragment _ ih =>
    obtain ⟨a, hmakes, hvs⟩ := Walk.cons_iff.1 hwalk
    obtain ⟨e, hnext, -⟩ := hmakes.exists_next
    exact .token hnext htag hfragment (ih hvs (hp.reaches hnext.reaches))
  | markup hnode _ ih =>
    obtain ⟨a, hus, hvs⟩ := Walk.append_iff.1 hwalk
    obtain ⟨m, hskip, hderives⟩ := hnode.derives hus hp
    exact .markup hskip hderives (ih hvs (hp.reaches hus.reaches))

end Grammar

/-- The visits are all that is done to read the program from the text, up to the end of the
input. -/
structure Program.ReadBy (program : Program) (text : List Char) (visits : List Visit) : Prop where
  walk : ∃ q, Walk (Place.ofText text) visits q
  spells : Grammar.SpellsProgram text program.body visits

variable {levels : ℕ} {text : String} {program : Program} {visits : List Visit}

/-- What is parsed is read by some visits. -/
lemma exists_readBy (h : parseWithin levels text = .ok program) :
    ∃ visits, program.ReadBy text.toList visits := by
  obtain ⟨visits, q, hwalk, hspells⟩ :=
    (derivesProgram_of_parseWithin h).1.exists_walk (Place.inText_ofText _)
  exact ⟨visits, ⟨q, hwalk⟩, hspells⟩

/-- What is read by some visits is parsed, if it is nested as allowed. -/
lemma Program.ReadBy.parseWithin_eq (h : program.ReadBy text.toList visits)
    (hdepth : program.depth ≤ levels) : parseWithin levels text = .ok program := by
  obtain ⟨⟨q, hwalk⟩, hspells⟩ := h
  exact parseWithin_of_derivesProgram
    (hspells.derivesProgram hwalk (Place.inText_ofText _)) hdepth

end EmbeddedJsx
