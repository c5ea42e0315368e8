import EmbeddedJsx.Proofs.Grammar.Occurrence
import EmbeddedJsx.Proofs.Reading.Recording

/-!
# Which visit comes after which

Raw text is passed over only right after the end of a tag or of an expression, and after it comes
a token that is read at the very place.  This is what the grammar of visits says of neighbours
(`Visit.Precedes`), and by induction on the spelling it holds of all neighbours in the reading of a
program.

Two facts about the text follow.  Right before a run of raw text stands a `>` or a right brace
(`Program.ReadBy.getLast?_before_raw`), and where the next token is asked for, no raw text has just
ended (`Program.ReadBy.raw_stop_ne`).
-/

namespace EmbeddedJsx

/-- Whether raw text may come right after a token of the kind. -/
def TokenKind.bounds : TokenKind → Bool
  | .tagClose | .selfClose | .fragmentOpen | .fragmentClose | .braceClose => true
  | _ => false

namespace Visit

/-- The visit is one of a token. -/
def IsToken (v : Visit) : Prop := ∃ call o kind span, v = token call o kind span

/-- The visit is one of a token after which raw text may come. -/
def Bounds (v : Visit) : Prop :=
  ∃ call o kind span, v = token call o kind span ∧ kind.bounds = true

/-- After the visit a child may come. -/
def PrecedesChild (v : Visit) : Prop := v.Bounds ∨ ∃ span, v = raw span

/-- The one visit may be made right before the other. -/
inductive Precedes : Visit → Visit → Prop where
  | next {v : Visit} {o : ℕ} {kind : TokenKind} {span : Span} :
      v.IsToken → Precedes v (.token .next o kind span)
  | finish {v : Visit} {o : ℕ} : v.IsToken → Precedes v (.finish o)
  | child {v : Visit} {o : ℕ} {kind : TokenKind} {span : Span} :
      v.PrecedesChild → Precedes v (.token .nextChild o kind span)
  | raw {v : Visit} {span : Span} : v.PrecedesChild → Precedes v (.raw span)

lemma Precedes.precedesChild_or_isToken {v w : Visit} (h : v.Precedes w) :
    v.PrecedesChild ∨ v.IsToken := by
  cases h with
  | next h | finish h => exact .inr h
  | child h | raw h => exact .inl h

/-- From the first visit to the last, every visit is right after one that may come before it. -/
inductive Leads : Visit → List Visit → Visit → Prop where
  | nil (v : Visit) : Leads v [] v
  | cons {v v' w : Visit} {visits : List Visit} :
      v.Precedes v' → Leads v' visits w → Leads v (v' :: visits) w

variable {v w u : Visit} {visits visits' : List Visit} {call : Cursor.Call} {o : ℕ}
  {kind : TokenKind} {span : Span}

lemma Leads.append (h : v.Leads visits w) (h' : w.Leads visits' u) :
    v.Leads (visits ++ visits') u := by
  induction h with
  | nil v => exact h'
  | cons hbefore _ ih => exact .cons hbefore (ih h')

/-- A visit that is not the first has another right before it. -/
lemma Leads.precedes_of_append {left right : List Visit} (h : v.Leads (left ++ w :: right) u) :
    ∃ before, (v :: left).getLast? = some before ∧ before.Precedes w := by
  induction left generalizing v with
  | nil =>
    cases h with
    | cons hbefore _ => exact ⟨v, rfl, hbefore⟩
  | cons first left ih =>
    cases h with
    | cons _ hrest =>
      obtain ⟨before, hlast, hprecedes⟩ := ih hrest
      exact ⟨before, by rw [List.getLast?_cons_cons, hlast], hprecedes⟩

lemma isToken_token : (token call o kind span).IsToken := ⟨_, _, _, _, rfl⟩

lemma bounds_token (h : kind.bounds = true) : (token call o kind span).Bounds :=
  ⟨_, _, _, _, rfl, h⟩

lemma Bounds.isToken (h : v.Bounds) : v.IsToken := by
  obtain ⟨call, o, kind, span, rfl, -⟩ := h
  exact isToken_token

lemma Leads.of_next (h : v.IsToken) :
    v.Leads [.token .next o kind span] (.token .next o kind span) :=
  .cons (.next h) (.nil _)

end Visit

/-- After which visits a token may be read by the call. -/
def Cursor.Call.MayFollow : Cursor.Call → Visit → Prop
  | .next, v => v.IsToken
  | .nextChild, v => v.PrecedesChild

lemma Cursor.Call.MayFollow.precedes {call : Cursor.Call} {v : Visit} {o : ℕ} {kind : TokenKind}
    {span : Span} (h : call.MayFollow v) : v.Precedes (.token call o kind span) := by
  cases call with
  | next => exact .next h
  | nextChild => exact .child h

namespace Grammar

open Visit

variable {text : List Char} {call : Cursor.Call} {phrase : Phrase} {visits : List Visit}
  {v : Visit} {name : Name} {parts : List Excerpt} {nodes : List Node}

/-- After which visits a phrase may be read. -/
def Phrase.MayFollow : Phrase → Cursor.Call → Visit → Prop
  | .markup _, call, v | .expression _, call, v => call.MayFollow v
  | .child _, _, v | .children _, _, v => v.PrecedesChild
  | _, _, v => v.IsToken

/-- With which visits the reading of a phrase may end. -/
def Phrase.MayEnd : Phrase → Visit → Prop
  | .markup _, v | .expression _, v => v.Bounds
  | .child _, v | .children _, v => v.PrecedesChild
  | _, v => v.IsToken

lemma SpellsMembers.leads (h : SpellsMembers text parts visits) (hv : v.IsToken) :
    ∃ w, w.IsToken ∧ v.Leads visits w := by
  induction h generalizing v with
  | nil => exact ⟨v, hv, .nil v⟩
  | cons _ _ ih =>
    obtain ⟨w, hw, hleads⟩ := ih isToken_token
    exact ⟨w, hw, .cons (.next hv) (.cons (.next isToken_token) hleads)⟩

lemma SpellsAttributeName.leads (h : SpellsAttributeName text name visits) (hv : v.IsToken) :
    ∃ w, w.IsToken ∧ v.Leads visits w := by
  cases h with
  | plain => exact ⟨_, isToken_token, .of_next hv⟩
  | namespaced =>
    exact ⟨_, isToken_token, .cons (.next hv) (.cons (.next isToken_token)
      (.of_next isToken_token))⟩

lemma SpellsElementName.leads (h : SpellsElementName text name visits) (hv : v.IsToken) :
    ∃ w, w.IsToken ∧ v.Leads visits w := by
  cases h with
  | simple h => exact h.leads hv
  | member _ _ hmore =>
    obtain ⟨w, hw, hleads⟩ := hmore.leads isToken_token
    exact ⟨w, hw, .cons (.next hv) (.cons (.next isToken_token)
      (.cons (.next isToken_token) hleads))⟩

/-- The visits that spell a phrase may follow one another. -/
lemma Spells.leads (h : Spells text call phrase visits) (hv : phrase.MayFollow call v) :
    ∃ w, phrase.MayEnd w ∧ v.Leads visits w := by
  induction h generalizing v with
  | selfClosed hname _ ih =>
    obtain ⟨a, ha, hus⟩ := hname.leads isToken_token
    obtain ⟨b, hb, hvs⟩ := ih ha
    exact ⟨_, bounds_token rfl, .cons hv.precedes (hus.append (hvs.append (.of_next hb)))⟩
  | @element _ _ o _ _ _ close _ _ _ _ _ _ _ _ _ _ hname _ _ hname' _ ih ih' =>
    obtain ⟨a, ha, hus⟩ := hname.leads isToken_token
    obtain ⟨b, hb, hvs⟩ := ih ha
    have hclose : (token .next o .tagClose close).Bounds := bounds_token rfl
    obtain ⟨c, hc, hws⟩ := ih' (.inl hclose)
    obtain ⟨d, hd, hus'⟩ := hname'.leads isToken_token
    exact ⟨_, bounds_token rfl, .cons hv.precedes (hus.append (hvs.append (.cons (.next hb)
      (hws.append (.cons (.child hc) (hus'.append (.of_next hd)))))))⟩
  | @fragment call o _ opening _ _ _ _ ih =>
    have hopen : (token call o .fragmentOpen opening).Bounds := bounds_token rfl
    obtain ⟨w, hw, hvs⟩ := ih (.inl hopen)
    exact ⟨_, bounds_token rfl, .cons hv.precedes (hvs.append (.cons (.child hw) (.nil _)))⟩
  | expression _ ih =>
    obtain ⟨w, hw, hvs⟩ := ih isToken_token
    exact ⟨_, bounds_token rfl, .cons hv.precedes (hvs.append (.of_next hw))⟩
  | bodyNil => exact ⟨v, hv, .nil v⟩
  | bodyToken _ _ _ _ _ ih =>
    obtain ⟨w, hw, hvs⟩ := ih isToken_token
    exact ⟨w, hw, .cons (.next hv) hvs⟩
  | bodyMarkup _ _ ih ih' =>
    obtain ⟨a, ha, hus⟩ := ih hv
    obtain ⟨w, hw, hvs⟩ := ih' ha.isToken
    exact ⟨w, hw, hus.append hvs⟩
  | bodyBraces _ _ ih ih' =>
    obtain ⟨a, ha, hus⟩ := ih isToken_token
    obtain ⟨w, hw, hvs⟩ := ih' isToken_token
    exact ⟨w, hw, .cons (.next hv) (hus.append (.cons (.next ha) hvs))⟩
  | valueString _ => exact ⟨_, isToken_token, .of_next hv⟩
  | valueExpression _ ih =>
    obtain ⟨w, hw, hvs⟩ := ih hv
    exact ⟨w, hw.isToken, hvs⟩
  | valueMarkup _ ih =>
    obtain ⟨w, hw, hvs⟩ := ih hv
    exact ⟨w, hw.isToken, hvs⟩
  | spread _ =>
    exact ⟨_, isToken_token, .cons (.next hv) (.cons (.next isToken_token)
      (.cons (.next isToken_token) (.of_next isToken_token)))⟩
  | bareAttribute hname => exact hname.leads hv
  | setAttribute hname _ ih =>
    obtain ⟨a, ha, hus⟩ := hname.leads hv
    obtain ⟨w, hw, hvs⟩ := ih isToken_token
    exact ⟨w, hw, hus.append (.cons (.next ha) hvs)⟩
  | attributesNil => exact ⟨v, hv, .nil v⟩
  | attributesCons _ _ ih ih' =>
    obtain ⟨a, ha, hus⟩ := ih hv
    obtain ⟨w, hw, hvs⟩ := ih' ha
    exact ⟨w, hw, hus.append hvs⟩
  | childText _ => exact ⟨_, .inr ⟨_, rfl⟩, .cons (.raw hv) (.nil _)⟩
  | childMarkup _ ih =>
    obtain ⟨w, hw, hvs⟩ := ih hv
    exact ⟨w, .inl hw, hvs⟩
  | childExpression _ ih =>
    obtain ⟨w, hw, hvs⟩ := ih hv
    exact ⟨w, .inl hw, hvs⟩
  | childrenNil => exact ⟨v, hv, .nil v⟩
  | childrenCons _ _ ih ih' =>
    obtain ⟨a, ha, hus⟩ := ih hv
    obtain ⟨w, hw, hvs⟩ := ih' ha
    exact ⟨w, hw, hus.append hvs⟩

/-- The visits that read a program may follow one another, as if a token came before them. -/
lemma SpellsProgram.leads (h : SpellsProgram text nodes visits) (hv : v.IsToken) :
    ∃ w, v.Leads visits w := by
  induction h generalizing v with
  | nil => exact ⟨_, .cons (.finish hv) (.nil _)⟩
  | token _ _ _ ih =>
    obtain ⟨w, hvs⟩ := ih isToken_token
    exact ⟨w, .cons (.next hv) hvs⟩
  | markup hnode _ ih =>
    obtain ⟨a, ha, hus⟩ := hnode.leads hv
    obtain ⟨w, hvs⟩ := ih ha.isToken
    exact ⟨w, hus.append hvs⟩

/-- A text is not read without anything being visited. -/
lemma SpellsProgram.ne_nil (h : SpellsProgram text nodes visits) : visits ≠ [] := by
  induction h with
  | nil => simp
  | token _ _ _ _ => simp
  | markup _ _ ih => exact List.append_ne_nil_of_right_ne_nil _ ih

/-! ### Which nodes show what has been visited -/

/-- The node is one that shows what a single visit has read. -/
inductive ShowsVisit : Node → Visit → Prop where
  | text {span : Span} {content : String} : ShowsVisit (.text span content) (.raw span)
  | string {o : ℕ} {span : Span} {content : String} :
      ShowsVisit (.string span content) (.token .next o .string span)

variable {node root leaf : Node}

/-- What a leaf of the tree below a phrase shows has been visited. -/
lemma Spells.exists_visit (h : Spells text call phrase visits) (hmem : root ∈ phrase.nodes)
    (hoccurs : leaf.Occurs root)
    (hleaf : ∃ span content, leaf = .text span content ∨ leaf = .string span content) :
    ∃ v ∈ visits, ShowsVisit leaf v := by
  -- a leaf below another node occurs below one of the nodes directly below that
  have hbelow {root : Node} (hoccurs : leaf.Occurs root)
      (hroot : ∀ span content, root ≠ .text span content ∧ root ≠ .string span content) :
      ∃ sub ∈ root.subs, leaf.Occurs sub := by
    cases hoccurs with
    | root =>
      obtain ⟨span, content, hleaf | hleaf⟩ := hleaf
      · exact absurd hleaf (hroot span content).1
      · exact absurd hleaf (hroot span content).2
    | under hsub hoccurs => exact ⟨_, hsub, hoccurs⟩
  induction h generalizing root with
  | selfClosed _ _ ih =>
    obtain rfl := List.mem_singleton.1 hmem
    obtain ⟨sub, hsub, hoccurs⟩ := hbelow hoccurs (by simp)
    obtain ⟨v, hv, hshows⟩ := ih hsub hoccurs
    exact ⟨v, by simp [hv], hshows⟩
  | element _ _ _ _ _ ih ih' =>
    obtain rfl := List.mem_singleton.1 hmem
    obtain ⟨sub, hsub, hoccurs⟩ := hbelow hoccurs (by simp)
    rcases List.mem_append.1 hsub with hsub | hsub
    · obtain ⟨v, hv, hshows⟩ := ih hsub hoccurs
      exact ⟨v, by simp [hv], hshows⟩
    · obtain ⟨v, hv, hshows⟩ := ih' hsub hoccurs
      exact ⟨v, by simp [hv], hshows⟩
  | fragment _ ih | expression _ ih =>
    obtain rfl := List.mem_singleton.1 hmem
    obtain ⟨sub, hsub, hoccurs⟩ := hbelow hoccurs (by simp)
    obtain ⟨v, hv, hshows⟩ := ih hsub hoccurs
    exact ⟨v, by simp [hv], hshows⟩
  | bodyToken _ _ _ _ _ ih =>
    obtain ⟨v, hv, hshows⟩ := ih hmem hoccurs
    exact ⟨v, by simp [hv], hshows⟩
  | bodyMarkup _ _ ih ih' | attributesCons _ _ ih ih' | childrenCons _ _ ih ih' =>
    rcases List.mem_cons.1 hmem with rfl | hmem
    · obtain ⟨v, hv, hshows⟩ := ih (List.mem_singleton_self _) hoccurs
      exact ⟨v, by simp [hv], hshows⟩
    · obtain ⟨v, hv, hshows⟩ := ih' hmem hoccurs
      exact ⟨v, by simp [hv], hshows⟩
  | bodyBraces _ _ ih ih' =>
    rcases List.mem_append.1 hmem with hmem | hmem
    · obtain ⟨v, hv, hshows⟩ := ih hmem hoccurs
      exact ⟨v, by simp [hv], hshows⟩
    · obtain ⟨v, hv, hshows⟩ := ih' hmem hoccurs
      exact ⟨v, by simp [hv], hshows⟩
  | valueString _ =>
    obtain rfl := List.mem_singleton.1 hmem
    cases hoccurs with
    | root => exact ⟨_, List.mem_singleton_self _, .string⟩
    | under hsub _ => simp [Node.subs] at hsub
  | childText _ =>
    obtain rfl := List.mem_singleton.1 hmem
    cases hoccurs with
    | root => exact ⟨_, List.mem_singleton_self _, .text⟩
    | under hsub _ => simp [Node.subs] at hsub
  | valueExpression _ ih | valueMarkup _ ih | childMarkup _ ih | childExpression _ ih =>
    exact ih hmem hoccurs
  | spread _ | bareAttribute _ =>
    obtain rfl := List.mem_singleton.1 hmem
    obtain ⟨sub, hsub, -⟩ := hbelow hoccurs (by simp)
    simp [Node.subs] at hsub
  | setAttribute _ _ ih =>
    obtain rfl := List.mem_singleton.1 hmem
    obtain ⟨sub, hsub, hoccurs⟩ := hbelow hoccurs (by simp)
    obtain ⟨v, hv, hshows⟩ := ih hsub hoccurs
    exact ⟨v, by simp [hv], hshows⟩
  | bodyNil | attributesNil | childrenNil => simp [Phrase.nodes] at hmem

lemma SpellsProgram.exists_visit (h : SpellsProgram text nodes visits) (hmem : root ∈ nodes)
    (hoccurs : leaf.Occurs root)
    (hleaf : ∃ span content, leaf = .text span content ∨ leaf = .string span content) :
    ∃ v ∈ visits, ShowsVisit leaf v := by
  induction h with
  | nil => simp at hmem
  | token _ _ _ ih =>
    obtain ⟨v, hv, hshows⟩ := ih hmem
    exact ⟨v, List.mem_cons_of_mem _ hv, hshows⟩
  | markup hnode _ ih =>
    rcases List.mem_cons.1 hmem with rfl | hmem
    · obtain ⟨v, hv, hshows⟩ := hnode.exists_visit (List.mem_singleton_self _) hoccurs hleaf
      exact ⟨v, List.mem_append_left _ hv, hshows⟩
    · obtain ⟨v, hv, hshows⟩ := ih hmem
      exact ⟨v, List.mem_append_right _ hv, hshows⟩

end Grammar

/-! ### Neighbours in the text -/

/-- What comes before a place and before a later one differ by what lies between the places. -/
lemma Place.InText.take_of_passes {text run : List Char} {p q : Place} (hp : p.InText text)
    (h : p.Passes run q) : text.take q.offset = text.take p.offset ++ run := by
  rw [h.2, List.take_add, ← hp.rest_eq, h.1, List.take_left]

/-- A token after which raw text may come ends with a `>` or a right brace. -/
lemma Lexeme.getLast?_of_bounds {kind : TokenKind} {lexeme after : List Char}
    (h : Lexeme kind lexeme after) (hkind : kind.bounds = true) :
    lexeme.getLast? = some '>' ∨ lexeme.getLast? = some '\x7d' := by
  cases h with
  | tagClose => exact .inl rfl
  | braceClose => exact .inr rfl
  | selfClose _ => exact .inl List.getLast?_concat
  | fragmentOpen _ => exact .inl List.getLast?_concat
  | fragmentClose _ _ => exact .inl List.getLast?_concat
  | _ => simp [TokenKind.bounds] at hkind

/-- After a run of raw text comes no other. -/
lemma Place.Makes.not_raw_raw {p a q : Place} {span span' : Span} (h : p.Makes (.raw span) a)
    (h' : a.Makes (.raw span') q) : False := by
  obtain ⟨_, -, -, -, hend⟩ := h.exists_passes
  obtain ⟨run, hpass, hne, hraw, -⟩ := h'.exists_passes
  exact hend.not_passes hpass hne hraw

namespace Program.ReadBy

variable {text : List Char} {program : Program} {visits : List Visit} {span : Span}
  {content : String}

/-- Every visit is made between places of the text. -/
lemma exists_makes {v : Visit} (h : program.ReadBy text visits) (hmem : v ∈ visits) :
    ∃ p a : Place, p.InText text ∧ a.InText text ∧ p.Makes v a := by
  obtain ⟨q, hwalk⟩ := h.walk
  obtain ⟨p, a, hp, hmakes, -⟩ := hwalk.exists_makes hmem
  have hp := (Place.inText_ofText _).reaches hp
  exact ⟨p, a, hp, hp.reaches hmakes.reaches, hmakes⟩

/-- What is visited earlier ends before what is visited later begins. -/
lemma stop_le_origin {left right : List Visit} {u v : Visit}
    (h : program.ReadBy text (left ++ v :: right)) (hmem : u ∈ left) : u.stop ≤ v.origin := by
  obtain ⟨q, hwalk⟩ := h.walk
  obtain ⟨b, hleft, hrest⟩ := Walk.append_iff.1 hwalk
  obtain ⟨c, hmakes, -⟩ := Walk.cons_iff.1 hrest
  obtain ⟨x, y, -, hvisit, hy⟩ := hleft.exists_makes hmem
  rw [hvisit.stop_eq, hmakes.origin_eq]
  exact hy.offset_le

/-- The reading of a raw text that occurs in the program. -/
lemma raw_mem (h : program.ReadBy text visits) (hnode : program.Contains (.text span content)) :
    .raw span ∈ visits := by
  obtain ⟨root, hroot, hoccurs⟩ := hnode
  obtain ⟨v, hv, hshows⟩ := h.spells.exists_visit hroot hoccurs ⟨span, content, .inl rfl⟩
  cases hshows with
  | text => exact hv

/-- The reading of a string literal that occurs in the program. -/
lemma string_mem (h : program.ReadBy text visits)
    (hnode : program.Contains (.string span content)) :
    ∃ o, .token .next o .string span ∈ visits := by
  obtain ⟨root, hroot, hoccurs⟩ := hnode
  obtain ⟨v, hv, hshows⟩ := h.spells.exists_visit hroot hoccurs ⟨span, content, .inr rfl⟩
  cases hshows with
  | string => exact ⟨_, hv⟩

/-- Whatever is visited comes right after something else that may be visited before it, as if a
token came before the text. -/
lemma exists_before {left right : List Visit} {v : Visit}
    (h : program.ReadBy text (left ++ v :: right)) :
    ∃ before, before.Precedes v ∧
      (left = [] ∧ before = .token .next 0 .endOfInput ⟨0, 0⟩ ∨
        ∃ left', left = left' ++ [before]) := by
  obtain ⟨w, hleads⟩ :=
    h.spells.leads (v := .token .next 0 .endOfInput ⟨0, 0⟩) Visit.isToken_token
  obtain ⟨before, hlast, hprecedes⟩ := hleads.precedes_of_append
  refine ⟨before, hprecedes, ?_⟩
  rcases List.eq_nil_or_concat left with rfl | ⟨left', last, rfl⟩
  · rw [List.getLast?_singleton, Option.some.injEq] at hlast
    exact .inl ⟨rfl, hlast.symm⟩
  · rw [List.concat_eq_append, ← List.cons_append, List.getLast?_concat, Option.some.injEq] at hlast
    exact .inr ⟨left', by rw [List.concat_eq_append, hlast]⟩

/-- Where no token comes any more, nothing else is visited. -/
lemma eq_nil_of_finish {left right : List Visit} {o : ℕ}
    (h : program.ReadBy text (left ++ .finish o :: right)) : right = [] := by
  by_contra hne
  obtain ⟨v, right, rfl⟩ := List.exists_cons_of_ne_nil hne
  rw [← List.singleton_append, ← List.append_assoc] at h
  obtain ⟨before, hprecedes, ⟨hnil, -⟩ | ⟨left', hleft⟩⟩ := h.exists_before
  · simp at hnil
  obtain ⟨-, rfl⟩ := List.concat_inj.1 (by simpa using hleft)
  have hbefore := hprecedes.precedesChild_or_isToken
  simp [Visit.PrecedesChild, Visit.Bounds, Visit.IsToken] at hbefore

lemma finish_notMem_left {left right : List Visit} {v : Visit}
    (h : program.ReadBy text (left ++ v :: right)) (o : ℕ) : .finish o ∉ left := by
  intro hmem
  obtain ⟨left, middle, rfl⟩ := List.append_of_mem hmem
  rw [List.append_assoc, List.cons_append] at h
  simpa using h.eq_nil_of_finish

/-- Right before a run of raw text stands a `>` or a right brace. -/
lemma getLast?_before_raw (h : program.ReadBy text visits) (hmem : .raw span ∈ visits) :
    (text.take span.start).getLast? = some '>' ∨
      (text.take span.start).getLast? = some '\x7d' := by
  obtain ⟨left, right, rfl⟩ := List.append_of_mem hmem
  obtain ⟨before, hprecedes, hleft⟩ := h.exists_before
  obtain ⟨q, hwalk⟩ := h.walk
  obtain ⟨a, hwalk, hrest⟩ := Walk.append_iff.1 hwalk
  obtain ⟨b, hraw, -⟩ := Walk.cons_iff.1 hrest
  obtain hbefore : before.PrecedesChild := by
    cases hprecedes with
    | raw hbefore => exact hbefore
  have hstart : span.start = a.offset := hraw.origin_eq
  rw [hstart]
  rcases hleft with ⟨-, rfl⟩ | ⟨left, rfl⟩
  · -- a program does not begin with raw text
    rcases hbefore with ⟨_, _, _, _, heq, hbounds⟩ | ⟨_, heq⟩
    · obtain ⟨-, -, rfl, -⟩ := Visit.token.inj heq
      simp [TokenKind.bounds] at hbounds
    · simp at heq
  · obtain ⟨p, hleft, hlast⟩ := Walk.concat_iff.1 hwalk
    rcases hbefore with ⟨_, _, _, _, rfl, hbounds⟩ | ⟨_, rfl⟩
    · obtain ⟨m, e, hskip, ⟨lexeme, hpass, hlex, -⟩, -, -⟩ := hlast.exists_reads
      have hm := (Place.inText_ofText text).reaches (hleft.reaches.trans hskip.reaches)
      rw [hm.take_of_passes hpass, List.getLast?_append]
      rcases hlex.getLast?_of_bounds hbounds with hchar | hchar <;> simp [hchar]
    · exact (hlast.not_raw_raw hraw).elim

/-- Where the next token is asked for, no raw text has just ended. -/
lemma raw_stop_ne {v : Visit} (h : program.ReadBy text visits) (hmem : .raw span ∈ visits)
    (hv : v ∈ visits) (hcall : (∃ o kind s, v = .token .next o kind s) ∨ ∃ o, v = .finish o) :
    span.stop ≠ v.origin := by
  intro hstop
  obtain ⟨left, right, rfl⟩ := List.append_of_mem hv
  obtain ⟨before, hprecedes, hleft⟩ := h.exists_before
  obtain ⟨q, hwalk⟩ := h.walk
  obtain ⟨a, hwalk, hrest⟩ := Walk.append_iff.1 hwalk
  obtain ⟨b, hmakes, hright⟩ := Walk.cons_iff.1 hrest
  have horigin := hmakes.origin_eq
  have hbefore : before.IsToken := by
    rcases hcall with ⟨o, kind, s, rfl⟩ | ⟨o, rfl⟩
    · cases hprecedes with
      | next hbefore => exact hbefore
    · cases hprecedes with
      | finish hbefore => exact hbefore
  -- the raw text is none of the visits from there on
  rcases List.mem_append.1 hmem with hmem | hmem
  swap
  · obtain ⟨c, d, hc, hraw, -⟩ := hrest.exists_makes hmem
    have hlt := hraw.start_lt_of_raw
    have hstart : span.start = c.offset := hraw.origin_eq
    have hle := hc.offset_le
    omega
  rcases hleft with ⟨rfl, -⟩ | ⟨left, rfl⟩
  · simp at hmem
  -- and neither can it end before the token that comes right before
  obtain ⟨_, _, _, _, rfl⟩ := hbefore
  obtain ⟨c, hleft, hlast⟩ := Walk.concat_iff.1 hwalk
  rcases List.mem_append.1 hmem with hmem | hmem
  · obtain ⟨x, y, -, hraw, hy⟩ := hleft.exists_makes hmem
    have hstop' : span.stop = y.offset := hraw.stop_eq
    have hle := hy.offset_le
    have hlt := hlast.origin_lt_of_token
    have horigin' := hlast.origin_eq
    have hend := hlast.stop_eq
    simp only [Visit.origin, Visit.stop] at horigin' hend
    omega
  · simp at hmem

end Program.ReadBy

end EmbeddedJsx
