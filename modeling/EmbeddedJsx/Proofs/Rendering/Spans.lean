import EmbeddedJsx.Command.Run
import EmbeddedJsx.Proofs.Geometry.Nodes
import EmbeddedJsx.Proofs.Lexical.Cut

/-!
# Spans in renderings

Whatever the format, a span that is shown lies in the text that was rendered, and the text shown
with it is what stands there.  For tables that follows from the cut of the text into tokens, for
outlines and for JSON from the places of nodes.  The main statement is `showsSpans_of_render`.
-/

namespace EmbeddedJsx

open Text

variable {text : List Char} {span inside : Span} {shown : String} {node : Node} {nodes : List Node}
  {c d : Char}

/-! ### Spans and what they cover -/

/-- The span is one of the text. -/
def Span.InText (text : List Char) (span : Span) : Prop :=
  span.start ≤ span.stop ∧ span.stop ≤ text.length

/-- The span is one of the text and covers what is shown. -/
def Span.Cites (text : List Char) (span : Span) (shown : List Char) : Prop :=
  span.InText text ∧ span.slice text = shown

lemma Span.slice_singleton {i : ℕ} (h : text[i]? = some c) : Span.slice ⟨i, i + 1⟩ text = [c] := by
  obtain ⟨hi, rfl⟩ := List.getElem?_eq_some_iff.1 h
  rw [Span.slice, List.drop_eq_getElem_cons hi, Nat.add_sub_cancel_left]
  rfl

/-- An expression covers its inside with a brace on either side. -/
lemma InBraces.cites (h : InBraces text span inside nodes) (hstop : span.stop ≤ text.length) :
    span.Cites text ('{' :: (inside.slice text ++ ['}'])) := by
  obtain ⟨start, stop⟩ := inside
  obtain ⟨hpos, hle, rfl, hopen, hclose, -⟩ := h
  dsimp only at hpos hle hopen hclose
  refine ⟨⟨by dsimp only; omega, hstop⟩, ?_⟩
  have hleft : Span.slice ⟨start - 1, start⟩ text = ['{'] := by
    simpa [Nat.sub_add_cancel hpos] using Span.slice_singleton hopen
  have hright : Span.slice ⟨stop, stop + 1⟩ text = ['}'] := Span.slice_singleton hclose
  dsimp only
  rw [← Span.slice_append_slice (Nat.sub_le start 1) (hle.trans (Nat.le_succ stop)),
    ← Span.slice_append_slice hle (Nat.le_succ stop), hleft, hright]
  rfl

/-! ### Nodes -/

namespace Node

/-- The node has a span of the text, and what is shown with the span is what stands there. -/
def Cites (text : List Char) (node : Node) : Prop :=
  node.span.InText text ∧
    match node with
    | expression span _ content _ => span.slice text = '{' :: (content.toList ++ ['}'])
    | .text span content | string span content => span.slice text = content.toList
    | _ => True

lemma Placed.cites (h : node.Placed text) : node.Cites text := by
  refine ⟨⟨h.start_lt.le, h.stop_le⟩, ?_⟩
  have hshows := h.shows
  cases node with
  | expression span inside content markup =>
    obtain ⟨hbraces, rfl⟩ := hshows
    dsimp only
    rw [String.toList_ofList]
    exact (hbraces.cites h.stop_le).2
  | text span content =>
    obtain ⟨rfl, -⟩ := hshows
    exact String.toList_ofList.symm
  | string span content =>
    obtain rfl := hshows
    exact String.toList_ofList.symm
  | _ => trivial

/-! ### Below nodes -/

lemma sizeOf_lt_of_mem_subs {sub : Node} (h : sub ∈ node.subs) : sizeOf sub < sizeOf node := by
  cases node with
  | element _ _ attributes children =>
    rcases List.mem_append.1 h with h | h <;>
    · have := List.sizeOf_lt_of_mem h
      simp only [element.sizeOf_spec]
      omega
  | setAttribute _ _ value =>
    obtain rfl := List.mem_singleton.1 h
    simp only [setAttribute.sizeOf_spec]
    omega
  | selfClosed | fragment | expression =>
    have := List.sizeOf_lt_of_mem h
    simp_all only [subs, selfClosed.sizeOf_spec, fragment.sizeOf_spec, expression.sizeOf_spec]
    omega
  | _ => simp [subs] at h

/-- What holds of a node if it holds of the nodes directly below it holds of all nodes. -/
lemma induction_subs {motive : Node → Prop}
    (step : ∀ node, (∀ sub ∈ node.subs, motive sub) → motive node) (node : Node) : motive node :=
  step node fun sub _ => induction_subs step sub
termination_by sizeOf node
decreasing_by exact sizeOf_lt_of_mem_subs ‹_›

/-! ### Outlines -/

lemma allRows_eq_flatMap (depth : ℕ) (nodes : List Node) :
    allRows depth nodes = nodes.flatMap (rows depth) := by
  induction nodes with
  | nil => rw [allRows, List.flatMap_nil]
  | cons node nodes ih => rw [allRows, ih, List.flatMap_cons]

/-- Below the row of a node are those of the nodes directly below it. -/
lemma rows_eq (depth : ℕ) (node : Node) :
    node.rows depth = ⟨depth, node.headline⟩ :: node.subs.flatMap (rows (depth + 1)) := by
  cases node <;> simp [rows, subs, allRows_eq_flatMap]

/-- The rows of a node are the headlines of the nodes that occur in it. -/
lemma exists_headline_of_mem_rows {depth : ℕ} {row : Outline.Row} (h : row ∈ node.rows depth) :
    ∃ sub : Node, sub.Occurs node ∧ row.text = sub.headline := by
  induction node using induction_subs generalizing depth with
  | step node ih =>
    rw [rows_eq] at h
    rcases List.mem_cons.1 h with rfl | h
    · exact ⟨node, .root, rfl⟩
    · obtain ⟨sub, hsub, h⟩ := List.mem_flatMap.1 h
      obtain ⟨below, hbelow, heq⟩ := ih sub hsub h
      exact ⟨below, .under hsub hbelow, heq⟩

end Node

lemma Program.exists_headline_of_mem_rows {program : Program} {row : Outline.Row}
    (h : row ∈ program.rows) :
    row.text = "Program" ∨ ∃ node, program.Contains node ∧ row.text = node.headline := by
  rw [rows] at h
  rcases List.mem_cons.1 h with rfl | h
  · exact .inl rfl
  · rw [Node.allRows_eq_flatMap] at h
    obtain ⟨root, hroot, h⟩ := List.mem_flatMap.1 h
    obtain ⟨node, hnode, heq⟩ := Node.exists_headline_of_mem_rows h
    exact .inr ⟨node, ⟨root, hroot, hnode⟩, heq⟩

/-! ### JSON -/

namespace Json

/-- The value is the whole of another one or stands in it, at whatever depth. -/
inductive Occurs (value : Json) : Json → Prop where
  | root : Occurs value value
  | item {items : List Json} {item : Json} :
      item ∈ items → Occurs value item → Occurs value (.array items)
  | member {members : List (String × Json)} {name : String} {inner : Json} :
      (name, inner) ∈ members → Occurs value inner → Occurs value (.object members)

/-- The bounds among the members of an object are those of a span of the text.  A text among them
is what the span covers, but for the braces in the case of an expression. -/
def MembersCite (text : List Char) (members : List (String × Json)) : Prop :=
  ∀ start stop : ℤ, members.lookup "start" = some (.int start) →
    members.lookup "end" = some (.int stop) →
    ∃ span : Span, start = span.start ∧ stop = span.stop ∧ span.InText text ∧
      ∀ shown, members.lookup "text" = some (.string shown) →
        (members.lookup "type" = some (.string "Expression") →
          span.slice text = '{' :: (shown.toList ++ ['}'])) ∧
        (members.lookup "type" ≠ some (.string "Expression") → span.slice text = shown.toList)

/-- All objects in the value show spans of the text and what these cover. -/
def Cites (text : List Char) (root : Json) : Prop :=
  ∀ members, Occurs (.object members) root → MembersCite text members

variable {members : List (String × Json)} {items : List Json}

lemma cites_array (h : ∀ item ∈ items, Cites text item) : Cites text (.array items) := by
  intro members hoccurs
  cases hoccurs with
  | item hitem hoccurs => exact h _ hitem members hoccurs

lemma cites_object (h : MembersCite text members)
    (h' : ∀ member ∈ members, Cites text member.2) : Cites text (.object members) := by
  intro members' hoccurs
  cases hoccurs with
  | root => exact h
  | member hmember hoccurs => exact h' _ hmember members' hoccurs

@[simp] lemma cites_null : Cites text .null := by
  rintro members ⟨⟩

@[simp] lemma cites_bool (value : Bool) : Cites text (.bool value) := by
  rintro members ⟨⟩

@[simp] lemma cites_int (value : ℤ) : Cites text (.int value) := by
  rintro members ⟨⟩

@[simp] lemma cites_string (value : String) : Cites text (.string value) := by
  rintro members ⟨⟩

end Json

lemma Excerpt.record_cites {e : Excerpt} (h : e.span.InText text) (hread : e.ReadFrom text) :
    e.record.Cites text := by
  refine Json.cites_object (fun start stop hstart hstop => ?_) (by simp)
  have hstart : start = e.span.start := by simpa [List.lookup, eq_comm] using hstart
  have hstop : stop = e.span.stop := by simpa [List.lookup, eq_comm] using hstop
  refine ⟨e.span, hstart, hstop, h, fun shown hshown => ⟨by simp [List.lookup], fun _ => ?_⟩⟩
  have hshown : e.text = shown := by simpa [List.lookup] using hshown
  rw [← hshown, hread, String.toList_ofList]

/-- A name has no bounds of its own. -/
lemma Name.record_cites {name : Name} (h : ∀ e ∈ name.parts, e.record.Cites text) :
    name.record.Cites text := by
  refine Json.cites_object (fun start stop hstart _ => ?_) ?_
  · simp [List.lookup] at hstart
  · simpa using Json.cites_array (by simpa using h)

namespace Node

variable {type : String} {members : List (String × Json)}

lemma recordWith_cites (h : span.InText text)
    (htext : ∀ shown, members.lookup "text" = some (.string shown) →
      (type = "Expression" → span.slice text = '{' :: (shown.toList ++ ['}'])) ∧
        (type ≠ "Expression" → span.slice text = shown.toList))
    (hmembers : ∀ member ∈ members, Json.Cites text member.2) :
    (recordWith span type members).Cites text := by
  refine Json.cites_object (fun start stop hstart hstop => ?_) (by simpa using hmembers)
  have hstart : start = span.start := by simpa [List.lookup, eq_comm] using hstart
  have hstop : stop = span.stop := by simpa [List.lookup, eq_comm] using hstop
  refine ⟨span, hstart, hstop, h, fun shown hshown => ?_⟩
  simpa [List.lookup] using htext shown (by simpa [List.lookup] using hshown)

lemma records_eq_map (nodes : List Node) : records nodes = nodes.map record := by
  induction nodes with
  | nil => rw [records, List.map_nil]
  | cons node nodes ih => rw [records, ih, List.map_cons]

/-- No node is written as `null`. -/
lemma exists_record_eq_object (node : Node) :
    ∃ members, node.record = .object members := by
  cases node <;> exact ⟨_, by rw [record, recordWith]⟩

lemma Placed.identifier_cites (h : node.Placed text) {e : Excerpt} (he : e ∈ node.identifiers) :
    e.record.Cites text := by
  obtain ⟨-, hlt, hle⟩ := h.parts.inside e.span (List.mem_append_left _ (List.mem_map_of_mem he))
  exact Excerpt.record_cites ⟨hlt.le, hle.trans h.stop_le⟩ (h.identifiers e he)

/-- All that is said in JSON of a node and of those below it is taken from the text. -/
lemma record_cites (h : ∀ sub : Node, sub.Occurs node → sub.Placed text) :
    node.record.Cites text := by
  induction node using induction_subs with
  | step node ih =>
    have hplaced := h node .root
    obtain ⟨hspan, hcites⟩ := hplaced.cites
    have hsubs (nodes : List Node) (hmem : ∀ sub ∈ nodes, sub ∈ node.subs) :
        (Json.array (records nodes)).Cites text := by
      rw [records_eq_map]
      refine Json.cites_array fun item hitem => ?_
      obtain ⟨sub, hsub, rfl⟩ := List.mem_map.1 hitem
      exact ih sub (hmem sub hsub) fun below hbelow => h below (.under (hmem sub hsub) hbelow)
    have hname (name : Name) (hparts : ∀ e ∈ name.parts, e ∈ node.identifiers) :
        name.record.Cites text :=
      Name.record_cites fun e he => hplaced.identifier_cites (hparts e he)
    cases node with
    | selfClosed span name attributes =>
      rw [record]
      refine recordWith_cites hspan (by simp [List.lookup]) ?_
      simpa using ⟨hname name fun _ he => he, hsubs attributes fun _ hsub => hsub⟩
    | element span name attributes children =>
      rw [record]
      refine recordWith_cites hspan (by simp [List.lookup]) ?_
      simpa using ⟨hname name fun _ he => he,
        hsubs attributes fun _ hsub => List.mem_append_left _ hsub,
        hsubs children fun _ hsub => List.mem_append_right _ hsub⟩
    | fragment span children =>
      rw [record]
      refine recordWith_cites hspan (by simp [List.lookup]) ?_
      simpa using hsubs children fun _ hsub => hsub
    | expression span inside content markup =>
      rw [record]
      refine recordWith_cites hspan (by simpa [List.lookup] using hcites) ?_
      simpa using hsubs markup fun _ hsub => hsub
    | text span content =>
      rw [record]
      exact recordWith_cites hspan (by simpa [List.lookup] using hcites) (by simp)
    | string span content =>
      rw [record]
      exact recordWith_cites hspan (by simpa [List.lookup] using hcites) (by simp)
    | setAttribute span name value =>
      rw [record]
      refine recordWith_cites hspan (by simp [List.lookup]) ?_
      have hvalue := ih value (List.mem_singleton_self _) fun below hbelow =>
        h below (.under (List.mem_singleton_self _) hbelow)
      simpa using ⟨hname name fun _ he => he, hvalue⟩
    | bareAttribute span name =>
      rw [record]
      refine recordWith_cites hspan (by simp [List.lookup]) ?_
      simpa using hname name fun _ he => he
    | spread span argument =>
      rw [record]
      exact recordWith_cites hspan (by simp [List.lookup]) (by simp)

end Node

/-! ### Renderings -/

lemma Program.record_cites {program : Program}
    (h : ∀ node, program.Contains node → node.Placed text) : program.record.Cites text := by
  refine Json.cites_object (fun start stop hstart _ => ?_) ?_
  · simp [List.lookup] at hstart
  · rw [Node.records_eq_map]
    have hbody : (Json.array (program.body.map Node.record)).Cites text := by
      refine Json.cites_array fun item hitem => ?_
      obtain ⟨node, hnode, rfl⟩ := List.mem_map.1 hitem
      exact Node.record_cites fun sub hsub => h sub ⟨node, hnode, hsub⟩
    simpa using hbody

/-- Every span that a rendering shows is one of the text, and what is shown with it is what the
span covers. -/
def ShowsSpans (text : List Char) (rendering : String) : Format → Prop
  | .tokens => ∃ tokens : List Token, rendering = TokenTable.render tokens ∧
      ∀ token ∈ tokens, token.span.Cites text token.text.toList
  | .tree => ∃ rows : List Outline.Row, rendering = String.join (rows.map Outline.Row.line) ∧
      ∀ row ∈ rows, row.text = "Program" ∨ ∃ node : Node, row.text = node.headline ∧ node.Cites text
  | .json => ∃ (value : Json) (width : ℤ), rendering = value.layout width ++ "\n" ∧ value.Cites text

lemma cites_of_tokens {text : String} {ts : List Token} (h : tokens text = .ok ts) {token : Token}
    (htoken : token ∈ ts) : token.span.Cites text.toList token.text.toList := by
  have hcuts : Cuts text.toList 0 text.toList.length ts := cuts_to_end_iff.2 (tokens_eq_iff.1 h)
  obtain ⟨-, hlt, hstop⟩ := hcuts.inside token htoken
  refine ⟨⟨hlt.le, hstop⟩, ?_⟩
  rw [hcuts.text_eq token htoken, String.toList_ofList]

lemma render_tokens {platform : Platform} {indent : Given Indent} {text : String}
    {ts : List Token} (h : tokens text = .ok ts) :
    render platform .tokens indent text = .ok (TokenTable.render ts) := by
  simp only [render, h, Except.map, Except.mapError]

/-- A record that is laid out is followed by a line feed and nothing else. -/
lemma Platform.eq_of_lay {platform : Platform} {width : ℤ} {record : Json} {rendering : String}
    (h : platform.lay width record = .ok rendering) : rendering = record.layout width ++ "\n" := by
  unfold Platform.lay at h
  split at h
  · contradiction
  split at h
  · contradiction
  dsimp only at h
  split at h
  · contradiction
  · exact (Except.ok.inj h).symm

/-- **Spans in renderings.**  Where a text can be rendered, its rendering shows spans of the text
and what these cover. -/
lemma showsSpans_of_render {platform : Platform} {format : Format} {indent : Given Indent}
    {text rendering : String} (h : render platform format indent text = .ok rendering) :
    ShowsSpans text.toList rendering format := by
  cases format with
  | tokens =>
    cases htokens : tokens text with
    | error error => simp [render, htokens, Except.map, Except.mapError] at h
    | ok ts =>
      rw [render_tokens htokens, Except.ok.injEq] at h
      exact ⟨ts, h.symm, fun token => cites_of_tokens htokens⟩
  | tree =>
    cases hprogram : parse text with
    | error error => simp [render, hprogram, Except.map, Except.mapError] at h
    | ok program =>
      simp only [render, hprogram, Except.map, Except.mapError, Except.ok.injEq] at h
      refine ⟨program.rows, h.symm, fun row hrow => ?_⟩
      refine (Program.exists_headline_of_mem_rows hrow).imp_right ?_
      rintro ⟨node, hnode, heq⟩
      exact ⟨node, heq, (placed_of_contains hprogram hnode).cites⟩
  | json =>
    cases hprogram : parse text with
    | error error => simp [render, hprogram] at h
    | ok program =>
      have hcites := Program.record_cites fun _ hnode => placed_of_contains hprogram hnode
      simp only [render, hprogram] at h
      cases hjson : renderJson platform indent program with
      | error fault => simp [hjson, Except.mapError] at h
      | ok document =>
        obtain rfl : document = rendering := by simpa [hjson, Except.mapError] using h
        unfold renderJson at hjson
        split at hjson
        · contradiction
        split at hjson
        · contradiction
        · next width _ =>
          exact ⟨program.record, width, Platform.eq_of_lay hjson, hcites⟩

end EmbeddedJsx
