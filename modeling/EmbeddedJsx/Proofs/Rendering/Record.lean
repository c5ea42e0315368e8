import EmbeddedJsx.Proofs.Rendering.Spans

/-!
# Trees out of JSON

Programs with equal JSON are equal as trees, up to the one thing that the JSON of a program does
not show: where the argument of a spread attribute stands (`Node.unplaced`).  The range inside the
braces of an expression is not shown either, but it is what the braces leave of the span of the
expression (`Node.Braced`), and that is so in every tree which is read from a text.

The main statement is `equal_record_iff_of_parseWithin`.
-/

namespace EmbeddedJsx

/-! ### Equality of JSON -/

namespace Json

/-- What a value is as a number.  Truth values count as zero and one. -/
def number? : Json → Option ℤ
  | bool value => some (if value then 1 else 0)
  | int value => some value
  | _ => none

mutual

/-- Whether two values are equal, in whatever order the members of objects stand. -/
def equal : Json → Json → Bool
  | null, null => true
  | string a, string b => a == b
  | array as, array bs => equalItems as bs
  | object as, object bs => as.length == bs.length && equalMembers as bs
  | a, b =>
    match a.number?, b.number? with
    | some m, some n => m == n
    | _, _ => false

/-- Whether two lists are equal, item by item. -/
def equalItems : List Json → List Json → Bool
  | [], [] => true
  | a :: as, b :: bs => equal a b && equalItems as bs
  | _, _ => false

/-- Whether each of the first members is equal to the second member of the same name. -/
def equalMembers : List (String × Json) → List (String × Json) → Bool
  | [], _ => true
  | (name, a) :: as, bs =>
    (match bs.lookup name with
      | some b => equal a b
      | none => false) && equalMembers as bs

end

variable {as bs : List (String × Json)} {name : String} {value : Json}

/-- A member that no member of the other object has the name of is not looked up. -/
lemma equalMembers_cons_right (h : ∀ member ∈ as, member.1 ≠ name) :
    equalMembers as ((name, value) :: bs) = equalMembers as bs := by
  induction as with
  | nil => rw [equalMembers, equalMembers]
  | cons member as ih =>
    obtain ⟨hmember, has⟩ := List.forall_mem_cons.1 h
    rw [equalMembers, equalMembers, ih has, List.lookup_cons, beq_false_of_ne hmember]

/-- Lists are equal as JSON just if they are equal after what JSON does not show is forgotten. -/
lemma equalItems_map_iff {α β : Type} {f : α → Json} {g : α → β} {as bs : List α}
    (h : ∀ a ∈ as, ∀ b ∈ bs, ((f a).equal (f b) = true ↔ g a = g b)) :
    equalItems (as.map f) (bs.map f) = true ↔ as.map g = bs.map g := by
  induction as generalizing bs with
  | nil => cases bs <;> simp [equalItems]
  | cons a as ih =>
    cases bs with
    | nil => simp [equalItems]
    | cons b bs =>
      have htail : equalItems (as.map f) (bs.map f) = true ↔ as.map g = bs.map g :=
        ih fun a' ha b' hb => h a' (List.mem_cons_of_mem _ ha) b' (List.mem_cons_of_mem _ hb)
      simp [equalItems, h a List.mem_cons_self b List.mem_cons_self, htail]

@[simp] lemma equal_string_iff {a b : String} : (string a).equal (string b) = true ↔ a = b := by
  simp [equal]

@[simp] lemma equal_int_iff {m n : ℤ} : (int m).equal (int n) = true ↔ m = n := by
  simp [equal, number?]

@[simp] lemma equal_bool_iff {a b : Bool} : (bool a).equal (bool b) = true ↔ a = b := by
  cases a <;> cases b <;> simp [equal, number?]

@[simp] lemma equal_array_iff {as bs : List Json} :
    (array as).equal (array bs) = true ↔ equalItems as bs = true := by
  rw [equal]

@[simp] lemma equal_null_null : null.equal null = true := rfl

@[simp] lemma equal_object_nil : (object []).equal (object []) = true := rfl

/-- Objects with a first member of the same name are equal just if these members are and the other
members are. -/
@[simp] lemma equal_object_cons_iff {a b : Json} (h : ∀ member ∈ as, member.1 ≠ name) :
    (object ((name, a) :: as)).equal (object ((name, b) :: bs)) = true ↔
      a.equal b = true ∧ (object as).equal (object bs) = true := by
  simp [equal, equalMembers, equalMembers_cons_right h, and_left_comm]

end Json

/-! ### Names -/

lemma Excerpt.equal_record_iff {a b : Excerpt} : a.record.equal b.record = true ↔ a = b := by
  obtain ⟨⟨start, stop⟩, text⟩ := a
  obtain ⟨⟨start', stop'⟩, text'⟩ := b
  simp [record, and_assoc]

@[simp] lemma Name.equal_record_iff {a b : Name} : a.record.equal b.record = true ↔ a = b := by
  have hparts : Json.equalItems (a.parts.map Excerpt.record) (b.parts.map Excerpt.record) = true ↔
      a.parts = b.parts := by
    simpa using Json.equalItems_map_iff (g := id) fun a _ b _ => Excerpt.equal_record_iff
  have hrecord : a.record.equal b.record = true ↔
      a.formLabel = b.formLabel ∧ a.text = b.text ∧ a.parts = b.parts := by
    simp [record, hparts]
  rw [hrecord]
  constructor
  · rintro ⟨hform, -, hparts⟩
    cases a <;> cases b <;> simp_all [formLabel, parts]
  · rintro rfl
    exact ⟨rfl, rfl, rfl⟩

lemma Name.same_self (name : Name) : name.same name = true := by
  cases name <;> simp [same]

namespace Node

variable {span span' : Span} {type type' : String} {ms ns : List (String × Json)}

/-! ### Nodes -/

mutual

/-- The tree below a node, the node included, in which it is forgotten where the arguments of spread
attributes stand. -/
def unplaced : Node → Node
  | selfClosed span name attributes => selfClosed span name (unplacedAll attributes)
  | element span name attributes children =>
    element span name (unplacedAll attributes) (unplacedAll children)
  | fragment span children => fragment span (unplacedAll children)
  | expression span inside content markup => expression span inside content (unplacedAll markup)
  | text span content => text span content
  | string span content => string span content
  | setAttribute span name value => setAttribute span name (unplaced value)
  | bareAttribute span name => bareAttribute span name
  | spread span argument => spread span ⟨⟨0, 0⟩, argument.text⟩

/-- The trees below the nodes of a list, in which it is forgotten where the arguments of spread
attributes stand. -/
def unplacedAll : List Node → List Node
  | [] => []
  | node :: nodes => unplaced node :: unplacedAll nodes

end

/-- The range inside an expression of the tree is what the braces leave of its span. -/
def Braced (root : Node) : Prop :=
  ∀ span inside content markup, (expression span inside content markup).Occurs root →
    inside = ⟨span.start + 1, span.stop - 1⟩

lemma unplacedAll_eq_map (nodes : List Node) : unplacedAll nodes = nodes.map unplaced := by
  induction nodes with
  | nil => rw [unplacedAll, List.map_nil]
  | cons node nodes ih => rw [unplacedAll, ih, List.map_cons]

/-- An object with a span and a type in front of its members shows both of them. -/
lemma equal_recordWith_iff (h : ∀ member ∈ ms, member.1 ∉ ["start", "end", "type"]) :
    (recordWith span type ms).equal (recordWith span' type' ns) = true ↔
      span = span' ∧ type = type' ∧ (Json.object ms).equal (.object ns) = true := by
  have hne (name : String) (hname : name ∈ ["start", "end", "type"]) :
      ∀ member ∈ ms, member.1 ≠ name := fun member hmember heq =>
    h member hmember (heq ▸ hname)
  obtain ⟨start, stop⟩ := span
  obtain ⟨start', stop'⟩ := span'
  rw [recordWith, recordWith, Json.equal_object_cons_iff (by simpa using hne "start"),
    Json.equal_object_cons_iff (by simpa using hne "end"),
    Json.equal_object_cons_iff (by simpa using hne "type")]
  simp [and_assoc]

/-- The type of a node in JSON. -/
@[simp]
def typeLabel : Node → String
  | selfClosed _ _ _ | element _ _ _ _ => "Element"
  | fragment _ _ => "Fragment"
  | expression _ _ _ _ => "Expression"
  | text _ _ => "Text"
  | string _ _ => "String"
  | setAttribute _ _ _ | bareAttribute _ _ => "Attribute"
  | spread _ _ => "SpreadAttribute"

/-- What the JSON of a node has behind its span and type. -/
@[simp]
def members : Node → List (String × Json)
  | selfClosed _ name attributes =>
    [("name", name.record), ("selfClosing", .bool true),
      ("attributes", .array (records attributes)), ("children", .null)]
  | element _ name attributes children =>
    [("name", name.record), ("selfClosing", .bool false),
      ("attributes", .array (records attributes)), ("children", .array (records children))]
  | fragment _ children => [("children", .array (records children))]
  | expression _ _ content markup =>
    [("text", .string content), ("nodes", .array (records markup))]
  | text _ content | string _ content => [("text", .string content)]
  | setAttribute _ name value => [("name", name.record), ("value", record value)]
  | bareAttribute _ name => [("name", name.record), ("value", .null)]
  | spread _ argument => [("argument", .string argument.text)]

lemma record_eq (node : Node) : node.record = recordWith node.span node.typeLabel node.members := by
  cases node <;> rw [record] <;> rfl

lemma equal_record_iff_members {a b : Node} :
    a.record.equal b.record = true ↔ a.span = b.span ∧ a.typeLabel = b.typeLabel ∧
      (Json.object a.members).equal (.object b.members) = true := by
  rw [record_eq, record_eq]
  refine equal_recordWith_iff ?_
  cases a <;> simp [members]

@[simp] lemma equal_record_null (node : Node) : node.record.equal .null = false := by
  obtain ⟨ms, h⟩ := node.exists_record_eq_object
  rw [h]
  rfl

@[simp] lemma equal_null_record (node : Node) : Json.null.equal node.record = false := by
  obtain ⟨ms, h⟩ := node.exists_record_eq_object
  rw [h]
  rfl

/-! ### Trees -/

lemma Braced.sub {root sub : Node} (h : root.Braced) (hsub : sub ∈ root.subs) : sub.Braced :=
  fun span inside content markup hoccurs => h span inside content markup (.under hsub hoccurs)

/-- Nodes of a tree that is read have equal JSON just if they are equal up to the places of
arguments. -/
lemma equal_record_iff {a b : Node} (ha : a.Braced) (hb : b.Braced) :
    a.record.equal b.record = true ↔ a.unplaced = b.unplaced := by
  induction a using induction_subs generalizing b with
  | step a ih =>
    have hlists (as bs : List Node) (has : ∀ sub ∈ as, sub ∈ a.subs)
        (hbs : ∀ sub ∈ bs, sub ∈ b.subs) :
        Json.equalItems (records as) (records bs) = true ↔ unplacedAll as = unplacedAll bs := by
      rw [records_eq_map, records_eq_map, unplacedAll_eq_map, unplacedAll_eq_map]
      exact Json.equalItems_map_iff fun sub hsub sub' hsub' =>
        ih sub (has sub hsub) (ha.sub (has sub hsub)) (hb.sub (hbs sub' hsub'))
    rw [equal_record_iff_members]
    -- kinds of nodes that have their type in common differ in a member
    cases a with
    | selfClosed span name attributes =>
      cases b with
      | selfClosed span' name' attributes' =>
        simp [unplaced, Node.span, hlists attributes attributes' (by simp [subs]) (by simp [subs])]
      | _ => simp [unplaced]
    | element span name attributes children =>
      cases b with
      | element span' name' attributes' children' =>
        have hattributes := hlists attributes attributes' (by simp +contextual [subs])
          (by simp +contextual [subs])
        have hchildren := hlists children children' (by simp +contextual [subs])
          (by simp +contextual [subs])
        simp [unplaced, Node.span, hattributes, hchildren]
      | _ => simp [unplaced]
    | fragment span children =>
      cases b with
      | fragment span' children' =>
        simp [unplaced, Node.span, hlists children children' (by simp [subs]) (by simp [subs])]
      | _ => simp [unplaced]
    | expression span inside content markup =>
      cases b with
      | expression span' inside' content' markup' =>
        have hmarkup := hlists markup markup' (by simp [subs]) (by simp [subs])
        have hinside : span = span' → inside = inside' := by
          rintro rfl
          rw [ha _ _ _ _ .root, hb _ _ _ _ .root]
        simpa [unplaced, Node.span, hmarkup] using fun h _ _ => hinside h
      | _ => simp [unplaced]
    | text span content => cases b <;> simp [unplaced, Node.span]
    | string span content => cases b <;> simp [unplaced, Node.span]
    | setAttribute span name value =>
      cases b with
      | setAttribute span' name' value' =>
        have hvalue := ih value (List.mem_singleton_self _) (ha.sub (List.mem_singleton_self _))
          (hb.sub (List.mem_singleton_self _))
        simp [unplaced, Node.span, hvalue]
      | _ => simp [unplaced]
    | bareAttribute span name => cases b <;> simp [unplaced, Node.span]
    | spread span argument => cases b <;> simp [unplaced, Node.span]

/-! ### Comparison -/

mutual

lemma same_self : ∀ node : Node, node.same node = true
  | selfClosed _ name attributes => by simp [same, name.same_self, sameAll_self attributes]
  | element _ name attributes children => by
    simp [same, name.same_self, sameAll_self attributes, sameAll_self children]
  | fragment _ children => by simp [same, sameAll_self children]
  | expression _ _ _ markup => by simp [same, sameAll_self markup]
  | setAttribute _ name value => by simp [same, name.same_self, same_self value]
  | bareAttribute _ name => by simp [same, name.same_self]
  | text _ _ | string _ _ | spread _ _ => by simp [same]

lemma sameAll_self : ∀ nodes : List Node, sameAll nodes nodes = true
  | [] => by simp [sameAll]
  | node :: nodes => by simp [sameAll, same_self node, sameAll_self nodes]

end

mutual

/-- Where the argument of a spread attribute stands does not matter to the comparison. -/
lemma same_unplaced : ∀ a b : Node, a.unplaced.same b.unplaced = a.same b
  | selfClosed _ _ attributes, b => by
    cases b <;> simp [unplaced, same, sameAll_unplaced attributes]
  | element _ _ attributes children, b => by
    cases b <;> simp [unplaced, same, sameAll_unplaced attributes, sameAll_unplaced children]
  | fragment _ children, b => by cases b <;> simp [unplaced, same, sameAll_unplaced children]
  | expression _ _ _ markup, b => by cases b <;> simp [unplaced, same, sameAll_unplaced markup]
  | setAttribute _ _ value, b => by cases b <;> simp [unplaced, same, same_unplaced value]
  | text _ _, b | string _ _, b | bareAttribute _ _, b | spread _ _, b => by
    cases b <;> simp [unplaced, same]

lemma sameAll_unplaced :
    ∀ as bs : List Node, sameAll (unplacedAll as) (unplacedAll bs) = sameAll as bs
  | [], bs => by cases bs <;> simp [unplacedAll, sameAll]
  | a :: as, bs => by
    cases bs <;> simp [unplacedAll, sameAll, same_unplaced a, sameAll_unplaced as]

end

/-- What is read from a text has its expressions between braces. -/
lemma Placed.inside_eq {text : List Char} {inside : Span} {content : String} {markup : List Node}
    (h : (expression span inside content markup).Placed text) :
    inside = ⟨span.start + 1, span.stop - 1⟩ := by
  obtain ⟨⟨hpos, -, rfl, -⟩, -⟩ := h.shows
  obtain ⟨start, stop⟩ := inside
  simp only [Span.mk.injEq]
  dsimp only at hpos
  omega

end Node

namespace Program

/-- The program in which it is forgotten where the arguments of spread attributes stand. -/
def unplaced (program : Program) : Program := ⟨Node.unplacedAll program.body⟩

variable {a b : Program}

lemma same_of_unplaced_eq (h : a.unplaced = b.unplaced) : a.same b = true := by
  rw [same, ← Node.sameAll_unplaced, show Node.unplacedAll a.body = Node.unplacedAll b.body from
    congrArg body h]
  exact Node.sameAll_self _

lemma equal_record_iff (ha : ∀ root ∈ a.body, root.Braced) (hb : ∀ root ∈ b.body, root.Braced) :
    a.record.equal b.record = true ↔ a.unplaced = b.unplaced := by
  have hbody : Json.equalItems (Node.records a.body) (Node.records b.body) = true ↔
      Node.unplacedAll a.body = Node.unplacedAll b.body := by
    rw [Node.records_eq_map, Node.records_eq_map, Node.unplacedAll_eq_map, Node.unplacedAll_eq_map]
    exact Json.equalItems_map_iff fun root hroot root' hroot' =>
      Node.equal_record_iff (ha root hroot) (hb root' hroot')
  simp [record, unplaced, hbody]

end Program

/-- **JSON as a key.**  Programs that are read from texts have equal JSON just if they are equal but
for the places where the arguments of spread attributes stand.  Then they are the same markup. -/
theorem equal_record_iff_of_parseWithin {levels levels' : ℕ} {text text' : String} {a b : Program}
    (ha : parseWithin levels text = .ok a) (hb : parseWithin levels' text' = .ok b) :
    (a.record.equal b.record = true ↔ a.unplaced = b.unplaced) ∧
      (a.record.equal b.record = true → a.same b = true) := by
  have hbraced {levels : ℕ} {text : String} {program : Program}
      (h : parseWithin levels text = .ok program) : ∀ root ∈ program.body, root.Braced :=
    fun root hroot span inside content markup hoccurs =>
      (placed_of_contains h ⟨root, hroot, hoccurs⟩).inside_eq
  have hiff := Program.equal_record_iff (hbraced ha) (hbraced hb)
  exact ⟨hiff, fun h => Program.same_of_unplaced_eq (hiff.1 h)⟩

set_option maxRecDepth 1000 in
/-- A spread attribute with a space on either side of its argument. -/
theorem equal_record_of_spaced_argument :
    ∃ a b, parseWithin 1 "<a\x7b...b \x7d/>" = .ok a ∧ parseWithin 1 "<a\x7b... b\x7d/>" = .ok b ∧
      a.record.equal b.record = true ∧ a.same b = true ∧
      a.body = [.selfClosed ⟨0, 11⟩ (.plain ⟨⟨1, 2⟩, "a"⟩) [.spread ⟨2, 9⟩ ⟨⟨6, 7⟩, "b"⟩]] ∧
      b.body = [.selfClosed ⟨0, 11⟩ (.plain ⟨⟨1, 2⟩, "a"⟩) [.spread ⟨2, 9⟩ ⟨⟨7, 8⟩, "b"⟩]] := by
  have ha : parseWithin 1 "<a\x7b...b \x7d/>" = .ok ⟨[.selfClosed ⟨0, 11⟩
      (.plain ⟨⟨1, 2⟩, "a"⟩) [.spread ⟨2, 9⟩ ⟨⟨6, 7⟩, "b"⟩]]⟩ := by cbv
  have hb : parseWithin 1 "<a\x7b... b\x7d/>" = .ok ⟨[.selfClosed ⟨0, 11⟩
      (.plain ⟨⟨1, 2⟩, "a"⟩) [.spread ⟨2, 9⟩ ⟨⟨7, 8⟩, "b"⟩]]⟩ := by cbv
  obtain ⟨hiff, hsame⟩ := equal_record_iff_of_parseWithin ha hb
  have hequal := hiff.2 rfl
  exact ⟨_, _, ha, hb, hequal, hsame hequal, rfl, rfl⟩

end EmbeddedJsx
