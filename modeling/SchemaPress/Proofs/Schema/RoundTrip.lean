import SchemaPress.Proofs.Json.Reader
import SchemaPress.Proofs.Schema.Map
import SchemaPress.Schema.Decode
import SchemaPress.Schema.Encode

/-!
# A schema survives its JSON text

The JSON text of a schema, read again, gives the schema back. Only docs may change: a doc is read
as a list of texts, each of which is cut into lines and loses a closing carriage return, so what
comes back is the doc made from its own lines. The only other condition is that the text does not
nest more arrays and objects than a reader accepts.

Each part of a schema is read back from its own JSON form, and its form reads back from its
indented text. The two are put together for a whole schema (`Schema.ofJsonText_toJsonText`).
-/

set_option autoImplicit false

namespace SchemaPress

open Json

/-! ## Reading the form of each part -/

/-- A doc as it comes back: made from its own lines. -/
def Doc.reread (d : Doc) : Doc :=
  Doc.ofList d.lines

theorem Doc.reread_of_isEmpty {d : Doc} (silent : d.isEmpty = true) : d.reread = {} := by
  simp only [Doc.isEmpty, List.isEmpty_iff] at silent
  simp [Doc.reread, Doc.ofList, silent]

theorem readString_toNode (s : String) : (Json.string s).toNode.readString = .ok s := by
  simp [toNode, Node.readString, ofScan]

theorem Doc.read_strings (d : Doc) : Doc.read (Json.strings d.lines).toNode = .ok d.reread := by
  have texts : (Json.strings d.lines).toNode.readList Node.readString = .ok d.lines := by
    have each := readList_map Json.string id fun s (_ : s ∈ d.lines) => readString_toNode s
    rwa [List.map_id] at each
  simp [Doc.read, texts, Except.map, Doc.reread]

/-- The member of a doc at the end of a record fills the slot of the doc, and an absent member
leaves the doc empty, which it is at first. -/
theorem fill_docMember {σ : Type} {slots : List (Slot Node ReadError σ)} {seen : List String}
    {s : σ} {set : Doc → σ → σ} (d : Doc)
    (known : slots.find? (·.key == "doc") = some (.optional "doc" Doc.read set))
    (fresh : seen.contains "doc" = false) (unset : set {} s = s)
    (complete : firstMissing slots seen = none)
    (complete' : firstMissing slots ("doc" :: seen) = none) :
    (toMembers d.member).fill slots seen s = .ok (set d.reread s) := by
  by_cases silent : d.isEmpty = true
  · simp only [Doc.member, silent, ↓reduceIte, toMembers]
    rw [fill_close complete, Doc.reread_of_isEmpty silent, unset]
  · simp only [Doc.member, silent, Bool.false_eq_true, ↓reduceIte, toMembers]
    rw [fill_known known fresh (store_optional d.read_strings), fill_close complete']

/-- A type is read from its form, whatever its nesting. -/
theorem TypeRef.readSettled_toJson (t : TypeRef) : TypeRef.readSettled t.toJson.toNode = .ok t := by
  induction t with
  | primitive name => rfl
  | named name => rfl
  | optional inner ih =>
      have form : chooseName TypeRef.forms "optional" = .ok .optional := rfl
      simp only [TypeRef.toJson, toNode, toMembers, TypeRef.readSettled, ofScan, bind, Except.bind,
        form, ih, Except.map]
  | sequence inner ih =>
      have form : chooseName TypeRef.forms "sequence" = .ok .sequence := rfl
      simp only [TypeRef.toJson, toNode, toMembers, TypeRef.readSettled, ofScan, bind, Except.bind,
        form, ih, Except.map]

theorem Field.read_toJson (f : Field) :
    Field.read f.toJson.toNode = .ok (f.mapDocs Doc.reread) := by
  simp only [Field.toJson, toNode_object, List.cons_append, List.nil_append, toMembers, Field.read,
    Node.readRecord]
  rw [fill_known rfl rfl (store_needed (readString_toNode f.name)),
    fill_known rfl rfl (store_needed f.type.readSettled_toJson),
    fill_docMember f.doc rfl rfl rfl rfl rfl]
  rfl

/-- A member that may be left out is read as present. -/
theorem readOption_toNode {α : Type} {read : Node → Except ReadError α} {j : Json} {a : α}
    (found : read j.toNode = .ok a) (solid : j ≠ .null) :
    j.toNode.readOption read = .ok (some a) := by
  cases j with
  | null => exact absurd rfl solid
  | bool | integer | string | array | object =>
      simp only [toNode] at found
      simp [toNode, Node.readOption, found, Except.map]

theorem RawCase.read_toJson (c : RawCase) :
    RawCase.read c.toJson.toNode = .ok (c.mapDocs Doc.reread) := by
  obtain ⟨name, rawValue, doc⟩ := c
  cases rawValue with
  | none =>
      simp only [RawCase.toJson, toNode_object, List.cons_append, List.nil_append, toMembers,
        RawCase.read, Node.readRecord, Option.toList_none, List.map_nil]
      rw [fill_known rfl rfl (store_needed (readString_toNode name)),
        fill_docMember doc rfl rfl rfl rfl rfl]
      rfl
  | some raw =>
      simp only [RawCase.toJson, toNode_object, List.cons_append, List.nil_append, toMembers,
        RawCase.read, Node.readRecord, Option.toList_some, List.map_cons, List.map_nil]
      rw [fill_known rfl rfl (store_needed (readString_toNode name)),
        fill_known rfl rfl (store_optional (readOption_toNode (readString_toNode raw) (by simp))),
        fill_docMember doc rfl rfl rfl rfl rfl]
      rfl

theorem UnionCase.read_toJson (c : UnionCase) :
    UnionCase.read c.toJson.toNode = .ok (c.mapDocs Doc.reread) := by
  obtain ⟨name, payload, doc⟩ := c
  cases payload with
  | none =>
      simp only [UnionCase.toJson, toNode_object, List.cons_append, List.nil_append, toMembers,
        UnionCase.read, Node.readRecord, Option.toList_none, List.map_nil]
      rw [fill_known rfl rfl (store_needed (readString_toNode name)),
        fill_docMember doc rfl rfl rfl rfl rfl]
      rfl
  | some type =>
      have present : type.toJson ≠ .null := by cases type <;> simp [TypeRef.toJson]
      simp only [UnionCase.toJson, toNode_object, List.cons_append, List.nil_append, toMembers,
        UnionCase.read, Node.readRecord, Option.toList_some, List.map_cons, List.map_nil]
      rw [fill_known rfl rfl (store_needed (readString_toNode name)),
        fill_known rfl rfl (store_optional (readOption_toNode type.readSettled_toJson present)),
        fill_docMember doc rfl rfl rfl rfl rfl]
      rfl

/-- An object of a form and cases is read by its form. -/
theorem Cases.read_object (form : Cases.Form) {name : String} {content : Json}
    (known : chooseName Cases.forms name = .ok form) :
    Cases.read (Json.object [("form", .string name), ("cases", content)]).toNode =
      Cases.readContent form content.toNode := by
  have kept : Cases.relevant (toMembers [("form", .string name), ("cases", content)]) =
      .ok [("form", (Json.string name).toNode), ("cases", content.toNode)] := by
    simp only [toMembers]
    rfl
  have judged : Cases.readForm (Json.string name).toNode = .ok form := by
    simp only [toNode, Cases.readForm, ofScan, bind, Except.bind, known]
  simp only [toNode_object, Cases.read, kept, bind, Except.bind, Cases.readMembers, ↓reduceIte,
    judged]
  cases Cases.readContent form content.toNode <;> simp [Cases.noMore]

/-- The cases of an enumeration are read from their form. -/
theorem Cases.read_toJson (cs : Cases) :
    Cases.read cs.toJson.toNode = .ok (cs.mapDocs Doc.reread) := by
  cases cs with
  | raw cases =>
      have each := readList_map RawCase.toJson (RawCase.mapDocs Doc.reread)
        fun c (_ : c ∈ cases) => c.read_toJson
      rw [Cases.toJson, Cases.read_object .raw rfl, Cases.readContent, each]
      rfl
  | union cases =>
      have each := readList_map UnionCase.toJson (UnionCase.mapDocs Doc.reread)
        fun c (_ : c ∈ cases) => c.read_toJson
      rw [Cases.toJson, Cases.read_object .union rfl, Cases.readContent, each]
      rfl

/-! ## Declarations and schemas -/

theorem Alias.read_toJson (a : Alias) :
    Alias.read (Declaration.alias a).toJson.toNode = .ok { a with doc := a.doc.reread } := by
  simp only [Declaration.toJson, toNode_object, List.cons_append, List.nil_append, toMembers,
    Alias.read, Node.readRecord]
  rw [fill_unknown rfl rfl, fill_known rfl rfl (store_needed (readString_toNode a.name)),
    fill_known rfl rfl (store_needed a.target.readSettled_toJson),
    fill_docMember a.doc rfl rfl rfl rfl rfl]

theorem Record.read_toJson (r : Record) :
    Record.read (Declaration.record r).toJson.toNode =
      .ok { r with fields := r.fields.map (Field.mapDocs Doc.reread), doc := r.doc.reread } := by
  have each := readList_map Field.toJson (Field.mapDocs Doc.reread)
    fun f (_ : f ∈ r.fields) => f.read_toJson
  simp only [Declaration.toJson, toNode_object, List.cons_append, List.nil_append, toMembers,
    Record.read, Node.readRecord]
  rw [fill_unknown rfl rfl, fill_known rfl rfl (store_needed (readString_toNode r.name)),
    fill_known rfl rfl (store_optional each), fill_docMember r.doc rfl rfl rfl rfl rfl]

theorem Enumeration.read_toJson (e : Enumeration) :
    Enumeration.read (Declaration.enumeration e).toJson.toNode =
      .ok { e with cases := e.cases.mapDocs Doc.reread, doc := e.doc.reread } := by
  simp only [Declaration.toJson, toNode_object, List.cons_append, List.nil_append, toMembers,
    Enumeration.read, Node.readRecord]
  rw [fill_unknown rfl rfl, fill_known rfl rfl (store_needed (readString_toNode e.name)),
    fill_known rfl rfl (store_needed e.cases.read_toJson),
    fill_docMember e.doc rfl rfl rfl rfl rfl]

namespace Declaration

/-- Once the kind is known, the other members are only taken in. -/
theorem findKind_toMembers (room : Nat) (kind : Kind) {ms : List (String × Json)}
    (others : ∀ m ∈ ms, m.1 ≠ "kind") (fits : depthOfMembers ms ≤ room) :
    findKind room (some kind) (toMembers ms) = .ok kind := by
  induction ms with
  | nil => simp [toMembers, findKind]
  | cons m ms ih =>
      obtain ⟨k, v⟩ := m
      rw [depthOfMembers] at fits
      have different : k ≠ "kind" := others (k, v) List.mem_cons_self
      have settled := settle_toNode v room (by omega)
      have rest := ih (fun m member => others m (List.mem_cons_of_mem _ member)) (by omega)
      simp only [toMembers, findKind, ofScan, bind, Except.bind, different, ↓reduceIte, settled,
        rest]

/-- A declaration that names its kind first is read by its kind. -/
theorem readWithin_object (kind : Kind) {room : Nat} {name : String} {ms : List (String × Json)}
    (known : chooseName kinds name = .ok kind) (others : ∀ m ∈ ms, m.1 ≠ "kind")
    (fits : (Json.object (("kind", .string name) :: ms)).depth ≤ room) :
    readWithin room (Json.object (("kind", .string name) :: ms)).toNode =
      readKind kind (Json.object (("kind", .string name) :: ms)).toNode := by
  rw [depth, depthOfMembers] at fits
  obtain ⟨room, rfl⟩ : ∃ n, room = n + 1 := ⟨room - 1, by omega⟩
  have rest := findKind_toMembers room kind others (by omega)
  have named : (Json.string name).toNode.readName kinds = .ok kind := by
    simp only [toNode, Node.readName, ofScan, bind, Except.bind, known]
  have found : findKind room none (toMembers (("kind", .string name) :: ms)) = .ok kind := by
    simp only [toMembers, findKind, ofScan, bind, Except.bind, ↓reduceIte, Option.isSome_none,
      Bool.false_eq_true, named, rest]
  rw [toNode_object, readWithin, found]
  rfl

/-- A doc is not the kind of a declaration. -/
theorem ne_kind_of_mem_member {d : Doc} : ∀ m ∈ d.member, m.1 ≠ "kind" := by
  intro m member
  unfold Doc.member at member
  split at member
  · simp at member
  · rw [List.mem_singleton.mp member]
    simp

/-- A declaration is read from its form, if it nests no deeper than there is room. -/
theorem readWithin_toJson (d : Declaration) {room : Nat} (fits : d.toJson.depth ≤ room) :
    readWithin room d.toJson.toNode = .ok (d.mapDocs Doc.reread) := by
  rcases d with a | r | e
  · calc readWithin room (Declaration.alias a).toJson.toNode
        = readKind .alias (Declaration.alias a).toJson.toNode :=
          readWithin_object .alias rfl (by simpa using ne_kind_of_mem_member) fits
      _ = .ok ((Declaration.alias a).mapDocs Doc.reread) := by
          rw [readKind, a.read_toJson]
          rfl
  · calc readWithin room (Declaration.record r).toJson.toNode
        = readKind .record (Declaration.record r).toJson.toNode :=
          readWithin_object .record rfl (by simpa using ne_kind_of_mem_member) fits
      _ = .ok ((Declaration.record r).mapDocs Doc.reread) := by
          rw [readKind, r.read_toJson]
          rfl
  · calc readWithin room (Declaration.enumeration e).toJson.toNode
        = readKind .enumeration (Declaration.enumeration e).toJson.toNode :=
          readWithin_object .enumeration rfl (by simpa using ne_kind_of_mem_member) fits
      _ = .ok ((Declaration.enumeration e).mapDocs Doc.reread) := by
          rw [readKind, e.read_toJson]
          rfl

end Declaration

namespace Schema

/-- The declarations of a schema nest two levels less than the schema. -/
theorem depth_declaration_le {s : Schema} {d : Declaration} (member : d ∈ s.declarations)
    (shallow : s.toJson.depth ≤ maxDepth) : d.toJson.depth ≤ maxDepth - 2 := by
  have inner : d.toJson.depth ≤ depthOfItems (s.declarations.map Declaration.toJson) :=
    depth_le_depthOfItems (List.mem_map_of_mem member)
  have outer : (Json.array (s.declarations.map Declaration.toJson)).depth ≤
      depthOfMembers ([("name", .string s.name)] ++ s.doc.member
        ++ [("declarations", .array (s.declarations.map Declaration.toJson))]) :=
    depth_le_depthOfMembers (m := ("declarations", _)) (by simp)
  simp only [Schema.toJson, depth] at shallow outer
  omega

/-- A schema is read from its form. -/
theorem read_toJson (s : Schema) (shallow : s.toJson.depth ≤ maxDepth) :
    Schema.read s.toJson.toNode = .ok (s.mapDocs Doc.reread) := by
  have each := readList_map Declaration.toJson (Declaration.mapDocs Doc.reread)
    fun d (member : d ∈ s.declarations) =>
      d.readWithin_toJson (depth_declaration_le member shallow)
  by_cases silent : s.doc.isEmpty = true
  · simp only [Schema.toJson, Doc.member, silent, ↓reduceIte, toNode_object, List.cons_append,
      List.nil_append, toMembers, Schema.read, Node.readRecord]
    rw [fill_known rfl rfl (store_needed (readString_toNode s.name)),
      fill_known rfl rfl (store_optional each), fill_close rfl]
    simp [Schema.mapDocs, Doc.reread_of_isEmpty silent]
    rfl
  · simp only [Schema.toJson, Doc.member, silent, Bool.false_eq_true, ↓reduceIte, toNode_object,
      List.cons_append, List.nil_append, toMembers, Schema.read, Node.readRecord]
    rw [fill_known rfl rfl (store_needed (readString_toNode s.name)),
      fill_known rfl rfl (store_optional s.doc.read_strings),
      fill_known rfl rfl (store_optional each), fill_close rfl]
    rfl

end Schema

/-! ## The text of each form -/

theorem Doc.readsBack_member (d : Doc) : ∀ m ∈ d.member, ReadsBack m.2 := by
  intro m member
  unfold Doc.member at member
  split at member
  · simp at member
  · rw [List.mem_singleton.mp member]
    refine ReadsBack.array fun v inside => ?_
    obtain ⟨line, _, rfl⟩ := List.mem_map.mp inside
    exact ReadsBack.string line

theorem TypeRef.readsBack_toJson (t : TypeRef) : ReadsBack t.toJson := by
  induction t with
  | primitive name => exact ReadsBack.object (by simpa using ReadsBack.string name)
  | named name => exact ReadsBack.object (by simpa using ReadsBack.string name)
  | optional inner ih => exact ReadsBack.object (by simpa using ih)
  | sequence inner ih => exact ReadsBack.object (by simpa using ih)

theorem Field.readsBack_toJson (f : Field) : ReadsBack f.toJson := by
  refine ReadsBack.object ?_
  simp only [List.forall_mem_append, List.forall_mem_cons, List.not_mem_nil, false_implies,
    implies_true, and_true]
  exact ⟨⟨ReadsBack.string f.name, f.type.readsBack_toJson⟩, f.doc.readsBack_member⟩

theorem RawCase.readsBack_toJson (c : RawCase) : ReadsBack c.toJson := by
  refine ReadsBack.object ?_
  simp only [List.forall_mem_append, List.forall_mem_cons, List.not_mem_nil, false_implies,
    implies_true, and_true, List.forall_mem_map]
  exact ⟨⟨ReadsBack.string c.name, fun raw _ => ReadsBack.string raw⟩, c.doc.readsBack_member⟩

theorem UnionCase.readsBack_toJson (c : UnionCase) : ReadsBack c.toJson := by
  refine ReadsBack.object ?_
  simp only [List.forall_mem_append, List.forall_mem_cons, List.not_mem_nil, false_implies,
    implies_true, and_true, List.forall_mem_map]
  exact ⟨⟨ReadsBack.string c.name, fun type _ => type.readsBack_toJson⟩, c.doc.readsBack_member⟩

theorem Cases.readsBack_toJson (cs : Cases) : ReadsBack cs.toJson := by
  cases cs with
  | raw cases =>
      refine ReadsBack.object ?_
      simp only [List.forall_mem_cons, List.not_mem_nil, false_implies, implies_true, and_true]
      exact ⟨ReadsBack.string _, ReadsBack.array (List.forall_mem_map.mpr fun c _ =>
        c.readsBack_toJson)⟩
  | union cases =>
      refine ReadsBack.object ?_
      simp only [List.forall_mem_cons, List.not_mem_nil, false_implies, implies_true, and_true]
      exact ⟨ReadsBack.string _, ReadsBack.array (List.forall_mem_map.mpr fun c _ =>
        c.readsBack_toJson)⟩

theorem Declaration.readsBack_toJson (d : Declaration) : ReadsBack d.toJson := by
  rcases d with a | r | e
  · refine ReadsBack.object ?_
    simp only [List.forall_mem_append, List.forall_mem_cons, List.not_mem_nil, false_implies,
      implies_true, and_true]
    exact ⟨⟨ReadsBack.string _, ReadsBack.string a.name, a.target.readsBack_toJson⟩,
      a.doc.readsBack_member⟩
  · refine ReadsBack.object ?_
    simp only [List.forall_mem_append, List.forall_mem_cons, List.not_mem_nil, false_implies,
      implies_true, and_true]
    exact ⟨⟨ReadsBack.string _, ReadsBack.string r.name, ReadsBack.array
      (List.forall_mem_map.mpr fun f _ => f.readsBack_toJson)⟩, r.doc.readsBack_member⟩
  · refine ReadsBack.object ?_
    simp only [List.forall_mem_append, List.forall_mem_cons, List.not_mem_nil, false_implies,
      implies_true, and_true]
    exact ⟨⟨ReadsBack.string _, ReadsBack.string e.name, e.cases.readsBack_toJson⟩,
      e.doc.readsBack_member⟩

theorem Schema.readsBack_toJson (s : Schema) : ReadsBack s.toJson := by
  refine ReadsBack.object ?_
  simp only [List.forall_mem_append, List.forall_mem_cons, List.not_mem_nil, false_implies,
    implies_true, and_true]
  exact ⟨⟨ReadsBack.string s.name, s.doc.readsBack_member⟩,
    ReadsBack.array (List.forall_mem_map.mpr fun d _ => d.readsBack_toJson)⟩

/-! ## The round trip -/

/-- **A schema survives its JSON text.** If the text nests no more arrays and objects than a
reader accepts, reading it succeeds and gives the schema back, with each doc made anew from its
own lines and everything else unchanged. -/
theorem Schema.ofJsonText_toJsonText (s : Schema) (shallow : s.toJson.depth ≤ maxDepth) :
    Schema.ofJsonText s.toJsonText = .ok (s.mapDocs fun d => Doc.ofList d.lines) := by
  rw [Schema.ofJsonText, Schema.toJsonText, s.readsBack_toJson.ofText_indented, Document.read,
    s.read_toJson shallow]
  rfl

/-- A schema with characters that need escapes, an absent raw value, a doc of an empty line and a
line that ends with a carriage return, and a nested type. -/
def Schema.escapedSample : Schema where
  name := "a\"\\\x01é"
  doc := .ofText "\nb\r"
  declarations :=
    [.enumeration
      { name := "E"
        cases := .raw [{ name := "c", rawValue := some "\t\x7f" }, { name := "d" }] },
     .alias { name := "A", target := .optional (.sequence (.optional (.named "E"))) }]

/-- The sample loses its carriage return and nothing else. -/
theorem Schema.ofJsonText_escapedSample :
    Schema.escapedSample.toJson.depth ≤ maxDepth ∧
      Schema.ofJsonText Schema.escapedSample.toJsonText =
        .ok (Schema.escapedSample.withDoc (.ofText "\nb")) := by
  have shallow : Schema.escapedSample.toJson.depth ≤ maxDepth := by decide
  refine ⟨shallow, ?_⟩
  rw [Schema.ofJsonText_toJsonText Schema.escapedSample shallow]
  exact congrArg Except.ok (by decide)

end SchemaPress
