import SchemaPress.Proofs.Schema.Variation

/-!
# What is read at the places of a schema

Each place of a schema has its reader. `Place.Accepts` says that the reader accepts a value, and
`Place.Kept` that it makes the same of another one.

Most places hold records with three slots, and all that matters about such a record is its table of
keys and places (`ReadsTable`): members may change places, members that the table does not know may
be added, and the value of a member may be replaced by one that is kept at its place. A declaration
is such a record once its kind is known, and all its members have to be taken in. Cases are no
record, but what holds of one holds of them once their form is known.
-/

set_option autoImplicit false

namespace SchemaPress

open Json

/-! ## What is read at a place -/

namespace Place

/-- A value that is accepted at a place. -/
def Accepts : Place → Nat → Written → Prop
  | .schema, level, v => level = 0 ∧ ∃ s, Schema.read v.toNode = .ok s
  | .declarations, level, v =>
      ∃ ds, v.toNode.readList (Declaration.readWithin (maxDepth - (level + 1))) = .ok ds
  | .declaration, level, v => ∃ d, Declaration.readWithin (maxDepth - level) v.toNode = .ok d
  | .declared kind, level, v =>
      kind.NamedIn v ∧ ∃ d, Declaration.readWithin (maxDepth - level) v.toNode = .ok d
  | .fields, _, v => ∃ fs, v.toNode.readList Field.read = .ok fs
  | .field, _, v => ∃ f, Field.read v.toNode = .ok f
  | .cases, _, v => ∃ cs, Cases.read v.toNode = .ok cs
  | .casesOf form, _, v => form.NamedIn v ∧ ∃ cs, Cases.read v.toNode = .ok cs
  | .caseList form, _, v => ∃ cs, Cases.readContent form v.toNode = .ok cs
  | .caseOf .raw, _, v => ∃ c, RawCase.read v.toNode = .ok c
  | .caseOf .union, _, v => ∃ c, UnionCase.read v.toNode = .ok c
  | .closed, _, v => v.Slim
  | .ignored _, _, _ => True

/-- What is read at a place is read from the second value as from the first. -/
def Kept : Place → Nat → Written → Written → Prop
  | .schema, level, v, v' => level = 0 → Keeps Schema.read v v'
  | .declarations, level, v, v' =>
      Keeps (Node.readList (Declaration.readWithin (maxDepth - (level + 1)))) v v'
  | .declaration, level, v, v' => Keeps (Declaration.readWithin (maxDepth - level)) v v'
  | .declared kind, level, v, v' =>
      kind.NamedIn v → Keeps (Declaration.readWithin (maxDepth - level)) v v'
  | .fields, _, v, v' => Keeps (Node.readList Field.read) v v'
  | .field, _, v, v' => Keeps Field.read v v'
  | .cases, _, v, v' => Keeps Cases.read v v'
  | .casesOf form, _, v, v' => form.NamedIn v → Keeps Cases.read v v'
  | .caseList form, _, v, v' => Keeps (Cases.readContent form) v v'
  | .caseOf .raw, _, v, v' => Keeps RawCase.read v v'
  | .caseOf .union, _, v, v' => Keeps UnionCase.read v v'
  | .closed, _, v, v' => v.Slim → v' = v
  | .ignored _, _, _, _ => True

/-- A reader of what stands at a place. -/
structure ReadBy {α : Type} (place : Place) (level : Nat) (read : Node → Except ReadError α) :
    Prop where
  accepts : ∀ v a, read v.toNode = .ok a → place.Accepts level v
  keeps : ∀ v v', place.Kept level v v' → Keeps read v v'

variable {place inner : Place} {level : Nat} {known : List (String × Place)} {v v' : Written}

/-- A value is kept at the place that its key leads to. -/
theorem kept_of_leads {key : Option String} (knows : place.known = some known)
    (leads : place.under key = some inner) (kept : inner.Kept level v v') :
    ∀ k inner', key = some k → known.lookup k = some inner' → inner'.Kept level v v' := by
  rintro k inner' rfl present
  rw [under_of_known knows, present] at leads
  cases leads
  exact kept

theorem kept_of_position {i : Nat} (knows : place.known = some known)
    (leads : place.item i = some inner) (kept : inner.Kept level v v') :
    ∀ entry, known[i]? = some entry → entry.2.Kept level v v' := by
  intro entry present
  rw [item_of_known knows present] at leads
  cases leads
  exact kept

end Place

theorem keeps_map {α β : Type} {read : Node → Except ReadError α} {v v' : Written}
    (keeps : Keeps read v v') (f : α → β) : Keeps (fun n => (read n).map f) v v' := by
  intro b accepted
  obtain ⟨a, read, rfl⟩ := map_eq_ok_iff.mp accepted
  exact map_eq_ok_iff.mpr ⟨a, keeps a read, rfl⟩

theorem Place.ReadBy.map {α β : Type} {place : Place} {level : Nat}
    {read : Node → Except ReadError α} (reads : place.ReadBy level read) (f : α → β) :
    place.ReadBy level fun n => (read n).map f where
  accepts v b accepted := by
    obtain ⟨a, read, -⟩ := map_eq_ok_iff.mp accepted
    exact reads.accepts v a read
  keeps v v' kept := keeps_map (reads.keeps v v' kept) f

/-- A closed place is read by readers of values that nothing can be added to. -/
theorem Rigid.readBy {α : Type} {level : Nat} {read : Node → Except ReadError α}
    (rigid : Rigid read) : Place.closed.ReadBy level read where
  accepts := rigid
  keeps v v' same a accepted := by rwa [same (rigid v a accepted)]

/-! ## Records -/

/-- The slots of a record read what stands at the places of a table. -/
def Tabled {σ : Type} (level : Nat) : List (Slot Node ReadError σ) → List (String × Place) → Prop :=
  List.Forall₂ fun slot entry => slot.key = entry.1 ∧ ∀ s, entry.2.ReadBy level (slot.store · s)

/-- A reader of records with independent slots and a table of places. -/
def ReadsTable {α : Type} (read : Node → Except ReadError α) (known : List (String × Place))
    (level : Nat) : Prop :=
  ∃ (σ : Type) (pace : Pace) (name : String) (slots : List (Slot Node ReadError σ)) (init : σ)
    (f : σ → α), (∀ n, read n = (Node.readRecord pace name slots init n).map f) ∧
      slots.Pairwise Commutes ∧ Tabled level slots known

namespace ReadsTable

variable {σ α : Type} {level : Nat} {slots : List (Slot Node ReadError σ)}
  {known : List (String × Place)} {read : Node → Except ReadError α}

/-- A slot is found by a key exactly if the table has an entry for it. -/
theorem find?_of_lookup {k : String} (tabled : Tabled level slots known) :
    (slots.find? (·.key == k) = none ∧ known.lookup k = none) ∨
      ∃ slot inner, slots.find? (·.key == k) = some slot ∧ known.lookup k = some inner ∧
        ∀ s, inner.ReadBy level (slot.store · s) := by
  induction tabled with
  | nil => exact .inl ⟨rfl, rfl⟩
  | @cons first entry slots known head _ ih =>
      obtain ⟨key, inner⟩ := entry
      obtain ⟨same, reads⟩ := head
      dsimp only at same
      rw [List.find?_cons, same, List.lookup_cons]
      by_cases here : key = k
      · subst here
        rw [beq_self_eq_true]
        exact .inr ⟨first, inner, rfl, rfl, reads⟩
      · rw [beq_false_of_ne here, beq_false_of_ne (Ne.symm here)]
        exact ih

theorem exists_entry_of_getElem? {i : Nat} {slot : Slot Node ReadError σ}
    (tabled : Tabled level slots known) (found : slots[i]? = some slot) :
    ∃ entry, known[i]? = some entry ∧ ∀ s, entry.2.ReadBy level (slot.store · s) := by
  induction tabled generalizing i with
  | nil => cases found
  | @cons first entry slots known head _ ih =>
      cases i with
      | zero =>
          cases found
          exact ⟨entry, rfl, head.2⟩
      | succ i => exact ih found

theorem permute (reads : ReadsTable read known level) {ms ms' : List (Quoted × Written)}
    (perm : ms.Perm ms') : Keeps read (.object ms) (.object ms') := by
  obtain ⟨σ, pace, name, slots, init, f, reader, independent, -⟩ := reads
  intro a accepted
  rw [reader] at accepted ⊢
  exact keeps_map (Written.keeps_permuted independent perm) f a accepted

theorem add (reads : ReadsTable read known level) {q : Quoted} {k : String}
    (text : q.text? = some k) (unknown : known.lookup k = none) (v : Written)
    (before after : List (Quoted × Written)) :
    Keeps read (.object (before ++ after)) (.object (before ++ (q, v) :: after)) := by
  obtain ⟨σ, pace, name, slots, init, f, reader, independent, tabled⟩ := reads
  intro a accepted
  rw [reader] at accepted ⊢
  rcases find?_of_lookup tabled with ⟨absent, -⟩ | ⟨slot, inner, -, present, -⟩
  · exact keeps_map (Written.keeps_extended independent text absent v before after) f a accepted
  · rw [unknown] at present
    cases present

theorem member (reads : ReadsTable read known level) {q : Quoted} {v v' : Written}
    (kept : ∀ k inner, q.text? = some k → known.lookup k = some inner → inner.Kept level v v')
    (before after : List (Quoted × Written)) :
    Keeps read (.object (before ++ (q, v) :: after)) (.object (before ++ (q, v') :: after)) := by
  obtain ⟨σ, pace, name, slots, init, f, reader, independent, tabled⟩ := reads
  intro a accepted
  rw [reader] at accepted ⊢
  refine keeps_map (Written.keeps_member independent (fun k slot text found s => ?_) before after) f
    a accepted
  rcases find?_of_lookup tabled with ⟨absent, -⟩ | ⟨slot', inner, found', present, reads⟩
  · cases found.symm.trans absent
  · cases found.symm.trans found'
    exact (reads s).keeps v v' (kept k inner text present)

/-- The members of an accepted object have texts as keys, and what the table knows is accepted. -/
theorem member_accepts (reads : ReadsTable read known level) {q : Quoted} {v : Written}
    {before after : List (Quoted × Written)} {a : α}
    (accepted : read (Written.object (before ++ (q, v) :: after)).toNode = .ok a) :
    ∃ k, q.text? = some k ∧ ∀ inner, known.lookup k = some inner → inner.Accepts level v := by
  have moved := reads.permute List.perm_middle a accepted
  obtain ⟨σ, pace, name, slots, init, f, reader, -, tabled⟩ := reads
  rw [reader, map_eq_ok_iff] at moved
  obtain ⟨s, filled, -⟩ := moved
  rw [Written.toNode, Node.readRecord, Written.fill_cons_eq_ok_iff] at filled
  obtain ⟨k, text, filled⟩ := filled
  refine ⟨k, text, fun inner present => ?_⟩
  rcases find?_of_lookup tabled with ⟨-, unknown⟩ | ⟨slot, inner', found, present', reads⟩
  · cases present.symm.trans unknown
  · cases present.symm.trans present'
    rcases filled with ⟨absent, -⟩ | ⟨slot', s', found', -, stored, -⟩
    · cases found.symm.trans absent
    · cases found.symm.trans found'
      exact (reads init).accepts v s' stored

theorem item (reads : ReadsTable read known level) {v v' : Written} {before : List Written}
    (kept : ∀ entry, known[before.length]? = some entry → entry.2.Kept level v v')
    (after : List Written) :
    Keeps read (.array (before ++ v :: after)) (.array (before ++ v' :: after)) := by
  obtain ⟨σ, pace, name, slots, init, f, reader, independent, tabled⟩ := reads
  intro a accepted
  rw [reader] at accepted ⊢
  refine keeps_map (Written.keeps_item (fun slot found s => ?_) after) f a accepted
  obtain ⟨entry, present, reads⟩ := exists_entry_of_getElem? tabled found
  exact (reads s).keeps v v' (kept entry present)

/-- The items of an accepted array have places in the table, where they are accepted. -/
theorem item_accepts (reads : ReadsTable read known level) {v : Written}
    {before after : List Written} {a : α}
    (accepted : read (Written.array (before ++ v :: after)).toNode = .ok a) :
    ∃ entry, known[before.length]? = some entry ∧ entry.2.Accepts level v := by
  obtain ⟨σ, pace, name, slots, init, f, reader, -, tabled⟩ := reads
  rw [reader, map_eq_ok_iff] at accepted
  obtain ⟨s, filled, -⟩ := accepted
  rw [Written.toNode, Node.readRecord] at filled
  obtain ⟨slot, s₁, s₂, position, stored, -⟩ := Written.exists_slot_of_fill_items before filled
  obtain ⟨entry, present, reads⟩ := exists_entry_of_getElem? tabled position
  exact ⟨entry, present, (reads s₁).accepts v s₂ stored⟩

/-- A record of three slots that set different parts of it. -/
theorem of_three {α₁ α₂ α₃ : Type} {pace : Pace} {name : String} {init : σ}
    {slot₁ slot₂ slot₃ : Slot Node ReadError σ} {place₁ place₂ place₃ : Place}
    {read₁ : Node → Except ReadError α₁} {read₂ : Node → Except ReadError α₂}
    {read₃ : Node → Except ReadError α₃} {set₁ : α₁ → σ → σ} {set₂ : α₂ → σ → σ} {set₃ : α₃ → σ → σ}
    (stores₁ : slot₁.store = fun v s => (read₁ v).map fun a => set₁ a s)
    (stores₂ : slot₂.store = fun v s => (read₂ v).map fun a => set₂ a s)
    (stores₃ : slot₃.store = fun v s => (read₃ v).map fun a => set₃ a s)
    (reads₁ : place₁.ReadBy level read₁) (reads₂ : place₂.ReadBy level read₂)
    (reads₃ : place₃.ReadBy level read₃) (swap₁₂ : ∀ a b s, set₂ b (set₁ a s) = set₁ a (set₂ b s))
    (swap₁₃ : ∀ a b s, set₃ b (set₁ a s) = set₁ a (set₃ b s))
    (swap₂₃ : ∀ a b s, set₃ b (set₂ a s) = set₂ a (set₃ b s)) :
    ReadsTable (Node.readRecord pace name [slot₁, slot₂, slot₃] init)
      [(slot₁.key, place₁), (slot₂.key, place₂), (slot₃.key, place₃)] level := by
  refine ⟨σ, pace, name, [slot₁, slot₂, slot₃], init, id, fun n => ?_, ?_, ?_⟩
  · cases Node.readRecord pace name [slot₁, slot₂, slot₃] init n with
    | error e => rfl
    | ok a => rfl
  · simp only [List.pairwise_cons, List.forall_mem_cons, List.not_mem_nil, false_implies,
      implies_true, List.Pairwise.nil, and_true]
    exact ⟨⟨commutes_of_set stores₁ stores₂ swap₁₂, commutes_of_set stores₁ stores₃ swap₁₃⟩,
      commutes_of_set stores₂ stores₃ swap₂₃⟩
  · refine .cons ⟨rfl, fun s => ?_⟩ (.cons ⟨rfl, fun s => ?_⟩ (.cons ⟨rfl, fun s => ?_⟩ .nil))
    · rw [stores₁]
      exact reads₁.map _
    · rw [stores₂]
      exact reads₂.map _
    · rw [stores₃]
      exact reads₃.map _

/-- A record as part of something else. -/
theorem map {β : Type} (reads : ReadsTable read known level) (f : α → β) :
    ReadsTable (fun n => (read n).map f) known level := by
  obtain ⟨σ, pace, name, slots, init, g, reader, independent, tabled⟩ := reads
  refine ⟨σ, pace, name, slots, init, f ∘ g, fun n => ?_, independent, tabled⟩
  dsimp only
  rw [reader]
  cases Node.readRecord pace name slots init n with
  | error e => rfl
  | ok a => rfl

end ReadsTable

section Records

variable {level : Nat}

theorem readsTable_schema : ReadsTable Schema.read
    [("name", .closed), ("doc", .closed), ("declarations", .declarations)] 1 :=
  .of_three rfl rfl rfl rigid_readString.readBy rigid_docRead.readBy
    ⟨fun _ ds accepted => ⟨ds, accepted⟩, fun _ _ kept => kept⟩
    (fun _ _ _ => rfl) (fun _ _ _ => rfl) (fun _ _ _ => rfl)

theorem readsTable_field (level : Nat) :
    ReadsTable Field.read [("name", .closed), ("type", .closed), ("doc", .closed)] level :=
  .of_three rfl rfl rfl rigid_readString.readBy (Rigid.readBy slim_of_readSettled)
    rigid_docRead.readBy (fun _ _ _ => rfl) (fun _ _ _ => rfl) (fun _ _ _ => rfl)

theorem readsTable_rawCase (level : Nat) : ReadsTable RawCase.read (Place.caseParts .raw) level :=
  .of_three rfl rfl rfl rigid_readString.readBy (rigid_readOption rigid_readString).readBy
    rigid_docRead.readBy (fun _ _ _ => rfl) (fun _ _ _ => rfl) (fun _ _ _ => rfl)

theorem readsTable_unionCase (level : Nat) :
    ReadsTable UnionCase.read (Place.caseParts .union) level :=
  .of_three rfl rfl rfl rigid_readString.readBy (rigid_readOption slim_of_readSettled).readBy
    rigid_docRead.readBy (fun _ _ _ => rfl) (fun _ _ _ => rfl) (fun _ _ _ => rfl)

theorem readsTable_kind (level : Nat) (kind : Declaration.Kind) :
    ReadsTable (Declaration.readKind kind) (Place.parts kind) level := by
  have alias_ : ReadsTable Alias.read (Place.parts Declaration.Kind.alias) level :=
    .of_three rfl rfl rfl rigid_readString.readBy (Rigid.readBy slim_of_readSettled)
      rigid_docRead.readBy (fun _ _ _ => rfl) (fun _ _ _ => rfl) (fun _ _ _ => rfl)
  have record : ReadsTable Record.read (Place.parts Declaration.Kind.record) level :=
    .of_three rfl rfl rfl rigid_readString.readBy
      ⟨fun _ fs accepted => ⟨fs, accepted⟩, fun _ _ kept => kept⟩
      rigid_docRead.readBy (fun _ _ _ => rfl) (fun _ _ _ => rfl) (fun _ _ _ => rfl)
  have enumeration : ReadsTable Enumeration.read (Place.parts Declaration.Kind.enumeration) level :=
    .of_three rfl rfl rfl rigid_readString.readBy
      ⟨fun _ cs accepted => ⟨cs, accepted⟩, fun _ _ kept => kept⟩
      rigid_docRead.readBy (fun _ _ _ => rfl) (fun _ _ _ => rfl) (fun _ _ _ => rfl)
  rcases kind with _ | _ | _
  · exact alias_.map Declaration.alias
  · exact record.map Declaration.record
  · exact enumeration.map Declaration.enumeration

end Records

/-! ## Declarations -/

theorem chooseName_eq_ok_iff {α : Type} {choices : List (String × α)} {name : String} {a : α} :
    chooseName choices name = .ok a ↔ choices.lookup name = some a := by
  unfold chooseName
  cases choices.lookup name with
  | none => simp
  | some b => simp

theorem readName_eq_ok_iff {α : Type} {choices : List (String × α)} {v : Written} {a : α} :
    v.toNode.readName choices = .ok a ↔ ∃ name, v.Says name ∧ choices.lookup name = some a := by
  constructor
  · intro read
    cases v with
    | string q =>
        rw [Written.toNode, Node.readName, bind_eq_ok_iff] at read
        obtain ⟨name, taken, chosen⟩ := read
        exact ⟨name, ⟨q, rfl, Quoted.text?_eq_some_iff.mpr taken⟩, chooseName_eq_ok_iff.mp chosen⟩
    | number n =>
        obtain ⟨taken, number⟩ := n.exists_toNode_eq
        rw [Written.toNode, number] at read
        exact absurd read (unlike_ne_ok _ _ _)
    | null | bool | array | object =>
        rw [Written.toNode] at read
        exact absurd read (unlike_ne_ok _ _ _)
  · rintro ⟨name, ⟨q, rfl, text⟩, listed⟩
    rw [Written.toNode, Node.readName, bind_eq_ok_iff]
    exact ⟨name, Quoted.text?_eq_some_iff.mp text, chooseName_eq_ok_iff.mpr listed⟩

namespace Declaration

variable {room level : Nat} {kind : Kind} {d : Declaration}

theorem readWithin_object_eq_ok_iff {ms : List (Quoted × Written)} :
    readWithin room (Written.object ms).toNode = .ok d ↔ ∃ r kind v, room = r + 1 ∧ KeysTaken ms ∧
      OthersSettle r ms ∧ valuesAt "kind" ms = [v] ∧ kind.NamedBy v ∧
        readKind kind (Written.object ms).toNode = .ok d := by
  have names : ∀ kind, NamesKind kind ms none ↔ ∃ v, valuesAt "kind" ms = [v] ∧ kind.NamedBy v :=
    fun kind => exists_congr fun v => and_congr_right fun _ => readName_eq_ok_iff
  rw [Written.toNode]
  cases room with
  | zero =>
      constructor
      · intro read
        cases read
      · rintro ⟨r, -, -, impossible, -⟩
        cases impossible
  | succ room =>
      rw [readWithin, bind_eq_ok_iff]
      constructor
      · rintro ⟨kind, found, read⟩
        obtain ⟨keys, settle, named⟩ := findKind_eq_ok_iff.mp found
        obtain ⟨v, single, named⟩ := (names kind).mp named
        exact ⟨room, kind, v, rfl, keys, settle, single, named, read⟩
      · rintro ⟨r, kind, v, same, keys, settle, single, named, read⟩
        cases same
        exact ⟨kind,
          findKind_eq_ok_iff.mpr ⟨keys, settle, (names kind).mpr ⟨v, single, named⟩⟩, read⟩

theorem readWithin_array_eq_ok_iff {vs : List Written} :
    readWithin room (Written.array vs).toNode = .ok d ↔ ∃ r kind w ws, room = r + 1 ∧ vs = w :: ws ∧
      kind.NamedBy w ∧ (Written.toItems ws).settle r = .ok () ∧
        readKind kind (Written.array ws).toNode = .ok d := by
  rw [Written.toNode]
  cases room with
  | zero =>
      constructor
      · intro read
        cases read
      · rintro ⟨r, -, -, -, impossible, -⟩
        cases impossible
  | succ room =>
      cases vs with
      | nil =>
          constructor
          · intro read
            rw [Written.toItems] at read
            cases read
          · rintro ⟨r, kind, w, ws, -, impossible, -⟩
            cases impossible
      | cons w ws =>
          rw [Written.toItems, readWithin, bind_eq_ok_iff]
          constructor
          · rintro ⟨kind, named, read⟩
            obtain ⟨_, settled, read⟩ := bind_eq_ok_iff.mp read
            refine ⟨room, kind, w, ws, rfl, rfl, readName_eq_ok_iff.mp named, settled, ?_⟩
            rwa [Written.toNode]
          · rintro ⟨r, kind, w', ws', same, same', named, settled, read⟩
            cases same
            cases same'
            rw [Written.toNode] at read
            exact ⟨kind, readName_eq_ok_iff.mpr named, bind_eq_ok_iff.mpr ⟨(), settled, read⟩⟩

/-- A declaration is of one kind. -/
theorem Kind.NamedBy.unique {kind' : Kind} {v : Written} (named : kind.NamedBy v)
    (named' : kind'.NamedBy v) : kind = kind' := by
  have read := readName_eq_ok_iff.mpr named
  rw [readName_eq_ok_iff.mpr named'] at read
  exact (Except.ok.inj read).symm

theorem Kind.NamedIn.namedBy {ms : List (Quoted × Written)} {v : Written}
    (named : kind.NamedIn (.object ms)) (single : valuesAt "kind" ms = [v]) : kind.NamedBy v :=
  (exists_mem_iff_of_valuesAt single).mp named

theorem keeps_permuted {ms ms' : List (Quoted × Written)} (perm : ms.Perm ms') :
    Keeps (readWithin room) (.object ms) (.object ms') := by
  intro d read
  obtain ⟨r, kind, v, rfl, keys, settle, single, named, read⟩ := readWithin_object_eq_ok_iff.mp read
  refine readWithin_object_eq_ok_iff.mpr
    ⟨r, kind, v, rfl, ?_, ?_, valuesAt_perm perm single, named, ?_⟩
  · exact fun m member => keys m (perm.mem_iff.mpr member)
  · exact fun m member => settle m (perm.mem_iff.mpr member)
  · exact (readsTable_kind 0 kind).permute perm d read

theorem lookup_known_of_ne {k : String} (other : k ≠ "kind") :
    (("kind", Place.closed) :: Place.parts kind).lookup k = (Place.parts kind).lookup k := by
  rw [List.lookup_cons, beq_false_of_ne other]

theorem keeps_extended {q : Quoted} {k : String} {value : Written}
    {before after : List (Quoted × Written)} (named : kind.NamedIn (.object (before ++ after)))
    (text : q.text? = some k)
    (unknown : (("kind", Place.closed) :: Place.parts kind).lookup k = none)
    (fits : Fits (level + 1) value) :
    Keeps (readWithin (maxDepth - level)) (.object (before ++ after))
      (.object (before ++ (q, value) :: after)) := by
  have other : k ≠ "kind" := by
    rintro rfl
    rw [List.lookup_cons_self] at unknown
    cases unknown
  intro d read
  obtain ⟨r, kind', v, room, keys, settle, single, named', read⟩ :=
    readWithin_object_eq_ok_iff.mp read
  obtain rfl := (named.namedBy single).unique named'
  obtain rfl : r = maxDepth - (level + 1) := by omega
  refine readWithin_object_eq_ok_iff.mpr ⟨_, kind, v, room, ?_, ?_, ?_, named', ?_⟩
  · exact forall_mem_insert.mpr ⟨⟨k, text⟩, keys⟩
  · exact forall_mem_insert.mpr ⟨fun _ => settle_eq_ok_iff.mpr fits, settle⟩
  · rwa [valuesAt_insert (Quoted.text?_ne text other)]
  · rw [lookup_known_of_ne other] at unknown
    exact (readsTable_kind 0 kind).add text unknown value before after d read

theorem keeps_member {q : Quoted} {v v' : Written} {inner : Place}
    {before after : List (Quoted × Written)}
    (named : kind.NamedIn (.object (before ++ (q, v) :: after)))
    (leads : (Place.declared kind).under q.text? = some inner) (kept : inner.Kept (level + 1) v v')
    (fits : Fits (level + 1) v → Fits (level + 1) v') :
    Keeps (readWithin (maxDepth - level)) (.object (before ++ (q, v) :: after))
      (.object (before ++ (q, v') :: after)) := by
  intro d accepted
  obtain ⟨r, kind', w, room, keys, settle, single, named', read⟩ :=
    readWithin_object_eq_ok_iff.mp accepted
  obtain rfl := (named.namedBy single).unique named'
  obtain rfl : r = maxDepth - (level + 1) := by omega
  obtain ⟨⟨k, text⟩, others⟩ := forall_mem_insert.mp keys
  obtain ⟨settled, settle⟩ := forall_mem_insert.mp settle
  have alike := Place.kept_of_leads rfl leads kept k
  by_cases isKind : k = "kind"
  · -- The name of the kind has no other variation than itself.
    subst isKind
    obtain ⟨rfl, -⟩ := valuesAt_member text single
    have slim := rigid_readName kinds v kind (readName_eq_ok_iff.mpr named')
    rwa [alike .closed text List.lookup_cons_self slim]
  · have other := Quoted.text?_ne text isKind
    refine readWithin_object_eq_ok_iff.mpr ⟨_, kind, w, room, ?_, ?_, ?_, named', ?_⟩
    · exact forall_mem_insert.mpr ⟨⟨k, text⟩, others⟩
    · refine forall_mem_insert.mpr ⟨fun _ => ?_, settle⟩
      exact settle_eq_ok_iff.mpr (fits (settle_eq_ok_iff.mp (settled other)))
    · rw [valuesAt_insert other] at single ⊢
      exact single
    · refine (readsTable_kind (level + 1) kind).member (fun k' inner' text' present => ?_) before
        after d read
      cases text.symm.trans text'
      exact alike inner' text ((lookup_known_of_ne isKind).trans present)

theorem settle_items_iff {vs : List Written} :
    (Written.toItems vs).settle (maxDepth - level) = .ok () ↔ ∀ v ∈ vs, Fits level v := by
  rw [Written.settle_toItems_iff, Written.itemsValued_iff, Written.depthOfItems_le_iff,
    ← forall₂_and]
  rfl

theorem keeps_item {v v' : Written} {inner : Place} {before after : List Written}
    (named : kind.NamedIn (.array (before ++ v :: after)))
    (leads : (Place.declared kind).item before.length = some inner)
    (kept : inner.Kept (level + 1) v v') (fits : Fits (level + 1) v → Fits (level + 1) v') :
    Keeps (readWithin (maxDepth - level)) (.array (before ++ v :: after))
      (.array (before ++ v' :: after)) := by
  have alike := Place.kept_of_position rfl leads kept
  intro d accepted
  obtain ⟨r, kind', w, ws, room, parts, named', settled, read⟩ :=
    readWithin_array_eq_ok_iff.mp accepted
  rcases before with _ | ⟨w', before⟩
  · obtain ⟨rfl, rfl⟩ := List.cons.inj parts
    have slim := rigid_readName kinds v kind' (readName_eq_ok_iff.mpr named')
    rwa [alike _ rfl slim]
  · rw [List.cons_append] at parts
    obtain ⟨rfl, rfl⟩ := List.cons.inj parts
    obtain rfl := Kind.NamedBy.unique named named'
    obtain rfl : r = maxDepth - (level + 1) := by omega
    refine readWithin_array_eq_ok_iff.mpr
      ⟨_, kind, w', before ++ v' :: after, room, rfl, named', ?_, ?_⟩
    · rw [settle_items_iff] at settled ⊢
      simp only [List.forall_mem_append, List.forall_mem_cons] at settled ⊢
      exact ⟨settled.1, fits settled.2.1, settled.2.2⟩
    · exact (readsTable_kind (level + 1) kind).item alike after d read

/-- An accepted declaration names its kind. -/
theorem exists_namedIn {v : Written} (read : readWithin room v.toNode = .ok d) :
    ∃ kind : Kind, kind.NamedIn v := by
  cases v with
  | object ms =>
      obtain ⟨-, kind, w, -, -, -, single, named, -⟩ := readWithin_object_eq_ok_iff.mp read
      exact ⟨kind, (exists_mem_iff_of_valuesAt single).mpr named⟩
  | array vs =>
      obtain ⟨-, kind, w, ws, -, rfl, named, -, -⟩ := readWithin_array_eq_ok_iff.mp read
      exact ⟨kind, named⟩
  | number n =>
      obtain ⟨taken, number⟩ := n.exists_toNode_eq
      rw [Written.toNode, number] at read
      cases room with
      | zero | succ => exact absurd read (unlike_ne_ok _ _ _)
  | null | bool | string =>
      rw [Written.toNode] at read
      cases room with
      | zero | succ => exact absurd read (unlike_ne_ok _ _ _)

theorem member_accepts {q : Quoted} {v : Written} {before after : List (Quoted × Written)}
    (named : kind.NamedIn (.object (before ++ (q, v) :: after)))
    (accepted : readWithin (maxDepth - level) (Written.object (before ++ (q, v) :: after)).toNode =
      .ok d) :
    ∃ k, q.text? = some k ∧ ∀ inner,
      (("kind", Place.closed) :: Place.parts kind).lookup k = some inner →
        inner.Accepts (level + 1) v := by
  obtain ⟨r, kind', w, room, keys, -, single, named', read⟩ :=
    readWithin_object_eq_ok_iff.mp accepted
  obtain rfl := (named.namedBy single).unique named'
  obtain ⟨k, text, accepts⟩ := (readsTable_kind (level + 1) kind).member_accepts read
  refine ⟨k, text, fun inner present => ?_⟩
  by_cases isKind : k = "kind"
  · subst isKind
    rw [List.lookup_cons_self] at present
    cases present
    obtain ⟨rfl, -⟩ := valuesAt_member text single
    exact rigid_readName kinds v kind (readName_eq_ok_iff.mpr named')
  · rw [lookup_known_of_ne isKind] at present
    exact accepts inner present

theorem item_accepts {v : Written} {before after : List Written}
    (named : kind.NamedIn (.array (before ++ v :: after)))
    (accepted : readWithin (maxDepth - level) (Written.array (before ++ v :: after)).toNode =
      .ok d) :
    ∃ entry, (("kind", Place.closed) :: Place.parts kind)[before.length]? = some entry ∧
      entry.2.Accepts (level + 1) v := by
  obtain ⟨r, kind', w, ws, room, parts, named', -, read⟩ := readWithin_array_eq_ok_iff.mp accepted
  rcases before with _ | ⟨w', before⟩
  · obtain ⟨rfl, rfl⟩ := List.cons.inj parts
    exact ⟨_, rfl, rigid_readName kinds v kind' (readName_eq_ok_iff.mpr named')⟩
  · rw [List.cons_append] at parts
    obtain ⟨rfl, rfl⟩ := List.cons.inj parts
    obtain rfl := Kind.NamedBy.unique named named'
    obtain ⟨entry, position, accepts⟩ := (readsTable_kind (level + 1) kind).item_accepts read
    exact ⟨entry, position, accepts⟩

end Declaration

/-! ## Cases -/

namespace Cases

variable {level : Nat} {form : Form} {cs : Cases}

theorem read_array_eq_ok_iff {vs : List Written} :
    read (Written.array vs).toNode = .ok cs ↔ ∃ a b form, vs = [a, b] ∧
      readForm a.toNode = .ok form ∧ readContent form b.toNode = .ok cs := by
  rw [Written.toNode]
  rcases vs with _ | ⟨a, _ | ⟨b, _ | ⟨c, vs⟩⟩⟩
  · simp [Written.toItems, read]
  · simp [Written.toItems, read, bind_eq_ok_iff]
  · simp only [Written.toItems, read, bind_eq_ok_iff, Items.finish]
    constructor
    · rintro ⟨form, judged, cs', content, _, -, same⟩
      exact ⟨a, b, form, rfl, judged, content.trans same⟩
    · rintro ⟨a', b', form, same, judged, content⟩
      cases same
      exact ⟨form, judged, cs, content, (), trivial, rfl⟩
  · simp only [Written.toItems, read, bind_eq_ok_iff]
    constructor
    · rintro ⟨form, -, cs', -, _, finished, -⟩
      cases finished
    · rintro ⟨a', b', form, same, -⟩
      cases same

/-- Cases are of one form. -/
theorem Form.NamedBy.unique {form' : Form} {v : Written} (named : form.NamedBy v)
    (named' : form'.NamedBy v) : form = form' := by
  obtain ⟨name, writes, listed⟩ := named
  obtain ⟨name', writes', listed'⟩ := named'
  have same : name = name' := by
    rcases writes with ⟨q, rfl, text⟩ | ⟨q, content, rfl, text⟩
    · rcases writes' with ⟨q', whole, text'⟩ | ⟨q', content', whole, text'⟩
      · cases whole
        exact Option.some.inj (text.symm.trans text')
      · cases whole
    · rcases writes' with ⟨q', whole, text'⟩ | ⟨q', content', whole, text'⟩
      · cases whole
      · cases whole
        exact Option.some.inj (text.symm.trans text')
  rw [same, listed'] at listed
  exact (Option.some.inj listed).symm

theorem namedBy_of_readForm {v : Written} (judged : readForm v.toNode = .ok form) :
    form.NamedBy v := by
  rcases v with _ | b | n | q | vs | _ | ⟨⟨q, content⟩, _ | ⟨m, ms⟩⟩
  · rw [Written.toNode] at judged
    exact absurd judged (unlike_ne_ok _ _ _)
  · rw [Written.toNode] at judged
    exact absurd judged (unlike_ne_ok _ _ _)
  · obtain ⟨taken, number⟩ := n.exists_toNode_eq
    rw [Written.toNode, number] at judged
    exact absurd judged (unlike_ne_ok _ _ _)
  · rw [Written.toNode, readForm, bind_eq_ok_iff] at judged
    obtain ⟨name, taken, chosen⟩ := judged
    exact ⟨name, .inl ⟨q, rfl, Quoted.text?_eq_some_iff.mpr taken⟩, chooseName_eq_ok_iff.mp chosen⟩
  · rw [Written.toNode] at judged
    exact absurd judged (unlike_ne_ok _ _ _)
  · rw [Written.toNode, Written.toMembers] at judged
    cases judged
  · rw [Written.toNode, Written.toMembers, Written.toMembers, readForm, bind_eq_ok_iff] at judged
    obtain ⟨name, taken, judged⟩ := judged
    obtain ⟨form', chosen, judged⟩ := bind_eq_ok_iff.mp judged
    have same : form' = form := by
      split at judged
      · exact Except.ok.inj judged
      · obtain ⟨_, -, same⟩ := bind_eq_ok_iff.mp judged
        exact Except.ok.inj same
    rw [← same]
    exact ⟨name, .inr ⟨q, content, rfl, Quoted.text?_eq_some_iff.mpr taken⟩,
      chooseName_eq_ok_iff.mp chosen⟩
  · rw [Written.toNode, Written.toMembers, Written.toMembers] at judged
    cases judged

theorem Form.NamedIn.namedBy {ms : List (Quoted × Written)} {v : Written}
    (named : form.NamedIn (.object ms)) (single : valuesAt "form" ms = [v]) : form.NamedBy v :=
  (exists_mem_iff_of_valuesAt single).mp named

theorem keeps_permuted {ms ms' : List (Quoted × Written)} (perm : ms.Perm ms') :
    Keeps read (.object ms) (.object ms') := by
  intro cs accepted
  obtain ⟨keys, a, b, form, single, single', judged, content⟩ := read_object_eq_ok_iff.mp accepted
  exact read_object_eq_ok_iff.mpr ⟨fun m member => keys m (perm.mem_iff.mpr member), a, b, form,
    valuesAt_perm perm single, valuesAt_perm perm single', judged, content⟩

theorem keeps_extended {q : Quoted} {k : String} {value : Written}
    {before after : List (Quoted × Written)} (text : q.text? = some k) (notForm : k ≠ "form")
    (notCases : k ≠ "cases") :
    Keeps read (.object (before ++ after)) (.object (before ++ (q, value) :: after)) := by
  intro cs accepted
  obtain ⟨keys, a, b, form, single, single', judged, content⟩ := read_object_eq_ok_iff.mp accepted
  refine read_object_eq_ok_iff.mpr ⟨?_, a, b, form, ?_, ?_, judged, content⟩
  · exact forall_mem_insert.mpr ⟨⟨k, text⟩, keys⟩
  · rwa [valuesAt_insert (Quoted.text?_ne text notForm)]
  · rwa [valuesAt_insert (Quoted.text?_ne text notCases)]

theorem keeps_member {q : Quoted} {v v' : Written} {inner : Place}
    {before after : List (Quoted × Written)}
    (named : form.NamedIn (.object (before ++ (q, v) :: after)))
    (leads : (Place.casesOf form).under q.text? = some inner) (kept : inner.Kept (level + 1) v v') :
    Keeps read (.object (before ++ (q, v) :: after)) (.object (before ++ (q, v') :: after)) := by
  intro cs accepted
  obtain ⟨keys, a, b, form', single, single', judged, content⟩ := read_object_eq_ok_iff.mp accepted
  obtain rfl := (named.namedBy single).unique (namedBy_of_readForm judged)
  obtain ⟨⟨k, text⟩, others⟩ := forall_mem_insert.mp keys
  have keys' : KeysTaken (before ++ (q, v') :: after) := forall_mem_insert.mpr ⟨⟨k, text⟩, others⟩
  have alike := Place.kept_of_leads rfl leads kept k
  have other : ∀ {key}, k ≠ key → q.text? ≠ some key := Quoted.text?_ne text
  by_cases isForm : k = "form"
  · -- The name of the form has no other variation than itself.
    subst isForm
    obtain ⟨rfl, -⟩ := valuesAt_member text single
    rwa [alike .closed text rfl (rigid_readForm v form judged)]
  · rw [valuesAt_insert (other isForm)] at single
    by_cases isCases : k = "cases"
    · subst isCases
      obtain ⟨rfl, replaced⟩ := valuesAt_member text single'
      have content' := alike (.caseList form) text rfl cs content
      refine read_object_eq_ok_iff.mpr ⟨keys', a, v', form, ?_, replaced v', judged, content'⟩
      rwa [valuesAt_insert (other isForm)]
    · rw [valuesAt_insert (other isCases)] at single'
      refine read_object_eq_ok_iff.mpr ⟨keys', a, b, form, ?_, ?_, judged, content⟩
      · rwa [valuesAt_insert (other isForm)]
      · rwa [valuesAt_insert (other isCases)]

theorem keeps_item {v v' : Written} {inner : Place} {before after : List Written}
    (named : form.NamedIn (.array (before ++ v :: after)))
    (leads : (Place.casesOf form).item before.length = some inner)
    (kept : inner.Kept (level + 1) v v') :
    Keeps read (.array (before ++ v :: after)) (.array (before ++ v' :: after)) := by
  have alike := Place.kept_of_position rfl leads kept
  intro cs accepted
  obtain ⟨a, b, form', parts, judged, content⟩ := read_array_eq_ok_iff.mp accepted
  rcases before with _ | ⟨w, _ | ⟨w', before⟩⟩
  · cases parts
    rwa [alike _ rfl (rigid_readForm v form' judged)]
  · cases parts
    obtain rfl := Form.NamedBy.unique named (namedBy_of_readForm judged)
    exact read_array_eq_ok_iff.mpr ⟨_, v', form, rfl, judged, alike _ rfl cs content⟩
  · cases leads

theorem readContent_object_ne_ok {ms : List (Quoted × Written)} :
    readContent form (Written.object ms).toNode ≠ .ok cs := by
  intro read
  cases form with
  | raw | union =>
      simp only [readContent, map_eq_ok_iff] at read
      obtain ⟨as, list, -⟩ := read
      exact Written.readList_object_ne_ok list

/-- Accepted cases name their form. -/
theorem exists_namedIn {v : Written} (accepted : read v.toNode = .ok cs) :
    ∃ form : Form, form.NamedIn v := by
  cases v with
  | object ms =>
      obtain ⟨-, a, -, form, single, -, judged, -⟩ := read_object_eq_ok_iff.mp accepted
      exact ⟨form, (exists_mem_iff_of_valuesAt single).mpr (namedBy_of_readForm judged)⟩
  | array vs =>
      obtain ⟨a, b, form, rfl, judged, -⟩ := read_array_eq_ok_iff.mp accepted
      exact ⟨form, namedBy_of_readForm judged⟩
  | number n =>
      obtain ⟨taken, number⟩ := n.exists_toNode_eq
      rw [Written.toNode, number] at accepted
      exact absurd accepted (unlike_ne_ok _ _ _)
  | null | bool | string =>
      rw [Written.toNode] at accepted
      exact absurd accepted (unlike_ne_ok _ _ _)

theorem member_accepts {q : Quoted} {v : Written} {before after : List (Quoted × Written)}
    (named : form.NamedIn (.object (before ++ (q, v) :: after)))
    (accepted : read (Written.object (before ++ (q, v) :: after)).toNode = .ok cs) :
    ∃ k, q.text? = some k ∧ ∀ inner,
      [("form", Place.closed), ("cases", .caseList form)].lookup k = some inner →
        inner.Accepts (level + 1) v := by
  obtain ⟨keys, a, b, form', single, single', judged, content⟩ := read_object_eq_ok_iff.mp accepted
  obtain rfl := (named.namedBy single).unique (namedBy_of_readForm judged)
  obtain ⟨k, text⟩ := keys (q, v) (List.mem_append_right before List.mem_cons_self)
  refine ⟨k, text, fun inner present => ?_⟩
  have listed := Place.mem_of_lookup present
  simp only [List.mem_cons, Prod.mk.injEq, List.not_mem_nil, or_false] at listed
  rcases listed with ⟨rfl, rfl⟩ | ⟨rfl, rfl⟩
  · obtain ⟨rfl, -⟩ := valuesAt_member text single
    exact rigid_readForm v form judged
  · obtain ⟨rfl, -⟩ := valuesAt_member text single'
    exact ⟨cs, content⟩

theorem item_accepts {v : Written} {before after : List Written}
    (named : form.NamedIn (.array (before ++ v :: after)))
    (accepted : read (Written.array (before ++ v :: after)).toNode = .ok cs) :
    ∃ entry, [("form", Place.closed), ("cases", .caseList form)][before.length]? = some entry ∧
      entry.2.Accepts (level + 1) v := by
  obtain ⟨a, b, form', parts, judged, content⟩ := read_array_eq_ok_iff.mp accepted
  rcases before with _ | ⟨w, _ | ⟨w', before⟩⟩
  · cases parts
    exact ⟨_, rfl, rigid_readForm v form' judged⟩
  · cases parts
    obtain rfl := Form.NamedBy.unique named (namedBy_of_readForm judged)
    exact ⟨_, rfl, cs, content⟩
  · simp at parts

end Cases

end SchemaPress
