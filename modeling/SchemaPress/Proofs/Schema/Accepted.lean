import SchemaPress.Proofs.Json.Order
import SchemaPress.Schema.Decode

/-!
# Accepted parts of a schema

What a value has to be like for a reader to accept it. A text, a doc, a type or the name of a form
has no object with more than one member (`Rigid`). The kind of a declaration and the form and list
of cases are found by their keys, wherever they stand (`Declaration.findKind_eq_ok_iff`,
`Cases.read_object_eq_ok_iff`).
-/

set_option autoImplicit false

namespace SchemaPress

open Json

/-! ## Values that nothing can be added to -/

namespace Json.Written

mutual

/-- Every object has at most one member, so that there is only one order of its members. -/
def Slim : Written → Prop
  | .array items => SlimItems items
  | .object members => members.length ≤ 1 ∧ SlimMembers members
  | _ => True

def SlimItems : List Written → Prop
  | [] => True
  | v :: vs => v.Slim ∧ SlimItems vs

def SlimMembers : List (Quoted × Written) → Prop
  | [] => True
  | (_, v) :: ms => v.Slim ∧ SlimMembers ms

end

theorem slimItems_iff {vs : List Written} : SlimItems vs ↔ ∀ v ∈ vs, v.Slim := by
  induction vs with
  | nil => simp [SlimItems]
  | cons v vs ih => rw [SlimItems, ih, List.forall_mem_cons]

theorem slimMembers_iff {ms : List (Quoted × Written)} : SlimMembers ms ↔ ∀ m ∈ ms, m.2.Slim := by
  induction ms with
  | nil => simp [SlimMembers]
  | cons m ms ih => rw [SlimMembers, ih, List.forall_mem_cons]

/-- A string with a given text. -/
def Says (v : Written) (text : String) : Prop :=
  ∃ q, v = .string q ∧ q.text? = some text

end Json.Written

/-- A reader that accepts only values that nothing can be added to. -/
def Rigid {α : Type} (read : Node → Except ReadError α) : Prop :=
  ∀ (v : Written) (a : α), read v.toNode = .ok a → v.Slim

theorem slim_leaf {v : Written}
    (leaf : v = .null ∨ (∃ b, v = .bool b) ∨ (∃ n, v = .number n) ∨ ∃ q, v = .string q) :
    v.Slim := by
  rcases leaf with rfl | ⟨b, rfl⟩ | ⟨n, rfl⟩ | ⟨q, rfl⟩
  all_goals
    rw [Written.Slim.eq_def]
    trivial

/-- Only arrays and objects have parts. -/
theorem rigid_of_parts {α : Type} {read : Node → Except ReadError α}
    (array : ∀ vs a, read (Written.array vs).toNode = .ok a → Written.SlimItems vs)
    (object : ∀ ms a, read (Written.object ms).toNode = .ok a →
      ms.length ≤ 1 ∧ Written.SlimMembers ms) : Rigid read := by
  intro v a accepted
  cases v with
  | array vs =>
      rw [Written.Slim]
      exact array vs a accepted
  | object ms =>
      rw [Written.Slim]
      exact object ms a accepted
  | null | bool | number | string =>
      rw [Written.Slim.eq_def]
      trivial

theorem rigid_readString : Rigid Node.readString := by
  refine rigid_of_parts ?_ ?_
  · intro vs text read
    rw [Written.toNode] at read
    exact absurd read (unlike_ne_ok _ _ _)
  · intro ms text read
    rw [Written.toNode] at read
    exact absurd read (unlike_ne_ok _ _ _)

theorem rigid_readName {α : Type} (choices : List (String × α)) :
    Rigid (Node.readName choices) := by
  refine rigid_of_parts ?_ ?_
  · intro vs a read
    rw [Written.toNode] at read
    exact absurd read (unlike_ne_ok _ _ _)
  · intro ms a read
    rw [Written.toNode] at read
    exact absurd read (unlike_ne_ok _ _ _)

theorem rigid_readList {α : Type} {read : Node → Except ReadError α} (rigid : Rigid read) :
    Rigid (Node.readList read) := by
  refine rigid_of_parts ?_ ?_
  · intro vs as accepted
    rw [Written.toNode, Node.readList] at accepted
    induction vs generalizing as with
    | nil =>
        rw [Written.SlimItems]
        trivial
    | cons v vs ih =>
        rw [Written.toItems, Items.readAll, bind_eq_ok_iff] at accepted
        obtain ⟨a, first, others⟩ := accepted
        obtain ⟨as', others, -⟩ := bind_eq_ok_iff.mp others
        rw [Written.SlimItems]
        exact ⟨rigid v a first, ih as' others⟩
  · intro ms as accepted
    rw [Written.toNode] at accepted
    exact absurd accepted (unlike_ne_ok _ _ _)

theorem rigid_map {α β : Type} {read : Node → Except ReadError α} (rigid : Rigid read)
    (f : α → β) : Rigid fun n => (read n).map f := by
  intro v b accepted
  obtain ⟨a, read, -⟩ := map_eq_ok_iff.mp accepted
  exact rigid v a read

theorem rigid_readOption {α : Type} {read : Node → Except ReadError α} (rigid : Rigid read) :
    Rigid (Node.readOption read) := by
  refine rigid_of_parts ?_ ?_
  · intro vs a accepted
    have slim := rigid_map rigid some (.array vs) a (by rwa [Written.toNode] at accepted ⊢)
    rwa [Written.Slim] at slim
  · intro ms a accepted
    have slim := rigid_map rigid some (.object ms) a (by rwa [Written.toNode] at accepted ⊢)
    rwa [Written.Slim] at slim

theorem rigid_docRead : Rigid Doc.read :=
  rigid_map (rigid_readList rigid_readString) Doc.ofList

theorem slim_single {k : Quoted} {v : Written} (slim : v.Slim) :
    (Written.object [(k, v)]).Slim := by
  rw [Written.Slim, Written.slimMembers_iff]
  refine ⟨Nat.le_refl 1, fun m member => ?_⟩
  rw [List.mem_singleton.mp member]
  exact slim

/-- A type is an object with one member, whose value is a text or a type. -/
theorem slim_of_readSettled : ∀ (v : Written) (t : TypeRef),
    TypeRef.readSettled v.toNode = .ok t → v.Slim
  | .object [(k, v)], t, read => by
      simp only [Written.toNode, Written.toMembers, TypeRef.readSettled, bind_eq_ok_iff] at read
      obtain ⟨name, -, form, -, read⟩ := read
      refine slim_single ?_
      cases form with
      | primitive | named =>
          obtain ⟨text, inner, -⟩ := map_eq_ok_iff.mp read
          exact rigid_readString v text inner
      | optional | sequence =>
          obtain ⟨type, inner, -⟩ := map_eq_ok_iff.mp read
          exact slim_of_readSettled v type inner
  | .object [], t, read => by
      simp only [Written.toNode, Written.toMembers, TypeRef.readSettled] at read
      cases read
  | .object (_ :: _ :: _), t, read => by
      simp only [Written.toNode, Written.toMembers, TypeRef.readSettled] at read
      cases read
  | .array vs, t, read => by
      rw [Written.toNode] at read
      exact absurd read (unlike_ne_ok _ _ _)
  | .null, _, _ => slim_leaf (.inl rfl)
  | .bool b, _, _ => slim_leaf (.inr (.inl ⟨b, rfl⟩))
  | .number n, _, _ => slim_leaf (.inr (.inr (.inl ⟨n, rfl⟩)))
  | .string q, _, _ => slim_leaf (.inr (.inr (.inr ⟨q, rfl⟩)))

/-- The name of a form is a text, or an object with one member that has no content. -/
theorem rigid_readForm : Rigid Cases.readForm := by
  refine rigid_of_parts ?_ ?_
  · intro vs form read
    rw [Written.toNode] at read
    exact absurd read (unlike_ne_ok _ _ _)
  · rintro (_ | ⟨⟨k, v⟩, _ | ⟨m, ms⟩⟩) form read
    · simp only [Written.toNode, Written.toMembers, Cases.readForm] at read
      cases read
    · simp only [Written.toNode, Written.toMembers, Cases.readForm, bind_eq_ok_iff] at read
      obtain ⟨name, -, form', -, read⟩ := read
      have slim : v.Slim := by
        rcases v with _ | _ | _ | _ | vs | _ | ⟨m, ms⟩
        · exact slim_leaf (.inl rfl)
        · exact slim_leaf (.inr (.inl ⟨_, rfl⟩))
        · exact slim_leaf (.inr (.inr (.inl ⟨_, rfl⟩)))
        · exact slim_leaf (.inr (.inr (.inr ⟨_, rfl⟩)))
        · simp only [Written.toNode] at read
          obtain ⟨_, unit, -⟩ := bind_eq_ok_iff.mp read
          exact absurd unit (unlike_ne_ok _ _ _)
        · rw [Written.Slim, Written.SlimMembers]
          exact ⟨Nat.zero_le 1, trivial⟩
        · simp only [Written.toNode, Written.toMembers] at read
          obtain ⟨_, unit, -⟩ := bind_eq_ok_iff.mp read
          exact absurd unit (unlike_ne_ok _ _ _)
      have single := slim_single (k := k) slim
      rwa [Written.Slim] at single
    · simp only [Written.toNode, Written.toMembers, Cases.readForm] at read
      cases read

/-! ## The kind of a declaration -/

/-- The values of the members with a given key. -/
def valuesAt (key : String) (ms : List (Quoted × Written)) : List Written :=
  ms.filterMap fun m => if m.1.text? = some key then some m.2 else none

theorem valuesAt_cons_of_eq {key : String} {m : Quoted × Written} {ms : List (Quoted × Written)}
    (same : m.1.text? = some key) : valuesAt key (m :: ms) = m.2 :: valuesAt key ms :=
  List.filterMap_cons_some (if_pos same)

theorem valuesAt_cons_of_ne {key : String} {m : Quoted × Written} {ms : List (Quoted × Written)}
    (different : m.1.text? ≠ some key) : valuesAt key (m :: ms) = valuesAt key ms :=
  List.filterMap_cons_none (if_neg different)

theorem valuesAt_append (key : String) (ms ms' : List (Quoted × Written)) :
    valuesAt key (ms ++ ms') = valuesAt key ms ++ valuesAt key ms' :=
  List.filterMap_append

/-- A member with another key does not count. -/
theorem valuesAt_insert {key : String} {q : Quoted} (other : q.text? ≠ some key) (v : Written)
    (before after : List (Quoted × Written)) :
    valuesAt key (before ++ (q, v) :: after) = valuesAt key (before ++ after) := by
  rw [valuesAt_append, valuesAt_append, valuesAt_cons_of_ne other]

/-- A member with the key has the single value, and could have any other. -/
theorem valuesAt_member {key : String} {q : Quoted} {v w : Written}
    {before after : List (Quoted × Written)} (text : q.text? = some key)
    (single : valuesAt key (before ++ (q, v) :: after) = [w]) :
    v = w ∧ ∀ v', valuesAt key (before ++ (q, v') :: after) = [v'] := by
  simp only [valuesAt_append, valuesAt_cons_of_eq (m := (q, _)) text] at single ⊢
  generalize valuesAt key before = earlier at single ⊢
  rcases earlier with _ | ⟨x, xs⟩
  · obtain ⟨rfl, nothing⟩ := List.cons.inj single
    rw [nothing]
    exact ⟨rfl, fun v' => rfl⟩
  · obtain ⟨-, impossible⟩ := List.cons.inj single
    exact absurd impossible (List.append_ne_nil_of_right_ne_nil xs (List.cons_ne_nil v _))

/-- What is the case for one of the members with the key is the case for the single value. -/
theorem exists_mem_iff_of_valuesAt {key : String} {v : Written} {ms : List (Quoted × Written)}
    (single : valuesAt key ms = [v]) {holds : Written → Prop} :
    (∃ m ∈ ms, m.1.text? = some key ∧ holds m.2) ↔ holds v := by
  constructor
  · rintro ⟨m, member, text, held⟩
    have same : m.2 ∈ valuesAt key ms := List.mem_filterMap.mpr ⟨m, member, if_pos text⟩
    rw [single, List.mem_singleton] at same
    rwa [same] at held
  · intro held
    have present : v ∈ valuesAt key ms := by
      rw [single]
      exact List.mem_singleton_self v
    obtain ⟨m, member, found⟩ := List.mem_filterMap.mp present
    split_ifs at found with text
    cases found
    exact ⟨m, member, text, held⟩

/-- A single value stays the only one in any order. -/
theorem valuesAt_perm {key : String} {ms ms' : List (Quoted × Written)} (perm : ms.Perm ms')
    {v : Written} (single : valuesAt key ms = [v]) : valuesAt key ms' = [v] := by
  have moved : (valuesAt key ms').Perm (valuesAt key ms) := perm.symm.filterMap _
  rw [single] at moved
  exact List.perm_singleton.mp moved

/-- The keys of all members are texts. -/
def KeysTaken (ms : List (Quoted × Written)) : Prop :=
  ∀ m ∈ ms, ∃ k, m.1.text? = some k

theorem forall_mem_insert {holds : Quoted × Written → Prop} {m : Quoted × Written}
    {before after : List (Quoted × Written)} :
    (∀ m' ∈ before ++ m :: after, holds m') ↔ holds m ∧ ∀ m' ∈ before ++ after, holds m' := by
  simp only [List.forall_mem_append, List.forall_mem_cons]
  exact and_left_comm

namespace Declaration

/-- All members but the kind can be taken in. -/
def OthersSettle (room : Nat) (ms : List (Quoted × Written)) : Prop :=
  ∀ m ∈ ms, m.1.text? ≠ some "kind" → m.2.toNode.settle room = .ok ()

/-- The kind is named once, or has been named before. -/
def NamesKind (kind : Kind) (ms : List (Quoted × Written)) : Option Kind → Prop
  | none => ∃ v, valuesAt "kind" ms = [v] ∧ v.toNode.readName kinds = .ok kind
  | some earlier => valuesAt "kind" ms = [] ∧ earlier = kind

theorem namesKind_cons_of_ne {kind : Kind} {m : Quoted × Written} {ms : List (Quoted × Written)}
    {known : Option Kind} (other : m.1.text? ≠ some "kind") :
    NamesKind kind (m :: ms) known ↔ NamesKind kind ms known := by
  unfold NamesKind
  rw [valuesAt_cons_of_ne other]

/-- The first member either names the kind, which has not been named before, or is taken in. -/
theorem findKind_cons_eq_ok_iff {room : Nat} {kind : Kind} {known : Option Kind} {q : Quoted}
    {v : Written} {ms : List (Quoted × Written)} :
    findKind room known (Written.toMembers ((q, v) :: ms)) = .ok kind ↔ ∃ k, q.text? = some k ∧
      ((k = "kind" ∧ known = none ∧ ∃ named, v.toNode.readName kinds = .ok named ∧
          findKind room (some named) (Written.toMembers ms) = .ok kind) ∨
        (k ≠ "kind" ∧ v.toNode.settle room = .ok () ∧
          findKind room known (Written.toMembers ms) = .ok kind)) := by
  rw [Written.toMembers, findKind, bind_eq_ok_iff]
  refine exists_congr fun k => and_congr Quoted.text?_eq_some_iff.symm ?_
  by_cases isKind : k = "kind"
  · cases known with
    | none => simp [isKind, bind_eq_ok_iff]
    | some earlier => simp [isKind]
  · rw [if_neg isKind, bind_eq_ok_iff]
    constructor
    · rintro ⟨_, settled, found⟩
      exact .inr ⟨isKind, settled, found⟩
    · rintro (⟨same, -⟩ | ⟨-, settled, found⟩)
      · exact absurd same isKind
      · exact ⟨(), settled, found⟩

/-- **The kind of a declaration is found wherever it stands**, if it stands there once and the other
members can be taken in. -/
theorem findKind_eq_ok_iff {room : Nat} {kind : Kind} {ms : List (Quoted × Written)} :
    ∀ {known : Option Kind}, findKind room known (Written.toMembers ms) = .ok kind ↔
      KeysTaken ms ∧ OthersSettle room ms ∧ NamesKind kind ms known := by
  induction ms with
  | nil =>
      intro known
      have nothing : KeysTaken [] ∧ OthersSettle room [] :=
        ⟨fun _ absent => absurd absent List.not_mem_nil,
          fun _ absent => absurd absent List.not_mem_nil⟩
      cases known with
      | none => simp [Written.toMembers, findKind, NamesKind, valuesAt]
      | some earlier => simp [Written.toMembers, findKind, NamesKind, valuesAt, nothing]
  | cons m ms ih =>
      intro known
      obtain ⟨q, v⟩ := m
      rw [findKind_cons_eq_ok_iff]
      constructor
      · rintro ⟨k, text, ⟨rfl, rfl, named, read, found⟩ | ⟨other, settled, found⟩⟩
        · obtain ⟨keys, settle, others, rfl⟩ := ih.mp found
          refine ⟨List.forall_mem_cons.mpr ⟨⟨_, text⟩, keys⟩,
            List.forall_mem_cons.mpr ⟨fun other => absurd text other, settle⟩, v, ?_, read⟩
          rw [valuesAt_cons_of_eq text, others]
        · obtain ⟨keys, settle, names⟩ := ih.mp found
          exact ⟨List.forall_mem_cons.mpr ⟨⟨k, text⟩, keys⟩,
            List.forall_mem_cons.mpr ⟨fun _ => settled, settle⟩,
            (namesKind_cons_of_ne (Quoted.text?_ne text other)).mpr names⟩
      · rintro ⟨keys, settle, names⟩
        obtain ⟨⟨k, text⟩, keys⟩ := List.forall_mem_cons.mp keys
        obtain ⟨settled, settle⟩ := List.forall_mem_cons.mp settle
        refine ⟨k, text, ?_⟩
        by_cases isKind : k = "kind"
        · subst isKind
          cases known with
          | some earlier =>
              rw [NamesKind, valuesAt_cons_of_eq text] at names
              cases names.1
          | none =>
              obtain ⟨v', single, read⟩ := names
              rw [valuesAt_cons_of_eq text, List.cons.injEq] at single
              obtain ⟨rfl, none⟩ := single
              exact .inl ⟨rfl, rfl, kind, read, ih.mpr ⟨keys, settle, none, rfl⟩⟩
        · have other := Quoted.text?_ne text isKind
          exact .inr ⟨isKind, settled other,
            ih.mpr ⟨keys, settle, (namesKind_cons_of_ne other).mp names⟩⟩

end Declaration

/-! ## Cases -/

namespace Cases

/-- The nodes with a given key. -/
def nodesAt (key : String) (ps : List (String × Node)) : List Node :=
  ps.filterMap fun p => if p.1 = key then some p.2 else none

/-- The keys that say something about cases. -/
def KeysRelevant (ps : List (String × Node)) : Prop :=
  ∀ p ∈ ps, p.1 = "form" ∨ p.1 = "cases"

theorem eq_nil_of_nodesAt {ps : List (String × Node)} (keys : KeysRelevant ps)
    (form : nodesAt "form" ps = []) (cases : nodesAt "cases" ps = []) : ps = [] := by
  rcases ps with _ | ⟨⟨k, n⟩, ps⟩
  · rfl
  · rcases keys (k, n) List.mem_cons_self with same | same
    · cases same
      simp [nodesAt] at form
    · cases same
      simp [nodesAt] at cases

theorem noMore_eq_ok_iff {cs r : Cases} {ps : List (String × Node)} :
    noMore cs ps = .ok r ↔ ps = [] ∧ cs = r := by
  cases ps with
  | nil => simp [noMore]
  | cons p ps => simp [noMore]

theorem nodesAt_cons (key k : String) (n : Node) (ps : List (String × Node)) :
    nodesAt key ((k, n) :: ps) = if k = key then n :: nodesAt key ps else nodesAt key ps := by
  unfold nodesAt
  rw [List.filterMap_cons]
  split_ifs <;> rfl

/-- Form and cases, whichever came first, and what follows them. -/
def readPair (a b : Node) (ps : List (String × Node)) : Except ReadError Cases := do
  let form ← readForm a
  let cs ← readContent form b
  noMore cs ps

theorem readPair_eq_ok_iff {a b : Node} {ps : List (String × Node)} {cs : Cases} :
    readPair a b ps = .ok cs ↔
      ps = [] ∧ ∃ form, readForm a = .ok form ∧ readContent form b = .ok cs := by
  simp only [readPair, bind_eq_ok_iff, noMore_eq_ok_iff]
  constructor
  · rintro ⟨form, judged, cs', content, rfl, rfl⟩
    exact ⟨rfl, form, judged, content⟩
  · rintro ⟨rfl, form, judged, content⟩
    exact ⟨form, judged, cs, content, rfl, rfl⟩

/-- **Form and cases may come in either order**, each of them once. -/
theorem readMembers_eq_ok_iff {ps : List (String × Node)} (keys : KeysRelevant ps) {cs : Cases} :
    readMembers ps = .ok cs ↔ ∃ a b form, nodesAt "form" ps = [a] ∧ nodesAt "cases" ps = [b] ∧
      readForm a = .ok form ∧ readContent form b = .ok cs := by
  rcases ps with _ | ⟨⟨k, n⟩, _ | ⟨⟨k', n'⟩, ps⟩⟩
  · simp [readMembers, nodesAt]
  · rcases keys (k, n) List.mem_cons_self with same | same
    · cases same
      simp [readMembers, nodesAt, bind_eq_ok_iff]
    · cases same
      simp [readMembers, nodesAt]
  · -- With the form and the cases among the first two, nothing may follow.
    have pair : ∀ {a b : Node} {qs : List (String × Node)},
        nodesAt "form" qs = a :: nodesAt "form" ps → nodesAt "cases" qs = b :: nodesAt "cases" ps →
        (readPair a b ps = .ok cs ↔ ∃ a b form, nodesAt "form" qs = [a] ∧ nodesAt "cases" qs = [b] ∧
          readForm a = .ok form ∧ readContent form b = .ok cs) := by
      intro a b qs first second
      rw [readPair_eq_ok_iff, first, second]
      constructor
      · rintro ⟨rfl, form, judged, content⟩
        exact ⟨a, b, form, rfl, rfl, judged, content⟩
      · rintro ⟨a', b', form, single, single', judged, content⟩
        obtain ⟨rfl, noForm⟩ := List.cons.inj single
        obtain ⟨rfl, noCases⟩ := List.cons.inj single'
        refine ⟨eq_nil_of_nodesAt (fun p member => ?_) noForm noCases, form, judged, content⟩
        exact keys p (List.mem_cons_of_mem _ (List.mem_cons_of_mem _ member))
    rcases keys (k, n) (by simp) with same | same <;>
      rcases keys (k', n') (by simp) with same' | same' <;> cases same <;> cases same'
    · simp [readMembers, nodesAt_cons, bind_eq_ok_iff]
    · exact pair rfl rfl
    · exact pair rfl rfl
    · simp [readMembers, nodesAt_cons]

theorem relevant_cons_eq_ok_iff {m : Quoted × Written} {ms : List (Quoted × Written)}
    {ps : List (String × Node)} :
    relevant (Written.toMembers (m :: ms)) = .ok ps ↔ ∃ k qs, m.1.text? = some k ∧
      relevant (Written.toMembers ms) = .ok qs ∧
      ps = if k = "form" ∨ k = "cases" then (k, m.2.toNode) :: qs else qs := by
  obtain ⟨q, v⟩ := m
  rw [Written.toMembers, relevant, bind_eq_ok_iff]
  refine exists_congr fun k => ?_
  rw [← Quoted.text?_eq_some_iff]
  split_ifs
  · rw [bind_eq_ok_iff]
    constructor
    · rintro ⟨text, qs, found, same⟩
      exact ⟨qs, text, found, (Except.ok.inj same).symm⟩
    · rintro ⟨qs, text, found, rfl⟩
      exact ⟨text, qs, found, rfl⟩
  · constructor
    · rintro ⟨text, found⟩
      exact ⟨ps, text, found, rfl⟩
    · rintro ⟨qs, text, found, rfl⟩
      exact ⟨text, found⟩

theorem keysTaken_of_relevant {ms : List (Quoted × Written)} : ∀ {ps : List (String × Node)},
    relevant (Written.toMembers ms) = .ok ps → KeysTaken ms := by
  induction ms with
  | nil => exact fun _ _ absent => absurd absent List.not_mem_nil
  | cons m ms ih =>
      intro ps found
      obtain ⟨k, qs, text, others, -⟩ := relevant_cons_eq_ok_iff.mp found
      exact List.forall_mem_cons.mpr ⟨⟨k, text⟩, ih others⟩

/-- The relevant members are found if all keys are texts. -/
theorem exists_relevant_eq {ms : List (Quoted × Written)} (taken : KeysTaken ms) :
    ∃ ps, relevant (Written.toMembers ms) = .ok ps ∧ KeysRelevant ps ∧
      nodesAt "form" ps = (valuesAt "form" ms).map Written.toNode ∧
      nodesAt "cases" ps = (valuesAt "cases" ms).map Written.toNode := by
  induction ms with
  | nil =>
      refine ⟨[], by rw [Written.toMembers, relevant], ?_, rfl, rfl⟩
      exact fun _ absent => absurd absent List.not_mem_nil
  | cons m ms ih =>
      obtain ⟨k, text⟩ := taken m List.mem_cons_self
      obtain ⟨qs, found, keys, form, cases⟩ :=
        ih fun m member => taken m (List.mem_cons_of_mem _ member)
      have other : ∀ {key}, k ≠ key → m.1.text? ≠ some key := Quoted.text?_ne text
      refine ⟨_, relevant_cons_eq_ok_iff.mpr ⟨k, qs, text, found, rfl⟩, ?_⟩
      by_cases isForm : k = "form"
      · subst isForm
        rw [if_pos (.inl rfl), nodesAt_cons, nodesAt_cons, if_pos rfl, if_neg (by decide),
          valuesAt_cons_of_eq text, valuesAt_cons_of_ne (other (by decide)), form, cases]
        exact ⟨List.forall_mem_cons.mpr ⟨.inl rfl, keys⟩, rfl, rfl⟩
      · by_cases isCases : k = "cases"
        · subst isCases
          rw [if_pos (.inr rfl), nodesAt_cons, nodesAt_cons, if_neg (by decide), if_pos rfl,
            valuesAt_cons_of_ne (other (by decide)), valuesAt_cons_of_eq text, form, cases]
          exact ⟨List.forall_mem_cons.mpr ⟨.inr rfl, keys⟩, rfl, rfl⟩
        · rw [if_neg (not_or.mpr ⟨isForm, isCases⟩), valuesAt_cons_of_ne (other isForm),
            valuesAt_cons_of_ne (other isCases)]
          exact ⟨keys, form, cases⟩

/-- **An object of cases is read by the values of its form and its cases**, wherever they stand. -/
theorem read_object_eq_ok_iff {ms : List (Quoted × Written)} {cs : Cases} :
    read (Written.object ms).toNode = .ok cs ↔ KeysTaken ms ∧ ∃ a b form,
      valuesAt "form" ms = [a] ∧ valuesAt "cases" ms = [b] ∧
      readForm a.toNode = .ok form ∧ readContent form b.toNode = .ok cs := by
  rw [Written.toNode, read, bind_eq_ok_iff]
  constructor
  · rintro ⟨ps, found, accepted⟩
    have taken := keysTaken_of_relevant found
    obtain ⟨ps', found', keys, form, cases⟩ := exists_relevant_eq taken
    cases found.symm.trans found'
    obtain ⟨a, b, f, single, single', judged, content⟩ := (readMembers_eq_ok_iff keys).mp accepted
    rw [form] at single
    rw [cases] at single'
    obtain ⟨v, atForm, rfl⟩ := List.map_eq_singleton_iff.mp single
    obtain ⟨w, atCases, rfl⟩ := List.map_eq_singleton_iff.mp single'
    exact ⟨taken, v, w, f, atForm, atCases, judged, content⟩
  · rintro ⟨taken, a, b, f, single, single', judged, content⟩
    obtain ⟨ps, found, keys, form, cases⟩ := exists_relevant_eq taken
    refine ⟨ps, found, (readMembers_eq_ok_iff keys).mpr
      ⟨a.toNode, b.toNode, f, ?_, ?_, judged, content⟩⟩
    · rw [form, single]
      rfl
    · rw [cases, single']
      rfl

end Cases

end SchemaPress
