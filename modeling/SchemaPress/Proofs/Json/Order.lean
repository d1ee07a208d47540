import Mathlib.Data.List.Pairwise
import SchemaPress.Json.Reader
import SchemaPress.Proofs.Json.Grammar

/-!
# Records are read in any order

What readers make of a written value. Passing one never fails, and taking one in fails only if a
token has no value or the value nests too deep (`settle_toNode_iff`).

A record is filled by the members of an object one after the other. If the slots are independent of
each other, the order of the members does not matter (`fill_perm`). So whatever holds of the first
member holds of every one: a member without a slot may stand anywhere, and a value may be replaced
by another that its slot reads alike.
-/

set_option autoImplicit false

namespace SchemaPress.Json

namespace Written

/-! ## Passing -/

mutual

/-- A written value is passed. -/
theorem pass_toNode : ∀ v : Written, v.toNode.pass = .ok ()
  | .null => by
      rw [toNode]
      rfl
  | .bool b => by
      rw [toNode]
      rfl
  | .number n => by
      obtain ⟨taken, number⟩ := n.exists_toNode_eq
      rw [toNode, number]
      rfl
  | .string q => by
      rw [toNode]
      rfl
  | .array vs => by
      rw [toNode, Node.pass]
      exact pass_toItems vs
  | .object ms => by
      rw [toNode, Node.pass]
      exact pass_toMembers ms

theorem pass_toItems : ∀ vs : List Written, (toItems vs).pass = .ok ()
  | [] => by
      rw [toItems]
      rfl
  | v :: vs => by
      rw [toItems, Items.pass, pass_toNode v]
      exact pass_toItems vs

theorem pass_toMembers : ∀ ms : List (Quoted × Written), (toMembers ms).pass = .ok ()
  | [] => by
      rw [toMembers]
      rfl
  | (_, v) :: ms => by
      rw [toMembers, Members.pass, pass_toNode v]
      exact pass_toMembers ms

end

/-! ## Taking in -/

mutual

/-- How many arrays and objects are nested in a value. -/
def depth : Written → Nat
  | .array items => depthOfItems items + 1
  | .object members => depthOfMembers members + 1
  | _ => 0

/-- How many arrays and objects are nested in the items of an array. -/
def depthOfItems : List Written → Nat
  | [] => 0
  | v :: vs => max v.depth (depthOfItems vs)

/-- How many arrays and objects are nested in the members of an object. -/
def depthOfMembers : List (Quoted × Written) → Nat
  | [] => 0
  | (_, v) :: ms => max v.depth (depthOfMembers ms)

end

mutual

/-- Every token has a value: no number is too large for a double, and no string or key holds half of
a surrogate pair. -/
def Valued : Written → Prop
  | .null => True
  | .bool _ => True
  | .number n => ∃ x, n.spelling.value = some x
  | .string q => ∃ s, q.text? = some s
  | .array items => ItemsValued items
  | .object members => MembersValued members

/-- Every token in the items of an array has a value. -/
def ItemsValued : List Written → Prop
  | [] => True
  | v :: vs => v.Valued ∧ ItemsValued vs

/-- Every token in the members of an object has a value. -/
def MembersValued : List (Quoted × Written) → Prop
  | [] => True
  | (k, v) :: ms => (∃ s, k.text? = some s) ∧ v.Valued ∧ MembersValued ms

end

theorem depthOfItems_le_iff {vs : List Written} {n : Nat} :
    depthOfItems vs ≤ n ↔ ∀ v ∈ vs, v.depth ≤ n := by
  induction vs with
  | nil => simp [depthOfItems]
  | cons v vs ih => rw [depthOfItems, Nat.max_le, ih, List.forall_mem_cons]

theorem depthOfMembers_le_iff {ms : List (Quoted × Written)} {n : Nat} :
    depthOfMembers ms ≤ n ↔ ∀ m ∈ ms, m.2.depth ≤ n := by
  induction ms with
  | nil => simp [depthOfMembers]
  | cons m ms ih => rw [depthOfMembers, Nat.max_le, ih, List.forall_mem_cons]

theorem itemsValued_iff {vs : List Written} : ItemsValued vs ↔ ∀ v ∈ vs, v.Valued := by
  induction vs with
  | nil => simp [ItemsValued]
  | cons v vs ih => rw [ItemsValued, ih, List.forall_mem_cons]

theorem membersValued_iff {ms : List (Quoted × Written)} :
    MembersValued ms ↔ ∀ m ∈ ms, (∃ s, m.1.text? = some s) ∧ m.2.Valued := by
  induction ms with
  | nil => simp [MembersValued]
  | cons m ms ih => rw [MembersValued, ih, List.forall_mem_cons, and_assoc]

/-- A result that is mapped succeeds exactly if it does so itself. -/
theorem ofScan_map_eq_ok_iff {α : Type} {r : Except Fault α} :
    ofScan (r.map fun _ => ()) = .ok () ↔ ∃ a, r = .ok a := by
  cases r with
  | error f =>
      constructor
      · intro taken
        cases taken
      · rintro ⟨a, taken⟩
        cases taken
  | ok a => exact ⟨fun _ => ⟨a, rfl⟩, fun _ => rfl⟩

theorem andThen_eq_ok_iff {first second : Except ReadError Unit} :
    (do first; second) = .ok () ↔ first = .ok () ∧ second = .ok () := by
  cases first with
  | error e =>
      constructor
      · intro both
        cases both
      · rintro ⟨failed, -⟩
        cases failed
  | ok u => exact ⟨fun both => ⟨rfl, both⟩, fun both => both.2⟩

mutual

/-- **A written value is taken in exactly if every token has a value and it nests no deeper than
there is room.** -/
theorem settle_toNode_iff : ∀ (v : Written) (room : Nat),
    v.toNode.settle room = .ok () ↔ v.Valued ∧ v.depth ≤ room
  | .null, room => by
      simp only [toNode, Node.settle, ofScan, Valued, depth, Nat.zero_le, and_self]
  | .bool b, room => by
      simp only [toNode, Node.settle, ofScan, Valued, depth, Nat.zero_le, and_self]
  | .number n, room => by
      simp only [toNode, Numeral.toNode, Valued, depth, Nat.zero_le, and_true]
      cases n.spelling.value with
      | none => simp [Node.settle, ofScan, Except.map]
      | some x => simp [Node.settle, ofScan, Except.map]
  | .string q, room => by
      simp only [toNode, Node.settle, ofScan_map_eq_ok_iff, Valued, depth, Nat.zero_le, and_true,
        Quoted.text?]
      cases q.taken with
      | error f => simp [Except.toOption]
      | ok s => simp [Except.toOption]
  | .array vs, room => by
      rw [toNode, Node.settle, Valued, depth]
      cases room with
      | zero => simp
      | succ room =>
          rw [if_neg (Nat.succ_ne_zero room), Nat.add_sub_cancel, settle_toItems_iff vs room,
            Nat.add_le_add_iff_right]
  | .object ms, room => by
      rw [toNode, Node.settle, Valued, depth]
      cases room with
      | zero => simp
      | succ room =>
          rw [if_neg (Nat.succ_ne_zero room), Nat.add_sub_cancel, settle_toMembers_iff ms room,
            Nat.add_le_add_iff_right]

theorem settle_toItems_iff : ∀ (vs : List Written) (room : Nat),
    (toItems vs).settle room = .ok () ↔ ItemsValued vs ∧ depthOfItems vs ≤ room
  | [], room => by
      simp only [toItems, Items.settle, ItemsValued, depthOfItems, Nat.zero_le, and_self]
  | v :: vs, room => by
      rw [toItems, Items.settle, andThen_eq_ok_iff, settle_toNode_iff v room,
        settle_toItems_iff vs room, ItemsValued, depthOfItems, Nat.max_le]
      exact and_and_and_comm

theorem settle_toMembers_iff : ∀ (ms : List (Quoted × Written)) (room : Nat),
    (toMembers ms).settle room = .ok () ↔ MembersValued ms ∧ depthOfMembers ms ≤ room
  | [], room => by
      simp only [toMembers, Members.settle, MembersValued, depthOfMembers, Nat.zero_le, and_self]
  | (k, v) :: ms, room => by
      rw [toMembers, Members.settle, MembersValued, depthOfMembers, Nat.max_le, Quoted.text?]
      cases k.taken with
      | error f => simp [ofScan, bind, Except.bind, Except.toOption]
      | ok s =>
          change (do v.toNode.settle room; (toMembers ms).settle room) = _ ↔ _
          rw [andThen_eq_ok_iff, settle_toNode_iff v room, settle_toMembers_iff ms room]
          simp only [Except.toOption, Option.some.injEq, exists_eq', true_and]
          exact and_and_and_comm

end

end Written

/-! ## Independent slots -/

/-- Two slots of a record do not get in each other's way. -/
def Commutes {σ : Type} (slot other : Slot Node ReadError σ) : Prop :=
  ∀ (v w : Node) (s r : σ),
    (slot.store v s >>= other.store w) = .ok r ↔ (other.store w s >>= slot.store v) = .ok r

instance {σ : Type} : Std.Symm (Commutes (σ := σ)) :=
  ⟨fun _ _ commutes v w s r => (commutes w v s r).symm⟩

/-- Slots that set different parts of a record do not get in each other's way. -/
theorem commutes_of_set {σ α β : Type} {slot other : Slot Node ReadError σ}
    {read : Node → Except ReadError α} {set : α → σ → σ} {read' : Node → Except ReadError β}
    {set' : β → σ → σ} (stores : slot.store = fun v s => (read v).map fun a => set a s)
    (stores' : other.store = fun v s => (read' v).map fun b => set' b s)
    (swap : ∀ a b s, set' b (set a s) = set a (set' b s)) : Commutes slot other := by
  intro v w s r
  rw [stores, stores']
  dsimp only
  cases read v with
  | error e =>
      cases read' w with
      | error e' => simp [Except.map, bind, Except.bind]
      | ok b => simp [Except.map, bind, Except.bind]
  | ok a =>
      cases read' w with
      | error e' => simp [Except.map, bind, Except.bind]
      | ok b => simp [Except.map, bind, Except.bind, swap]

/-! ## Filling a record -/

/-- A reader that accepts the first value makes the same of the second. -/
def Keeps {α : Type} (read : Node → Except ReadError α) (v v' : Written) : Prop :=
  ∀ a, read v.toNode = .ok a → read v'.toNode = .ok a

theorem bind_eq_ok_iff {ε α β : Type} {x : Except ε α} {f : α → Except ε β} {b : β} :
    (x >>= f) = .ok b ↔ ∃ a, x = .ok a ∧ f a = .ok b := by
  cases x with
  | error e =>
      constructor
      · intro both
        cases both
      · rintro ⟨a, failed, -⟩
        cases failed
  | ok a =>
      constructor
      · intro both
        exact ⟨a, rfl, both⟩
      · rintro ⟨a', same, both⟩
        cases same
        exact both

theorem map_eq_ok_iff {ε α β : Type} {x : Except ε α} {f : α → β} {b : β} :
    x.map f = .ok b ↔ ∃ a, x = .ok a ∧ f a = b := by
  cases x with
  | error e =>
      constructor
      · intro mapped
        cases mapped
      · rintro ⟨a, failed, -⟩
        cases failed
  | ok a =>
      constructor
      · intro mapped
        exact ⟨a, rfl, Except.ok.inj mapped⟩
      · rintro ⟨a', same, rfl⟩
        cases same
        rfl

theorem unlike_ne_ok {α : Type} (n : Node) (expected : Expected) (a : α) :
    n.unlike expected ≠ .ok a := by
  intro read
  obtain ⟨found, -, wrong⟩ := bind_eq_ok_iff.mp read
  cases wrong

theorem ofScan_eq_ok_iff {α : Type} {r : Except Fault α} {a : α} :
    ofScan r = .ok a ↔ r = .ok a := by
  cases r with
  | error f => simp [ofScan]
  | ok b => simp [ofScan]

theorem Quoted.text?_eq_some_iff {q : Quoted} {k : String} :
    q.text? = some k ↔ ofScan q.taken = .ok k := by
  unfold Quoted.text?
  cases q.taken with
  | error f => simp [Except.toOption, ofScan]
  | ok s => simp [Except.toOption, ofScan]

theorem Quoted.text?_ne {q : Quoted} {k key : String} (text : q.text? = some k)
    (different : k ≠ key) : q.text? ≠ some key :=
  fun same => different (Option.some.inj (text.symm.trans same))

namespace Written

section Filling

variable {σ : Type} {slots : List (Slot Node ReadError σ)}

/-- The first member either has no slot or fills one that has not been filled. -/
theorem fill_cons_eq_ok_iff {q : Quoted} {v : Written} {ms : List (Quoted × Written)}
    {seen : List String} {s r : σ} :
    (toMembers ((q, v) :: ms)).fill slots seen s = .ok r ↔
      ∃ k, q.text? = some k ∧
        ((slots.find? (·.key == k) = none ∧ (toMembers ms).fill slots seen s = .ok r) ∨
          ∃ slot s', slots.find? (·.key == k) = some slot ∧ k ∉ seen ∧
            slot.store v.toNode s = .ok s' ∧ (toMembers ms).fill slots (k :: seen) s' = .ok r) := by
  rw [toMembers, Members.fill, bind_eq_ok_iff]
  refine exists_congr fun k => and_congr Quoted.text?_eq_some_iff.symm ?_
  cases found : slots.find? (·.key == k) with
  | none =>
      rw [v.pass_toNode]
      constructor
      · intro filled
        exact .inl ⟨rfl, filled⟩
      · rintro (⟨-, filled⟩ | ⟨slot, s', absent, -⟩)
        · exact filled
        · cases absent
  | some slot =>
      dsimp only
      by_cases fresh : k ∈ seen
      · rw [if_pos (List.contains_iff_mem.mpr fresh)]
        constructor
        · intro filled
          cases filled
        · rintro (⟨absent, -⟩ | ⟨slot', s', -, unseen, -⟩)
          · cases absent
          · exact absurd fresh unseen
      · rw [if_neg (mt List.contains_iff_mem.mp fresh), bind_eq_ok_iff]
        constructor
        · rintro ⟨s', stored, filled⟩
          exact .inr ⟨slot, s', rfl, fresh, stored, filled⟩
        · rintro (⟨absent, -⟩ | ⟨slot', s', same, -, stored, filled⟩)
          · cases absent
          · cases same
            exact ⟨s', stored, filled⟩

theorem firstMissing_congr {seen seen' : List String} (same : ∀ k, k ∈ seen ↔ k ∈ seen') :
    firstMissing slots seen = firstMissing slots seen' := by
  have alike : ∀ k : String, seen.contains k = seen'.contains k := by
    intro k
    rw [Bool.eq_iff_iff, List.contains_iff_mem, List.contains_iff_mem]
    exact same k
  unfold firstMissing
  simp only [alike]

/-- It does not matter in which order slots have been filled. -/
theorem fill_seen {ms : List (Quoted × Written)} : ∀ {seen seen' : List String} {s r : σ},
    (∀ k, k ∈ seen ↔ k ∈ seen') → (toMembers ms).fill slots seen s = .ok r →
      (toMembers ms).fill slots seen' s = .ok r := by
  induction ms with
  | nil =>
      intro seen seen' s r same filled
      rw [toMembers, Members.fill] at filled ⊢
      rwa [← firstMissing_congr same]
  | cons m ms ih =>
      intro seen seen' s r same filled
      rw [fill_cons_eq_ok_iff] at filled ⊢
      obtain ⟨k, taken, ⟨absent, filled⟩ | ⟨slot, s', found, fresh, stored, filled⟩⟩ := filled
      · exact ⟨k, taken, .inl ⟨absent, ih same filled⟩⟩
      · refine ⟨k, taken, .inr ⟨slot, s', found, fun member => fresh ((same k).mpr member), stored,
          ih (fun other => ?_) filled⟩⟩
        rw [List.mem_cons, List.mem_cons, same other]

theorem commutes_of_found (independent : slots.Pairwise Commutes) {k k' : String}
    {slot slot' : Slot Node ReadError σ} (found : slots.find? (·.key == k) = some slot)
    (found' : slots.find? (·.key == k') = some slot') (different : k ≠ k') :
    Commutes slot slot' := by
  refine independent.forall (List.mem_of_find?_eq_some found) (List.mem_of_find?_eq_some found') ?_
  rintro rfl
  have key := List.find?_some found
  have key' := List.find?_some found'
  exact different ((beq_iff_eq.mp key).symm.trans (beq_iff_eq.mp key'))

/-- **A record is filled alike by its members in any order.** -/
theorem fill_perm (independent : slots.Pairwise Commutes) {ms ms' : List (Quoted × Written)}
    (perm : ms.Perm ms') : ∀ {seen : List String} {s r : σ},
      (toMembers ms).fill slots seen s = .ok r → (toMembers ms').fill slots seen s = .ok r := by
  induction perm with
  | nil =>
      intro seen s r filled
      exact filled
  | cons m _ ih =>
      intro seen s r filled
      rw [fill_cons_eq_ok_iff] at filled ⊢
      obtain ⟨k, taken, ⟨absent, filled⟩ | ⟨slot, s', found, fresh, stored, filled⟩⟩ := filled
      · exact ⟨k, taken, .inl ⟨absent, ih filled⟩⟩
      · exact ⟨k, taken, .inr ⟨slot, s', found, fresh, stored, ih filled⟩⟩
  | swap m m' ms =>
      intro seen s r filled
      obtain ⟨k', taken', first⟩ := fill_cons_eq_ok_iff.mp filled
      rcases first with ⟨absent', filled⟩ | ⟨slot', s₁, found', fresh', stored', filled⟩
      · obtain ⟨k, taken, ⟨absent, filled⟩ | ⟨slot, s₂, found, fresh, stored, filled⟩⟩ :=
          fill_cons_eq_ok_iff.mp filled
        · refine fill_cons_eq_ok_iff.mpr ⟨k, taken, .inl ⟨absent, ?_⟩⟩
          exact fill_cons_eq_ok_iff.mpr ⟨k', taken', .inl ⟨absent', filled⟩⟩
        · refine fill_cons_eq_ok_iff.mpr ⟨k, taken, .inr ⟨slot, s₂, found, fresh, stored, ?_⟩⟩
          exact fill_cons_eq_ok_iff.mpr ⟨k', taken', .inl ⟨absent', filled⟩⟩
      · obtain ⟨k, taken, ⟨absent, filled⟩ | ⟨slot, s₂, found, fresh, stored, filled⟩⟩ :=
          fill_cons_eq_ok_iff.mp filled
        · refine fill_cons_eq_ok_iff.mpr ⟨k, taken, .inl ⟨absent, ?_⟩⟩
          exact fill_cons_eq_ok_iff.mpr
            ⟨k', taken', .inr ⟨slot', s₁, found', fresh', stored', filled⟩⟩
        · rw [List.mem_cons, not_or] at fresh
          -- Both have slots: what the two store together does not depend on which comes first.
          have both := (commutes_of_found independent found' found (Ne.symm fresh.1) _ _ s s₂).mp
            (bind_eq_ok_iff.mpr ⟨s₁, stored', stored⟩)
          obtain ⟨s₁', first, second⟩ := bind_eq_ok_iff.mp both
          have unseen : k' ∉ k :: seen := by
            rw [List.mem_cons, not_or]
            exact ⟨Ne.symm fresh.1, fresh'⟩
          refine fill_cons_eq_ok_iff.mpr ⟨k, taken, .inr ⟨slot, s₁', found, fresh.2, first, ?_⟩⟩
          refine fill_cons_eq_ok_iff.mpr ⟨k', taken', .inr ⟨slot', s₂, found', unseen, second, ?_⟩⟩
          refine fill_seen (fun other => ?_) filled
          simp only [List.mem_cons]
          exact or_left_comm
  | trans _ _ ih ih' =>
      intro seen s r filled
      exact ih' (ih filled)

/-! ## Reading a record -/

variable {pace : Pace} {name : String} {init : σ}

/-- A record is read alike from its members in any order. -/
theorem keeps_permuted (independent : slots.Pairwise Commutes) {ms ms' : List (Quoted × Written)}
    (perm : ms.Perm ms') :
    Keeps (Node.readRecord pace name slots init) (.object ms) (.object ms') := by
  intro r filled
  rw [toNode] at filled ⊢
  exact fill_perm independent perm filled

/-- What holds of the first member holds of every one. -/
theorem keeps_of_first (independent : slots.Pairwise Commutes)
    {before after : List (Quoted × Written)} (m m' : List (Quoted × Written))
    (first : Keeps (Node.readRecord pace name slots init) (.object (m ++ (before ++ after)))
      (.object (m' ++ (before ++ after)))) :
    Keeps (Node.readRecord pace name slots init) (.object (before ++ (m ++ after)))
      (.object (before ++ (m' ++ after))) := by
  have front : ∀ ms : List (Quoted × Written),
      (before ++ (ms ++ after)).Perm (ms ++ (before ++ after)) := fun ms => by
    rw [← List.append_assoc, ← List.append_assoc]
    exact List.perm_append_comm.append_right after
  intro r filled
  have moved : Node.readRecord pace name slots init _ = _ :=
    keeps_permuted independent (front m) r filled
  exact keeps_permuted independent (front m').symm r (first r moved)

/-- A record is read alike with one more member that has no slot. -/
theorem keeps_extended (independent : slots.Pairwise Commutes) {q : Quoted} {k : String}
    (taken : q.text? = some k) (unknown : slots.find? (·.key == k) = none) (v : Written)
    (before after : List (Quoted × Written)) :
    Keeps (Node.readRecord pace name slots init) (.object (before ++ after))
      (.object (before ++ (q, v) :: after)) := by
  refine keeps_of_first independent [] [(q, v)] fun r filled => ?_
  rw [toNode] at filled ⊢
  exact fill_cons_eq_ok_iff.mpr ⟨k, taken, .inl ⟨unknown, filled⟩⟩

/-- A record is read alike with another value that is stored alike. -/
theorem keeps_member (independent : slots.Pairwise Commutes) {q : Quoted} {v v' : Written}
    (alike : ∀ k slot, q.text? = some k → slots.find? (·.key == k) = some slot →
      ∀ s, Keeps (slot.store · s) v v') (before after : List (Quoted × Written)) :
    Keeps (Node.readRecord pace name slots init) (.object (before ++ (q, v) :: after))
      (.object (before ++ (q, v') :: after)) := by
  refine keeps_of_first independent [(q, v)] [(q, v')] fun r filled => ?_
  rw [toNode] at filled ⊢
  obtain ⟨k, taken, ⟨absent, filled⟩ | ⟨slot, s', found, fresh, stored, filled⟩⟩ :=
    fill_cons_eq_ok_iff.mp filled
  · exact fill_cons_eq_ok_iff.mpr ⟨k, taken, .inl ⟨absent, filled⟩⟩
  · exact fill_cons_eq_ok_iff.mpr
      ⟨k, taken, .inr ⟨slot, s', found, fresh, alike k slot taken found init s' stored, filled⟩⟩

theorem fill_items_nil {total filled : Nat} {v : Written} {vs : List Written} {s r : σ} :
    Items.fill pace name total filled [] s (toItems (v :: vs)) ≠ .ok r := by
  intro filled
  rw [toItems, Items.fill, bind_eq_ok_iff] at filled
  obtain ⟨_, finished, -⟩ := filled
  cases pace with
  | streaming => cases finished
  | settled => cases finished

/-- An item is stored by the slot at its position, and could be replaced by another that is stored
alike. -/
theorem exists_slot_of_fill_items {v : Written} {after : List Written} {total : Nat}
    (before : List Written) : ∀ {slots : List (Slot Node ReadError σ)} {filled : Nat} {s r : σ},
      Items.fill pace name total filled slots s (toItems (before ++ v :: after)) = .ok r →
      ∃ slot s₁ s₂, slots[before.length]? = some slot ∧ slot.store v.toNode s₁ = .ok s₂ ∧
        ∀ v' : Written, slot.store v'.toNode s₁ = .ok s₂ →
          Items.fill pace name total filled slots s (toItems (before ++ v' :: after)) = .ok r := by
  induction before with
  | nil =>
      intro slots filled s r read
      cases slots with
      | nil => exact absurd read fill_items_nil
      | cons slot slots =>
          rw [List.nil_append, toItems, Items.fill, bind_eq_ok_iff] at read
          obtain ⟨s', stored, others⟩ := read
          refine ⟨slot, s, s', rfl, stored, fun v' stored' => ?_⟩
          rw [List.nil_append, toItems, Items.fill, bind_eq_ok_iff]
          exact ⟨s', stored', others⟩
  | cons w before ih =>
      intro slots filled s r read
      cases slots with
      | nil => exact absurd read fill_items_nil
      | cons slot slots =>
          rw [List.cons_append, toItems, Items.fill, bind_eq_ok_iff] at read
          obtain ⟨s', stored, others⟩ := read
          obtain ⟨found, s₁, s₂, position, inner, refill⟩ := ih others
          refine ⟨found, s₁, s₂, position, inner, fun v' inner' => ?_⟩
          rw [List.cons_append, toItems, Items.fill, bind_eq_ok_iff]
          exact ⟨s', stored, refill v' inner'⟩

/-- A record that is written as an array is read alike with another item that is stored alike. -/
theorem keeps_item {v v' : Written} {before : List Written}
    (alike : ∀ slot, slots[before.length]? = some slot → ∀ s, Keeps (slot.store · s) v v')
    (after : List Written) :
    Keeps (Node.readRecord pace name slots init) (.array (before ++ v :: after))
      (.array (before ++ v' :: after)) := by
  intro r filled
  rw [toNode] at filled ⊢
  obtain ⟨slot, s₁, s₂, position, stored, refill⟩ := exists_slot_of_fill_items before filled
  exact refill v' (alike slot position s₁ s₂ stored)

end Filling

/-- A list is read alike with another item that is read alike. -/
theorem keeps_listItem {α : Type} {read : Node → Except ReadError α} {v v' : Written}
    (alike : Keeps read v v') (before after : List Written) :
    Keeps (Node.readList read) (.array (before ++ v :: after))
      (.array (before ++ v' :: after)) := by
  intro as filled
  rw [toNode, Node.readList] at filled ⊢
  induction before generalizing as with
  | nil =>
      rw [List.nil_append, toItems, Items.readAll, bind_eq_ok_iff] at filled ⊢
      obtain ⟨a, first, others⟩ := filled
      exact ⟨a, alike a first, others⟩
  | cons w before ih =>
      rw [List.cons_append, toItems, Items.readAll, bind_eq_ok_iff] at filled ⊢
      obtain ⟨a, first, others⟩ := filled
      rw [bind_eq_ok_iff] at others
      obtain ⟨as', others, whole⟩ := others
      exact ⟨a, first, bind_eq_ok_iff.mpr ⟨as', ih as' others, whole⟩⟩

/-- The items of an accepted list are accepted. -/
theorem exists_of_readList {α : Type} {read : Node → Except ReadError α} {v : Written}
    {before after : List Written} {as : List α}
    (accepted : (array (before ++ v :: after)).toNode.readList read = .ok as) :
    ∃ a, read v.toNode = .ok a := by
  rw [toNode, Node.readList] at accepted
  induction before generalizing as with
  | nil =>
      rw [List.nil_append, toItems, Items.readAll, bind_eq_ok_iff] at accepted
      obtain ⟨a, first, -⟩ := accepted
      exact ⟨a, first⟩
  | cons w before ih =>
      rw [List.cons_append, toItems, Items.readAll, bind_eq_ok_iff] at accepted
      obtain ⟨a, -, others⟩ := accepted
      obtain ⟨as', others, -⟩ := bind_eq_ok_iff.mp others
      exact ih others

theorem readList_object_ne_ok {α : Type} {read : Node → Except ReadError α}
    {ms : List (Quoted × Written)} {as : List α} :
    (object ms).toNode.readList read ≠ .ok as := by
  rw [toNode]
  exact unlike_ne_ok _ _ _

end Written

end SchemaPress.Json
