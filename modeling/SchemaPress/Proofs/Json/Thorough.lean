import SchemaPress.Proofs.Json.Order

/-!
# Readers that see every fault

A reader is thorough if it accepts only trees without faults. Passing a value and taking it in are
thorough, and so is a reader that puts thorough readers together: of lists, and of records, in which
members without a slot are passed.
-/

set_option autoImplicit false

namespace SchemaPress.Json

/-- A reader that accepts only trees without faults. -/
def Thorough {α : Type} (read : Node → Except ReadError α) : Prop :=
  ∀ (n : Node) (a : α), read n = .ok a → n.Faultless

mutual

theorem faultless_of_pass : ∀ n : Node, n.pass = .ok () → n.Faultless
  | .null spelled, passed => by
      rw [Node.Faultless]
      exact ofScan_eq_ok_iff.mp passed
  | .bool b spelled, passed => by
      rw [Node.Faultless]
      exact ofScan_eq_ok_iff.mp passed
  | .number taken whole, passed => by
      rw [Node.Faultless]
      exact .inr (ofScan_eq_ok_iff.mp passed)
  | .string taken whole, passed => by
      rw [Node.Faultless]
      exact .inr (ofScan_eq_ok_iff.mp passed)
  | .array items, passed => by
      rw [Node.Faultless]
      exact items_faultless_of_pass items passed
  | .object members, passed => by
      rw [Node.Faultless]
      exact members_faultless_of_pass members passed
  | .missing f, passed => by cases passed

theorem items_faultless_of_pass : ∀ items : Items, items.pass = .ok () → items.Faultless
  | .close, _ => by
      rw [Items.Faultless]
      trivial
  | .broken f, passed => by cases passed
  | .item value rest, passed => by
      rw [Items.pass, Written.andThen_eq_ok_iff] at passed
      rw [Items.Faultless]
      exact ⟨faultless_of_pass value passed.1, items_faultless_of_pass rest passed.2⟩

theorem members_faultless_of_pass : ∀ members : Members, members.pass = .ok () → members.Faultless
  | .close, _ => by
      rw [Members.Faultless]
      trivial
  | .broken f, passed => by cases passed
  | .member key value rest, passed => by
      rw [Members.pass, Written.andThen_eq_ok_iff] at passed
      rw [Members.Faultless]
      exact ⟨faultless_of_pass value passed.1, members_faultless_of_pass rest passed.2⟩

end

mutual

theorem faultless_of_settle : ∀ (n : Node) (room : Nat), n.settle room = .ok () → n.Faultless
  | .null spelled, _, settled => by
      rw [Node.Faultless]
      exact ofScan_eq_ok_iff.mp settled
  | .bool b spelled, _, settled => by
      rw [Node.Faultless]
      exact ofScan_eq_ok_iff.mp settled
  | .number taken passed, _, settled => by
      rw [Node.Faultless]
      exact .inl (Written.ofScan_map_eq_ok_iff.mp settled)
  | .string taken passed, _, settled => by
      rw [Node.Faultless]
      exact .inl (Written.ofScan_map_eq_ok_iff.mp settled)
  | .array items, room, settled => by
      rw [Node.settle] at settled
      rw [Node.Faultless]
      split_ifs at settled
      exact items_faultless_of_settle items (room - 1) settled
  | .object members, room, settled => by
      rw [Node.settle] at settled
      rw [Node.Faultless]
      split_ifs at settled
      exact members_faultless_of_settle members (room - 1) settled
  | .missing f, _, settled => by cases settled

theorem items_faultless_of_settle : ∀ (items : Items) (room : Nat),
    items.settle room = .ok () → items.Faultless
  | .close, _, _ => by
      rw [Items.Faultless]
      trivial
  | .broken f, _, settled => by cases settled
  | .item value rest, room, settled => by
      rw [Items.settle, Written.andThen_eq_ok_iff] at settled
      rw [Items.Faultless]
      exact ⟨faultless_of_settle value room settled.1,
        items_faultless_of_settle rest room settled.2⟩

theorem members_faultless_of_settle : ∀ (members : Members) (room : Nat),
    members.settle room = .ok () → members.Faultless
  | .close, _, _ => by
      rw [Members.Faultless]
      trivial
  | .broken f, _, settled => by cases settled
  | .member key value rest, room, settled => by
      rw [Members.settle, bind_eq_ok_iff] at settled
      obtain ⟨_, -, settled⟩ := settled
      rw [Written.andThen_eq_ok_iff] at settled
      rw [Members.Faultless]
      exact ⟨faultless_of_settle value room settled.1,
        members_faultless_of_settle rest room settled.2⟩

end

theorem thorough_readString : Thorough Node.readString := by
  intro n text read
  cases n with
  | string taken passed =>
      rw [Node.Faultless]
      exact .inl ⟨text, ofScan_eq_ok_iff.mp read⟩
  | null | bool | number | array | object | missing => exact absurd read (unlike_ne_ok _ _ _)

theorem thorough_readName {α : Type} (choices : List (String × α)) :
    Thorough (Node.readName choices) := by
  intro n a read
  cases n with
  | string taken passed =>
      rw [Node.readName, bind_eq_ok_iff] at read
      obtain ⟨name, took, -⟩ := read
      rw [Node.Faultless]
      exact .inl ⟨name, ofScan_eq_ok_iff.mp took⟩
  | null | bool | number | array | object | missing => exact absurd read (unlike_ne_ok _ _ _)

variable {α σ : Type}

theorem Thorough.map {β : Type} {read : Node → Except ReadError α} (thorough : Thorough read)
    (f : α → β) : Thorough fun n => (read n).map f := by
  intro n b accepted
  obtain ⟨a, read, -⟩ := map_eq_ok_iff.mp accepted
  exact thorough n a read

theorem items_faultless_of_readAll {read : Node → Except ReadError α} (thorough : Thorough read) :
    ∀ (items : Items) (as : List α), items.readAll read = .ok as → items.Faultless
  | .close, _, _ => by
      rw [Items.Faultless]
      trivial
  | .broken f, _, accepted => by cases accepted
  | .item value rest, _, accepted => by
      rw [Items.readAll, bind_eq_ok_iff] at accepted
      obtain ⟨a, first, others⟩ := accepted
      obtain ⟨as, others, -⟩ := bind_eq_ok_iff.mp others
      rw [Items.Faultless]
      exact ⟨thorough value a first, items_faultless_of_readAll thorough rest as others⟩

/-- A reader of lists is thorough if the reader of the items is. -/
theorem Thorough.readList {read : Node → Except ReadError α} (thorough : Thorough read) :
    Thorough (Node.readList read) := by
  intro n as accepted
  cases n with
  | array items =>
      rw [Node.Faultless]
      exact items_faultless_of_readAll thorough items as accepted
  | null | bool | number | string | object | missing => exact absurd accepted (unlike_ne_ok _ _ _)

section Records

variable {slots : List (Slot Node ReadError σ)}

theorem members_faultless_of_fill (thorough : ∀ slot ∈ slots, ∀ s, Thorough (slot.store · s)) :
    ∀ (members : Members) (seen : List String) (s r : σ),
      members.fill slots seen s = .ok r → members.Faultless
  | .close, _, _, _, _ => by
      rw [Members.Faultless]
      trivial
  | .broken f, _, _, _, filled => by cases filled
  | .member key value rest, seen, s, r, filled => by
      rw [Members.fill, bind_eq_ok_iff] at filled
      obtain ⟨k, -, filled⟩ := filled
      rw [Members.Faultless]
      cases found : slots.find? (·.key == k) with
      | none =>
          rw [found] at filled
          obtain ⟨_, passed, filled⟩ := bind_eq_ok_iff.mp filled
          exact ⟨faultless_of_pass value passed,
            members_faultless_of_fill thorough rest seen s r filled⟩
      | some slot =>
          rw [found] at filled
          dsimp only at filled
          split_ifs at filled
          obtain ⟨s', stored, filled⟩ := bind_eq_ok_iff.mp filled
          exact ⟨thorough slot (List.mem_of_find?_eq_some found) s value s' stored,
            members_faultless_of_fill thorough rest (k :: seen) s' r filled⟩

theorem items_faultless_of_fill {pace : Pace} {name : String} {total : Nat} :
    ∀ (items : Items) (slots : List (Slot Node ReadError σ)) (filled : Nat) (s r : σ),
      (∀ slot ∈ slots, ∀ s, Thorough (slot.store · s)) →
      items.fill pace name total filled slots s = .ok r → items.Faultless
  | .close, _, _, _, _, _, _ => by
      rw [Items.Faultless]
      trivial
  | .broken f, [], _, _, _, _, read => by cases read
  | .broken f, _ :: _, _, _, _, _, read => by cases read
  | .item value rest, [], _, _, _, _, read => by
      rw [Items.fill, bind_eq_ok_iff] at read
      obtain ⟨_, finished, -⟩ := read
      cases pace with
      | streaming => cases finished
      | settled => cases finished
  | .item value rest, slot :: slots, filled, s, r, thorough, read => by
      rw [Items.fill, bind_eq_ok_iff] at read
      obtain ⟨s', stored, read⟩ := read
      rw [List.forall_mem_cons] at thorough
      rw [Items.Faultless]
      exact ⟨thorough.1 s value s' stored,
        items_faultless_of_fill rest slots (filled + 1) s' r thorough.2 read⟩

/-- A reader of records is thorough if what is stored in the slots is read so. -/
theorem thorough_readRecord {pace : Pace} {name : String} {init : σ}
    (thorough : ∀ slot ∈ slots, ∀ s, Thorough (slot.store · s)) :
    Thorough (Node.readRecord pace name slots init) := by
  intro n r read
  cases n with
  | object members =>
      rw [Node.Faultless]
      exact members_faultless_of_fill thorough members [] init r read
  | array items =>
      rw [Node.Faultless]
      exact items_faultless_of_fill items slots 0 init r thorough read
  | null | bool | number | string | missing => exact absurd read (unlike_ne_ok _ _ _)

end Records

end SchemaPress.Json
