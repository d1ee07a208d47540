import SchemaPress.Json.Reader
import SchemaPress.Proofs.Json.Scan

/-!
# Reading the tree of a value

What the readers make of a tree that comes from a value. Taking in such a tree fails only if the
value nests too deep, and arrays and records are read part by part: a record takes one member
after the other, and each member either fills the slot of its key or is passed.
-/

set_option autoImplicit false

namespace SchemaPress.Json

/-! ## Nesting -/

mutual

/-- How many arrays and objects are nested in a value. -/
def depth : Json → Nat
  | .array items => depthOfItems items + 1
  | .object members => depthOfMembers members + 1
  | _ => 0

/-- How many arrays and objects are nested in the items of an array. -/
def depthOfItems : List Json → Nat
  | [] => 0
  | v :: vs => max v.depth (depthOfItems vs)

/-- How many arrays and objects are nested in the members of an object. -/
def depthOfMembers : List (String × Json) → Nat
  | [] => 0
  | (_, v) :: ms => max v.depth (depthOfMembers ms)

end

theorem depth_le_depthOfItems {v : Json} {vs : List Json} (member : v ∈ vs) :
    v.depth ≤ depthOfItems vs := by
  induction vs with
  | nil => simp at member
  | cons w vs ih =>
      rw [depthOfItems]
      rcases List.mem_cons.mp member with rfl | other
      · exact Nat.le_max_left _ _
      · exact Nat.le_trans (ih other) (Nat.le_max_right _ _)

theorem depth_le_depthOfMembers {m : String × Json} {ms : List (String × Json)} (member : m ∈ ms) :
    m.2.depth ≤ depthOfMembers ms := by
  induction ms with
  | nil => simp at member
  | cons w ms ih =>
      rw [depthOfMembers]
      rcases List.mem_cons.mp member with rfl | other
      · exact Nat.le_max_left _ _
      · exact Nat.le_trans (ih other) (Nat.le_max_right _ _)

mutual

/-- **A value is taken in if it nests no deeper than there is room.** -/
theorem settle_toNode : ∀ (j : Json) (room : Nat), j.depth ≤ room → j.toNode.settle room = .ok ()
  | .null, _, _ => by simp [toNode, Node.settle, ofScan]
  | .bool _, _, _ => by simp [toNode, Node.settle, ofScan]
  | .integer _, _, _ => by simp [toNode, Node.settle, ofScan, Except.map]
  | .string _, _, _ => by simp [toNode, Node.settle, ofScan, Except.map]
  | .array items, room, fits => by
      rw [depth] at fits
      have some_room : room ≠ 0 := by omega
      simp only [toNode, Node.settle, some_room, ↓reduceIte]
      exact settle_toItems items _ (by omega)
  | .object members, room, fits => by
      rw [depth] at fits
      have some_room : room ≠ 0 := by omega
      simp only [toNode, Node.settle, some_room, ↓reduceIte]
      exact settle_toMembers members _ (by omega)

theorem settle_toItems : ∀ (vs : List Json) (room : Nat), depthOfItems vs ≤ room →
    (toItems vs).settle room = .ok ()
  | [], _, _ => by simp [toItems, Items.settle]
  | v :: vs, room, fits => by
      rw [depthOfItems] at fits
      have first := settle_toNode v room (by omega)
      have others := settle_toItems vs room (by omega)
      simp only [toItems, Items.settle, first, others]
      rfl

theorem settle_toMembers : ∀ (ms : List (String × Json)) (room : Nat), depthOfMembers ms ≤ room →
    (toMembers ms).settle room = .ok ()
  | [], _, _ => by simp [toMembers, Members.settle]
  | (k, v) :: ms, room, fits => by
      rw [depthOfMembers] at fits
      have first := settle_toNode v room (by omega)
      have others := settle_toMembers ms room (by omega)
      simp only [toMembers, Members.settle, ofScan, first, others]
      rfl

end

/-! ## Arrays -/

/-- An array is read if each of its items is. -/
theorem readList_map {α β : Type} {read : Node → Except ReadError α} (write : β → Json)
    (meant : β → α) {bs : List β} (each : ∀ b ∈ bs, read (write b).toNode = .ok (meant b)) :
    (Json.array (bs.map write)).toNode.readList read = .ok (bs.map meant) := by
  simp only [toNode, Node.readList]
  induction bs with
  | nil => rfl
  | cons b bs ih =>
      have others := ih fun c member => each c (List.mem_cons_of_mem _ member)
      simp only [List.map_cons, toItems, Items.readAll, each b List.mem_cons_self, others]
      rfl

/-! ## Records -/

section Records

variable {σ : Type} {slots : List (Slot Node ReadError σ)} {seen : List String} {s s' : σ}

theorem store_needed {α : Type} {key : String} {read : Node → Except ReadError α}
    {set : α → σ → σ} {value : Node} {a : α} (found : read value = .ok a) :
    (Slot.needed key read set).store value s = .ok (set a s) := by
  simp only [Slot.needed, found, Except.map]

theorem store_optional {α : Type} {key : String} {read : Node → Except ReadError α}
    {set : α → σ → σ} {value : Node} {a : α} (found : read value = .ok a) :
    (Slot.optional key read set).store value s = .ok (set a s) := by
  simp only [Slot.optional, found, Except.map]

/-- A member with a slot fills it. -/
theorem fill_known {slot : Slot Node ReadError σ} {k : String} {value : Node} {rest : Members}
    (known : slots.find? (·.key == k) = some slot) (fresh : seen.contains k = false)
    (stored : slot.store value s = .ok s') :
    (Members.member (.ok k) value rest).fill slots seen s = rest.fill slots (k :: seen) s' := by
  simp only [Members.fill, ofScan, bind, Except.bind, known, fresh, stored, Bool.false_eq_true,
    ↓reduceIte]

/-- A member without a slot is passed. -/
theorem fill_unknown {k : String} {value : Node} {rest : Members}
    (unknown : slots.find? (·.key == k) = none) (passed : value.pass = .ok ()) :
    (Members.member (.ok k) value rest).fill slots seen s = rest.fill slots seen s := by
  simp only [Members.fill, ofScan, bind, Except.bind, unknown, passed]

/-- A record is complete once no slot that has to be filled is missing. -/
theorem fill_close (complete : firstMissing slots seen = none) :
    Members.close.fill slots seen s = .ok s := by
  simp only [Members.fill, complete]

end Records

/-- What was read can be compared, though the reasons why nothing was read cannot. -/
theorem eq_ok_of_toOption {ε α : Type} {result : Except ε α} {a : α}
    (read : result.toOption = some a) : result = .ok a := by
  cases result with
  | error e => cases read
  | ok b => exact congrArg Except.ok (Option.some.inj read)

end SchemaPress.Json
