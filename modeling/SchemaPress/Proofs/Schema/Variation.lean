import SchemaPress.Proofs.Schema.Accepted

/-!
# Variations of the text of a schema

A value in the text of a schema stands at a place, which says what it is read as. The place decides
which members may be added to an object: none to a text, a type, a doc or the name of a kind or
form, any whose key is not known to other objects. What follows from the place for the values
inside is found by the keys of members and the positions of items, and for a declaration or for
cases only after their kind or form.

`Variation` changes one thing in a value: the order of the members of an object, or a member that is
added to it. Inside a declaration a variation does not get in the way of taking the value in
(`Variation.fits`).
-/

set_option autoImplicit false

namespace SchemaPress

open Json

/-! ## Places -/

/-- What a value in the text of a schema is read as. -/
inductive Place where
  | schema
  | declarations
  /-- A declaration whose kind has not been looked at. -/
  | declaration
  | declared (kind : Declaration.Kind)
  | fields
  | field
  /-- Cases whose form has not been looked at. -/
  | cases
  | casesOf (form : Cases.Form)
  | caseList (form : Cases.Form)
  | caseOf (form : Cases.Form)
  /-- A text, a doc, a type, or the name of a kind or a form. -/
  | closed
  /-- A value that is not looked at, inside or outside of a declaration. -/
  | ignored (declared : Bool)

namespace Place

/-- The members of a declaration beside its kind. -/
def parts : Declaration.Kind → List (String × Place)
  | Declaration.Kind.alias => [("name", .closed), ("target", .closed), ("doc", .closed)]
  | Declaration.Kind.record => [("name", .closed), ("fields", .fields), ("doc", .closed)]
  | Declaration.Kind.enumeration => [("name", .closed), ("enum", .cases), ("doc", .closed)]

/-- The members of a case. -/
def caseParts : Cases.Form → List (String × Place)
  | .raw => [("name", .closed), ("raw_value", .closed), ("doc", .closed)]
  | .union => [("name", .closed), ("payload", .closed), ("doc", .closed)]

/-- The keys that an object knows, with the places of their values; an array may hold the same
values in this order. There are none for a place that members cannot be added to. -/
def known : Place → Option (List (String × Place))
  | .schema => some [("name", .closed), ("doc", .closed), ("declarations", .declarations)]
  | .declared kind => some (("kind", .closed) :: parts kind)
  | .field => some [("name", .closed), ("type", .closed), ("doc", .closed)]
  | .casesOf form => some [("form", .closed), ("cases", .caseList form)]
  | .caseOf form => some (caseParts form)
  | .ignored _ => some []
  | _ => none

/-- Whether the values of a place are taken in as a whole, since they stand in a declaration. -/
def inside : Place → Bool
  | .schema => false
  | .declarations => false
  | .ignored b => b
  | _ => true

/-- The place of the value of a member. -/
def under : Place → Option String → Option Place
  | .closed, _ => some .closed
  | .ignored b, _ => some (.ignored b)
  | place, key => place.known.bind fun known =>
      key.map fun k => (known.lookup k).getD (.ignored place.inside)

/-- The place of an item. -/
def item : Place → Nat → Option Place
  | .declarations, _ => some .declaration
  | .fields, _ => some .field
  | .caseList form, _ => some (.caseOf form)
  | .closed, _ => some .closed
  | .ignored b, _ => some (.ignored b)
  | place, i => place.known.bind fun known => known[i]?.map (·.2)

/-- The members that may be added to an object: those whose key it does not know. In a declaration
all tokens of the member have to have a value, and in the object of the schema its key has to. -/
def Admits (place : Place) (key : Quoted) (value : Written) : Prop :=
  match place with
  | .ignored false => True
  | place => ∃ known k, place.known = some known ∧ key.text? = some k ∧ known.lookup k = none ∧
      (place.inside = true → value.Valued)

end Place

/-- The name of a kind. -/
def Declaration.Kind.NamedBy (kind : Declaration.Kind) (v : Written) : Prop :=
  ∃ name, v.Says name ∧ Declaration.kinds.lookup name = some kind

/-- A declaration names its kind, in a member or in front of its fields. -/
def Declaration.Kind.NamedIn (kind : Declaration.Kind) : Written → Prop
  | .object ms => ∃ m ∈ ms, m.1.text? = some "kind" ∧ kind.NamedBy m.2
  | .array (v :: _) => kind.NamedBy v
  | _ => False

/-- The name of a form, or an object with that name as its only key. -/
def Cases.Form.NamedBy (form : Cases.Form) (v : Written) : Prop :=
  ∃ name, (v.Says name ∨ ∃ q content, v = .object [(q, content)] ∧ q.text? = some name) ∧
    Cases.forms.lookup name = some form

/-- Cases name their form, in a member or in front of the list. -/
def Cases.Form.NamedIn (form : Cases.Form) : Written → Prop
  | .object ms => ∃ m ∈ ms, m.1.text? = some "form" ∧ form.NamedBy m.2
  | .array (v :: _) => form.NamedBy v
  | _ => False

/-- A variation of a value at a place, with a number of arrays and objects around it: the members of
an object in another order, or one member more that the object does not know; anywhere in the
value. -/
inductive Variation : Place → Nat → Written → Written → Prop where
  | permute {place : Place} {level : Nat} {ms ms' : List (Quoted × Written)} (perm : ms.Perm ms') :
      Variation place level (.object ms) (.object ms')
  | add {place : Place} {level : Nat} {key : Quoted} {value : Written}
      (before after : List (Quoted × Written)) (admits : place.Admits key value)
      (shallow : level + 1 + value.depth ≤ maxDepth) :
      Variation place level (.object (before ++ after)) (.object (before ++ (key, value) :: after))
  | member {place inner : Place} {level : Nat} {key : Quoted} {v v' : Written}
      (before after : List (Quoted × Written)) (leads : place.under key.text? = some inner)
      (varies : Variation inner (level + 1) v v') :
      Variation place level (.object (before ++ (key, v) :: after))
        (.object (before ++ (key, v') :: after))
  | item {place inner : Place} {level : Nat} {v v' : Written} (before after : List Written)
      (leads : place.item before.length = some inner) (varies : Variation inner (level + 1) v v') :
      Variation place level (.array (before ++ v :: after)) (.array (before ++ v' :: after))
  | kind {level : Nat} {kind : Declaration.Kind} {v v' : Written} (named : kind.NamedIn v)
      (varies : Variation (.declared kind) level v v') : Variation .declaration level v v'
  | form {level : Nat} {form : Cases.Form} {v v' : Written} (named : form.NamedIn v)
      (varies : Variation (.casesOf form) level v v') : Variation .cases level v v'

/-! ## What is taken in stays so -/

/-- A value that can be taken in with a number of arrays and objects around it. -/
def Fits (level : Nat) (v : Written) : Prop :=
  v.Valued ∧ v.depth ≤ maxDepth - level

theorem settle_eq_ok_iff {level : Nat} {v : Written} :
    v.toNode.settle (maxDepth - level) = .ok () ↔ Fits level v :=
  v.settle_toNode_iff (maxDepth - level)

theorem fits_object {level : Nat} {ms : List (Quoted × Written)} :
    Fits level (.object ms) ↔
      level < maxDepth ∧ ∀ m ∈ ms, (∃ k, m.1.text? = some k) ∧ Fits (level + 1) m.2 := by
  unfold Fits
  rw [Written.Valued, Written.depth, Written.membersValued_iff]
  constructor
  · rintro ⟨valued, shallow⟩
    have each := Written.depthOfMembers_le_iff.mp
      (show Written.depthOfMembers ms ≤ maxDepth - (level + 1) by omega)
    exact ⟨by omega, fun m member => ⟨(valued m member).1, (valued m member).2, each m member⟩⟩
  · rintro ⟨below, each⟩
    have inner : Written.depthOfMembers ms ≤ maxDepth - (level + 1) :=
      Written.depthOfMembers_le_iff.mpr fun m member => (each m member).2.2
    exact ⟨fun m member => ⟨(each m member).1, (each m member).2.1⟩, by omega⟩

theorem fits_array {level : Nat} {vs : List Written} :
    Fits level (.array vs) ↔ level < maxDepth ∧ ∀ v ∈ vs, Fits (level + 1) v := by
  unfold Fits
  rw [Written.Valued, Written.depth, Written.itemsValued_iff]
  constructor
  · rintro ⟨valued, shallow⟩
    have each := Written.depthOfItems_le_iff.mp
      (show Written.depthOfItems vs ≤ maxDepth - (level + 1) by omega)
    exact ⟨by omega, fun v member => ⟨valued v member, each v member⟩⟩
  · rintro ⟨below, each⟩
    have inner : Written.depthOfItems vs ≤ maxDepth - (level + 1) :=
      Written.depthOfItems_le_iff.mpr fun v member => (each v member).2
    exact ⟨fun v member => (each v member).1, by omega⟩

namespace Place

/-- All that a declaration knows stands inside of it. -/
theorem inside_of_known {place : Place} {known : List (String × Place)}
    (inside : place.inside = true) (knows : place.known = some known) :
    ∀ entry ∈ known, entry.2.inside = true := by
  cases place with
  | schema => cases inside
  | declarations | declaration | fields | cases | caseList | closed => cases knows
  | field | casesOf | ignored =>
      cases knows
      simp [Place.inside]
  | declared kind =>
      cases knows
      rcases kind with _ | _ | _
      all_goals simp [parts, Place.inside]
  | caseOf form =>
      cases knows
      cases form with
      | raw | union => simp [caseParts, Place.inside]

theorem mem_of_lookup {key : String} {known : List (String × Place)} {place : Place}
    (found : known.lookup key = some place) : (key, place) ∈ known := by
  induction known with
  | nil => cases found
  | cons entry known ih =>
      obtain ⟨k, inner⟩ := entry
      rw [List.lookup_cons] at found
      cases same : key == k with
      | true =>
          rw [same] at found
          cases found
          rw [beq_iff_eq.mp same]
          exact List.mem_cons_self
      | false =>
          rw [same] at found
          exact List.mem_cons_of_mem _ (ih found)

/-- Where an object knows its keys, they lead to the places in its table. -/
theorem under_of_known {place : Place} {known : List (String × Place)}
    (knows : place.known = some known) (k : String) :
    place.under (some k) = some ((known.lookup k).getD (.ignored place.inside)) := by
  cases place with
  | closed => cases knows
  | ignored =>
      cases knows
      rfl
  | schema | declarations | declaration | declared | fields | field | cases | casesOf | caseList
    | caseOf => simp [under, knows]

theorem item_of_known {place : Place} {known : List (String × Place)} {i : Nat}
    {entry : String × Place} (knows : place.known = some known)
    (position : known[i]? = some entry) : place.item i = some entry.2 := by
  cases place with
  | ignored =>
      cases knows
      cases position
  | closed | declarations | fields | caseList => cases knows
  | schema | declaration | declared | field | cases | casesOf | caseOf =>
      simp [item, knows, position]

theorem inside_under {place inner : Place} {key : Option String} (inside : place.inside = true)
    (leads : place.under key = some inner) : inner.inside = true := by
  unfold under at leads
  split at leads
  · cases leads
    rfl
  · cases leads
    exact inside
  · obtain ⟨known, knows, leads⟩ := Option.bind_eq_some_iff.mp leads
    obtain ⟨k, -, rfl⟩ := Option.map_eq_some_iff.mp leads
    cases found : known.lookup k with
    | none => exact inside
    | some inner => exact inside_of_known inside knows _ (mem_of_lookup found)

theorem inside_item {place inner : Place} {i : Nat} (inside : place.inside = true)
    (leads : place.item i = some inner) : inner.inside = true := by
  unfold item at leads
  split at leads
  · cases inside
  · cases leads
    rfl
  · cases leads
    rfl
  · cases leads
    rfl
  · cases leads
    exact inside
  · obtain ⟨known, knows, leads⟩ := Option.bind_eq_some_iff.mp leads
    obtain ⟨entry, found, rfl⟩ := Option.map_eq_some_iff.mp leads
    exact inside_of_known inside knows entry (List.mem_of_getElem? found)

/-- A member that is added inside a declaration can be taken in. -/
theorem Admits.valued {place : Place} {key : Quoted} {value : Written}
    (admits : place.Admits key value) (inside : place.inside = true) :
    (∃ k, key.text? = some k) ∧ value.Valued := by
  unfold Admits at admits
  split at admits
  · cases inside
  · obtain ⟨known, k, -, text, -, valued⟩ := admits
    exact ⟨⟨k, text⟩, valued inside⟩

end Place

/-- **What a declaration takes in stays so.** -/
theorem Variation.fits {place : Place} {level : Nat} {v v' : Written}
    (varies : Variation place level v v') (inside : place.inside = true) (fits : Fits level v) :
    Fits level v' := by
  induction varies with
  | permute perm =>
      rw [fits_object] at fits ⊢
      exact ⟨fits.1, fun m member => fits.2 m (perm.mem_iff.mpr member)⟩
  | @add place level key value before after admits shallow =>
      rw [fits_object] at fits ⊢
      refine ⟨fits.1, ?_⟩
      simp only [List.forall_mem_append, List.forall_mem_cons] at fits ⊢
      obtain ⟨below, outer, rest⟩ := fits
      obtain ⟨taken, valued⟩ := admits.valued inside
      exact ⟨outer, ⟨taken, valued, by omega⟩, rest⟩
  | member before after leads varies ih =>
      rw [fits_object] at fits ⊢
      refine ⟨fits.1, ?_⟩
      simp only [List.forall_mem_append, List.forall_mem_cons] at fits ⊢
      obtain ⟨below, outer, ⟨taken, inner⟩, rest⟩ := fits
      exact ⟨outer, ⟨taken, ih (Place.inside_under inside leads) inner⟩, rest⟩
  | item before after leads varies ih =>
      rw [fits_array] at fits ⊢
      refine ⟨fits.1, ?_⟩
      simp only [List.forall_mem_append, List.forall_mem_cons] at fits ⊢
      obtain ⟨below, outer, inner, rest⟩ := fits
      exact ⟨outer, ih (Place.inside_item inside leads) inner, rest⟩
  | kind named varies ih => exact ih rfl fits
  | form named varies ih => exact ih rfl fits

end SchemaPress
