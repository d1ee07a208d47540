import Mathlib.Logic.Relation
import SchemaPress.Proofs.Json.Reader
import SchemaPress.Proofs.Json.Thorough
import SchemaPress.Proofs.Schema.Places

/-!
# A schema is read in any order

A variation of a value is read alike at its place (`Variation.kept`), by induction on the
variation: one case for each of its constructors, and in it one for each place. So any number of
variations of an accepted schema is accepted with the same result.

Putting the members of an object in another order is always a variation, wherever the object stands
in an accepted text (`Rearranged.variation`): the places that the variations know reach every value
in it. And since an accepted text has no faults, it is one of the grammar. Together this says what
may be changed in a text without changing the schema that is read from it
(`Schema.ofJsonText_variation`).
-/

set_option autoImplicit false

namespace SchemaPress

open Json

/-! ## A variation is read alike -/

namespace Place

variable {place inner : Place} {level : Nat}

/-- A value that nothing can be added to has no order to change. -/
theorem eq_of_perm_of_slim {ms ms' : List (Quoted × Written)} (perm : ms.Perm ms')
    (slim : (Written.object ms).Slim) : Written.object ms' = .object ms := by
  rw [Written.Slim] at slim
  rcases ms with _ | ⟨m, _ | ⟨m', ms⟩⟩
  · rw [List.nil_perm.mp perm]
  · rw [List.singleton_perm.mp perm]
  · exact absurd slim.1 (by simp)

theorem kept_permuted {ms ms' : List (Quoted × Written)} (perm : ms.Perm ms') :
    place.Kept level (.object ms) (.object ms') := by
  cases place with
  | schema => exact fun _ => readsTable_schema.permute perm
  | declarations => exact fun _ read => absurd read Written.readList_object_ne_ok
  | declaration => exact Declaration.keeps_permuted perm
  | declared kind => exact fun _ => Declaration.keeps_permuted perm
  | fields => exact fun _ read => absurd read Written.readList_object_ne_ok
  | field => exact (readsTable_field (level + 1)).permute perm
  | cases => exact Cases.keeps_permuted perm
  | casesOf form => exact fun _ => Cases.keeps_permuted perm
  | caseList form => exact fun _ read => absurd read Cases.readContent_object_ne_ok
  | caseOf form =>
      cases form with
      | raw => exact (readsTable_rawCase (level + 1)).permute perm
      | union => exact (readsTable_unionCase (level + 1)).permute perm
  | closed => exact eq_of_perm_of_slim perm
  | ignored => trivial

theorem kept_extended {q : Quoted} {value : Written} {before after : List (Quoted × Written)}
    (admits : place.Admits q value) (shallow : level + 1 + value.depth ≤ maxDepth) :
    place.Kept level (.object (before ++ after)) (.object (before ++ (q, value) :: after)) := by
  cases place with
  | ignored => trivial
  | schema =>
      obtain ⟨known, k, knows, text, unknown, -⟩ := admits
      cases knows
      exact fun _ => readsTable_schema.add text unknown value before after
  | declared kind =>
      obtain ⟨known, k, knows, text, unknown, valued⟩ := admits
      cases knows
      intro named
      exact Declaration.keeps_extended named text unknown ⟨valued rfl, by omega⟩
  | field =>
      obtain ⟨known, k, knows, text, unknown, -⟩ := admits
      cases knows
      exact (readsTable_field (level + 1)).add text unknown value before after
  | casesOf form =>
      obtain ⟨known, k, knows, text, unknown, -⟩ := admits
      cases knows
      refine fun _ => Cases.keeps_extended text ?_ ?_
      · rintro rfl
        cases unknown
      · rintro rfl
        cases unknown
  | caseOf form =>
      obtain ⟨known, k, knows, text, unknown, -⟩ := admits
      cases knows
      cases form with
      | raw => exact (readsTable_rawCase (level + 1)).add text unknown value before after
      | union => exact (readsTable_unionCase (level + 1)).add text unknown value before after
  | declarations | declaration | fields | cases | caseList | closed =>
      obtain ⟨known, k, knows, -⟩ := admits
      cases knows

theorem kept_member {q : Quoted} {v v' : Written} {before after : List (Quoted × Written)}
    (leads : place.under q.text? = some inner) (kept : inner.Kept (level + 1) v v')
    (fits : inner.inside = true → Fits (level + 1) v → Fits (level + 1) v') :
    place.Kept level (.object (before ++ (q, v) :: after))
      (.object (before ++ (q, v') :: after)) := by
  cases place with
  | schema =>
      rintro rfl
      exact readsTable_schema.member (kept_of_leads rfl leads kept) before after
  | declared kind =>
      intro named
      exact Declaration.keeps_member named leads kept (fits (inside_under rfl leads))
  | field =>
      exact (readsTable_field (level + 1)).member (kept_of_leads rfl leads kept) before after
  | casesOf form =>
      intro named
      exact Cases.keeps_member named leads kept
  | caseOf form =>
      cases form with
      | raw =>
          exact (readsTable_rawCase (level + 1)).member (kept_of_leads rfl leads kept) before
            after
      | union =>
          exact (readsTable_unionCase (level + 1)).member (kept_of_leads rfl leads kept) before
            after
  | closed =>
      cases leads
      intro slim
      rw [Written.Slim, Written.slimMembers_iff] at slim
      rw [kept (slim.2 (q, v) (List.mem_append_right before List.mem_cons_self))]
  | ignored => trivial
  | declarations | declaration | fields | cases | caseList => cases leads

theorem kept_item {v v' : Written} {before after : List Written}
    (leads : place.item before.length = some inner) (kept : inner.Kept (level + 1) v v')
    (fits : inner.inside = true → Fits (level + 1) v → Fits (level + 1) v') :
    place.Kept level (.array (before ++ v :: after)) (.array (before ++ v' :: after)) := by
  cases place with
  | schema =>
      rintro rfl
      exact readsTable_schema.item (kept_of_position rfl leads kept) after
  | declarations | fields =>
      cases leads
      exact Written.keeps_listItem kept before after
  | declared kind =>
      intro named
      exact Declaration.keeps_item named leads kept (fits (inside_item rfl leads))
  | field => exact (readsTable_field (level + 1)).item (kept_of_position rfl leads kept) after
  | casesOf form =>
      intro named
      exact Cases.keeps_item named leads kept
  | caseList form =>
      cases leads
      cases form with
      | raw => exact keeps_map (Written.keeps_listItem kept before after) Cases.raw
      | union => exact keeps_map (Written.keeps_listItem kept before after) Cases.union
  | caseOf form =>
      cases form with
      | raw => exact (readsTable_rawCase (level + 1)).item (kept_of_position rfl leads kept) after
      | union =>
          exact (readsTable_unionCase (level + 1)).item (kept_of_position rfl leads kept) after
  | closed =>
      cases leads
      intro slim
      rw [Written.Slim, Written.slimItems_iff] at slim
      rw [kept (slim v (List.mem_append_right before List.mem_cons_self))]
  | ignored => trivial
  | declaration | cases => cases leads

end Place

/-- **A variation is read alike.** -/
theorem Variation.kept {place : Place} {level : Nat} {v v' : Written}
    (varies : Variation place level v v') : place.Kept level v v' := by
  induction varies with
  | permute perm => exact Place.kept_permuted perm
  | add before after admits shallow => exact Place.kept_extended admits shallow
  | member before after leads varies ih => exact Place.kept_member leads ih varies.fits
  | item before after leads varies ih => exact Place.kept_item leads ih varies.fits
  | kind named varies ih => exact ih named
  | form named varies ih => exact ih named

/-! ## Every rearrangement is a variation -/

/-- The members of one object in another order, anywhere in a value. -/
inductive Json.Rearranged : Written → Written → Prop where
  | permute {ms ms' : List (Quoted × Written)} (perm : ms.Perm ms') :
      Rearranged (.object ms) (.object ms')
  | member {q : Quoted} {v v' : Written} (before after : List (Quoted × Written))
      (inner : Rearranged v v') :
      Rearranged (.object (before ++ (q, v) :: after)) (.object (before ++ (q, v') :: after))
  | item {v v' : Written} (before after : List Written) (inner : Rearranged v v') :
      Rearranged (.array (before ++ v :: after)) (.array (before ++ v' :: after))

namespace Place

variable {place : Place} {level : Nat} {v : Written}

theorem accepts_lookup {known : List (String × Place)} {k : String} {b : Bool}
    (accepts : ∀ inner, known.lookup k = some inner → inner.Accepts level v) :
    ((known.lookup k).getD (.ignored b)).Accepts level v := by
  cases found : known.lookup k with
  | none => trivial
  | some inner => exact accepts inner found

theorem exists_under_of_lookup {known : List (String × Place)} {q : Quoted}
    (knows : place.known = some known)
    (members : ∃ k, q.text? = some k ∧
      ∀ inner, known.lookup k = some inner → inner.Accepts level v) :
    ∃ inner, place.under q.text? = some inner ∧ inner.Accepts level v := by
  obtain ⟨k, text, accepts⟩ := members
  rw [text]
  exact ⟨_, under_of_known knows k, accepts_lookup accepts⟩

theorem exists_item_of_position {known : List (String × Place)} {i : Nat}
    (knows : place.known = some known) (items : ∃ entry, known[i]? = some entry ∧
      entry.2.Accepts level v) : ∃ inner, place.item i = some inner ∧ inner.Accepts level v := by
  obtain ⟨entry, position, accepts⟩ := items
  exact ⟨entry.2, item_of_known knows position, accepts⟩

/-- The values in an accepted object stand at places where they are accepted, once the kind of a
declaration and the form of cases are known. -/
theorem exists_under {q : Quoted} {before after : List (Quoted × Written)}
    (accepts : place.Accepts level (.object (before ++ (q, v) :: after)))
    (notDeclaration : place ≠ .declaration) (notCases : place ≠ .cases) :
    ∃ inner, place.under q.text? = some inner ∧ inner.Accepts (level + 1) v := by
  cases place with
  | schema =>
      obtain ⟨rfl, s, read⟩ := accepts
      exact exists_under_of_lookup rfl (readsTable_schema.member_accepts read)
  | declared kind =>
      obtain ⟨named, d, read⟩ := accepts
      exact exists_under_of_lookup rfl (Declaration.member_accepts named read)
  | field =>
      obtain ⟨f, read⟩ := accepts
      exact exists_under_of_lookup rfl ((readsTable_field (level + 1)).member_accepts read)
  | casesOf form =>
      obtain ⟨named, cs, read⟩ := accepts
      exact exists_under_of_lookup rfl (Cases.member_accepts named read)
  | caseOf form =>
      cases form with
      | raw =>
          obtain ⟨c, read⟩ := accepts
          exact exists_under_of_lookup rfl ((readsTable_rawCase (level + 1)).member_accepts read)
      | union =>
          obtain ⟨c, read⟩ := accepts
          exact exists_under_of_lookup rfl ((readsTable_unionCase (level + 1)).member_accepts read)
  | closed =>
      rw [Accepts, Written.Slim, Written.slimMembers_iff] at accepts
      exact ⟨_, rfl, accepts.2 (q, v) (List.mem_append_right before List.mem_cons_self)⟩
  | ignored => exact ⟨_, rfl, trivial⟩
  | declarations | fields =>
      obtain ⟨as, read⟩ := accepts
      exact absurd read Written.readList_object_ne_ok
  | caseList form =>
      obtain ⟨cs, read⟩ := accepts
      exact absurd read Cases.readContent_object_ne_ok
  | declaration => exact absurd rfl notDeclaration
  | cases => exact absurd rfl notCases

theorem exists_item {before after : List Written}
    (accepts : place.Accepts level (.array (before ++ v :: after)))
    (notDeclaration : place ≠ .declaration) (notCases : place ≠ .cases) :
    ∃ inner, place.item before.length = some inner ∧ inner.Accepts (level + 1) v := by
  cases place with
  | schema =>
      obtain ⟨rfl, s, read⟩ := accepts
      exact exists_item_of_position rfl (readsTable_schema.item_accepts read)
  | declared kind =>
      obtain ⟨named, d, read⟩ := accepts
      exact exists_item_of_position rfl (Declaration.item_accepts named read)
  | field =>
      obtain ⟨f, read⟩ := accepts
      exact exists_item_of_position rfl ((readsTable_field (level + 1)).item_accepts read)
  | casesOf form =>
      obtain ⟨named, cs, read⟩ := accepts
      exact exists_item_of_position rfl (Cases.item_accepts named read)
  | caseOf form =>
      cases form with
      | raw =>
          obtain ⟨c, read⟩ := accepts
          exact exists_item_of_position rfl ((readsTable_rawCase (level + 1)).item_accepts read)
      | union =>
          obtain ⟨c, read⟩ := accepts
          exact exists_item_of_position rfl ((readsTable_unionCase (level + 1)).item_accepts read)
  | closed =>
      rw [Accepts, Written.Slim, Written.slimItems_iff] at accepts
      exact ⟨_, rfl, accepts v (List.mem_append_right before List.mem_cons_self)⟩
  | ignored => exact ⟨_, rfl, trivial⟩
  | declarations | fields =>
      obtain ⟨as, read⟩ := accepts
      obtain ⟨a, read⟩ := Written.exists_of_readList read
      exact ⟨_, rfl, a, read⟩
  | caseList form =>
      obtain ⟨cs, read⟩ := accepts
      refine ⟨_, rfl, ?_⟩
      cases form with
      | raw | union =>
          simp only [Cases.readContent, map_eq_ok_iff] at read
          obtain ⟨as, read, -⟩ := read
          exact Written.exists_of_readList read
  | declaration => exact absurd rfl notDeclaration
  | cases => exact absurd rfl notCases

end Place

/-- It is enough to vary a declaration of a known kind, and cases of a known form. -/
theorem Variation.of_known {place : Place} {level : Nat} {v v' : Written}
    (accepts : place.Accepts level v)
    (known : ∀ place : Place, place.Accepts level v → place ≠ .declaration → place ≠ .cases →
      Variation place level v v') : Variation place level v v' := by
  by_cases isDeclaration : place = .declaration
  · subst isDeclaration
    obtain ⟨d, read⟩ := accepts
    obtain ⟨kind, named⟩ := Declaration.exists_namedIn read
    exact .kind named (known (.declared kind) ⟨named, d, read⟩ nofun nofun)
  · by_cases isCases : place = .cases
    · subst isCases
      obtain ⟨cs, read⟩ := accepts
      obtain ⟨form, named⟩ := Cases.exists_namedIn read
      exact .form named (known (.casesOf form) ⟨named, cs, read⟩ nofun nofun)
    · exact known place accepts isDeclaration isCases

/-- **Every rearrangement of an accepted value is a variation.** -/
theorem Json.Rearranged.variation {v v' : Written} (rearranged : Rearranged v v') :
    ∀ {place : Place} {level : Nat}, place.Accepts level v → Variation place level v v' := by
  induction rearranged with
  | permute perm => exact fun _ => .permute perm
  | member before after _ ih =>
      refine fun accepts => .of_known accepts fun place accepts notDeclaration notCases => ?_
      obtain ⟨inner, leads, accepts⟩ := place.exists_under accepts notDeclaration notCases
      exact .member before after leads (ih accepts)
  | item before after _ ih =>
      refine fun accepts => .of_known accepts fun place accepts notDeclaration notCases => ?_
      obtain ⟨inner, leads, accepts⟩ := place.exists_item accepts notDeclaration notCases
      exact .item before after leads (ih accepts)

/-! ## An accepted text is one of the grammar -/

namespace Declaration

/-- All members of a declaration are seen when its kind is looked for. -/
theorem members_faultless_of_findKind {room : Nat} {kind : Kind} :
    ∀ (members : Members) (known : Option Kind), findKind room known members = .ok kind →
      members.Faultless
  | .close, _, _ => by
      rw [Members.Faultless]
      trivial
  | .broken f, none, found => by cases found
  | .broken f, some _, found => by cases found
  | .member key value rest, known, found => by
      rw [findKind, bind_eq_ok_iff] at found
      obtain ⟨k, -, found⟩ := found
      rw [Members.Faultless]
      split_ifs at found
      · obtain ⟨kind', named, found⟩ := bind_eq_ok_iff.mp found
        exact ⟨thorough_readName kinds value kind' named,
          members_faultless_of_findKind rest (some kind') found⟩
      · obtain ⟨_, settled, found⟩ := bind_eq_ok_iff.mp found
        exact ⟨faultless_of_settle value room settled,
          members_faultless_of_findKind rest known found⟩

theorem thorough_readWithin (room : Nat) : Thorough (readWithin room) := by
  intro n d read
  cases room with
  | zero =>
      cases n with
      | array | object => cases read
      | null | bool | number | string | missing => exact absurd read (unlike_ne_ok _ _ _)
  | succ room =>
      cases n with
      | object members =>
          rw [readWithin, bind_eq_ok_iff] at read
          obtain ⟨kind, found, -⟩ := read
          rw [Node.Faultless]
          exact members_faultless_of_findKind members none found
      | array items =>
          rw [Node.Faultless]
          cases items with
          | close | broken => cases read
          | item value rest =>
              rw [readWithin, bind_eq_ok_iff] at read
              obtain ⟨kind, named, read⟩ := read
              obtain ⟨_, settled, -⟩ := bind_eq_ok_iff.mp read
              rw [Items.Faultless]
              exact ⟨thorough_readName kinds value kind named,
                items_faultless_of_settle rest room settled⟩
      | null | bool | number | string | missing => exact absurd read (unlike_ne_ok _ _ _)

end Declaration

namespace Schema

theorem thorough_read : Thorough read := by
  refine thorough_readRecord ?_
  simp only [List.forall_mem_cons, List.not_mem_nil, false_implies, implies_true, and_true]
  exact ⟨fun _ => thorough_readString.map _, fun _ => (thorough_readString.readList.map _).map _,
    fun _ => (Declaration.thorough_readWithin _).readList.map _⟩

/-- A schema is read from the value that a text spells. -/
theorem ofJsonText_eq_read {v : Written} {text : String} (spelled : v.SpellsText text) :
    ofJsonText text = read v.toNode := by
  rw [ofJsonText, Written.ofText_eq spelled, Document.read]
  cases read v.toNode with
  | error e => rfl
  | ok s => rfl

/-- Every accepted text spells a value. -/
theorem exists_spellsText_of_ofJsonText {text : String} {s : Schema}
    (accepted : ofJsonText text = .ok s) : ∃ v : Written, v.SpellsText text := by
  rw [ofJsonText, Document.read, bind_eq_ok_iff] at accepted
  obtain ⟨s', read, ends⟩ := accepted
  split_ifs at ends with trailing
  exact Json.exists_spellsText (thorough_read _ s' read) (Bool.eq_false_iff.mpr trailing)

/-- **Any number of variations is read alike.** -/
theorem keeps_variations {v v' : Written}
    (varies : Relation.ReflTransGen (Variation .schema 0) v v') : Keeps read v v' := by
  induction varies with
  | refl => exact fun _ accepted => accepted
  | tail _ step ih => exact fun s accepted => step.kept rfl s (ih s accepted)

/-- Rearrangements of an accepted value are variations, one after the other. -/
theorem variations_of_rearranged {v v' : Written} {s : Schema} (accepted : read v.toNode = .ok s)
    (rearranged : Relation.ReflTransGen Rearranged v v') :
    Relation.ReflTransGen (Variation .schema 0) v v' := by
  induction rearranged with
  | refl => exact .refl
  | tail _ step ih => exact ih.tail (step.variation ⟨rfl, s, keeps_variations ih s accepted⟩)

/-- **A schema is read alike from every variation of its text.** An accepted text spells a value of
the grammar, to put the members of its objects in another order is to vary the value, and every text
of a varied value is accepted with the same result. -/
theorem ofJsonText_variation {text : String} {s : Schema} (accepted : ofJsonText text = .ok s) :
    (∃ v : Written, v.SpellsText text) ∧ ∀ v : Written, v.SpellsText text →
      (∀ v', Relation.ReflTransGen Rearranged v v' →
        Relation.ReflTransGen (Variation .schema 0) v v') ∧
      ∀ v' text', Relation.ReflTransGen (Variation .schema 0) v v' → v'.SpellsText text' →
        ofJsonText text' = .ok s := by
  refine ⟨exists_spellsText_of_ofJsonText accepted, fun v spelled => ?_⟩
  rw [ofJsonText_eq_read spelled] at accepted
  refine ⟨fun v' => variations_of_rearranged accepted, fun v' text' varies spelled' => ?_⟩
  rw [ofJsonText_eq_read spelled']
  exact keeps_variations varies s accepted

/-! ## A varied text -/

namespace Sample

/-- A member with a text as its key. -/
def entry (key : String) (v : Written) : Quoted × Written :=
  (.ofText key, v)

/-- A text. -/
def word (s : String) : Written :=
  .string (.ofText s)

/-- A schema with one declaration. -/
def declaring (members : List (Quoted × Written)) : Written :=
  .object [entry "name" (word "m"), entry "declarations" (.array [.object members])]

def kind : Quoted × Written := entry "kind" (word "enum")

def name : Quoted × Written := entry "name" (word "E")

def form : Quoted × Written := entry "form" (word "raw_value")

/-- A list of one case. -/
def oneCase : Written := .array [.object [entry "name" (word "A")]]

/-- The same with a note to the case. -/
def notedCase : Written :=
  .array [.object [entry "note" (.array [.null]), entry "name" (word "A")]]

/-- Everything in its usual place. -/
def usual : Written :=
  declaring [kind, name, entry "enum" (.object [form, entry "cases" oneCase])]

/-- The kind behind the cases, the form behind the list, and a note to the case. -/
def varied : Written :=
  declaring [name, entry "enum" (.object [entry "cases" notedCase, form]), kind]

theorem vary_declaration {ms ms' : List (Quoted × Written)}
    (varies : Variation .declaration 2 (.object ms) (.object ms')) :
    Variation .schema 0 (declaring ms) (declaring ms') := by
  have listed : Variation .declarations 1 (.array [.object ms]) (.array [.object ms']) :=
    .item [] [] rfl varies
  refine .member [entry "name" (word "m")] [] ?_ listed
  rw [Quoted.text?_ofText]
  rfl

theorem vary_cases {v v' : Written} (varies : Variation .cases 3 v v') :
    Variation .schema 0 (declaring [kind, name, entry "enum" v])
      (declaring [kind, name, entry "enum" v']) := by
  have named : Declaration.Kind.enumeration.NamedIn (.object [kind, name, entry "enum" v]) :=
    ⟨kind, List.mem_cons_self, Quoted.text?_ofText "kind", "enum",
      ⟨_, rfl, Quoted.text?_ofText "enum"⟩, rfl⟩
  refine vary_declaration (.kind named (.member [kind, name] [] ?_ varies))
  rw [Quoted.text?_ofText]
  rfl

theorem vary_case : Variation .cases 3 (.object [form, entry "cases" oneCase])
    (.object [form, entry "cases" notedCase]) := by
  have formed : Cases.Form.raw.NamedIn (.object [form, entry "cases" oneCase]) :=
    ⟨form, List.mem_cons_self, Quoted.text?_ofText "form", "raw_value",
      .inl ⟨_, rfl, Quoted.text?_ofText "raw_value"⟩, rfl⟩
  have valued : (Written.array [.null]).Valued := by
    simp [Written.Valued, Written.ItemsValued]
  have admits : (Place.caseOf .raw).Admits (.ofText "note") (.array [.null]) :=
    ⟨_, "note", rfl, Quoted.text?_ofText "note", rfl, fun _ => valued⟩
  have shallow : 5 + 1 + (Written.array [.null]).depth ≤ maxDepth := by
    simp [Written.depth, Written.depthOfItems, maxDepth]
  have listed : Variation (.caseList .raw) 4 oneCase notedCase :=
    .item [] [] rfl (.add [] [entry "name" (word "A")] admits shallow)
  refine .form formed (.member [form] [] ?_ listed)
  rw [Quoted.text?_ofText]
  rfl

/-- First the note is added, then form and list change places, and then the kind moves. -/
theorem variations : Relation.ReflTransGen (Variation .schema 0) usual varied :=
  .tail (.tail (.single (vary_cases vary_case)) (vary_cases (.permute (.swap _ _ []))))
    (vary_declaration (.permute (List.perm_append_singleton kind [name, _]).symm))

def usualText : String :=
  "\x7b\"name\":\"m\",\"declarations\":[\x7b\"kind\":\"enum\",\"name\":\"E\",\"enum\":"
    ++ "\x7b\"form\":\"raw_value\",\"cases\":[\x7b\"name\":\"A\"\x7d]\x7d\x7d]\x7d"

def variedText : String :=
  "\x7b\"name\":\"m\",\"declarations\":[\x7b\"name\":\"E\",\"enum\":"
    ++ "\x7b\"cases\":[\x7b\"note\":[null],\"name\":\"A\"\x7d],\"form\":\"raw_value\"\x7d,"
    ++ "\"kind\":\"enum\"\x7d]\x7d"

theorem usual_spells : usual.SpellsText usualText := by
  have chars : String.ofList usual.chars = usualText := by decide +kernel
  rw [← chars]
  exact usual.spellsText_chars

theorem varied_spells : varied.SpellsText variedText := by
  have chars : String.ofList varied.chars = variedText := by decide +kernel
  rw [← chars]
  exact varied.spellsText_chars

end Sample

theorem ofJsonText_variation_lateKind :
    ∃ s, ofJsonText Sample.usualText = .ok s ∧ ofJsonText Sample.variedText = .ok s := by
  have accepted : ofJsonText Sample.usualText =
      .ok ⟨"m", {}, [.enumeration ⟨"E", .raw [⟨"A", none, {}⟩], {}⟩]⟩ :=
    eq_ok_of_toOption (by decide +kernel)
  have alike := ((ofJsonText_variation accepted).2 _ Sample.usual_spells).2
  exact ⟨_, accepted, alike _ _ Sample.variations Sample.varied_spells⟩

/-! ## Members that may not be added -/

namespace Sample

/-- The text of an enumeration without cases. -/
def enumText (form : String) : String :=
  "\x7b\"name\":\"m\",\"declarations\":[\x7b\"kind\":\"enum\",\"name\":\"E\",\"enum\":\x7b\"form\":"
    ++ form ++ ",\"cases\":[]\x7d\x7d]\x7d"

/-- The text of an alias, with more members behind its target. -/
def aliasText (more : String) : String :=
  "\x7b\"name\":\"m\",\"declarations\":[\x7b\"kind\":\"alias\",\"name\":\"A\","
    ++ "\"target\":\x7b\"primitive\":\"x\"\x7d" ++ more ++ "\x7d]\x7d"

end Sample

/-- An object that stands for the name of a form takes no other member, and a number in a
declaration has to have a value. -/
theorem ofJsonText_refuses_member :
    (ofJsonText (Sample.enumText "\x7b\"raw_value\":null\x7d")).toOption.isSome = true ∧
    (ofJsonText (Sample.enumText "\x7b\"raw_value\":null,\"x\":1\x7d")).toOption.isSome = false ∧
    (ofJsonText (Sample.aliasText "")).toOption.isSome = true ∧
    (ofJsonText (Sample.aliasText ",\"u\":1e999")).toOption.isSome = false := by
  decide +kernel

end Schema

end SchemaPress
