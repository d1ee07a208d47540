import Mathlib.Data.List.Nodup
import SchemaPress.Proofs.Json.Plain
import SchemaPress.Proofs.Json.Reader

/-!
# Records whose members may be left out

A record of options is written with a member for each option, and is read from as many of these
members as there are. What is read starts from the defaults, and each member that is there sets its
own option. A setting says this of one option: the slot that reads it, the value that is written for
it, and what it does to a record depending on whether its member is left out.

A record can be an option of another record, and then members can be left out of both. If the keys
of the settings are distinct, the record is read from any of its members, and the
settings take effect one after the other (`Setting.readRecord_eq`).
-/

set_option autoImplicit false

namespace SchemaPress.Json

/-- How values of a type are written and read. -/
structure Codec (α : Type) where
  read : Node → Except ReadError α
  write : α → Json
  reads_back : ∀ a, read (write a).toNode = .ok a
  plain : ∀ a, Plain (write a)

/-- An object without the members of certain keys. -/
def without (gone : String → Bool) : Json → Json
  | .object members => .object (members.filter fun m => !gone m.1)
  | j => j

theorem without_nothing (j : Json) : j.without (fun _ => false) = j := by
  cases j with
  | object members => simp [without]
  | null | bool | integer | string | array => rfl

/-- How records of a type are written, and read if members are left out. -/
structure SparseCodec (σ : Type) where
  read : Node → Except ReadError σ
  write : σ → Json
  /-- The record with the options of certain keys at their defaults. -/
  reset : (String → Bool) → σ → σ
  reads_back : ∀ gone s, read ((write s).without gone).toNode = .ok (reset gone s)
  plain : ∀ gone s, Plain ((write s).without gone)

/-- An option of a record: the slot that reads it, the value that is written for it, and the record
after the option, given whether its member is left out. -/
structure Setting (σ : Type) where
  slot : Slot Node ReadError σ
  value : Json
  put : Bool → σ → σ
  optional : slot.required = false
  kept : ∀ s, slot.store value.toNode s = .ok (put false s)
  gone : ∀ s, put true s = s
  plain : Plain value

namespace Setting

variable {σ α : Type}

/-- The setting of a field of a record, which is read as `meant` from its member. -/
def field (key : String) (read : Node → Except ReadError α) (get : σ → α) (set : α → σ → σ)
    (value : Json) (meant : α) (found : read value.toNode = .ok meant) (plain : Plain value)
    (same : ∀ s, set (get s) s = s) : Setting σ where
  slot := .optional key read set
  value := value
  put gone s := set (if gone then get s else meant) s
  optional := rfl
  kept _ := store_optional found
  gone := same
  plain := plain

/-- The setting of a field of `s` that is written and read as it is. -/
def ofCodec (key : String) (codec : Codec α) (get : σ → α) (set : α → σ → σ) (s : σ)
    (same : ∀ s, set (get s) s = s := by exact fun _ => rfl) : Setting σ :=
  field key codec.read get set (codec.write (get s)) (get s) (codec.reads_back (get s))
    (codec.plain (get s)) same

/-- The setting of a field of `s` that is a record itself, in which members are left out. -/
def ofSparse (key : String) (codec : SparseCodec α) (inner : String → Bool) (get : σ → α)
    (set : α → σ → σ) (s : σ) (same : ∀ s, set (get s) s = s := by exact fun _ => rfl) :
    Setting σ :=
  field key codec.read get set ((codec.write (get s)).without inner) (codec.reset inner (get s))
    (codec.reads_back inner (get s)) (codec.plain inner (get s)) same

/-- The key of a setting. -/
def key (setting : Setting σ) : String :=
  setting.slot.key

/-- The member of a setting. -/
def member (setting : Setting σ) : String × Json :=
  (setting.key, setting.value)

/-- The members of settings, without those that are left out. -/
def members (settings : List (Setting σ)) (gone : String → Bool) : List (String × Json) :=
  (settings.map member).filter fun m => !gone m.1

/-- A record after its settings. -/
def putAll (settings : List (Setting σ)) (gone : String → Bool) (s : σ) : σ :=
  settings.foldl (fun s setting => setting.put (gone setting.key) s) s

theorem members_cons (setting : Setting σ) (settings : List (Setting σ)) (gone : String → Bool) :
    members (setting :: settings) gone =
      if gone setting.key then members settings gone
      else (setting.key, setting.value) :: members settings gone := by
  unfold members
  rw [List.map_cons, List.filter_cons]
  cases left : gone setting.key <;> simp [member, left]

theorem plain_members (settings : List (Setting σ)) (gone : String → Bool) :
    Plain (.object (members settings gone)) := by
  refine .object fun m listed => ?_
  obtain ⟨setting, -, rfl⟩ := List.mem_map.mp (List.mem_of_mem_filter listed)
  exact setting.plain

/-- No member has to be there. -/
theorem firstMissing_eq_none (settings : List (Setting σ)) (seen : List String) :
    firstMissing (settings.map slot) seen = none := by
  rw [firstMissing, Option.map_eq_none_iff, List.find?_eq_none, List.forall_mem_map]
  intro setting _
  simp [setting.optional]

/-- Among settings with distinct keys, a setting is found by its key. -/
theorem find?_slot {settings : List (Setting σ)} (distinct : (settings.map key).Nodup)
    {setting : Setting σ} (listed : setting ∈ settings) :
    (settings.map slot).find? (·.key == setting.key) = some setting.slot := by
  induction settings with
  | nil => exact absurd listed List.not_mem_nil
  | cons first settings ih =>
      rw [List.map_cons, List.nodup_cons] at distinct
      rcases List.mem_cons.mp listed with rfl | later
      · simp [key]
      · have different : first.slot.key ≠ setting.key := by
          intro same
          exact distinct.1 (List.mem_map.mpr ⟨setting, later, same.symm⟩)
        rw [List.map_cons, List.find?_cons_of_neg (by simpa using different)]
        exact ih distinct.2 later

/-- The settings that are not yet read take effect, whatever has been read before them. -/
theorem fill_members {settings : List (Setting σ)} (distinct : (settings.map key).Nodup)
    (gone : String → Bool) {rest : List (Setting σ)} {seen : List String} {s : σ}
    (known : ∀ setting ∈ rest, setting ∈ settings) (apart : (rest.map key).Nodup)
    (fresh : ∀ setting ∈ rest, setting.key ∉ seen) :
    (toMembers (members rest gone)).fill (settings.map slot) seen s =
      .ok (putAll rest gone s) := by
  induction rest generalizing seen s with
  | nil =>
      rw [members, List.map_nil, List.filter_nil, toMembers]
      exact fill_close (firstMissing_eq_none settings seen)
  | cons setting rest ih =>
      rw [List.forall_mem_cons] at known fresh
      rw [List.map_cons, List.nodup_cons] at apart
      rw [members_cons, putAll, List.foldl_cons, ← putAll]
      cases left : gone setting.key with
      | true =>
          rw [if_pos rfl, setting.gone]
          exact ih known.2 apart.2 fresh.2
      | false =>
          have later : ∀ other ∈ rest, other.key ∉ setting.key :: seen := by
            intro other listed inside
            rcases List.mem_cons.mp inside with same | before
            · exact apart.1 (List.mem_map.mpr ⟨other, listed, same⟩)
            · exact fresh.2 other listed before
          rw [if_neg Bool.false_ne_true, toMembers,
            fill_known (find?_slot distinct known.1) (by simpa using fresh.1) (setting.kept s)]
          exact ih known.2 apart.2 later

/-- **A record is read from any of its members.** -/
theorem readRecord_eq (settings : List (Setting σ)) (distinct : (settings.map key).Nodup)
    (name : String) (gone : String → Bool) (s : σ) :
    (Json.object (members settings gone)).toNode.readRecord .streaming name (settings.map slot) s =
      .ok (putAll settings gone s) := by
  rw [toNode_object, Node.readRecord]
  exact fill_members distinct gone (fun _ listed => listed) distinct fun _ _ => List.not_mem_nil

end Setting

end SchemaPress.Json
