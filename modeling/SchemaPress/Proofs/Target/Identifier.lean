import Mathlib.Data.List.Nodup
import SchemaPress.Proofs.Schema.Soundness
import SchemaPress.Target.Backend

/-!
# Identifiers that escaping keeps apart

Reserved words are spelled with letters only, and every way of escaping one adds a character that is
not a letter. So an escaped word is never reserved itself, and two words are never escaped alike.
This leaves one way in which escaping can write two names alike: a reserved word stands beside the
very name that it is escaped to. In a schema that has been accepted, the identifiers of the
declarations differ exactly if this does not happen (`Backend.nodup_declared_iff`).
-/

set_option autoImplicit false

namespace SchemaPress

namespace Lexicon

variable {l : Lexicon} {position : Position}

/-- Escaping writes no two reserved words alike, and nothing that is reserved. -/
structure Regular (l : Lexicon) (position : Position) : Prop where
  apart : ∀ v ∈ l.reserved, ∀ w ∈ l.reserved,
    l.escapeReserved position v = l.escapeReserved position w → v = w
  fresh : ∀ w ∈ l.reserved, l.escapeReserved position w ∉ l.reserved

theorem isReserved_iff {name : String} : l.isReserved name = true ↔ name ∈ l.reserved := by
  simp [isReserved]

theorem escape_of_mem {name : String} (reserved : name ∈ l.reserved) :
    l.escape position name = l.escapeReserved position name :=
  if_pos (isReserved_iff.mpr reserved)

theorem escape_of_not_mem {name : String} (free : name ∉ l.reserved) :
    l.escape position name = name :=
  if_neg (mt isReserved_iff.mp free)

/-- If reserved words are not reported, identifiers are escaped. -/
theorem text_identifier (escaping : l.strict = false) (position : Position) (name : String) :
    (l.identifier position name).text = l.escape position name := by
  simp [identifier, escaping, Fragment.ofText]

/-- Words of letters are regular if escaping adds a character that is no letter. -/
theorem Regular.of_letters (letters : ∀ w ∈ l.reserved, w.toList.all Char.isAlpha = true)
    (marked : ∀ w ∈ l.reserved, ∃ c ∈ (l.escapeReserved position w).toList, c.isAlpha = false)
    (apart : ∀ v ∈ l.reserved, ∀ w ∈ l.reserved,
      l.escapeReserved position v = l.escapeReserved position w → v = w) :
    l.Regular position := by
  refine ⟨apart, fun w reserved again => ?_⟩
  obtain ⟨c, inside, mark⟩ := marked w reserved
  rw [List.all_eq_true.mp (letters _ again) c inside] at mark
  cases mark

/-- **Escaping keeps names apart** unless one of them is what a reserved one is escaped to. -/
theorem Regular.nodup_escape_iff (regular : l.Regular position) {names : List String}
    (differ : names.Nodup) :
    (names.map (l.escape position)).Nodup ↔
      ∀ w ∈ names, w ∈ l.reserved → l.escapeReserved position w ∉ names := by
  rw [List.nodup_map_iff_inj_on differ]
  constructor
  · intro apart w inside reserved escaped
    -- The escaped spelling is not reserved, so it stands for itself and for the word.
    have free := regular.fresh w reserved
    have alike : l.escape position w = l.escape position (l.escapeReserved position w) := by
      rw [escape_of_mem reserved, escape_of_not_mem free]
    have same := apart w inside _ escaped alike
    rw [← same] at free
    exact free reserved
  · intro clear v inside w inside' alike
    by_cases reserved : v ∈ l.reserved
    · by_cases reserved' : w ∈ l.reserved
      · rw [escape_of_mem reserved, escape_of_mem reserved'] at alike
        exact regular.apart v reserved w reserved' alike
      · rw [escape_of_mem reserved, escape_of_not_mem reserved'] at alike
        exact absurd (alike ▸ inside') (clear v inside reserved)
    · by_cases reserved' : w ∈ l.reserved
      · rw [escape_of_not_mem reserved, escape_of_mem reserved'] at alike
        exact absurd (alike ▸ inside) (clear w inside' reserved')
      · rwa [escape_of_not_mem reserved, escape_of_not_mem reserved'] at alike

end Lexicon

/-! ## The targets -/

theorem Swift.regular_lexicon (o : SwiftOptions) (position : Position) :
    (lexicon o).Regular position := by
  have letters : ∀ w ∈ reservedWords, w.toList.all Char.isAlpha = true := by decide
  refine .of_letters letters (fun w _ => ⟨'\x60', ?_, by decide⟩) fun v _ w _ alike => ?_
  · change _ ∈ ("`" ++ w ++ "`").toList
    simp
  · have quoted : "`" ++ v ++ "`" = "`" ++ w ++ "`" := alike
    simpa [← String.toList_inj] using quoted

theorem TypeScript.regular_lexicon (o : TypeScriptOptions) (position : Position) :
    (lexicon o).Regular position := by
  have letters : ∀ w ∈ reservedWords, w.toList.all Char.isAlpha = true := by decide
  cases position with
  | declaration =>
      refine .of_letters letters (fun w _ => ⟨'_', ?_, by decide⟩) fun v _ w _ alike => ?_
      · change _ ∈ (w ++ "_").toList
        simp
      · have longer : v ++ "_" = w ++ "_" := alike
        simpa [← String.toList_inj] using longer
  | field | case =>
      refine .of_letters letters (fun w _ => ⟨'"', ?_, by decide⟩) fun v _ w _ alike => ?_
      · change _ ∈ ("\"" ++ w ++ "\"").toList
        simp
      · have quoted : "\"" ++ v ++ "\"" = "\"" ++ w ++ "\"" := alike
        simpa [← String.toList_inj] using quoted

/-- A reserved word in Rust becomes a raw identifier, or ends in an underscore. -/
theorem Rust.escapeReserved_cases (o : RustOptions) (position : Position) (w : String) :
    w ∈ neverRaw ∧ (lexicon o).escapeReserved position w = w ++ "_" ∨
      w ∉ neverRaw ∧ (lexicon o).escapeReserved position w = "r#" ++ w := by
  by_cases never : w ∈ neverRaw
  · exact .inl ⟨never, if_pos (List.contains_iff_mem.mpr never)⟩
  · exact .inr ⟨never, if_neg (mt List.contains_iff_mem.mp never)⟩

theorem Rust.regular_lexicon (o : RustOptions) (position : Position) :
    (lexicon o).Regular position := by
  have letters : ∀ w ∈ reservedWords, w.toList.all Char.isAlpha = true := by decide
  -- The sharp sign of a raw identifier tells it from a word that ends in an underscore.
  have raw : ∀ v ∈ reservedWords, ∀ w, v ++ "_" ≠ "r#" ++ w := by
    intro v reserved w same
    have sharp : '#' ∈ (v ++ "_").toList := by
      rw [same]
      simp
    rw [String.toList_append, List.mem_append] at sharp
    rcases sharp with inside | closing
    · exact absurd (List.all_eq_true.mp (letters v reserved) _ inside) (by decide)
    · exact absurd closing (by decide)
  refine .of_letters letters (fun w _ => ?_) fun v reserved w reserved' alike => ?_
  · rcases escapeReserved_cases o position w with ⟨-, under⟩ | ⟨-, sharp⟩
    · exact ⟨'_', by simp [under], by decide⟩
    · exact ⟨'#', by simp [sharp], by decide⟩
  · rcases escapeReserved_cases o position v with ⟨-, this⟩ | ⟨-, this⟩ <;>
      rcases escapeReserved_cases o position w with ⟨-, that⟩ | ⟨-, that⟩ <;>
      rw [this, that] at alike
    · simpa [← String.toList_inj] using alike
    · exact absurd alike (raw v reserved w)
    · exact absurd alike.symm (raw w reserved' v)
    · simpa [← String.toList_inj] using alike

theorem OpenApi.regular_lexicon (o : OpenApiOptions) (position : Position) :
    (lexicon o).Regular position where
  apart := by simp [lexicon]
  fresh := by simp [lexicon]

theorem Backend.regular_lexicon (b : Backend) (position : Position) :
    b.lexicon.Regular position := by
  cases b with
  | swift o => exact Swift.regular_lexicon o position
  | typeScript o => exact TypeScript.regular_lexicon o position
  | rust o => exact Rust.regular_lexicon o position
  | openApi o => exact OpenApi.regular_lexicon o position

/-! ## Declarations -/

/-- The identifiers of the declarations of a schema, in order. -/
def Backend.declared (b : Backend) (s : Schema) : List String :=
  s.declarations.map fun d => (b.lexicon.identifier .declaration d.name).text

/-- **Escaped identifiers differ.** If a backend escapes reserved words, then the identifiers that
it writes for the declarations of an accepted schema differ exactly if no reserved word is declared
beside the name that it is escaped to. -/
theorem Backend.nodup_declared_iff {b : Backend} (escaping : b.lexicon.strict = false)
    {s : Schema} (accepted : s.check = .ok ()) :
    (b.declared s).Nodup ↔
      ∀ w ∈ s.names, w ∈ b.lexicon.reserved →
        b.lexicon.escapeReserved .declaration w ∉ s.names := by
  have differ := (s.check_eq_ok_iff.mp accepted).names_differ
  have written : b.declared s = s.names.map (b.lexicon.escape .declaration) := by
    simp [declared, Schema.names, Lexicon.text_identifier escaping, Function.comp_def]
  rw [written]
  exact (b.regular_lexicon .declaration).nodup_escape_iff differ

/-- A schema with the declarations of two names. -/
def twoNames (first second : String) : Schema where
  name := "Sample"
  declarations := [.alias ⟨first, .primitive "i32", {}⟩, .alias ⟨second, .primitive "bool", {}⟩]

/-- Reserved words are escaped apart from each other and from other names. -/
theorem Backend.nodup_declared_twoNames :
    ((Backend.typeScript {}).declared (twoNames "any" "type_s")) = ["any_", "type_s"] ∧
      ((Backend.typeScript {}).declared (twoNames "any" "type_s")).Nodup :=
  ⟨by decide, (nodup_declared_iff rfl rfl).mpr (by decide)⟩

/-- A reserved word and the name that it is escaped to are declared alike. -/
theorem Backend.not_nodup_declared_any :
    (twoNames "any" "any_").check = .ok () ∧
      ((Backend.typeScript {}).render (twoNames "any" "any_")).text =
        "type any_ = number\n\ntype any_ = boolean\n" ∧
      (Backend.typeScript {}).declared (twoNames "any" "any_") = ["any_", "any_"] := by
  decide

end SchemaPress
