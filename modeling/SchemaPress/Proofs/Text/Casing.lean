import Mathlib.Data.List.Chain
import SchemaPress.Text.Casing

/-!
# Case forms by table

The tables of case forms are long, and what the passes need of them is said once for a whole run.
All code points that a run moves come to stand between two bounds. So a few numbers tell whether a
run can lead to a certain code point, or to one that another run moves, and this can be evaluated
for all runs of a table.

Lower case is settled: the first character of a lower-case form is its own lower-case form, so
putting the first character of a text in lower case twice is the same as once
(`uncapitalize_uncapitalize`). Upper case makes no underscores and makes no character disappear.
-/

set_option autoImplicit false

namespace SchemaPress.Text

/-! ## Where runs lead -/

namespace Run

/-- The lowest code point that a run leads to. -/
def low (r : Run) : Nat :=
  (r.first + r.shift).toNat

/-- The highest code point that a run leads to. -/
def high (r : Run) : Nat :=
  (r.last + r.shift).toNat

/-- A run leads to characters only. -/
def Sound (r : Run) : Prop :=
  0 ≤ r.first + r.shift ∧ (r.high < 0xD800 ∨ 0xDFFF < r.low ∧ r.high < 0x110000)

instance (r : Run) : Decidable r.Sound :=
  inferInstanceAs (Decidable (_ ∧ _))

/-- Whether a run leads to every second code point, and another run moves only those between. -/
def interleaves (r other : Run) : Bool :=
  other.stride == 2 && (r.stride == 2 || r.first == r.last) && (r.low + other.first) % 2 == 1

/-- Whether a run leads to no code point that one of `others` moves. The others are in increasing
order, so those that begin above the bounds of the run are not looked at. -/
def clears (r : Run) : List Run → Bool
  | [] => true
  | other :: others =>
      if other.last < r.low then r.clears others
      else r.high < other.first || r.interleaves other && r.clears others

theorem covers_iff {r : Run} {n : Nat} :
    r.covers n = true ↔ r.first ≤ n ∧ n ≤ r.last ∧ (n - r.first) % r.stride = 0 := by
  simp [covers, and_assoc]

variable {r : Run} {n : Nat}

theorem Sound.moved_eq (sound : r.Sound) (covered : r.covers n = true) :
    (n + r.shift).toNat = r.low + (n - r.first) ∧ (n + r.shift).toNat ≤ r.high := by
  obtain ⟨above, below, -⟩ := covers_iff.mp covered
  obtain ⟨positive, -⟩ := sound
  unfold low high
  omega

/-- What a run leads to is a character. -/
theorem Sound.toNat_moved (sound : r.Sound) (covered : r.covers n = true) :
    (Char.ofNat (n + r.shift).toNat).toNat = (n + r.shift).toNat := by
  obtain ⟨place, below⟩ := sound.moved_eq covered
  obtain ⟨-, bounds⟩ := sound
  have valid : (n + r.shift).toNat.isValidChar := by
    unfold Nat.isValidChar
    omega
  rw [Char.ofNat, dif_pos valid]
  rfl

theorem not_covers_of_interleaves {other : Run} (between : r.interleaves other = true)
    (sound : r.Sound) (covered : r.covers n = true) :
    other.covers (n + r.shift).toNat = false := by
  obtain ⟨place, below⟩ := sound.moved_eq covered
  obtain ⟨above, within, step⟩ := covers_iff.mp covered
  simp only [interleaves, Bool.and_eq_true, Bool.or_eq_true, beq_iff_eq] at between
  obtain ⟨⟨two, even⟩, odd⟩ := between
  rw [Bool.eq_false_iff]
  intro again
  obtain ⟨above', -, step'⟩ := covers_iff.mp again
  rw [two] at step'
  rcases even with even | single
  · rw [even] at step
    omega
  · omega

/-- What a run leads to is not moved again by the runs that it clears. -/
theorem not_covers_of_clears {others : List Run} (clear : r.clears others = true)
    (increasing : others.Pairwise (·.first < ·.first)) (sound : r.Sound)
    (covered : r.covers n = true) :
    ∀ other ∈ others, other.covers (n + r.shift).toNat = false := by
  obtain ⟨place, below⟩ := sound.moved_eq covered
  have outside : ∀ other : Run, other.last < r.low ∨ r.high < other.first →
      other.covers (n + r.shift).toNat = false := by
    intro other apart
    rw [Bool.eq_false_iff]
    intro again
    obtain ⟨above', within', -⟩ := covers_iff.mp again
    omega
  induction others with
  | nil => simp
  | cons other others ih =>
      obtain ⟨first, rest⟩ := List.pairwise_cons.mp increasing
      rw [List.forall_mem_cons]
      rw [clears] at clear
      split at clear
      · rename_i lower
        exact ⟨outside other (.inl lower), ih clear rest⟩
      · rw [Bool.or_eq_true, Bool.and_eq_true, decide_eq_true_iff] at clear
        rcases clear with higher | ⟨between, clear⟩
        · -- All further runs begin higher still.
          refine ⟨outside other (.inr higher), ?_⟩
          intro later listed
          exact outside later (.inr (Nat.lt_trans higher (first later listed)))
        · exact ⟨not_covers_of_interleaves between sound covered, ih clear rest⟩

end Run

/-! ## Forms by table -/

section Tables

variable {specials : List (Nat × List Nat)} {runs : List Run} {c : Char}

/-- A form comes from the list of those with several characters, or from a run, or it is the
character itself. -/
theorem caseForm_cases (specials : List (Nat × List Nat)) (runs : List Run) (c : Char) :
    (∃ form, (c.toNat, form) ∈ specials ∧ caseForm specials runs c = form.map Char.ofNat) ∨
      (∃ r ∈ runs, r.covers c.toNat = true ∧
        caseForm specials runs c = [Char.ofNat (c.toNat + r.shift).toNat]) ∨
      caseForm specials runs c = [c] := by
  unfold caseForm
  cases several : specials.lookup c.toNat with
  | some form =>
      obtain ⟨before, after, rfl, -⟩ := List.lookup_eq_some_iff.mp several
      exact .inl ⟨form, List.mem_append_right _ List.mem_cons_self, rfl⟩
  | none =>
      cases moved : runs.find? (·.covers c.toNat) with
      | some r =>
          have covered : r.covers c.toNat = true := by simpa using List.find?_some moved
          exact .inr (.inl ⟨r, List.mem_of_find?_eq_some moved, covered, rfl⟩)
      | none => exact .inr (.inr rfl)

/-- A character in neither table stands for itself. -/
theorem caseForm_eq_self (single : ∀ entry ∈ specials, c.toNat ≠ entry.1)
    (still : ∀ r ∈ runs, r.covers c.toNat = false) : caseForm specials runs c = [c] := by
  have none_listed : specials.lookup c.toNat = none := by
    rw [List.lookup_eq_none_iff]
    intro entry listed
    simpa using single entry listed
  have none_moved : runs.find? (·.covers c.toNat) = none := by
    rw [List.find?_eq_none]
    intro r listed
    simpa using still r listed
  unfold caseForm
  rw [none_listed, none_moved]

end Tables

/-! ## Lower case -/

theorem lowerRuns_increasing : lowerRuns.Pairwise (·.first < ·.first) := by
  have chain : (lowerRuns.map Run.first).IsChain (· < ·) := by decide +kernel
  exact List.pairwise_map.mp chain.pairwise

theorem lowerRuns_settled : ∀ r ∈ lowerRuns,
    r.Sound ∧ (r.high < 0x130 ∨ 0x130 < r.low) ∧ r.clears lowerRuns = true := by
  decide +kernel

/-- **Lower case is settled**: a lower-case form begins with a character that is its own lower-case
form. -/
theorem exists_lowerForm_eq (c : Char) :
    ∃ first rest, lowerForm c = first :: rest ∧ lowerForm first = [first] := by
  rcases caseForm_cases lowerSpecials lowerRuns c with
    ⟨form, special, written⟩ | ⟨r, listed, covered, written⟩ | written
  · -- The only entry becomes an ordinary letter and a dot above it.
    rw [lowerSpecials, List.mem_singleton, Prod.mk.injEq] at special
    refine ⟨'i', [Char.ofNat 0x307], ?_, by decide⟩
    rw [lowerForm, written, special.2]
    rfl
  · refine ⟨_, [], written, ?_⟩
    obtain ⟨sound, apart, clear⟩ := lowerRuns_settled r listed
    have place := sound.toNat_moved covered
    obtain ⟨low, high⟩ := sound.moved_eq covered
    apply caseForm_eq_self
    · intro entry special
      rw [lowerSpecials, List.mem_singleton] at special
      rw [place, special]
      omega
    · rw [place]
      exact Run.not_covers_of_clears clear lowerRuns_increasing sound covered
  · exact ⟨c, [], written, written⟩

/-- Putting the first character of a text in lower case again changes nothing. -/
theorem uncapitalize_uncapitalize (cs : List Char) :
    uncapitalize (uncapitalize cs) = uncapitalize cs := by
  cases cs with
  | nil => rfl
  | cons c cs =>
      obtain ⟨first, rest, written, settled⟩ := exists_lowerForm_eq c
      rw [uncapitalize, written, List.cons_append, uncapitalize, settled, List.singleton_append]

/-! ## Upper case -/

theorem upperRuns_avoid : ∀ r ∈ upperRuns, r.Sound ∧ (r.high < 0x5F ∨ 0x5F < r.low) := by
  decide +kernel

theorem upperSpecials_avoid : ∀ entry ∈ upperSpecials,
    entry.2 ≠ [] ∧ '_' ∉ entry.2.map Char.ofNat := by
  decide +kernel

theorem upperForm_ne_nil (c : Char) : upperForm c ≠ [] := by
  rcases caseForm_cases upperSpecials upperRuns c with
    ⟨form, special, written⟩ | ⟨r, -, -, written⟩ | written
  · rw [upperForm, written, ne_eq, List.map_eq_nil_iff]
    exact (upperSpecials_avoid _ special).1
  · rw [upperForm, written]
    exact List.cons_ne_nil _ _
  · rw [upperForm, written]
    exact List.cons_ne_nil _ _

/-- Upper case makes no underscore. -/
theorem underscore_not_mem_upperForm {c : Char} (other : c ≠ '_') : '_' ∉ upperForm c := by
  rcases caseForm_cases upperSpecials upperRuns c with
    ⟨form, special, written⟩ | ⟨r, listed, covered, written⟩ | written
  · rw [upperForm, written]
    exact (upperSpecials_avoid _ special).2
  · obtain ⟨sound, apart⟩ := upperRuns_avoid r listed
    have place := sound.toNat_moved covered
    obtain ⟨low, high⟩ := sound.moved_eq covered
    rw [upperForm, written, List.mem_singleton]
    intro same
    rw [← same] at place
    have code : '_'.toNat = 0x5F := rfl
    omega
  · rw [upperForm, written, List.mem_singleton]
    exact Ne.symm other

theorem underscore_not_mem_capitalize {cs : List Char} (absent : '_' ∉ cs) :
    '_' ∉ capitalize cs := by
  cases cs with
  | nil => exact absent
  | cons c cs =>
      rw [List.mem_cons, not_or] at absent
      rw [capitalize, List.mem_append, not_or]
      exact ⟨underscore_not_mem_upperForm (Ne.symm absent.1), absent.2⟩

theorem capitalize_eq_nil_iff {cs : List Char} : capitalize cs = [] ↔ cs = [] := by
  cases cs with
  | nil => rfl
  | cons c cs => simp [capitalize, upperForm_ne_nil]

/-! ## Plain letters and digits -/

theorem isLower_iff {c : Char} : c.isLower = true ↔ 0x61 ≤ c.toNat ∧ c.toNat ≤ 0x7A := by
  change (decide ('a'.val ≤ c.val) && decide (c.val ≤ 'z'.val)) = true ↔ _
  rw [Bool.and_eq_true, decide_eq_true_iff, decide_eq_true_iff, UInt32.le_iff_toNat_le,
    UInt32.le_iff_toNat_le]
  exact Iff.rfl

theorem isDigit_iff {c : Char} : c.isDigit = true ↔ 0x30 ≤ c.toNat ∧ c.toNat ≤ 0x39 := by
  change (decide ('0'.val ≤ c.val) && decide (c.val ≤ '9'.val)) = true ↔ _
  rw [Bool.and_eq_true, decide_eq_true_iff, decide_eq_true_iff, UInt32.le_iff_toNat_le,
    UInt32.le_iff_toNat_le]
  exact Iff.rfl

theorem isUpper_iff {c : Char} : c.isUpper = true ↔ 0x41 ≤ c.toNat ∧ c.toNat ≤ 0x5A := by
  change decide ('A'.val ≤ c.val ∧ c.val ≤ 'Z'.val) = true ↔ _
  rw [decide_eq_true_iff, UInt32.le_iff_toNat_le, UInt32.le_iff_toNat_le]
  exact Iff.rfl

end SchemaPress.Text
