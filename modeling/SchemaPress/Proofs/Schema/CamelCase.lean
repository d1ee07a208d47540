import SchemaPress.Proofs.Text.Casing
import SchemaPress.Proofs.Text.Lines
import SchemaPress.Schema.Pass

/-!
# Names in camel case

Bringing a name to camel case takes its underscores out and puts none back, so doing it again
changes nothing. A name of underscores only is lost.

Names in snake case can be told from their camel case: their words begin with a letter, which is in
upper case afterwards, and hold no other letter in upper case. So taking a name in camel case apart
in front of its upper-case letters gives the name back (`snakeWords_camelWords`), and names in snake
case that differ still differ in camel case. Without the letter at the beginning of a word this
fails, since digits have no upper case.
-/

set_option autoImplicit false

namespace SchemaPress

/-! ## Camel case is settled -/

/-- A name in camel case is put together from the words of the name. -/
theorem exists_words (name : String) :
    ∃ first rest, Text.split '_' name.toList = first :: rest ∧
      (camelWords name).toList = first ++ rest.flatMap Text.capitalize := by
  cases parts : Text.split '_' name.toList with
  | nil => exact absurd parts (Text.split_ne_nil '_' name.toList)
  | cons first rest =>
      refine ⟨first, rest, rfl, ?_⟩
      simp only [camelWords, parts, String.toList_ofList]

theorem underscore_not_mem_camelWords (name : String) : '_' ∉ (camelWords name).toList := by
  obtain ⟨first, rest, parts, whole⟩ := exists_words name
  have free : ∀ word ∈ first :: rest, '_' ∉ word := by
    intro word listed
    rw [← parts] at listed
    exact Text.not_mem_of_mem_split listed
  rw [List.forall_mem_cons] at free
  rw [whole, List.mem_append, not_or]
  refine ⟨free.1, ?_⟩
  rw [List.mem_flatMap]
  rintro ⟨word, listed, inside⟩
  exact Text.underscore_not_mem_capitalize (free.2 word listed) inside

/-- A name without underscores stays. -/
theorem camelWords_of_not_mem {name : String} (absent : '_' ∉ name.toList) :
    camelWords name = name := by
  rw [camelWords, Text.split_of_not_mem absent]
  simp

theorem camelWords_camelWords (name : String) : camelWords (camelWords name) = camelWords name :=
  camelWords_of_not_mem (underscore_not_mem_camelWords name)

theorem camelHead_camelHead (name : String) : camelHead (camelHead name) = camelHead name := by
  rw [camelHead, camelHead, String.toList_ofList, Text.uncapitalize_uncapitalize]

/-- Only a name of underscores is lost. -/
theorem camelWords_eq_empty_iff (name : String) :
    camelWords name = "" ↔ ∀ c ∈ name.toList, c = '_' := by
  obtain ⟨first, rest, parts, whole⟩ := exists_words name
  have written := Text.eq_append_of_split parts
  rw [← String.toList_eq_nil_iff, whole, List.append_eq_nil_iff, List.flatMap_eq_nil_iff]
  simp only [Text.capitalize_eq_nil_iff]
  constructor
  · rintro ⟨rfl, empty⟩ c inside
    rw [written, List.nil_append, List.mem_flatMap] at inside
    obtain ⟨word, listed, inside⟩ := inside
    rw [empty word listed, List.mem_singleton] at inside
    exact inside
  · intro marks
    have blank : ∀ word ∈ first :: rest, word = [] := by
      intro word listed
      rw [← parts] at listed
      rw [List.eq_nil_iff_forall_not_mem]
      intro c inside
      have mark := marks c (Text.mem_of_mem_split listed inside)
      exact Text.not_mem_of_mem_split listed (mark ▸ inside)
    exact List.forall_mem_cons.mp blank

/-! ## Snake case -/

/-- A lower-case letter, followed by lower-case letters and digits. -/
def isSnakeWord : List Char → Bool
  | [] => false
  | c :: cs => c.isLower && cs.all fun d => d.isLower || d.isDigit

/-- A name in snake case: words with single underscores between them. -/
def SnakeCase (name : String) : Prop :=
  ∀ word ∈ Text.split '_' name.toList, isSnakeWord word = true

instance (name : String) : Decidable (SnakeCase name) :=
  inferInstanceAs (Decidable (∀ word ∈ Text.split '_' name.toList, _))

/-- A character of a name in camel case; an upper-case letter begins a new word. -/
def snakeChar (c : Char) : List Char :=
  if c.isUpper then ['_', c.toLower] else [c]

/-- A name in camel case, taken apart in front of its upper-case letters. -/
def snakeWords (name : String) : String :=
  String.ofList (name.toList.flatMap snakeChar)

/-- A text without upper-case letters is not taken apart. -/
theorem flatMap_snakeChar_of_small {cs : List Char}
    (small : ∀ c ∈ cs, c.isLower = true ∨ c.isDigit = true) : cs.flatMap snakeChar = cs := by
  induction cs with
  | nil => rfl
  | cons c cs ih =>
      obtain ⟨first, rest⟩ := List.forall_mem_cons.mp small
      have plain : snakeChar c = [c] := by
        apply if_neg
        rw [Text.isLower_iff, Text.isDigit_iff] at first
        rw [Text.isUpper_iff]
        omega
      rw [List.flatMap_cons, plain, ih rest, List.singleton_append]

/-- The upper-case form of a letter is taken apart into an underscore and the letter. -/
theorem flatMap_snakeChar_upperForm {c : Char} (letter : c.isLower = true) :
    (Text.upperForm c).flatMap snakeChar = ['_', c] := by
  have each : ∀ n < 26, (Text.upperForm (Char.ofNat (0x61 + n))).flatMap snakeChar =
      ['_', Char.ofNat (0x61 + n)] := by decide
  obtain ⟨above, below⟩ := Text.isLower_iff.mp letter
  have place : Char.ofNat (0x61 + (c.toNat - 0x61)) = c := by
    rw [Nat.add_sub_cancel' above, Char.ofNat_toNat]
  have this := each (c.toNat - 0x61) (by omega)
  rwa [place] at this

theorem flatMap_snakeChar_word {word : List Char} (snake : isSnakeWord word = true) :
    word.flatMap snakeChar = word ∧
      (Text.capitalize word).flatMap snakeChar = '_' :: word := by
  cases word with
  | nil => exact absurd snake Bool.false_ne_true
  | cons c cs =>
      simp only [isSnakeWord, Bool.and_eq_true, List.all_eq_true, Bool.or_eq_true] at snake
      obtain ⟨letter, small⟩ := snake
      constructor
      · apply flatMap_snakeChar_of_small
        exact List.forall_mem_cons.mpr ⟨.inl letter, small⟩
      · rw [Text.capitalize, List.flatMap_append, flatMap_snakeChar_upperForm letter,
          flatMap_snakeChar_of_small small]
        rfl

/-- **A name in snake case can be told from its camel case.** -/
theorem snakeWords_camelWords {name : String} (snake : SnakeCase name) :
    snakeWords (camelWords name) = name := by
  obtain ⟨first, rest, parts, whole⟩ := exists_words name
  rw [SnakeCase, parts, List.forall_mem_cons] at snake
  have later : (rest.flatMap Text.capitalize).flatMap snakeChar = rest.flatMap ('_' :: ·) := by
    rw [List.flatMap_assoc]
    apply List.flatMap_congr
    intro word listed
    exact (flatMap_snakeChar_word (snake.2 word listed)).2
  rw [← String.toList_inj, snakeWords, String.toList_ofList, whole, List.flatMap_append,
    (flatMap_snakeChar_word snake.1).1, later]
  exact (Text.eq_append_of_split parts).symm

/-- Names in snake case that differ still differ in camel case. -/
theorem SnakeCase.eq_of_camelWords_eq {name other : String} (snake : SnakeCase name)
    (snake' : SnakeCase other) (same : camelWords name = camelWords other) : name = other := by
  rw [← snakeWords_camelWords snake, same, snakeWords_camelWords snake']

/-- A name in snake case is not lost. -/
theorem SnakeCase.camelWords_ne_empty {name : String} (snake : SnakeCase name) :
    camelWords name ≠ "" := by
  intro lost
  obtain ⟨first, rest, parts, whole⟩ := exists_words name
  rw [SnakeCase, parts, List.forall_mem_cons] at snake
  rw [lost] at whole
  have empty := (List.append_eq_nil_iff.mp whole.symm).1
  rw [empty] at snake
  exact absurd snake.1 Bool.false_ne_true

/-- A digit at the beginning of a word has no upper case, so the beginning is lost. -/
example : camelWords "line_1" = camelWords "line1" := by decide

end SchemaPress
