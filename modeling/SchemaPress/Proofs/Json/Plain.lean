import SchemaPress.Proofs.Json.Grammar

/-!
# Values without numbers

Docs and configurations have JSON forms in which there are no numbers. Such a form is a value of the
grammar, with escapes where strings need them, and both its compact text and its indented text are
texts of this value. A text of a value gives a reader nothing but the tree of the value, however
its tokens are spelled and whatever blanks stand between them (`HasText.ofText_eq`).
-/

set_option autoImplicit false

namespace SchemaPress.Json

/-- A value that holds no number. -/
inductive Plain : Json → Prop where
  | null : Plain .null
  | bool (b : Bool) : Plain (.bool b)
  | string (s : String) : Plain (.string s)
  | array {items : List Json} (each : ∀ v ∈ items, Plain v) : Plain (.array items)
  | object {members : List (String × Json)} (each : ∀ m ∈ members, Plain m.2) :
      Plain (.object members)

theorem plain_strings (ss : List String) : Plain (.strings ss) := by
  refine .array fun v listed => ?_
  obtain ⟨s, -, rfl⟩ := List.mem_map.mp listed
  exact .string s

/-- A text of a value: a text of the grammar with the tree of the value. -/
def HasText (j : Json) (text : String) : Prop :=
  ∃ w : Written, w.toNode = j.toNode ∧ w.SpellsText text

/-- **A text of a value is the document of its tree.** -/
theorem HasText.ofText_eq {j : Json} {text : String} (has : j.HasText text) :
    Document.ofText text = ⟨j.toNode, false⟩ := by
  obtain ⟨w, tree, spelled⟩ := has
  rw [Written.ofText_eq spelled, tree]

theorem Quoted.taken_ofText (s : String) : (ofText s).taken = .ok s := by
  rw [taken, ofText, takeString_written]
  exact congrArg Except.ok String.ofList_toList

theorem Quoted.chars_ofText (s : String) : (ofText s).chars = stringChars s := rfl

/-! ## The written form of a value -/

/-- A value of the grammar has the tree and the texts of a value. -/
structure Writes (w : Written) (j : Json) : Prop where
  tree : w.toNode = j.toNode
  compact : w.chars = j.compactChars
  indented : ∀ level, w.Spells (j.indentedChars level)

theorem blank_newLine (level : Nat) : Blank (newLine level) := by
  intro c inside
  rcases List.mem_cons.mp inside with rfl | space
  · rfl
  · rw [List.eq_of_mem_replicate space]
    rfl

theorem memberChars_space (k : Quoted) (value : List Char) :
    MemberChars k value (k.chars ++ ':' :: ' ' :: value) :=
  ⟨[], [' '], Written.blank_nil, by simp [Blank, isSpace], rfl⟩

/-- Further items that can be written, with blanks after the last of them. -/
theorem exists_items {vs : List Json} (each : ∀ v ∈ vs, ∃ w, Writes w v) :
    ∃ ws, Written.toItems ws = toItems vs ∧ Written.charsOfItems ws = compactItems vs ∧
      ∀ level {blank : List Char}, Blank blank →
        Written.SpellsItems ws (indentedItems level vs ++ blank) := by
  induction vs with
  | nil =>
      refine ⟨[], by rw [Written.toItems, toItems], by rw [Written.charsOfItems, compactItems],
        fun level blank blanks => ?_⟩
      rwa [Written.SpellsItems, indentedItems, List.nil_append]
  | cons v vs ih =>
      rw [List.forall_mem_cons] at each
      obtain ⟨w, first⟩ := each.1
      obtain ⟨ws, trees, compact, indented⟩ := ih each.2
      refine ⟨w :: ws, by rw [Written.toItems, toItems, first.tree, trees], ?_,
        fun level blank blanks => ?_⟩
      · rw [Written.charsOfItems, compactItems, first.compact, compact, List.cons_append]
      · rw [Written.SpellsItems]
        exact ⟨[], newLine level, v.indentedChars level, indentedItems level vs ++ blank,
          Written.blank_nil, blank_newLine level, first.indented level, indented level blanks,
          by simp [indentedItems]⟩

/-- Further members whose values can be written, with blanks after the last of them. -/
theorem exists_members {ms : List (String × Json)} (each : ∀ m ∈ ms, ∃ w, Writes w m.2) :
    ∃ ws, Written.toMembers ws = toMembers ms ∧ Written.charsOfMembers ws = compactMembers ms ∧
      ∀ level {blank : List Char}, Blank blank →
        Written.SpellsMembers ws (indentedMembers level ms ++ blank) := by
  induction ms with
  | nil =>
      refine ⟨[], by rw [Written.toMembers, toMembers],
        by rw [Written.charsOfMembers, compactMembers], fun level blank blanks => ?_⟩
      rwa [Written.SpellsMembers, indentedMembers, List.nil_append]
  | cons m ms ih =>
      obtain ⟨k, v⟩ := m
      rw [List.forall_mem_cons] at each
      obtain ⟨w, first⟩ := each.1
      obtain ⟨ws, trees, compact, indented⟩ := ih each.2
      refine ⟨(.ofText k, w) :: ws, ?_, ?_, fun level blank blanks => ?_⟩
      · rw [Written.toMembers, toMembers, Quoted.taken_ofText, first.tree, trees]
      · rw [Written.charsOfMembers, compactMembers, Quoted.chars_ofText, first.compact, compact]
        simp
      · rw [Written.SpellsMembers]
        exact ⟨[], newLine level, v.indentedChars level, _, indentedMembers level ms ++ blank,
          Written.blank_nil, blank_newLine level, first.indented level,
          memberChars_space (.ofText k) (v.indentedChars level), indented level blanks,
          by simp [indentedMembers, Quoted.chars_ofText]⟩

theorem Writes.array {vs : List Json} (each : ∀ v ∈ vs, ∃ w, Writes w v) :
    ∃ w, Writes w (.array vs) := by
  cases vs with
  | nil =>
      refine ⟨.array [], ⟨by rw [Written.toNode, Written.toItems, toNode, toItems],
        by rw [Written.chars, compactChars], fun level => ?_⟩⟩
      rw [Written.Spells, indentedChars]
      exact ⟨[], Written.blank_nil, rfl⟩
  | cons v vs =>
      rw [List.forall_mem_cons] at each
      obtain ⟨w, first⟩ := each.1
      obtain ⟨ws, trees, compact, indented⟩ := exists_items each.2
      refine ⟨.array (w :: ws), ⟨?_, ?_, fun level => ?_⟩⟩
      · rw [Written.toNode, Written.toItems, toNode, toItems, first.tree, trees]
      · rw [Written.chars, compactChars, first.compact, compact]
        simp
      · rw [Written.Spells]
        exact ⟨newLine (level + 1), v.indentedChars (level + 1),
          indentedItems (level + 1) vs ++ newLine level, blank_newLine _, first.indented _,
          indented _ (blank_newLine level), by simp [indentedChars]⟩

theorem Writes.object {ms : List (String × Json)} (each : ∀ m ∈ ms, ∃ w, Writes w m.2) :
    ∃ w, Writes w (.object ms) := by
  rcases ms with _ | ⟨⟨k, v⟩, ms⟩
  · refine ⟨.object [], ⟨by rw [Written.toNode, Written.toMembers, toNode, toMembers],
      by rw [Written.chars, compactChars], fun level => ?_⟩⟩
    rw [Written.Spells, indentedChars]
    exact ⟨[], Written.blank_nil, rfl⟩
  · rw [List.forall_mem_cons] at each
    obtain ⟨w, first⟩ := each.1
    obtain ⟨ws, trees, compact, indented⟩ := exists_members each.2
    refine ⟨.object ((.ofText k, w) :: ws), ⟨?_, ?_, fun level => ?_⟩⟩
    · rw [Written.toNode, Written.toMembers, toNode, toMembers, Quoted.taken_ofText, first.tree,
        trees]
    · rw [Written.chars, compactChars, Quoted.chars_ofText, first.compact, compact]
      simp
    · rw [Written.Spells]
      exact ⟨newLine (level + 1), v.indentedChars (level + 1), _,
        indentedMembers (level + 1) ms ++ newLine level, blank_newLine _, first.indented _,
        memberChars_space (.ofText k) (v.indentedChars (level + 1)),
        indented _ (blank_newLine level), by simp [indentedChars, Quoted.chars_ofText]⟩

/-- **A value without numbers is a value of the grammar.** -/
theorem Plain.exists_writes {j : Json} (plain : Plain j) : ∃ w, Writes w j := by
  induction plain with
  | null =>
      refine ⟨.null, ⟨by rw [Written.toNode, toNode], by rw [Written.chars, compactChars],
        fun level => ?_⟩⟩
      rw [Written.Spells, indentedChars]
  | bool b =>
      refine ⟨.bool b, ⟨by rw [Written.toNode, toNode], by rw [Written.chars, compactChars],
        fun level => ?_⟩⟩
      rw [Written.Spells, indentedChars]
  | string s =>
      refine ⟨.string (.ofText s), ⟨?_, ?_, fun level => ?_⟩⟩
      · rw [Written.toNode, toNode, Quoted.taken_ofText]
      · rw [Written.chars, compactChars, Quoted.chars_ofText]
      · rw [Written.Spells, indentedChars, Quoted.chars_ofText]
  | array _ ih => exact Writes.array ih
  | object _ ih => exact Writes.object ih

theorem Plain.hasText_compact {j : Json} (plain : Plain j) : j.HasText j.compact := by
  obtain ⟨w, writes⟩ := plain.exists_writes
  refine ⟨w, writes.tree, ?_⟩
  rw [Json.compact, ← writes.compact]
  exact w.spellsText_chars

theorem Plain.hasText_indented {j : Json} (plain : Plain j) : j.HasText j.indented := by
  obtain ⟨w, writes⟩ := plain.exists_writes
  refine ⟨w, writes.tree, [], j.indentedChars 0, [], Written.blank_nil, writes.indented 0,
    Written.blank_nil, ?_⟩
  rw [Json.indented, String.toList_ofList, List.nil_append, List.append_nil]

end SchemaPress.Json
