import SchemaPress.Proofs.Yaml.Scalar

/-!
# YAML values read back

How a YAML text is read as a value. The first characters say what a value is: a dash and a space
begin a sequence, a key begins a mapping, brackets or braces on their own are an empty collection,
and anything else is a string or a truth value. A collection goes on as long as lines stand in its
column. The value of a key begins on the line of the key, or below it: a sequence in the same
column, a mapping further to the right.

A written value is read as itself, whatever stands below it, as long as that is indented less
(`readValue_inlineText`); the same holds of items, of entries and of a single entry. The induction
is on the fuel of the readers, of which the size of the value is enough.
-/

set_option autoImplicit false

namespace SchemaPress.Yaml

/-! ## The reader -/

/-- What a value begins with. -/
inductive Kind where
  | items
  | noItems
  | entries
  | noEntries
  | leaf
deriving DecidableEq

/-- Whether a text begins with a key. -/
def startsEntry (cs : List Char) : Bool :=
  "? ".toList.isPrefixOf cs || (readKey cs).isSome

/-- The kind of the value that a text begins with. -/
def kind (cs : List Char) : Kind :=
  if "- ".toList.isPrefixOf cs then .items
  else if "[]\n".toList.isPrefixOf cs then .noItems
  else if "\x7b\x7d\n".toList.isPrefixOf cs then .noEntries
  else if startsEntry cs then .entries
  else .leaf

/-- A string without quotes may stand for a truth value. -/
def resolve (s : String) : Yaml :=
  if s = "true" then .bool true else if s = "false" then .bool false else .string s

/-- A value that is no collection. -/
def readLeaf (column : Nat) (cs : List Char) : Option (Yaml × List Char) :=
  (readScalar (column + 2) cs).map fun p =>
    (if cs.head?.any indicators.contains then .string p.1 else resolve p.1, p.2)

mutual

/-- A value that goes on in a line, inside a collection in the given column. The fuel bounds how
deeply the readers call each other. -/
def readValue : Nat → Nat → List Char → Option (Yaml × List Char)
  | 0, _, _ => none
  | fuel + 1, column, cs =>
      match kind cs with
      | .items => do
          let (item, rest) ← readValue fuel (column + 2) (cs.drop 2)
          let (items, rest) ← readItems fuel (column + 2) rest
          some (.sequence (item :: items), rest)
      | .noItems => some (.sequence [], cs.drop 3)
      | .entries => do
          let (entry, rest) ← readEntry fuel (column + 2) cs
          let (entries, rest) ← readEntries fuel (column + 2) rest
          some (.mapping (entry :: entries), rest)
      | .noEntries => some (.mapping [], cs.drop 3)
      | .leaf => readLeaf column cs

/-- Further items of a sequence in a column. -/
def readItems : Nat → Nat → List Char → Option (List Yaml × List Char)
  | 0, _, _ => none
  | fuel + 1, column, cs =>
      if (List.replicate column ' ' ++ ['-', ' ']).isPrefixOf cs then do
        let (item, rest) ← readValue fuel column (cs.drop (column + 2))
        let (items, rest) ← readItems fuel column rest
        some (item :: items, rest)
      else some ([], cs)

/-- Further entries of a mapping in a column. -/
def readEntries : Nat → Nat → List Char → Option (List (String × Yaml) × List Char)
  | 0, _, _ => none
  | fuel + 1, column, cs =>
      if (List.replicate column ' ').isPrefixOf cs && startsEntry (cs.drop column) then do
        let (entry, rest) ← readEntry fuel column (cs.drop column)
        let (entries, rest) ← readEntries fuel column rest
        some (entry :: entries, rest)
      else some ([], cs)

/-- An entry of a mapping in a column. -/
def readEntry : Nat → Nat → List Char → Option ((String × Yaml) × List Char)
  | 0, _, _ => none
  | fuel + 1, column, cs =>
      if "? ".toList.isPrefixOf cs then do
        let (key, rest) ← readScalar (column + 2) (cs.drop 2)
        let (value, rest) ← readValue fuel column (rest.drop (column + 2))
        some ((key, value), rest)
      else do
        let (key, rest) ← readKey cs
        if rest.head? = some ' ' then do
          let (value, rest) ← readValue fuel column (rest.drop 1)
          some ((key, value), rest)
        else if (List.replicate column ' ' ++ ['-', ' ']).isPrefixOf (rest.drop 1) then do
          let (items, rest) ← readItems fuel column (rest.drop 1)
          some ((key, .sequence items), rest)
        else do
          let (entries, rest) ← readEntries fuel (column + 2) (rest.drop 1)
          some ((key, .mapping entries), rest)

end

/-! ## Beginnings -/

/-- A text that begins with neither a collection nor the mark of a long key. -/
def BeginsString (cs : List Char) : Prop :=
  ∃ c rest, cs = c :: rest ∧ c ≠ ' ' ∧ isBreak c = false ∧ c ≠ '[' ∧ c ≠ '\x7b' ∧
    (c = '-' ∨ c = '?' → rest.head? ≠ some ' ')

theorem head?_ne_space {cs : List Char} (solid : blankOrEnd cs = false) (rest : List Char) :
    (cs ++ rest).head? ≠ some ' ' := by
  cases cs with
  | nil => simp [blankOrEnd] at solid
  | cons c cs =>
      rintro same
      rw [List.cons_append, List.head?_cons, Option.some.injEq] at same
      subst same
      exact absurd solid (by simp [blankOrEnd, isBlank])

theorem beginsString_cons {c : Char} (line : isBreak c = false)
    (other : c ∉ [' ', '[', '\x7b', '-', '?']) (rest : List Char) : BeginsString (c :: rest) := by
  simp only [List.mem_cons, List.not_mem_nil, or_false, not_or] at other
  obtain ⟨not_space, not_bracket, not_brace, not_dash, not_mark⟩ := other
  exact ⟨c, rest, rfl, not_space, line, not_bracket, not_brace,
    fun sign => absurd sign (not_or.mpr ⟨not_dash, not_mark⟩)⟩

/-- A string begins as a string, in whatever style it is written. -/
theorem beginsString_styledChars (simpleKey : Bool) (s : String) (pad rest : List Char) :
    BeginsString (styledChars (style simpleKey s) pad s.toList ++ rest) := by
  cases chosen : style simpleKey s with
  | literal => exact beginsString_cons (c := '|') (by decide) (by decide) _
  | singleQuoted => exact beginsString_cons (c := '\'') (by decide) (by decide) _
  | doubleQuoted => exact beginsString_cons (c := '"') (by decide) (by decide) _
  | plain =>
      obtain ⟨c, cs, whole, open_, solid, line, sign⟩ := (isPlain_of_style chosen).exists_cons
      refine ⟨c, cs ++ rest, by rw [styledChars, whole, List.cons_append], solid, line, ?_, ?_, ?_⟩
      · rintro rfl
        exact open_ (by decide)
      · rintro rfl
        exact open_ (by decide)
      · rintro (rfl | rfl)
        · exact head?_ne_space (sign (by simp)) rest
        · exact head?_ne_space (sign (by simp)) rest

theorem beginsString_scalarLine (column : Nat) (s : String) (rest : List Char) :
    BeginsString ((scalarLine column s).toList ++ rest) := by
  rw [toList_scalarLine, List.append_assoc]
  exact beginsString_styledChars false s _ _

theorem beginsString_keyText (column : Nat) (key : String) (rest : List Char) :
    BeginsString ((keyText column key).toList ++ rest) := by
  rw [keyText, String.toList_ofList]
  exact beginsString_styledChars true key _ rest

theorem BeginsString.unmarked {cs : List Char} (begins : BeginsString cs) :
    "? ".toList.isPrefixOf cs = false := by
  obtain ⟨c, rest, rfl, -, -, -, -, sign⟩ := begins
  rw [← Bool.not_eq_true, List.isPrefixOf_iff_prefix]
  rintro ⟨more, same⟩
  obtain ⟨rfl, rfl⟩ := List.cons.inj same
  exact sign (.inr rfl) rfl

theorem BeginsString.kind {cs : List Char} (begins : BeginsString cs) :
    kind cs = if (readKey cs).isSome then .entries else .leaf := by
  have entry : startsEntry cs = (readKey cs).isSome := by
    rw [startsEntry, begins.unmarked, Bool.false_or]
  obtain ⟨c, rest, rfl, -, -, not_bracket, not_brace, sign⟩ := begins
  have no_items : "- ".toList.isPrefixOf (c :: rest) = false := by
    rw [← Bool.not_eq_true, List.isPrefixOf_iff_prefix]
    rintro ⟨more, same⟩
    obtain ⟨rfl, rfl⟩ := List.cons.inj same
    exact sign (.inl rfl) rfl
  have no_bracket : "[]\n".toList.isPrefixOf (c :: rest) = false := by
    simp [List.isPrefixOf, Ne.symm not_bracket]
  have no_brace : "\x7b\x7d\n".toList.isPrefixOf (c :: rest) = false := by
    simp [List.isPrefixOf, Ne.symm not_brace]
  rw [Yaml.kind, no_items, no_bracket, no_brace, entry]
  simp

/-- A string that ends its line is no collection. -/
theorem kind_scalarLine (column : Nat) (s : String) (rest : List Char) :
    kind ((scalarLine column s).toList ++ rest) = .leaf := by
  rw [(beginsString_scalarLine column s rest).kind, readKey_scalarLine]
  rfl

/-! ## What stands below a value -/

/-- A line that is indented by less does not begin with the indentation. -/
theorem not_prefix_spaces {k column : Nat} (less : k < column) {c : Char} (solid : c ≠ ' ')
    (cs more : List Char) :
    ¬ List.replicate column ' ' ++ more <+: List.replicate k ' ' ++ c :: cs := by
  obtain ⟨n, rfl⟩ := Nat.exists_eq_add_of_lt less
  rw [Nat.add_assoc, ← List.replicate_append_replicate, List.append_assoc,
    List.prefix_append_right_inj, List.replicate_succ, List.cons_append, List.cons_prefix_cons]
  exact fun same => solid same.1.symm

/-- What may stand below a collection in a column: a line that is indented by at most as much, and
is no further item. -/
structure Below (column : Nat) (rest : List Char) : Prop where
  outdented : Outdented (column + 1) rest
  no_item : ¬ List.replicate column ' ' ++ ['-', ' '] <+: rest

theorem Outdented.below {column : Nat} {rest : List Char} (outdented : Outdented column rest) :
    Below column rest := by
  refine ⟨outdented.mono (Nat.le_succ column), ?_⟩
  obtain rfl | ⟨k, c, cs, rfl, less, solid, -⟩ := outdented
  · simp
  · exact not_prefix_spaces less solid cs _

theorem startsEntry_of_kind {cs : List Char} (entries : kind cs = .entries) :
    startsEntry cs = true := by
  by_contra none
  rw [kind] at entries
  split_ifs at entries

/-- A text that begins with a key, and with neither a space nor an item. -/
def BeginsEntry (cs : List Char) : Prop :=
  kind cs = .entries ∧
    ∃ c rest, cs = c :: rest ∧ c ≠ ' ' ∧ isBreak c = false ∧ (c = '-' → rest.head? ≠ some ' ')

/-- Below an entry another one may stand in the same column. -/
theorem BeginsEntry.below {cs : List Char} (begins : BeginsEntry cs) (column : Nat) :
    Below column (List.replicate column ' ' ++ cs) := by
  obtain ⟨-, c, rest, rfl, solid, line, sign⟩ := begins
  refine ⟨.inr ⟨column, c, rest, rfl, Nat.lt_succ_self column, solid, line⟩, ?_⟩
  rw [List.prefix_append_right_inj]
  rintro ⟨more, same⟩
  obtain ⟨rfl, rfl⟩ := List.cons.inj same
  exact sign rfl rfl

/-! ## Entries -/

theorem entriesText_append (column : Nat) (entries others : List (String × Yaml)) :
    entriesText column (entries ++ others) =
      entriesText column entries ++ entriesText column others := by
  induction entries with
  | nil => rw [List.nil_append, entriesText, String.empty_append]
  | cons entry entries ih =>
      rw [List.cons_append, entriesText, entriesText, ih, String.append_assoc, String.append_assoc,
        String.append_assoc]

/-- A value that stands on the line of its key. -/
def isLeaf : Yaml → Bool
  | .bool _ => true
  | .string _ => true
  | .sequence items => items.isEmpty
  | .mapping entries => entries.isEmpty

/-- Behind a long key every value goes on in the line. -/
theorem toList_entryText_of_long {key : String} (long : isLongKey key = true) (column : Nat)
    (value : Yaml) : (entryText column key value).toList =
      '?' :: ' ' :: ((scalarLine column key).toList ++ (List.replicate column ' ' ++
        ':' :: ' ' :: (inlineText column (column + 2) value).toList)) := by
  have written : entryText column key value =
      keyLine column key ++ inlineText column (column + 2) value := by
    match value with
    | .bool _ => rw [entryText, inlineText]
    | .string _ => rw [entryText, inlineText]
    | .sequence [] => rw [entryText, inlineText]
    | .sequence (_ :: _) =>
        rw [entryText, inlineText, if_pos long]
        simp only [String.append_assoc]
    | .mapping [] => rw [entryText, inlineText]
    | .mapping ((_, _) :: _) =>
        rw [entryText, inlineText, if_pos long]
        simp only [String.append_assoc]
  rw [written, keyLine, if_pos long, spaces]
  simp

/-- Behind any other key a value goes on in the line if it is no collection of others. -/
theorem toList_entryText_of_isLeaf {key : String} (short : isLongKey key = false) (column : Nat)
    {value : Yaml} (leaf : isLeaf value = true) : (entryText column key value).toList =
      (keyText column key).toList ++
        ':' :: ' ' :: (inlineText column (column + 2) value).toList := by
  have written : entryText column key value =
      keyText column key ++ ": " ++ inlineText column (column + 2) value := by
    match value with
    | .bool _ => rw [entryText, inlineText, keyLine, short]; rfl
    | .string _ => rw [entryText, inlineText, keyLine, short]; rfl
    | .sequence [] => rw [entryText, inlineText, keyLine, short]; rfl
    | .mapping [] => rw [entryText, inlineText, keyLine, short]; rfl
    | .sequence (_ :: _) => simp [isLeaf] at leaf
    | .mapping (_ :: _) => simp [isLeaf] at leaf
  rw [written]
  simp

/-- The items of a sequence stand below their key, in its column. -/
theorem toList_entryText_sequence {key : String} (short : isLongKey key = false) (column : Nat)
    (item : Yaml) (items : List Yaml) :
    (entryText column key (.sequence (item :: items))).toList =
      (keyText column key).toList ++ ':' :: '\n' :: (itemsText column (item :: items)).toList := by
  rw [entryText, if_neg (by simp [short]), itemsText]
  simp

/-- The entries of a mapping stand below their key, further to the right. -/
theorem toList_entryText_mapping {key : String} (short : isLongKey key = false) (column : Nat)
    (entry : String × Yaml) (entries : List (String × Yaml)) :
    (entryText column key (.mapping (entry :: entries))).toList =
      (keyText column key).toList ++
        ':' :: '\n' :: (entriesText (column + 2) (entry :: entries)).toList := by
  rw [entryText, if_neg (by simp [short]), entriesText]
  simp

/-- A key on the line of its value is followed by a colon and a blank. -/
theorem exists_toList_entryText {key : String} (short : isLongKey key = false) (column : Nat)
    (value : Yaml) : ∃ c tail, (entryText column key value).toList =
      (keyText column key).toList ++ ':' :: c :: tail ∧ isBlank c = true := by
  by_cases leaf : isLeaf value = true
  · exact ⟨' ', _, toList_entryText_of_isLeaf short column leaf, by decide⟩
  · match value with
    | .bool _ => exact absurd rfl leaf
    | .string _ => exact absurd rfl leaf
    | .sequence [] => exact absurd rfl leaf
    | .mapping [] => exact absurd rfl leaf
    | .sequence (item :: items) =>
        exact ⟨'\n', _, toList_entryText_sequence short column item items, by decide⟩
    | .mapping (entry :: entries) =>
        exact ⟨'\n', _, toList_entryText_mapping short column entry entries, by decide⟩

theorem beginsEntry_entryText (column : Nat) (key : String) (value : Yaml) (rest : List Char) :
    BeginsEntry ((entryText column key value).toList ++ rest) := by
  cases length : isLongKey key with
  | true =>
      rw [toList_entryText_of_long length]
      exact ⟨rfl, '?', _, rfl, by decide, by decide, fun same => absurd same (by decide)⟩
  | false =>
      obtain ⟨c, tail, written, blank⟩ := exists_toList_entryText length column value
      rw [written, List.append_assoc, List.cons_append, List.cons_append]
      have begins := beginsString_keyText column key (':' :: c :: (tail ++ rest))
      constructor
      · rw [begins.kind, readKey_keyText column key blank _]
        rfl
      · obtain ⟨d, more, whole, not_space, line, -, -, sign⟩ := begins
        exact ⟨d, more, whole, not_space, line, fun dash => sign (.inl dash)⟩

/-! ## Reading a written value -/

/-- A truth value is read back. -/
theorem readLeaf_boolLine (column : Nat) (b : Bool) (rest : List Char) :
    readLeaf column ((boolLine b).toList ++ rest) = some (.bool b, rest) := by
  have line : ∀ (c : Char) (cs : List Char), c ∉ indicators → '\n' ∉ c :: cs →
      readLeaf column (c :: cs ++ '\n' :: rest) =
        some (resolve (String.ofList (c :: cs)), rest) := by
    intro c cs open_ closed
    rw [readLeaf, readScalar_line open_ closed]
    simp [open_]
  cases b with
  | true => exact line 't' ['r', 'u', 'e'] (by decide) (by decide)
  | false => exact line 'f' ['a', 'l', 's', 'e'] (by decide) (by decide)

theorem kind_boolLine (b : Bool) (rest : List Char) :
    kind ((boolLine b).toList ++ rest) = .leaf := by
  cases b
  · rfl
  · rfl

theorem resolve_of_not_isAmbiguous {s : String} (clear : isAmbiguous s = false) :
    resolve s = .string s := by
  have not_true : s ≠ "true" := by rintro rfl; exact absurd clear (by decide)
  have not_false_ : s ≠ "false" := by rintro rfl; exact absurd clear (by decide)
  rw [resolve, if_neg not_true, if_neg not_false_]

/-- A string is read back as a string. -/
theorem readLeaf_scalarLine {column : Nat} {rest : List Char}
    (below : Outdented (column + 2) rest) (s : String) :
    readLeaf column ((scalarLine column s).toList ++ rest) = some (.string s, rest) := by
  rw [readLeaf, readScalar_scalarLine below, toList_scalarLine]
  cases chosen : style false s with
  | literal => rfl
  | singleQuoted => rfl
  | doubleQuoted => rfl
  | plain =>
      have value := resolve_of_not_isAmbiguous (style_eq_plain chosen).2
      simp only [Option.map_some, value, ite_self]

/-- Below an item there is another one, or what stands below the sequence. -/
theorem outdented_itemsText {column : Nat} {rest : List Char} (below : Below column rest)
    (items : List Yaml) : Outdented (column + 2) ((itemsText column items).toList ++ rest) := by
  cases items with
  | nil => exact below.outdented.mono (by omega)
  | cons item items =>
      rw [itemsText]
      simp only [spaces, String.toList_append, String.toList_ofList, List.append_assoc]
      exact .inr ⟨column, '-', _, rfl, by omega, by decide, by decide⟩

/-- Below an entry there is another one, or what stands below the mapping. -/
theorem below_entriesText {column : Nat} {rest : List Char} (outdented : Outdented column rest)
    (entries : List (String × Yaml)) :
    Below column ((entriesText column entries).toList ++ rest) := by
  match entries with
  | [] => exact outdented.below
  | (key, value) :: entries =>
      rw [entriesText]
      simp only [spaces, String.toList_append, String.toList_ofList, List.append_assoc]
      exact (beginsEntry_entryText column key value _).below column

section Steps

variable {fuel column : Nat} {cs more rest : List Char}

theorem readValue_items {item : Yaml} {items : List Yaml}
    (first : readValue fuel (column + 2) cs = some (item, more))
    (others : readItems fuel (column + 2) more = some (items, rest)) :
    readValue (fuel + 1) column ('-' :: ' ' :: cs) = some (.sequence (item :: items), rest) := by
  have marked : kind ('-' :: ' ' :: cs) = .items := rfl
  rw [readValue, marked]
  simp [first, others]

theorem readValue_entries {entry : String × Yaml} {entries : List (String × Yaml)}
    (begins : BeginsEntry cs) (first : readEntry fuel (column + 2) cs = some (entry, more))
    (others : readEntries fuel (column + 2) more = some (entries, rest)) :
    readValue (fuel + 1) column cs = some (.mapping (entry :: entries), rest) := by
  rw [readValue, begins.1]
  simp [first, others]

theorem readItems_cons {item : Yaml} {items : List Yaml}
    (first : readValue fuel column cs = some (item, more))
    (others : readItems fuel column more = some (items, rest)) :
    readItems (fuel + 1) column (List.replicate column ' ' ++ '-' :: ' ' :: cs) =
      some (item :: items, rest) := by
  have marked : (List.replicate column ' ' ++ ['-', ' ']).isPrefixOf
      (List.replicate column ' ' ++ '-' :: ' ' :: cs) = true := by
    rw [List.isPrefixOf_iff_prefix, List.prefix_append_right_inj]
    exact ⟨cs, rfl⟩
  have dropped : (List.replicate column ' ' ++ '-' :: ' ' :: cs).drop (column + 2) = cs := by
    rw [← List.drop_drop, List.drop_left' (by simp)]
    rfl
  rw [readItems, if_pos marked, dropped]
  simp [first, others]

theorem readEntries_cons {entry : String × Yaml} {entries : List (String × Yaml)}
    (begins : BeginsEntry cs) (first : readEntry fuel column cs = some (entry, more))
    (others : readEntries fuel column more = some (entries, rest)) :
    readEntries (fuel + 1) column (List.replicate column ' ' ++ cs) =
      some (entry :: entries, rest) := by
  have indented :
      (List.replicate column ' ').isPrefixOf (List.replicate column ' ' ++ cs) = true := by
    rw [List.isPrefixOf_iff_prefix]
    exact ⟨cs, rfl⟩
  have dropped : (List.replicate column ' ' ++ cs).drop column = cs := List.drop_left' (by simp)
  rw [readEntries, dropped, indented, startsEntry_of_kind begins.1]
  simp [first, others]

/-- Items end in front of a line that is none. -/
theorem readItems_below (below : Below column rest) :
    readItems (fuel + 1) column rest = some ([], rest) := by
  have stops : (List.replicate column ' ' ++ ['-', ' ']).isPrefixOf rest = false := by
    rw [← Bool.not_eq_true, List.isPrefixOf_iff_prefix]
    exact below.no_item
  rw [readItems, stops]
  rfl

/-- Entries end in front of a line that is indented by less. -/
theorem readEntries_outdented (outdented : Outdented column rest) :
    readEntries (fuel + 1) column rest = some ([], rest) := by
  have stops : ((List.replicate column ' ').isPrefixOf rest && startsEntry (rest.drop column)) =
      false := by
    obtain rfl | ⟨k, c, cs, rfl, less, solid, -⟩ := outdented
    · simp [startsEntry, readKey, readMarked]
    · have indentation := not_prefix_spaces less solid cs []
      rw [List.append_nil, ← List.isPrefixOf_iff_prefix, Bool.not_eq_true] at indentation
      rw [indentation, Bool.false_and]
  rw [readEntries, stops]
  rfl

/-- A long key is followed by a line with its value. -/
theorem readEntry_long {key : String} {value : Yaml}
    (first : readScalar (column + 2) cs =
      some (key, List.replicate column ' ' ++ ':' :: ' ' :: more))
    (second : readValue fuel column more = some (value, rest)) :
    readEntry (fuel + 1) column ('?' :: ' ' :: cs) = some ((key, value), rest) := by
  have marked : "? ".toList.isPrefixOf ('?' :: ' ' :: cs) = true := rfl
  have dropped : (List.replicate column ' ' ++ ':' :: ' ' :: more).drop (column + 2) = more := by
    rw [← List.drop_drop, List.drop_left' (by simp)]
    rfl
  rw [readEntry, if_pos marked]
  simp [first, second, dropped]

/-- Behind a key and a space there is a value. -/
theorem readEntry_space (key : String) {value : Yaml}
    (same_line : readValue fuel column more = some (value, rest)) :
    readEntry (fuel + 1) column ((keyText column key).toList ++ ':' :: ' ' :: more) =
      some ((key, value), rest) := by
  have unmarked := (beginsString_keyText column key (':' :: ' ' :: more)).unmarked
  rw [readEntry, unmarked, readKey_keyText column key (by decide)]
  simp [same_line]

/-- A line below a key that begins with a dash in its column begins a sequence. -/
theorem readEntry_items (key : String) {items : List Yaml}
    (item : List.replicate column ' ' ++ ['-', ' '] <+: more)
    (lines : readItems fuel column more = some (items, rest)) :
    readEntry (fuel + 1) column ((keyText column key).toList ++ ':' :: '\n' :: more) =
      some ((key, .sequence items), rest) := by
  have unmarked := (beginsString_keyText column key (':' :: '\n' :: more)).unmarked
  rw [readEntry, unmarked, readKey_keyText column key (by decide)]
  simp [item, lines]

/-- Any other line below a key begins a mapping. -/
theorem readEntry_entries (key : String) {entries : List (String × Yaml)}
    (no_item : ¬ List.replicate column ' ' ++ ['-', ' '] <+: more)
    (lines : readEntries fuel (column + 2) more = some (entries, rest)) :
    readEntry (fuel + 1) column ((keyText column key).toList ++ ':' :: '\n' :: more) =
      some ((key, .mapping entries), rest) := by
  have unmarked := (beginsString_keyText column key (':' :: '\n' :: more)).unmarked
  rw [readEntry, unmarked, readKey_keyText column key (by decide)]
  simp [no_item, lines]

end Steps

mutual

/-- A value that goes on in a line is read back. -/
theorem readValue_inlineText : ∀ (value : Yaml) {fuel column : Nat} {rest : List Char},
    sizeOf value < fuel → Outdented (column + 2) rest →
      readValue fuel column ((inlineText column (column + 2) value).toList ++ rest) =
        some (value, rest)
  | _, 0, _, _, enough, _ => absurd enough (Nat.not_lt_zero _)
  | .bool b, fuel + 1, column, rest, _, _ => by
      rw [inlineText, readValue, kind_boolLine, readLeaf_boolLine]
  | .string s, fuel + 1, column, rest, _, below => by
      rw [inlineText, readValue, kind_scalarLine, readLeaf_scalarLine below]
  | .sequence [], fuel + 1, column, rest, _, _ => by
      rw [inlineText, readValue]
      rfl
  | .mapping [], fuel + 1, column, rest, _, _ => by
      rw [inlineText, readValue]
      rfl
  | .sequence (item :: items), fuel + 1, column, rest, enough, below => by
      rw [sequence.sizeOf_spec, List.cons.sizeOf_spec] at enough
      have others := readItems_itemsText items (by omega : sizeOf items < fuel) below.below
      have first := readValue_inlineText item (by omega : sizeOf item < fuel)
        (outdented_itemsText below.below items)
      rw [inlineText]
      simp only [String.toList_append, List.append_assoc]
      exact readValue_items first others
  | .mapping ((key, value) :: entries), fuel + 1, column, rest, enough, below => by
      rw [mapping.sizeOf_spec, List.cons.sizeOf_spec] at enough
      have others := readEntries_entriesText entries (by omega : sizeOf entries < fuel) below
      have first := readEntry_entryText key value (by omega : sizeOf (key, value) < fuel)
        (below_entriesText below entries)
      rw [inlineText, String.toList_append, List.append_assoc]
      exact readValue_entries (beginsEntry_entryText _ key value _) first others
termination_by structural _ fuel => fuel

theorem readItems_itemsText : ∀ (items : List Yaml) {fuel column : Nat} {rest : List Char},
    sizeOf items < fuel → Below column rest →
      readItems fuel column ((itemsText column items).toList ++ rest) = some (items, rest)
  | _, 0, _, _, enough, _ => absurd enough (Nat.not_lt_zero _)
  | [], fuel + 1, column, rest, _, below => by
      rw [itemsText]
      exact readItems_below below
  | item :: items, fuel + 1, column, rest, enough, below => by
      rw [List.cons.sizeOf_spec] at enough
      have others := readItems_itemsText items (by omega : sizeOf items < fuel) below
      have first := readValue_inlineText item (by omega : sizeOf item < fuel)
        (outdented_itemsText below items)
      rw [itemsText, spaces]
      simp only [String.toList_append, String.toList_ofList, List.append_assoc]
      exact readItems_cons first others
termination_by structural _ fuel => fuel

theorem readEntries_entriesText : ∀ (entries : List (String × Yaml)) {fuel column : Nat}
    {rest : List Char}, sizeOf entries < fuel → Outdented column rest →
      readEntries fuel column ((entriesText column entries).toList ++ rest) = some (entries, rest)
  | _, 0, _, _, enough, _ => absurd enough (Nat.not_lt_zero _)
  | [], fuel + 1, column, rest, _, below => by
      rw [entriesText]
      exact readEntries_outdented below
  | (key, value) :: entries, fuel + 1, column, rest, enough, below => by
      rw [List.cons.sizeOf_spec] at enough
      have others := readEntries_entriesText entries (by omega : sizeOf entries < fuel) below
      have first := readEntry_entryText key value (by omega : sizeOf (key, value) < fuel)
        (below_entriesText below entries)
      rw [entriesText, spaces]
      simp only [String.toList_append, String.toList_ofList, List.append_assoc]
      exact readEntries_cons (beginsEntry_entryText column key value _) first others
termination_by structural _ fuel => fuel

/-- An entry is read back. -/
theorem readEntry_entryText (key : String) : ∀ (value : Yaml) {fuel column : Nat}
    {rest : List Char}, sizeOf (key, value) < fuel → Below column rest →
      readEntry fuel column ((entryText column key value).toList ++ rest) =
        some ((key, value), rest)
  | _, 0, _, _, enough, _ => absurd enough (Nat.not_lt_zero _)
  | value, fuel + 1, column, rest, enough, below => by
      have outdented : Outdented (column + 2) rest := below.outdented.mono (by omega)
      rw [Prod.mk.sizeOf_spec] at enough
      by_cases long : isLongKey key = true
      · have second := readValue_inlineText value (by omega : sizeOf value < fuel) outdented
        rw [toList_entryText_of_long long]
        simp only [List.cons_append, List.append_assoc]
        refine readEntry_long (readScalar_scalarLine ?_ key) second
        exact .inr ⟨column, ':', _, rfl, by omega, by decide, by decide⟩
      · rw [Bool.not_eq_true] at long
        by_cases leaf : isLeaf value = true
        · have same_line := readValue_inlineText value (by omega : sizeOf value < fuel) outdented
          rw [toList_entryText_of_isLeaf long column leaf, List.append_assoc]
          exact readEntry_space key same_line
        · match value with
          | .bool _ => exact absurd rfl leaf
          | .string _ => exact absurd rfl leaf
          | .sequence [] => exact absurd rfl leaf
          | .mapping [] => exact absurd rfl leaf
          | .sequence (item :: items) =>
              rw [sequence.sizeOf_spec] at enough
              have lines := readItems_itemsText (item :: items)
                (by omega : sizeOf (item :: items) < fuel) below
              rw [toList_entryText_sequence long, List.append_assoc, List.cons_append,
                List.cons_append]
              refine readEntry_items key ?_ lines
              rw [itemsText, spaces]
              simp only [String.toList_append, String.toList_ofList, List.append_assoc]
              exact (List.prefix_append_right_inj _).mpr ⟨_, rfl⟩
          | .mapping ((key', value') :: entries) =>
              rw [mapping.sizeOf_spec] at enough
              have lines := readEntries_entriesText ((key', value') :: entries)
                (by omega : sizeOf ((key', value') :: entries) < fuel) outdented
              rw [toList_entryText_mapping long, List.append_assoc, List.cons_append,
                List.cons_append]
              refine readEntry_entries key ?_ lines
              rw [entriesText, spaces, ← List.replicate_append_replicate]
              simp only [String.toList_append, String.toList_ofList, List.append_assoc]
              rw [List.prefix_append_right_inj, List.replicate_succ, List.cons_append,
                List.cons_prefix_cons]
              exact fun same => absurd same.1 (by decide)
termination_by structural _ fuel => fuel

end

end SchemaPress.Yaml
