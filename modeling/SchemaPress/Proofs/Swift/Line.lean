import SchemaPress.Proofs.Swift.Reader
import SchemaPress.Proofs.Target.Emission

/-!
# Lines of Swift read back

What the reader does with the pieces of a line and with a whole line: names are found in their
identifiers and types by their tokens, comment lines are kept, and a line that begins with a keyword
is read by it. Names have to be words for this, and so do the protocols and native types that the
options add.

The statements about lines say what they do to a reading, whatever follows them.
-/

set_option autoImplicit false

namespace SchemaPress

open Text (Word isWordChar)

/-- The protocols and the native types that the options name are words. -/
structure SwiftOptions.Plain (o : SwiftOptions) : Prop where
  conformances : ∀ name ∈ o.conformances, Word name
  natives : ∀ p ∈ o.primitives.entries, Word p.2

namespace Swift

variable {o : SwiftOptions}

/-- A type with every leaf replaced by the token that is written for it. -/
def tokens (o : SwiftOptions) : TypeRef → TypeRef
  | .optional inner => .optional (tokens o inner)
  | .sequence inner => .sequence (tokens o inner)
  | leaf => .primitive (typeText o leaf).text

/-! ## Names and types -/

theorem exists_cons_of_word {s : String} (word : Word s) :
    ∃ c cs, s.toList = c :: cs ∧ isWordChar c = true := by
  obtain ⟨c, cs, chars⟩ := List.exists_cons_of_ne_nil (String.toList_eq_nil_iff.not.mpr word.1)
  exact ⟨c, cs, chars, word.2 c (by simp [chars])⟩

theorem ne_of_isWordChar {c d : Char} (word : isWordChar c = true) (other : isWordChar d = false) :
    c ≠ d := by
  rintro rfl
  rw [word] at other
  cases other

theorem no_break_of_word {s : String} (word : Word s) : '\n' ∉ s.toList :=
  fun inside => absurd (word.2 _ inside) (by decide)

/-- The native type of a name is a word. -/
theorem word_of_get? (plain : o.Plain) {name native : String}
    (known : (lexicon o).natives.get? name = some native) : Word native := by
  have builtin : ∀ p ∈ primitives, Word p.2 := by decide
  obtain ⟨before, after, split, -⟩ := List.lookup_eq_some_iff.mp known
  have entry : (name, native) ∈ (lexicon o).natives.entries := by simp [split]
  rcases PrimitiveTable.mem_insertAll entry with given | standard
  · exact plain.natives _ given
  · rcases PrimitiveTable.mem_insertAll standard with listed | absent
    · exact builtin _ listed
    · exact absurd absent List.not_mem_nil

/-- An identifier is its name, as it is or between backticks. -/
theorem text_identifier (o : SwiftOptions) (position : Position) (name : String) :
    ((lexicon o).identifier position name).text = name ∨
      ((lexicon o).identifier position name).text = "`" ++ name ++ "`" := by
  unfold Lexicon.identifier Lexicon.escape
  split
  · exact .inl rfl
  · split
    · exact .inr rfl
    · exact .inl rfl

theorem isTokenChar_of_mem_identifier {position : Position} {name : String} (word : Word name) :
    ∀ c ∈ ((lexicon o).identifier position name).text.toList, isTokenChar c = true := by
  have plain : ∀ c ∈ name.toList, isTokenChar c = true := by
    intro c inside
    simp [isTokenChar, word.2 c inside]
  rcases text_identifier o position name with same | quoted
  · rwa [same]
  · rw [quoted]
    simpa [isTokenChar, or_imp, forall_and] using plain

theorem isTokenChar_of_mem_reference (plain : o.Plain) {name : String} (word : Word name) :
    ∀ c ∈ ((lexicon o).reference name).text.toList, isTokenChar c = true := by
  unfold Lexicon.reference
  split
  · rename_i native known
    intro c inside
    simp [isTokenChar, (word_of_get? plain known).2 c inside]
  · exact isTokenChar_of_mem_identifier word

theorem isTokenChar_of_mem_native (plain : o.Plain) {name : String} (word : Word name) :
    ∀ c ∈ ((lexicon o).natives.native name).toList, isTokenChar c = true := by
  intro c inside
  unfold PrimitiveTable.native at inside
  cases known : (lexicon o).natives.get? name with
  | none =>
      rw [known] at inside
      simp [isTokenChar, word.2 c inside]
  | some native =>
      rw [known] at inside
      simp [isTokenChar, (word_of_get? plain known).2 c inside]

/-- A type is written as opening brackets, a token and closing characters, which say how the type
is built around its leaf. -/
theorem exists_text_typeText (plain : o.Plain) {type : TypeRef} (word : Word type.leafName) :
    ∃ n token closers, (typeText o type).text.toList =
        List.replicate n '[' ++ (token ++ closers) ∧
      (∀ c ∈ token, isTokenChar c = true) ∧ (∀ c ∈ closers, c = '?' ∨ c = ']') ∧
      closers.foldl closeType (.primitive (String.ofList token)) = tokens o type := by
  induction type with
  | primitive name =>
      refine ⟨0, (typeText o (.primitive name)).text.toList, [], by simp, ?_, by simp, ?_⟩
      · exact isTokenChar_of_mem_native plain word
      · simp [tokens]
  | named name =>
      refine ⟨0, (typeText o (.named name)).text.toList, [], by simp, ?_, by simp, ?_⟩
      · exact isTokenChar_of_mem_reference plain word
      · simp [tokens]
  -- Brackets and question marks are added on the outside, so they come last among the closers.
  | optional inner ih =>
      obtain ⟨n, token, closers, text, leaf, closing, built⟩ := ih word
      refine ⟨n, token, closers ++ ['?'], ?_, leaf, ?_, ?_⟩
      · simp [typeText, text]
      · simpa [or_imp, forall_and] using closing
      · rw [List.foldl_append, built]
        rfl
  | sequence inner ih =>
      obtain ⟨n, token, closers, text, leaf, closing, built⟩ := ih word
      refine ⟨n + 1, token, closers ++ [']'], ?_, leaf, ?_, ?_⟩
      · simp [typeText, text, List.replicate_succ]
      · simpa [or_imp, forall_and] using closing
      · rw [List.foldl_append, built]
        rfl

theorem no_break_typeText (plain : o.Plain) {type : TypeRef} (word : Word type.leafName) :
    '\n' ∉ (typeText o type).text.toList := by
  obtain ⟨n, token, closers, text, leaf, closing, -⟩ := exists_text_typeText plain word
  rw [text, List.mem_append, List.mem_append]
  rintro (bracket | inside | after)
  · exact absurd (List.eq_of_mem_replicate bracket) (by decide)
  · exact absurd (leaf _ inside) (by decide)
  · exact absurd (closing _ after) (by decide)

/-- **A type is read back by its tokens**, also inside parentheses. -/
theorem readType_typeText (plain : o.Plain) {type : TypeRef} (word : Word type.leafName)
    (rest : List Char) (after : ∀ c ∈ rest, c = ')') :
    readType ((typeText o type).text.toList ++ rest) = tokens o type := by
  obtain ⟨n, token, closers, text, leaf, closing, built⟩ := exists_text_typeText plain word
  have ends : ∀ c ∈ closers ++ rest, isTokenChar c = false ∧ (c == '[') = false := by
    intro c inside
    rcases List.mem_append.mp inside with closer | further
    · rcases closing c closer with rfl | rfl <;> decide
    · rw [after c further]
      decide
  have solid : ∀ c ∈ token ++ (closers ++ rest), (c == '[') = false := by
    intro c inside
    rcases List.mem_append.mp inside with inner | outer
    · rw [beq_eq_false_iff_ne]
      rintro rfl
      exact absurd (leaf _ inner) (by decide)
    · exact (ends c outer).2
  have brackets : ∀ c ∈ List.replicate n '[', (c == '[') = true := by
    intro c inside
    rw [List.eq_of_mem_replicate inside]
    rfl
  have body := (Text.takeWhile_dropWhile_run brackets
    fun c first => solid c (List.mem_of_mem_head? first)).2
  have inner := Text.takeWhile_dropWhile_run leaf
    fun c first => (ends c (List.mem_of_mem_head? first)).1
  have idle : ∀ t, rest.foldl closeType t = t := by
    intro t
    rw [List.eq_replicate_of_mem after]
    induction rest.length with
    | zero => rfl
    | succ n ih => exact ih
  rw [text, List.append_assoc, List.append_assoc, readType, body, inner.1, inner.2,
    List.foldl_append, built, idle]

theorem readType_text (plain : o.Plain) {type : TypeRef} (word : Word type.leafName) :
    readType (typeText o type).text.toList = tokens o type := by
  simpa using readType_typeText plain word [] (by simp)

/-- **A name is read back** from its identifier, which ends where no word goes on. -/
theorem readName_identifier (position : Position) {name : String} (word : Word name)
    {rest : List Char} (stop : ∀ c ∈ rest.head?, isWordChar c = false) :
    readName (((lexicon o).identifier position name).text.toList ++ rest) = (name, rest) := by
  rcases text_identifier o position name with same | quoted
  · obtain ⟨c, cs, chars, first⟩ := exists_cons_of_word word
    have plain : c ≠ '\x60' := ne_of_isWordChar first (by decide)
    obtain ⟨taken, left⟩ := Text.takeWhile_dropWhile_run word.2 stop
    rw [chars, List.cons_append] at taken left
    rw [same, chars, List.cons_append, readName, if_neg plain, taken, left, ← chars,
      String.ofList_toList]
  · have closes : isWordChar '\x60' = false := by decide
    obtain ⟨taken, left⟩ := Text.takeWhile_dropWhile_run word.2 (Text.stop_cons _ closes rest)
    simp [quoted, readName, taken, left]

/-! ## Lines -/

/-- A line is read on its own. -/
theorem run_line {line : List Char} (unbroken : '\n' ∉ line) (r : Reading) (rest : List Char) :
    r.run o (line ++ '\n' :: rest) = (r.step (readLine o line)).run o rest := by
  rw [Reading.run, Text.split_append_mark unbroken, List.foldl_cons]
  rfl

/-- The indentation of a line is taken off. -/
theorem readLine_indented (level : Nat) {content : List Char}
    (solid : ∀ c ∈ content.head?, (c == ' ') = false) :
    readLine o ((Text.times level "    ").toList ++ content) = readContent o content := by
  have spaces : ∀ c ∈ (Text.times level "    ").toList, (c == ' ') = true := by
    intro c inside
    rw [Text.toList_indent] at inside
    simp [List.eq_of_mem_replicate inside]
  rw [readLine, (Text.takeWhile_dropWhile_run spaces solid).2]

/-- A comment line is kept until something follows it. -/
theorem run_markedLine {line : String} (unbroken : '\n' ∉ line.toList) (level : Nat) (r : Reading)
    (rest : List Char) :
    r.run o ((Doc.markedLine (Text.times level "    ") "///" line).toList ++ rest) =
      { r with pending := r.pending ++ [line] }.run o rest := by
  obtain ⟨comment, written⟩ : ∃ comment : List Char,
      comment = ("///" ++ if line.isEmpty then "" else " " ++ line).toList := ⟨_, rfl⟩
  have text : (Doc.markedLine (Text.times level "    ") "///" line).toList ++ rest =
      ((Text.times level "    ").toList ++ comment) ++ '\n' :: rest := by
    simp [written, Doc.markedLine]
  have whole : '\n' ∉ (Text.times level "    ").toList ++ comment := by
    rw [Text.toList_indent, written]
    by_cases empty : line.isEmpty
    · simp [empty]
    · simp [empty, unbroken]
  have read : readLine o ((Text.times level "    ").toList ++ comment) = .comment line := by
    rw [readLine_indented level (by simp [written]), written]
    by_cases empty : line.isEmpty
    · simp [readContent, String.isEmpty_iff.mp empty]
    · simp [readContent, empty]
  rw [text, run_line whole, read]
  rfl

/-- The lines of a doc are kept until something follows them. -/
theorem run_docText (d : Doc) (level : Nat) (r : Reading) (rest : List Char) :
    r.run o ((docText d level).toList ++ rest) =
      { r with pending := r.pending ++ d.lines }.run o rest := by
  obtain ⟨lines, unbroken⟩ := d
  change r.run o ((String.join (lines.map (Doc.markedLine _ _))).toList ++ rest) = _
  induction lines generalizing r with
  | nil => simp
  | cons line lines ih =>
      rw [List.map_cons, String.join_cons, String.toList_append, List.append_assoc,
        run_markedLine (unbroken line List.mem_cons_self),
        ih _ fun l member => unbroken l (List.mem_cons_of_mem _ member)]
      simp

/-- What begins with a keyword and a name is read by its keyword. -/
theorem readContent_keyword {keyword : String} (key : Word keyword) (position : Position)
    {name : String} (word : Word name) {tail : List Char}
    (stop : ∀ c ∈ tail.head?, isWordChar c = false) :
    readContent o (keyword.toList ++
        ' ' :: (((lexicon o).identifier position name).text.toList ++ tail)) =
      readKeyword o keyword name tail := by
  have space : isWordChar ' ' = false := by decide
  obtain ⟨taken, left⟩ := Text.takeWhile_dropWhile_run key.2
    (Text.stop_cons _ space (((lexicon o).identifier position name).text.toList ++ tail))
  obtain ⟨c, cs, chars, first⟩ := exists_cons_of_word key
  have slash : c ≠ '/' := ne_of_isWordChar first (by decide)
  have brace : c ≠ '\x7d' := ne_of_isWordChar first (by decide)
  rw [readContent, taken, left, String.ofList_toList, List.drop_one, List.tail_cons,
    readName_identifier position word stop]
  simp [chars, slash, brace]

/-- A line that begins with a keyword and a name is read by its keyword. -/
theorem run_keywordLine (keyword : String) {lead : String} (key : Word keyword)
    (leads : lead.toList = keyword.toList ++ [' ']) (position : Position) {name : String}
    (word : Word name) {tail : String} (stop : ∀ c ∈ tail.toList.head?, isWordChar c = false)
    (unbroken : '\n' ∉ tail.toList) (d : Doc) (level : Nat) (r : Reading) (fresh : r.pending = [])
    (rest : List Char) :
    r.run o ((docText d level ++ (Text.times level "    " ++
        (lead ++ ((lexicon o).identifier position name).text ++ tail) ++ "\n")).toList ++ rest) =
      ({ r with pending := d.lines }.step (readKeyword o keyword name tail.toList)).run o rest := by
  obtain ⟨content, written⟩ : ∃ content : List Char, content = keyword.toList ++
      ' ' :: (((lexicon o).identifier position name).text.toList ++ tail.toList) := ⟨_, rfl⟩
  obtain ⟨c, cs, chars, first⟩ := exists_cons_of_word key
  have text : (docText d level ++ (Text.times level "    " ++
        (lead ++ ((lexicon o).identifier position name).text ++ tail) ++ "\n")).toList ++ rest =
      (docText d level).toList ++
        (((Text.times level "    ").toList ++ content) ++ '\n' :: rest) := by
    simp [written, leads]
  have solid : ∀ c ∈ content.head?, (c == ' ') = false := by
    have space : c ≠ ' ' := ne_of_isWordChar first (by decide)
    rw [written, chars]
    exact Text.stop_cons (· == ' ') (beq_eq_false_iff_ne.mpr space) _
  have whole : '\n' ∉ (Text.times level "    ").toList ++ content := by
    have inside : '\n' ∉ ((lexicon o).identifier position name).text.toList := fun member =>
      absurd (isTokenChar_of_mem_identifier word _ member) (by decide)
    rw [Text.toList_indent, written]
    simp [no_break_of_word key, inside, unbroken]
  rw [text, run_docText, run_line whole, readLine_indented level solid, written,
    readContent_keyword key position word stop, fresh, List.nil_append]

end Swift

end SchemaPress
