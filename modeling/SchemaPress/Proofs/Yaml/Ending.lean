import SchemaPress.Proofs.Yaml.Reader

/-!
# The characters and the end of a YAML text

No carriage return stands in a YAML text: a string with one is written in double quotes, where it is
escaped. A text ends as the last string in it does, if there is one: any other last line ends with
exactly one line feed (`IsEnding.inlineText`). A string in quotes or without any also does so, and a
block ends as the string itself does.
-/

set_option autoImplicit false

namespace SchemaPress.Yaml

/-! ## Carriage returns -/

theorem not_isPrintable_return : isPrintable '\r' = false := by decide

theorem no_return_of_printable {cs : List Char} (printable : cs.any (!isPrintable ·) = false) :
    '\r' ∉ cs := by
  intro member
  have visible := List.any_eq_false.mp printable _ member
  exact absurd not_isPrintable_return (by simpa using visible)

theorem no_return_indentation {pad : List Char} (padFree : '\r' ∉ pad) (broken : Bool) :
    '\r' ∉ if broken then pad else [] := by
  cases broken <;> simp [padFree]

theorem no_return_singleChars {pad cs : List Char} (padFree : '\r' ∉ pad) (free : '\r' ∉ cs)
    (broken : Bool) : '\r' ∉ singleChars pad broken cs := by
  induction cs generalizing broken with
  | nil => simp [singleChars, no_return_indentation padFree]
  | cons c cs ih =>
      rw [List.mem_cons, not_or] at free
      have written : '\r' ∉ if c = '\'' then ['\'', '\''] else [c] := by
        split
        · decide
        · simpa using free.1
      rw [singleChars]
      split
      · simp [free.1, ih free.2]
      · split
        · simp [free.1, ih free.2]
        · simp [no_return_indentation padFree, written, ih free.2]

theorem no_return_doubleEscape (c : Char) : '\r' ∉ doubleEscape c := by
  by_cases listed : c ∈ shortEscapes.map Prod.snd
  · obtain ⟨p, known, rfl⟩ := List.mem_map.mp listed
    have other : p.1 ≠ '\r' := by
      have each : shortEscapes.all (fun p => p.1 != '\r') = true := by decide
      simpa using List.all_eq_true.mp each p known
    rw [(doubleEscape_of_mem known).1]
    simp [Ne.symm other]
  · have other : c ≠ '\r' := by
      rintro rfl
      exact listed (by decide)
    have digits : ∀ width, '\r' ∉ Text.hexPadded Text.upperHexDigit width c.toNat := by
      intro width member
      have each : ∀ d, d < 16 → Text.upperHexDigit d ≠ '\r' := by decide
      obtain ⟨d, small, same⟩ := Text.exists_of_mem_hexPadded member
      exact each d small same.symm
    rw [doubleEscape_of_not_mem listed]
    split_ifs <;> simp [digits, Ne.symm other]

theorem no_return_literalChars {pad cs : List Char} (padFree : '\r' ∉ pad) (free : '\r' ∉ cs)
    (broken : Bool) : '\r' ∉ literalChars pad broken cs := by
  induction cs generalizing broken with
  | nil => simp [literalChars]
  | cons c cs ih =>
      rw [List.mem_cons, not_or] at free
      rw [literalChars]
      split
      · simp [free.1, ih free.2]
      · simp [no_return_indentation padFree, free.1, ih free.2]

/-- No style writes a carriage return. -/
theorem no_return_styledChars (simpleKey : Bool) (s : String) (n : Nat) :
    '\r' ∉ styledChars (style simpleKey s) (List.replicate n ' ') s.toList := by
  have padFree : '\r' ∉ List.replicate n ' ' := by simp
  cases chosen : style simpleKey s with
  | plain =>
      intro member
      exact absurd ((isPlain_of_style chosen).line _ member) (by decide)
  | singleQuoted =>
      have allowed := style_eq_single chosen
      simp only [allowsSingle, Bool.not_eq_true', Bool.or_eq_false_iff] at allowed
      simpa [styledChars] using
        no_return_singleChars padFree (no_return_of_printable allowed.2) false
  | doubleQuoted => simp [styledChars, no_return_doubleEscape]
  | literal =>
      obtain ⟨-, filled, allowed⟩ := style_eq_literal chosen
      obtain ⟨signs, header, few, -⟩ := exists_eq_literalHeader filled
      have headerFree : '\r' ∉ signs := not_mem_signs few (by decide)
      simp only [allowsLiteral, Bool.not_eq_true', Bool.or_eq_false_iff] at allowed
      simp [styledChars, header, headerFree,
        no_return_literalChars padFree (no_return_of_printable allowed.2)]

theorem no_return_scalarLine (column : Nat) (s : String) : '\r' ∉ (scalarLine column s).toList := by
  rw [toList_scalarLine, List.mem_append, not_or]
  refine ⟨no_return_styledChars false s (column + 2), ?_⟩
  split <;> decide

theorem no_return_keyText (column : Nat) (key : String) : '\r' ∉ (keyText column key).toList := by
  rw [keyText, String.toList_ofList]
  exact no_return_styledChars true key (column + 2)

theorem no_return_keyLine (column : Nat) (key : String) : '\r' ∉ (keyLine column key).toList := by
  rw [keyLine]
  split <;> simp [no_return_scalarLine, no_return_keyText, spaces]

theorem no_return_boolLine (b : Bool) : '\r' ∉ (boolLine b).toList := by
  cases b <;> decide

mutual

/-- **No carriage return stands in a YAML text.** -/
theorem no_return_inlineText (outer column : Nat) :
    ∀ value : Yaml, '\r' ∉ (inlineText outer column value).toList
  | .bool b => by simp [inlineText, no_return_boolLine]
  | .string s => by simp [inlineText, no_return_scalarLine]
  | .sequence [] => by simp [inlineText]
  | .sequence (item :: items) => by
      simp [inlineText, no_return_inlineText column (column + 2) item,
        no_return_itemsText column items]
  | .mapping [] => by simp [inlineText]
  | .mapping ((key, value) :: entries) => by
      simp [inlineText, no_return_entryText column key value, no_return_entriesText column entries]

theorem no_return_itemsText (column : Nat) :
    ∀ items : List Yaml, '\r' ∉ (itemsText column items).toList
  | [] => by simp [itemsText]
  | item :: items => by
      simp [itemsText, spaces, no_return_inlineText column (column + 2) item,
        no_return_itemsText column items]

theorem no_return_entriesText (column : Nat) :
    ∀ entries : List (String × Yaml), '\r' ∉ (entriesText column entries).toList
  | [] => by simp [entriesText]
  | (key, value) :: entries => by
      simp [entriesText, spaces, no_return_entryText column key value,
        no_return_entriesText column entries]

theorem no_return_entryText (column : Nat) (key : String) :
    ∀ value : Yaml, '\r' ∉ (entryText column key value).toList
  | .bool b => by simp [entryText, no_return_keyLine, no_return_boolLine]
  | .string s => by simp [entryText, no_return_keyLine, no_return_scalarLine]
  | .sequence [] => by simp [entryText, no_return_keyLine]
  | .mapping [] => by simp [entryText, no_return_keyLine]
  | .sequence (item :: items) => by
      rw [entryText]
      split
      · simp [no_return_keyLine, no_return_inlineText (column + 2) (column + 4) item,
          no_return_itemsText (column + 2) items]
      · simp [no_return_keyText, spaces, no_return_inlineText column (column + 2) item,
          no_return_itemsText column items]
  | .mapping ((key', value') :: entries) => by
      rw [entryText]
      split
      · simp [no_return_keyLine, no_return_entryText (column + 2) key' value',
          no_return_entriesText (column + 2) entries]
      · simp [no_return_keyText, spaces, no_return_entryText (column + 2) key' value',
          no_return_entriesText (column + 2) entries]

end

theorem no_return_text (value : Yaml) : '\r' ∉ value.text.toList :=
  no_return_inlineText 0 0 value

/-! ## The last string -/

mutual

/-- The string that the text of a value ends with, if it ends with one. -/
def closing : Yaml → Option String
  | .bool _ => none
  | .string s => some s
  | .sequence items => closingItem items
  | .mapping entries => closingEntry entries

/-- The string that the last item ends with. -/
def closingItem : List Yaml → Option String
  | [] => none
  | [item] => closing item
  | _ :: item :: items => closingItem (item :: items)

/-- The string that the last entry ends with. -/
def closingEntry : List (String × Yaml) → Option String
  | [] => none
  | [(_, value)] => closing value
  | _ :: entry :: entries => closingEntry (entry :: entries)

end

section Ends

variable {Ends : List Char → Prop}

/-- A way to end that does not depend on what stands in front of a line with one sign. -/
structure IsEnding (Ends : List Char → Prop) : Prop where
  grows : ∀ (front : List Char) {cs : List Char}, Ends cs → Ends (front ++ cs)
  sign : ∀ {c : Char}, c ≠ '\n' → Ends [c, '\n']

/-- A string ends in a certain way, wherever it stands. -/
def EndsAs (Ends : List Char → Prop) (s : String) : Prop :=
  ∀ column, Ends (scalarLine column s).toList

theorem IsEnding.append (ending : IsEnding Ends) (front : String) {last : String}
    (ends : Ends last.toList) : Ends (front ++ last).toList := by
  rw [String.toList_append]
  exact ending.grows _ ends

theorem IsEnding.line (ending : IsEnding Ends) (front : List Char) {c : Char} (other : c ≠ '\n') :
    Ends (front ++ [c, '\n']) :=
  ending.grows front (ending.sign other)

theorem IsEnding.boolLine (ending : IsEnding Ends) (b : Bool) : Ends (boolLine b).toList := by
  cases b with
  | true => exact ending.line ['t', 'r', 'u'] (by decide)
  | false => exact ending.line ['f', 'a', 'l', 's'] (by decide)

mutual

/-- **The text of a value ends as its last string does**, or with a sign and a line feed. -/
theorem IsEnding.inlineText (ending : IsEnding Ends) : ∀ (value : Yaml) {outer column : Nat},
    (∀ s ∈ closing value, EndsAs Ends s) → Ends (inlineText outer column value).toList
  | .bool b, _, _, _ => by
      rw [Yaml.inlineText]
      exact ending.boolLine b
  | .string s, outer, _, last => by
      rw [Yaml.inlineText]
      exact last s rfl outer
  | .sequence [], _, _, _ => by
      rw [Yaml.inlineText]
      exact ending.line ['['] (by decide)
  | .sequence (item :: items), _, column, last => by
      rw [Yaml.inlineText]
      exact ending.items item items column "- " last
  | .mapping [], _, _, _ => by
      rw [Yaml.inlineText]
      exact ending.line ['\x7b'] (by decide)
  | .mapping ((key, value) :: entries), _, column, last => by
      have ends := ending.entries key value entries column "" last
      rw [String.empty_append] at ends
      rwa [Yaml.inlineText]
termination_by value => sizeOf value

theorem IsEnding.items (ending : IsEnding Ends) :
    ∀ (item : Yaml) (items : List Yaml) (column : Nat) (front : String),
      (∀ s ∈ closingItem (item :: items), EndsAs Ends s) →
      Ends (front ++ Yaml.inlineText column (column + 2) item ++ itemsText column items).toList
  | item, [], column, front, last => by
      rw [itemsText, String.append_empty]
      exact ending.append front (ending.inlineText item last)
  | _, item :: items, column, front, last => by
      rw [itemsText]
      exact ending.append _ (ending.items item items column (spaces column ++ "- ") last)
termination_by item items => sizeOf (item :: items)

theorem IsEnding.entries (ending : IsEnding Ends) :
    ∀ (key : String) (value : Yaml) (entries : List (String × Yaml)) (column : Nat)
      (front : String),
      (∀ s ∈ closingEntry ((key, value) :: entries), EndsAs Ends s) →
      Ends (front ++ Yaml.entryText column key value ++ entriesText column entries).toList
  | key, value, [], column, front, last => by
      rw [entriesText, String.append_empty]
      exact ending.append front (ending.entryText key value column last)
  | _, _, (key, value) :: entries, column, front, last => by
      rw [entriesText]
      exact ending.append _ (ending.entries key value entries column (spaces column) last)
termination_by key value entries => sizeOf ((key, value) :: entries)

theorem IsEnding.entryText (ending : IsEnding Ends) (key : String) :
    ∀ (value : Yaml) (column : Nat), (∀ s ∈ closing value, EndsAs Ends s) →
      Ends (Yaml.entryText column key value).toList
  | .bool b, column, _ => by
      rw [Yaml.entryText]
      exact ending.append _ (ending.boolLine b)
  | .string s, column, last => by
      rw [Yaml.entryText]
      exact ending.append _ (last s rfl column)
  | .sequence [], _, _ => by
      rw [Yaml.entryText]
      exact ending.append _ (ending.line ['['] (by decide))
  | .mapping [], _, _ => by
      rw [Yaml.entryText]
      exact ending.append _ (ending.line ['\x7b'] (by decide))
  | .sequence (item :: items), column, last => by
      rw [Yaml.entryText]
      split
      · exact ending.items item items (column + 2) _ last
      · exact ending.items item items column _ last
  | .mapping ((key', value') :: entries), column, last => by
      rw [Yaml.entryText]
      split
      · exact ending.entries key' value' entries (column + 2) _ last
      · exact ending.entries key' value' entries (column + 2) _ last
termination_by value => sizeOf value

end

end Ends

/-! ## The end of a string -/

/-- A text that ends with a line feed. -/
def EndsLine (cs : List Char) : Prop :=
  ∃ front, cs = front ++ ['\n']

/-- A text that ends with exactly one line feed. -/
def EndsOnce (cs : List Char) : Prop :=
  ∃ front c, cs = front ++ [c, '\n'] ∧ c ≠ '\n'

theorem isEnding_endsLine : IsEnding EndsLine where
  grows := by
    rintro front _ ⟨more, rfl⟩
    exact ⟨front ++ more, by simp⟩
  sign := by
    rintro c -
    exact ⟨[c], rfl⟩

theorem isEnding_endsOnce : IsEnding EndsOnce where
  grows := by
    rintro front _ ⟨more, c, rfl, other⟩
    exact ⟨front ++ more, c, by simp, other⟩
  sign := by
    rintro c other
    exact ⟨[], c, rfl, other⟩

/-- A string does not end, as a block, with another line break than a line feed. -/
def Closed (s : String) : Prop :=
  style false s = .literal → s.toList.getLast? ≠ some '\u2028' ∧ s.toList.getLast? ≠ some '\u2029'

/-- A string does not end, as a block, with an empty line. -/
def ClosedOnce (s : String) : Prop :=
  Closed s ∧ (style false s = .literal → s ≠ "\n" ∧ ¬ ['\n', '\n'] <:+ s.toList)

instance (s : String) : Decidable (Closed s) :=
  inferInstanceAs (Decidable (_ → _))

instance (s : String) : Decidable (ClosedOnce s) :=
  inferInstanceAs (Decidable (_ ∧ _))

theorem exists_singleChars_eq (pad : List Char) :
    ∀ (cs : List Char) (broken : Bool), ∃ front, singleChars pad broken cs = front ++ ['\'']
  | [], broken => ⟨if broken then pad else [], rfl⟩
  | c :: cs, broken => by
      obtain ⟨afterBreak, ends⟩ := exists_singleChars_eq pad cs true
      obtain ⟨same, endsSame⟩ := exists_singleChars_eq pad cs broken
      obtain ⟨inside, endsInside⟩ := exists_singleChars_eq pad cs false
      rw [singleChars]
      split
      · exact ⟨c :: afterBreak, by rw [ends]; rfl⟩
      · split
        · exact ⟨c :: same, by rw [endsSame]; rfl⟩
        · exact ⟨_ ++ inside, by rw [endsInside, ← List.append_assoc]⟩

theorem exists_literalChars_concat (pad : List Char) (c : Char) :
    ∀ (cs : List Char) (broken : Bool), ∃ front,
      literalChars pad broken (cs ++ [c]) = front ++ [c]
  | [], broken => by
      by_cases ends : isBreak c = true
      · exact ⟨[], by simp [literalChars, ends]⟩
      · exact ⟨if broken then pad else [], by simp [literalChars, ends]⟩
  | d :: cs, broken => by
      obtain ⟨afterBreak, ends⟩ := exists_literalChars_concat pad c cs true
      obtain ⟨inside, endsInside⟩ := exists_literalChars_concat pad c cs false
      rw [List.cons_append, literalChars]
      split
      · exact ⟨d :: afterBreak, by rw [ends]; rfl⟩
      · exact ⟨_ ++ d :: inside, by rw [endsInside, List.append_assoc]; rfl⟩

/-- A string in quotes or without any ends with exactly one line feed. -/
theorem endsOnce_of_ne_literal {s : String} (other : style false s ≠ .literal) :
    EndsAs EndsOnce s := by
  intro column
  rw [toList_scalarLine_of_ne_literal column other]
  cases chosen : style false s with
  | literal => exact absurd chosen other
  | singleQuoted =>
      obtain ⟨front, ends⟩ := exists_singleChars_eq (List.replicate (column + 2) ' ') s.toList false
      exact ⟨'\'' :: front, '\'', by simp [styledChars, ends], by decide⟩
  | doubleQuoted =>
      exact ⟨'"' :: s.toList.flatMap doubleEscape, '"', by simp [styledChars], by decide⟩
  | plain =>
      have plain := isPlain_of_style chosen
      obtain ⟨front, c, whole⟩ := (List.eq_nil_or_concat s.toList).resolve_left plain.filled
      rw [List.concat_eq_append] at whole
      have line : isBreak c = false := plain.line c (by simp [whole])
      refine ⟨front, c, by simp [styledChars, whole], ?_⟩
      rintro rfl
      exact absurd line (by decide)

/-- A block ends as its string does: with its last line break, or with a line feed behind its last
character. -/
theorem exists_toList_scalarLine_of_literal {s : String} (chosen : style false s = .literal)
    {before : List Char} {c : Char} (whole : s.toList = before ++ [c]) (column : Nat) :
    ∃ front, (scalarLine column s).toList =
      front ++ literalChars (List.replicate (column + 2) ' ') true (before ++ [c])
        ++ if isBreak c then [] else ['\n'] := by
  refine ⟨literalHeader s.toList ++ ['\n'], ?_⟩
  rw [toList_scalarLine, chosen, styledChars, whole]
  simp

/-- A line break that stands for itself is a line feed or one of the two separators. -/
theorem isBreak_of_isPrintable {c : Char} (ends : isBreak c = true)
    (visible : isPrintable c = true) :
    c = '\n' ∨ c = '\u2028' ∨ c = '\u2029' := by
  simp only [isBreak, Bool.or_eq_true, decide_eq_true_eq] at ends
  rcases ends with (((feed | ret) | next) | separator) | paragraph
  · exact .inl feed
  · rw [ret] at visible
    exact absurd visible (by decide)
  · rw [next] at visible
    exact absurd visible (by decide)
  · exact .inr (.inl separator)
  · exact .inr (.inr paragraph)

/-- A block that ends with a line break ends with a line feed, unless with a separator. -/
theorem Closed.last_eq {s : String} (closed : Closed s) (chosen : style false s = .literal)
    {before : List Char} {c : Char} (whole : s.toList = before ++ [c]) (ends : isBreak c = true) :
    c = '\n' := by
  obtain ⟨-, -, allowed⟩ := style_eq_literal chosen
  simp only [allowsLiteral, Bool.not_eq_true', Bool.or_eq_false_iff] at allowed
  have visible : isPrintable c = true := by
    have each := List.any_eq_false.mp allowed.2 c (by simp [whole])
    simpa using each
  obtain ⟨not_separator, not_paragraph⟩ := closed chosen
  rw [whole, List.getLast?_concat] at not_separator not_paragraph
  rcases isBreak_of_isPrintable ends visible with feed | separator | paragraph
  · exact feed
  · exact absurd (congrArg some separator) not_separator
  · exact absurd (congrArg some paragraph) not_paragraph

/-- A string that does not end with a separator ends with a line feed. -/
theorem Closed.endsAs {s : String} (closed : Closed s) : EndsAs EndsLine s := by
  intro column
  by_cases chosen : style false s = .literal
  · obtain ⟨-, filled, -⟩ := style_eq_literal chosen
    obtain ⟨before, c, whole⟩ := (List.eq_nil_or_concat s.toList).resolve_left filled
    rw [List.concat_eq_append] at whole
    obtain ⟨front, written⟩ := exists_toList_scalarLine_of_literal chosen whole column
    rw [written]
    by_cases ends : isBreak c = true
    · obtain ⟨inside, last⟩ :=
        exists_literalChars_concat (List.replicate (column + 2) ' ') c before true
      rw [last, if_pos ends, closed.last_eq chosen whole ends]
      exact ⟨front ++ inside, by simp⟩
    · rw [if_neg ends]
      exact ⟨_, rfl⟩
  · obtain ⟨front, c, whole, -⟩ := endsOnce_of_ne_literal chosen column
    exact ⟨front ++ [c], by rw [whole]; simp⟩

/-- A string that does not end with an empty line ends with exactly one line feed. -/
theorem ClosedOnce.endsAs {s : String} (once : ClosedOnce s) : EndsAs EndsOnce s := by
  intro column
  by_cases chosen : style false s = .literal
  · obtain ⟨-, filled, -⟩ := style_eq_literal chosen
    obtain ⟨before, c, whole⟩ := (List.eq_nil_or_concat s.toList).resolve_left filled
    rw [List.concat_eq_append] at whole
    obtain ⟨front, written⟩ := exists_toList_scalarLine_of_literal chosen whole column
    rw [written]
    by_cases ends : isBreak c = true
    · have feed := once.1.last_eq chosen whole ends
      subst feed
      obtain ⟨not_feed, not_feeds⟩ := once.2 chosen
      have more : before ≠ [] := by
        rintro rfl
        exact not_feed (String.toList_inj.mp whole)
      obtain ⟨earlier, d, split⟩ := (List.eq_nil_or_concat before).resolve_left more
      rw [List.concat_eq_append] at split
      subst split
      have other : d ≠ '\n' := by
        rintro rfl
        exact not_feeds ⟨earlier, by simp [whole]⟩
      obtain ⟨inside, last⟩ :=
        exists_literalChars_concat (List.replicate (column + 2) ' ') d earlier true
      rw [literalChars_concat_break _ ends, last, if_pos ends]
      exact ⟨front ++ inside, d, by simp, other⟩
    · obtain ⟨inside, last⟩ :=
        exists_literalChars_concat (List.replicate (column + 2) ' ') c before true
      rw [last, if_neg ends]
      refine ⟨front ++ inside, c, by simp, ?_⟩
      rintro rfl
      exact ends (by decide)
  · exact endsOnce_of_ne_literal chosen column

end SchemaPress.Yaml
