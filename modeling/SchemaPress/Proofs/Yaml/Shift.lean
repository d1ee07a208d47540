import SchemaPress.Proofs.Text.Lines
import SchemaPress.Proofs.Yaml.Ending

/-!
# Moving a text to the right

A text is moved to the right line by line: it is cut at its line feeds, each line that is not empty
gets its indentation, and each line, the last one too, gets its line feed. As long as no carriage
return is in the text, all that can be lost on this way is whether the last line had a line feed. So
a text whose last line has one can be told from where it has been moved
(`unlines_map_indented_injective`), and a text that is moved by nothing at most gains a line feed
(`toList_shiftedText_zero`).
-/

set_option autoImplicit false

namespace SchemaPress

namespace Text

/-! ## Lines and their line feeds -/

/-- Lines, each with a line feed at its end. -/
def unlines (lines : List (List Char)) : List Char :=
  lines.flatMap (· ++ ['\n'])

theorem unlines_cons (line : List Char) (lines : List (List Char)) :
    unlines (line :: lines) = line ++ '\n' :: unlines lines := by
  simp [unlines]

theorem unlines_append (upper lower : List (List Char)) :
    unlines (upper ++ lower) = unlines upper ++ unlines lower :=
  List.flatMap_append

/-- Every text is a list of lines and a rest without a line feed. -/
theorem exists_eq_unlines_append (cs : List Char) :
    ∃ lines last, cs = unlines lines ++ last ∧ (∀ line ∈ lines, '\n' ∉ line) ∧ '\n' ∉ last := by
  induction cs with
  | nil => exact ⟨[], [], rfl, by simp, by simp⟩
  | cons c cs ih =>
      obtain ⟨lines, last, whole, clean, open_⟩ := ih
      by_cases feed : c = '\n'
      · refine ⟨[] :: lines, last, ?_, by simpa using clean, open_⟩
        rw [unlines_cons, whole, feed]
        rfl
      · cases lines with
        | nil =>
            refine ⟨[], c :: last, by rw [whole]; rfl, by simp, ?_⟩
            simpa [open_] using Ne.symm feed
        | cons line lines =>
            refine ⟨(c :: line) :: lines, last, ?_, ?_, open_⟩
            · rw [whole, unlines_cons, unlines_cons]
              simp
            · rw [List.forall_mem_cons] at clean ⊢
              exact ⟨by simpa [clean.1] using Ne.symm feed, clean.2⟩

/-- Cutting gives the lines back, and the rest behind them. -/
theorem split_unlines_append {lines : List (List Char)} (clean : ∀ line ∈ lines, '\n' ∉ line)
    {last : List Char} (open_ : '\n' ∉ last) :
    split '\n' (unlines lines ++ last) = lines ++ [last] := by
  induction lines with
  | nil => exact split_of_not_mem open_
  | cons line lines ih =>
      rw [List.forall_mem_cons] at clean
      rw [unlines_cons, List.append_assoc, List.cons_append, split_append_mark clean.1, ih clean.2]
      rfl

/-- Lines can be told from their text. -/
theorem unlines_injective {lines others : List (List Char)} (clean : ∀ line ∈ lines, '\n' ∉ line)
    (cleanOthers : ∀ line ∈ others, '\n' ∉ line) (same : unlines lines = unlines others) :
    lines = others := by
  have cut := split_unlines_append clean List.not_mem_nil
  rw [same, split_unlines_append cleanOthers (by simp)] at cut
  exact (List.append_cancel_right cut).symm

theorem dropReturn_of_not_mem {line : List Char} (free : '\r' ∉ line) : dropReturn line = line := by
  rw [dropReturn, if_neg fun last => free (List.mem_of_getLast? last)]

theorem closeLines_concat {lines : List (List Char)} (free : ∀ line ∈ lines, '\r' ∉ line)
    (last : List Char) :
    closeLines (lines ++ [last]) = lines ++ if last.isEmpty then [] else [last] := by
  induction lines with
  | nil => simp [closeLines]
  | cons line lines ih =>
      rw [List.forall_mem_cons] at free
      have step : closeLines (line :: (lines ++ [last])) =
          dropReturn line :: closeLines (lines ++ [last]) := by
        rw [closeLines]
        simp
      rw [List.cons_append, step, dropReturn_of_not_mem free.1, ih free.2]
      rfl

end Text

namespace Yaml

open Text

/-! ## Indentation -/

/-- A line with its indentation. -/
def indented (n : Nat) (line : List Char) : List Char :=
  if line.isEmpty then [] else List.replicate n ' ' ++ line

theorem indented_injective (n : Nat) {line other : List Char}
    (same : indented n line = indented n other) : line = other := by
  unfold indented at same
  cases line <;> cases other <;> simp_all

theorem no_feed_indented {n : Nat} {line : List Char} (clean : '\n' ∉ line) :
    '\n' ∉ indented n line := by
  unfold indented
  split <;> simp [clean]

/-- **Lines that have been moved to the right can be told from their text.** -/
theorem unlines_map_indented_injective (n : Nat) {lines others : List (List Char)}
    (clean : ∀ line ∈ lines, '\n' ∉ line) (cleanOthers : ∀ line ∈ others, '\n' ∉ line)
    (same : unlines (lines.map (indented n)) = unlines (others.map (indented n))) :
    lines = others := by
  refine (List.map_inj_right fun _ _ => indented_injective n).mp (unlines_injective ?_ ?_ same)
  · simpa using fun line member => no_feed_indented (clean line member)
  · simpa using fun line member => no_feed_indented (cleanOthers line member)

/-- A text is moved to the right line by line. -/
theorem toList_shiftedText (n : Nat) {y : Yaml} {lines : List (List Char)} {last : List Char}
    (whole : y.text.toList = unlines lines ++ last) (free : '\r' ∉ y.text.toList)
    (clean : ∀ line ∈ lines, '\n' ∉ line) (open_ : '\n' ∉ last) :
    (y.shiftedText n).toList =
      unlines ((lines ++ if last.isEmpty then [] else [last]).map (indented n)) := by
  have freeLines : ∀ line ∈ lines, '\r' ∉ line := by
    intro line member found
    refine free ?_
    rw [whole]
    simp only [unlines, List.mem_append, List.mem_flatMap]
    exact .inl ⟨line, member, .inl found⟩
  have cut : closeLines (split '\n' y.text.toList) =
      lines ++ if last.isEmpty then [] else [last] := by
    rw [whole, split_unlines_append clean open_, closeLines_concat freeLines]
  have line : ∀ cs : List Char, (if (String.ofList cs).isEmpty then "\n"
      else spaces n ++ String.ofList cs ++ "\n").toList = indented n cs ++ ['\n'] := by
    intro cs
    cases cs <;> simp [indented, spaces]
  rw [shiftedText, Text.lines, cut, List.map_map, String.toList_join, List.flatMap_map, unlines,
    List.flatMap_map]
  exact congrArg (fun each => List.flatMap each _) (funext line)

/-- The text of a value with a line feed at its end, moved to the right. -/
theorem toList_shiftedText_closed (n : Nat) {y : Yaml} {lines : List (List Char)}
    (whole : y.text.toList = unlines lines) (free : '\r' ∉ y.text.toList)
    (clean : ∀ line ∈ lines, '\n' ∉ line) :
    (y.shiftedText n).toList = unlines (lines.map (indented n)) := by
  have moved := toList_shiftedText n (y := y) (by rw [whole, List.append_nil]) free clean (by simp)
  simpa using moved

/-- The line feed that a text lacks at its end. -/
def missingFeed (cs : List Char) : List Char :=
  if cs.getLast?.all (· = '\n') then [] else ['\n']

theorem missingFeed_append {cs : List Char} (filled : cs ≠ []) (front : List Char) :
    missingFeed (front ++ cs) = missingFeed cs := by
  rw [missingFeed, List.getLast?_append, List.getLast?_eq_some_getLast filled, Option.some_or,
    missingFeed, List.getLast?_eq_some_getLast filled]

theorem missingFeed_of_not_mem {cs : List Char} (filled : cs ≠ []) (open_ : '\n' ∉ cs) :
    missingFeed cs = ['\n'] := by
  have other : cs.getLast filled ≠ '\n' := fun same => open_ (same ▸ List.getLast_mem filled)
  rw [missingFeed, List.getLast?_eq_some_getLast filled]
  simpa using other

theorem missingFeed_unlines (lines : List (List Char)) : missingFeed (unlines lines) = [] := by
  obtain rfl | ⟨before, line, rfl⟩ := List.eq_nil_or_concat lines
  · rfl
  · rw [List.concat_eq_append, unlines_append, missingFeed_append (by simp [unlines])]
    simp [unlines, missingFeed]

/-- A text that is moved by nothing at most gains a line feed. -/
theorem toList_shiftedText_zero {y : Yaml} (free : '\r' ∉ y.text.toList) :
    (y.shiftedText 0).toList = y.text.toList ++ missingFeed y.text.toList := by
  obtain ⟨lines, last, whole, clean, open_⟩ := exists_eq_unlines_append y.text.toList
  have still : indented 0 = id := by
    funext line
    cases line <;> rfl
  rw [toList_shiftedText 0 whole free clean open_, still, List.map_id, unlines_append, whole,
    List.append_assoc]
  cases last with
  | nil => rw [List.append_nil, missingFeed_unlines]; rfl
  | cons c last =>
      rw [missingFeed_append (by simp), missingFeed_of_not_mem (by simp) open_]
      simp [unlines]

/-- What moving a text loses: a further line feed at its end is one of the moved text only if the
text has a line feed there already. -/
theorem toList_shiftedText_concat (n : Nat) {y y' : Yaml}
    (feed : y'.text.toList = y.text.toList ++ ['\n']) (free : '\r' ∉ y'.text.toList) :
    (y'.shiftedText n).toList =
      (y.shiftedText n).toList ++ if missingFeed y.text.toList = [] then ['\n'] else [] := by
  obtain ⟨lines, last, whole, clean, open_⟩ := exists_eq_unlines_append y.text.toList
  have freeBefore : '\r' ∉ y.text.toList := fun member => free (by simp [feed, member])
  have cleanAll : ∀ line ∈ lines ++ [last], '\n' ∉ line := by
    intro line member
    rcases List.mem_append.mp member with upper | lowest
    · exact clean line upper
    · exact List.mem_singleton.mp lowest ▸ open_
  have whole' : y'.text.toList = unlines (lines ++ [last]) := by
    rw [feed, whole, unlines_append]
    simp [unlines]
  rw [toList_shiftedText n whole freeBefore clean open_, whole,
    toList_shiftedText_closed n whole' free cleanAll]
  cases last with
  | nil =>
      rw [List.append_nil, missingFeed_unlines]
      simp [unlines, indented]
  | cons c last =>
      rw [missingFeed_append (by simp), missingFeed_of_not_mem (by simp) open_]
      simp

/-! ## Entries that have been moved -/

/-- A text with a line feed at its end is a list of lines. -/
theorem EndsLine.exists_eq_unlines {cs : List Char} (ends : EndsLine cs) :
    ∃ lines, cs = unlines lines ∧ ∀ line ∈ lines, '\n' ∉ line := by
  obtain ⟨lines, last, whole, clean, open_⟩ := exists_eq_unlines_append cs
  obtain ⟨front, rfl⟩ := ends
  obtain rfl | ⟨more, c, rfl⟩ := List.eq_nil_or_concat last
  · exact ⟨lines, by rw [whole, List.append_nil], clean⟩
  · rw [List.concat_eq_append, ← List.append_assoc] at whole
    obtain ⟨-, same⟩ := List.append_inj' whole rfl
    simp [← same] at open_

/-- The last line of a text with exactly one line feed at its end is not empty. -/
theorem EndsOnce.exists_last {lines : List (List Char)} (ends : EndsOnce (unlines lines)) :
    ∃ before line c, lines = before ++ [line ++ [c]] ∧ c ≠ '\n' := by
  obtain ⟨front, c, whole, other⟩ := ends
  obtain rfl | ⟨before, line, rfl⟩ := List.eq_nil_or_concat lines
  · simp [unlines] at whole
  rw [List.concat_eq_append, unlines_append, unlines_cons, show [c, '\n'] = [c] ++ ['\n'] from rfl,
    ← List.append_assoc, ← List.append_assoc] at whole
  have contents : unlines before ++ line = front ++ [c] := List.append_cancel_right whole
  obtain rfl | ⟨start, d, rfl⟩ := List.eq_nil_or_concat line
  · obtain rfl | ⟨earlier, line, rfl⟩ := List.eq_nil_or_concat before
    · simp [unlines] at contents
    · rw [List.concat_eq_append, unlines_append, unlines_cons, List.append_nil,
        show unlines [] = [] from rfl, ← List.append_assoc] at contents
      obtain ⟨-, same⟩ := List.append_inj' contents rfl
      simp [← List.cons.inj same |>.1] at other
  · rw [List.concat_eq_append, ← List.append_assoc] at contents
    obtain ⟨-, same⟩ := List.append_inj' contents rfl
    exact ⟨before, start, d, by simp, by rwa [(List.cons.inj same).1]⟩

/-- A text with exactly one line feed at its end has one after it has been moved. -/
theorem EndsOnce.map_indented (n : Nat) {lines : List (List Char)}
    (ends : EndsOnce (unlines lines)) :
    EndsOnce (unlines (lines.map (indented n))) := by
  obtain ⟨before, line, c, rfl, other⟩ := ends.exists_last
  refine ⟨unlines (before.map (indented n)) ++ (List.replicate n ' ' ++ line), c, ?_, other⟩
  simp [unlines, indented]

/-- The text of a mapping with one entry. -/
theorem text_mapping_singleton (key : String) (value : Yaml) :
    (Yaml.mapping [(key, value)]).text = entryText 0 key value := by
  rw [text, inlineText, entriesText, String.append_empty]

/-- The texts of entries, one below the other, each moved to the right. -/
def shiftedEntries (n : Nat) (entries : List (String × Yaml)) : List Char :=
  entries.flatMap fun entry => ((Yaml.mapping [entry]).shiftedText n).toList

/-- Entries are moved to the right line by line, if the text of each ends with a line feed. -/
theorem exists_shiftedEntries_eq (n : Nat) :
    ∀ entries : List (String × Yaml), (∀ entry ∈ entries, ∀ s ∈ closing entry.2, Closed s) →
      ∃ lines, (∀ line ∈ lines, '\n' ∉ line) ∧ (entriesText 0 entries).toList = unlines lines ∧
        shiftedEntries n entries = unlines (lines.map (indented n))
  | [], _ => ⟨[], by simp, by rw [entriesText]; rfl, rfl⟩
  | (key, value) :: entries, closed => by
      rw [List.forall_mem_cons] at closed
      obtain ⟨lower, cleanLower, written, moved⟩ := exists_shiftedEntries_eq n entries closed.2
      have ends : EndsLine (entryText 0 key value).toList :=
        isEnding_endsLine.entryText key value 0 fun s last => (closed.1 s last).endsAs
      obtain ⟨upper, whole, clean⟩ := ends.exists_eq_unlines
      rw [← text_mapping_singleton] at whole
      have free := no_return_text (.mapping [(key, value)])
      refine ⟨upper ++ lower, ?_, ?_, ?_⟩
      · intro line member
        exact (List.mem_append.mp member).elim (clean line) (cleanLower line)
      · rw [entriesText, String.toList_append, written, unlines_append, ← whole,
          text_mapping_singleton]
        simp [spaces]
      · rw [shiftedEntries, List.flatMap_cons, toList_shiftedText_closed n whole free clean,
          List.map_append, unlines_append, ← moved]
        rfl

/-- Entries whose last one ends with exactly one line feed do so after they have been moved. -/
theorem endsOnce_shiftedEntries (n : Nat) {entries : List (String × Yaml)} (filled : entries ≠ [])
    (once : ∀ entry ∈ entries.getLast?, ∀ s ∈ closing entry.2, ClosedOnce s) :
    EndsOnce (shiftedEntries n entries) := by
  obtain ⟨before, ⟨key, value⟩, rfl⟩ := (List.eq_nil_or_concat entries).resolve_left filled
  rw [List.concat_eq_append] at once ⊢
  have last : ∀ s ∈ closing value, ClosedOnce s := once (key, value) (by simp)
  have ends : EndsOnce (entryText 0 key value).toList :=
    isEnding_endsOnce.entryText key value 0 fun s member => (last s member).endsAs
  obtain ⟨lines, clean, written, moved⟩ := exists_shiftedEntries_eq n [(key, value)]
    (by simpa using fun s member => (last s member).1)
  have single : (entriesText 0 [(key, value)]).toList = (entryText 0 key value).toList := by
    simp [entriesText, spaces]
  rw [← single, written] at ends
  have final := ends.map_indented n
  rw [← moved] at final
  rw [shiftedEntries, List.flatMap_append]
  exact isEnding_endsOnce.grows _ final

/-- **Entries can be told from where they have been moved**, if the text of each ends with a line
feed. -/
theorem shiftedEntries_injective (n : Nat) {entries others : List (String × Yaml)}
    (closed : ∀ entry ∈ entries, ∀ s ∈ closing entry.2, Closed s)
    (closedOthers : ∀ entry ∈ others, ∀ s ∈ closing entry.2, Closed s)
    (same : shiftedEntries n entries = shiftedEntries n others) : entries = others := by
  obtain ⟨lines, clean, written, moved⟩ := exists_shiftedEntries_eq n entries closed
  obtain ⟨lines', clean', written', moved'⟩ := exists_shiftedEntries_eq n others closedOthers
  rw [moved, moved'] at same
  have texts : (entriesText 0 entries).toList = (entriesText 0 others).toList := by
    rw [written, written', unlines_map_indented_injective n clean clean' same]
  let fuel := sizeOf entries + sizeOf others + 1
  have read : readEntries fuel 0 ((entriesText 0 entries).toList ++ []) = some (entries, []) :=
    readEntries_entriesText entries (by omega) (.inl rfl)
  have readOthers : readEntries fuel 0 ((entriesText 0 others).toList ++ []) = some (others, []) :=
    readEntries_entriesText others (by omega) (.inl rfl)
  rw [texts, readOthers] at read
  simpa using read.symm

end Yaml

end SchemaPress
