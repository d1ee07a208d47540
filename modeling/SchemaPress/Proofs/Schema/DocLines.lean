import SchemaPress.Proofs.Json.Order
import SchemaPress.Proofs.Json.Plain
import SchemaPress.Proofs.Schema.Comment
import SchemaPress.Proofs.Schema.RoundTrip

/-!
# The lines of a doc

A doc is made from a list of texts, from a single text, or from a JSON value. Whichever it is, no
line of the doc holds a line feed, and there is no other condition on the lines. So a doc that is
written with a marker in front of each line can be read back: its text is as many lines as the doc
has, and each is the marker with the line of the doc behind it (`Doc.marked_reads_back`).

A list of texts is cut at line feeds, and then each piece loses a closing carriage return, whether
a line feed followed it or not. A single text loses a carriage return only in front of a line feed.
So a line of a doc may end with a carriage return, but does so no more when the doc is made again
from its own lines, or read from its JSON form. Docs without such a line are made again as they
are, and no other docs are (`Doc.made_again_iff`).
-/

set_option autoImplicit false

namespace SchemaPress

namespace Text

theorem pieces_of_no_break {s : String} (unbroken : '\n' ∉ s.toList) :
    pieces s = [String.ofList (dropReturn s.toList)] := by
  rw [pieces, split_of_not_mem unbroken, List.map_singleton]

theorem dropReturn_concat (cs : List Char) : dropReturn (cs ++ ['\r']) = cs := by
  simp [dropReturn]

/-- A text stays as it is exactly if it does not end with a carriage return. -/
theorem dropReturn_eq_self_iff {cs : List Char} :
    dropReturn cs = cs ↔ cs.getLast? ≠ some '\r' := by
  constructor
  · intro same closing
    rw [dropReturn, if_pos closing] at same
    have shorter := congrArg List.length same
    have filled : cs ≠ [] := by
      rintro rfl
      cases closing
    rw [List.length_dropLast] at shorter
    have positive := List.length_pos_iff.mpr filled
    omega
  · intro open_
    rw [dropReturn, if_neg open_]

/-- The lines of a text that ends with a line feed. -/
def endedLines (cs : List Char) : Option (List (List Char)) :=
  let parts := split '\n' cs
  if parts.getLast? = some [] then some parts.dropLast else none

end Text

namespace Doc

open Text (pieces dropReturn endedLines)

/-! ## Making a doc -/

/-- The docs that can be made: from a list of texts, from one text, and from a JSON value. -/
inductive Made : Doc → Prop where
  | ofList (texts : List String) : Made (.ofList texts)
  | ofText (text : String) : Made (.ofText text)
  | read {n : Json.Node} {d : Doc} (found : Doc.read n = .ok d) : Made d

theorem ext_lines {d d' : Doc} (same : d.lines = d'.lines) : d = d' := by
  cases d
  cases d'
  cases same
  rfl

/-- Making a doc from lines drops one closing carriage return of each. -/
theorem lines_ofList_of_no_break {lines : List String}
    (unbroken : ∀ line ∈ lines, '\n' ∉ line.toList) :
    (Doc.ofList lines).lines = lines.map fun line => String.ofList (dropReturn line.toList) := by
  change lines.flatMap pieces = _
  induction lines with
  | nil => rfl
  | cons line lines ih =>
      rw [List.forall_mem_cons] at unbroken
      rw [List.flatMap_cons, List.map_cons, Text.pieces_of_no_break unbroken.1, ih unbroken.2]
      rfl

/-- Every doc can be made: one more carriage return at the end of each line is dropped. -/
theorem made (d : Doc) : d.Made := by
  have unbroken : ∀ line ∈ d.lines.map (· ++ "\r"), '\n' ∉ line.toList := by
    rw [List.forall_mem_map]
    intro line listed
    simpa using d.unbroken line listed
  have whole : Doc.ofList (d.lines.map (· ++ "\r")) = d := by
    apply ext_lines
    rw [lines_ofList_of_no_break unbroken, List.map_map]
    refine (List.map_congr_left fun line _ => ?_).trans (List.map_id _)
    simp [Text.dropReturn_concat]
  rw [← whole]
  exact .ofList _

theorem no_break_ofList (texts : List String) :
    ∀ line ∈ (Doc.ofList texts).lines, '\n' ∉ line.toList := by
  intro line listed
  obtain ⟨text, -, piece⟩ := List.mem_flatMap.mp listed
  exact Text.no_break_of_mem_pieces piece

/-- No line of a doc that is made holds a line feed, whatever it is made from. -/
theorem Made.no_break {d : Doc} (made : d.Made) : ∀ line ∈ d.lines, '\n' ∉ line.toList := by
  cases made with
  | ofList texts => exact no_break_ofList texts
  | ofText text => exact fun line listed => Text.no_break_of_mem_lines listed
  | read found =>
      obtain ⟨texts, -, rfl⟩ := Json.map_eq_ok_iff.mp found
      exact no_break_ofList texts

/-! ## Making a doc again -/

theorem ofList_lines_eq_iff (d : Doc) :
    Doc.ofList d.lines = d ↔ ∀ line ∈ d.lines, line.toList.getLast? ≠ some '\r' := by
  have lines := lines_ofList_of_no_break d.unbroken
  have same : Doc.ofList d.lines = d ↔ (Doc.ofList d.lines).lines = d.lines :=
    ⟨fun whole => by rw [whole], ext_lines⟩
  rw [same, lines]
  constructor
  · intro fixed line listed
    have stays := List.map_inj_left.mp (fixed.trans (List.map_id _).symm) line listed
    rw [id, ← String.toList_inj, String.toList_ofList] at stays
    exact Text.dropReturn_eq_self_iff.mp stays
  · intro open_
    refine (List.map_congr_left fun line listed => ?_).trans (List.map_id _)
    rw [Text.dropReturn_eq_self_iff.mpr (open_ line listed), String.ofList_toList, id]

/-- What is read from the JSON text of a doc is the doc made from its own lines. -/
theorem read_compact (d : Doc) :
    (Json.Document.ofText (Json.strings d.lines).compact).read Doc.read =
      .ok (Doc.ofList d.lines) := by
  have text := (Json.plain_strings d.lines).hasText_compact
  rw [text.ofText_eq, Json.Document.read, d.read_strings]
  rfl

/-- **A doc is made again from its own lines**, and survives its JSON text, exactly if none of its
lines ends with a carriage return. -/
theorem made_again_iff (d : Doc) :
    (Doc.ofList d.lines = d ↔ ∀ line ∈ d.lines, line.toList.getLast? ≠ some '\r') ∧
      ((Json.Document.ofText (Json.strings d.lines).compact).read Doc.read = .ok d ↔
        ∀ line ∈ d.lines, line.toList.getLast? ≠ some '\r') := by
  refine ⟨d.ofList_lines_eq_iff, ?_⟩
  rw [read_compact, Except.ok.injEq]
  exact d.ofList_lines_eq_iff

/-- A carriage return at the end of a text stays in the doc of the text, and goes when the doc is
made again. One of two at the end of a text in a list does the same. -/
theorem not_made_again_closing_return :
    (Doc.ofText "a\r").lines = ["a\r"] ∧ (Doc.ofList ["a\r\r"]).lines = ["a\r"] ∧
      (Doc.ofList ["a\r"]).lines = ["a"] ∧
      Doc.ofList (Doc.ofText "a\r").lines ≠ Doc.ofText "a\r" ∧
      Doc.ofList (Doc.ofList ["a\r\r"]).lines ≠ Doc.ofList ["a\r\r"] := by
  decide

/-! ## Reading a marked doc -/

/-- What stands behind the marker in a comment line: nothing, or a space and the line. -/
def unmarked? (front line : List Char) : Option (List Char) :=
  if front.isPrefixOf line then
    match line.drop front.length with
    | [] => some []
    | ' ' :: rest => some rest
    | _ => none
  else none

section Marked

variable {front : List Char}

theorem prefix_markedChars (front : List Char) (line : String) :
    front <+: markedChars front line :=
  List.prefix_append _ _

theorem unmarked?_markedChars (front : List Char) (line : String) :
    unmarked? front (markedChars front line) = some line.toList := by
  have begins : front.isPrefixOf (markedChars front line) = true :=
    List.isPrefixOf_iff_prefix.mpr (prefix_markedChars front line)
  rw [unmarked?, if_pos begins, markedChars, List.drop_left]
  by_cases blank : line.isEmpty = true
  · rw [String.isEmpty_iff] at blank
    simp [blank]
  · simp [blank]

theorem mapM_unmarked? (front : List Char) (lines : List String) :
    (lines.map (markedChars front)).mapM (unmarked? front) = some (lines.map String.toList) := by
  induction lines with
  | nil => rfl
  | cons line lines ih =>
      rw [List.map_cons, List.mapM_cons, unmarked?_markedChars, ih]
      rfl

theorem no_feed_markedChars (clean : '\n' ∉ front) {line : String}
    (unbroken : '\n' ∉ line.toList) : '\n' ∉ markedChars front line := by
  unfold markedChars
  split <;> simp [clean, unbroken]

end Marked

/-- The text of a marked doc is its lines behind the marker, each with a line feed. -/
theorem endedLines_marked (d : Doc) {indent marker : String}
    (clean : '\n' ∉ (indent ++ marker).toList) :
    endedLines (d.marked indent marker).toList =
      some (d.lines.map (markedChars (indent ++ marker).toList)) := by
  have parts : Text.split '\n' (d.marked indent marker).toList =
      d.lines.map (markedChars (indent ++ marker).toList) ++ [[]] := by
    obtain ⟨lines, unbroken⟩ := d
    unfold marked
    induction lines with
    | nil => rfl
    | cons line lines ih =>
        have unbroken' := List.forall_mem_cons.mp unbroken
        rw [toList_join_markedLine,
          Text.split_append_mark (no_feed_markedChars clean unbroken'.1), ih unbroken'.2]
        rfl
  rw [endedLines, parts]
  simp

/-- **A doc can be read back from its comment.** The lines of the docs that can be made are the
lists of texts without line feeds. With any indentation and marker on one line, a doc is written as
one line for each of its lines. Each starts with the indentation and the marker, and behind them
stands, after a space unless it is empty, the line of the doc. -/
theorem marked_reads_back :
    (∀ lines : List String,
      (∃ d : Doc, d.Made ∧ d.lines = lines) ↔ ∀ line ∈ lines, '\n' ∉ line.toList) ∧
      ∀ (d : Doc) (indent marker : String), '\n' ∉ indent.toList → '\n' ∉ marker.toList →
        ∃ written, endedLines (d.marked indent marker).toList = some written ∧
          written.length = d.lines.length ∧
          (∀ line ∈ written, (indent ++ marker).toList <+: line) ∧
          written.mapM (unmarked? (indent ++ marker).toList) =
            some (d.lines.map String.toList) := by
  refine ⟨fun lines => ⟨?_, fun unbroken => ?_⟩, fun d indent marker whole whole' => ?_⟩
  · rintro ⟨d, made, rfl⟩
    exact made.no_break
  · exact ⟨⟨lines, unbroken⟩, Doc.made _, rfl⟩
  · have clean : '\n' ∉ (indent ++ marker).toList := by simp [whole, whole']
    refine ⟨_, d.endedLines_marked clean, List.length_map _, ?_, ?_⟩
    · rw [List.forall_mem_map]
      exact fun line _ => prefix_markedChars _ line
    · exact mapM_unmarked? _ d.lines

/-- Lines with spaces at both ends, an empty line, a line that starts with a marker, and one that is
a space. -/
def spacedSample : Doc :=
  .ofList ["  a ", "\n/// b", " "]

/-- Every line of the sample is read back from its comment. -/
theorem marked_reads_back_spacedSample :
    '\n' ∉ "  ".toList ∧ '\n' ∉ "///".toList ∧
      (∃ d : Doc, d.Made ∧ d.lines = ["  a ", "", "/// b", " "]) ∧
      spacedSample.lines = ["  a ", "", "/// b", " "] ∧
      spacedSample.marked "  " "///" = "  ///   a \n  ///\n  /// /// b\n  ///  \n" ∧
      ∃ written, endedLines (spacedSample.marked "  " "///").toList = some written ∧
        written.length = spacedSample.lines.length ∧
        (∀ line ∈ written, ("  " ++ "///").toList <+: line) ∧
        written.mapM (unmarked? ("  " ++ "///").toList) =
          some (spacedSample.lines.map String.toList) := by
  have indent : '\n' ∉ "  ".toList := by decide
  have marker : '\n' ∉ "///".toList := by decide
  obtain ⟨made_iff, read⟩ := marked_reads_back
  exact ⟨indent, marker, (made_iff _).mpr (by decide), by decide, by decide,
    read spacedSample "  " "///" indent marker⟩

end Doc

end SchemaPress
