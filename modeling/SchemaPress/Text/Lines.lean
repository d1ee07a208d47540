import SchemaPress.Text.Split

/-!
# Lines of a text

A text is cut at its line feeds. Two conventions are in use. `pieces` keeps every
piece, so a text with `n` line feeds has `n + 1` pieces, and a closing carriage
return is dropped from each. `lines` treats a line feed as the end of a line: a
carriage return is dropped only in front of a line feed, and nothing follows the
last one.
-/

set_option autoImplicit false

namespace SchemaPress.Text

/-- A text without its closing carriage return, if it has one. -/
def dropReturn (cs : List Char) : List Char :=
  if cs.getLast? = some '\r' then cs.dropLast else cs

/-- Pieces that each end a line but the last, which counts only if it is not empty. -/
def closeLines : List (List Char) → List (List Char)
  | [] => []
  | [last] => if last.isEmpty then [] else [last]
  | line :: rest => dropReturn line :: closeLines rest

/-- The pieces of a text between line feeds, each without a closing carriage return. -/
def pieces (s : String) : List String :=
  (split '\n' s.toList).map fun cs => String.ofList (dropReturn cs)

/-- The lines of a text: each ends at a line feed, with or without a carriage return in
front, and a last line may lack its line feed. -/
def lines (s : String) : List String :=
  (closeLines (split '\n' s.toList)).map String.ofList

/-- What is left of a text without its closing carriage return stood in it. -/
theorem mem_of_mem_dropReturn {cs : List Char} {c : Char} (member : c ∈ dropReturn cs) : c ∈ cs := by
  unfold dropReturn at member
  split at member
  · exact List.dropLast_subset _ member
  · exact member

/-- A closed line comes from a piece and holds nothing that is not in it. -/
theorem exists_mem_of_mem_closeLines {line : List Char} :
    ∀ {parts : List (List Char)}, line ∈ closeLines parts → ∃ part ∈ parts, ∀ c ∈ line, c ∈ part
  | [], member => by simp [closeLines] at member
  | [last], member => by
      simp only [closeLines] at member
      split at member
      · simp at member
      · exact ⟨line, member, fun _ inside => inside⟩
  | first :: second :: rest, member => by
      rw [closeLines] at member
      · rcases List.mem_cons.mp member with rfl | other
        · exact ⟨first, List.mem_cons_self, fun _ => mem_of_mem_dropReturn⟩
        · obtain ⟨part, inside, covers⟩ := exists_mem_of_mem_closeLines other
          exact ⟨part, List.mem_cons_of_mem _ inside, covers⟩
      · simp

/-- No piece of a text holds a line feed. -/
theorem no_break_of_mem_pieces {s piece : String} (member : piece ∈ pieces s) :
    '\n' ∉ piece.toList := by
  obtain ⟨part, inside, rfl⟩ := List.mem_map.mp member
  rw [String.toList_ofList]
  exact fun found => not_mem_of_mem_split inside (mem_of_mem_dropReturn found)

/-- No line of a text holds a line feed. -/
theorem no_break_of_mem_lines {s line : String} (member : line ∈ lines s) :
    '\n' ∉ line.toList := by
  obtain ⟨cs, inside, rfl⟩ := List.mem_map.mp member
  obtain ⟨part, original, covers⟩ := exists_mem_of_mem_closeLines inside
  rw [String.toList_ofList]
  exact fun found => not_mem_of_mem_split original (covers _ found)

/-- A text without the line feeds it ends with. -/
def dropFinalBreaks (cs : List Char) : List Char :=
  (cs.reverse.dropWhile (· = '\n')).reverse

/-- A text that ends with exactly one line feed: further ones are dropped, a missing one is
added. -/
def endWithBreak (s : String) : String :=
  String.ofList (dropFinalBreaks s.toList) ++ "\n"

/-- A text `n` times over. -/
def times (n : Nat) (s : String) : String :=
  String.join (List.replicate n s)

end SchemaPress.Text
