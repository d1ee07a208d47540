import Mathlib.Data.List.TakeWhile
import SchemaPress.Proofs.Text.Lines
import SchemaPress.Schema.Doc

/-!
# Comment lines as a compiler sees them

A compiler ends a line at a line feed, at a carriage return, or at the two together. A doc is cut at
line feeds only, and one carriage return goes with each of them, so a carriage return further inside
a line stays where it is. Written after a marker it ends the line for a compiler, and what follows
it stands in the text without a marker.

Docs without such a carriage return are commented line by line, and no other docs are, whatever the
indentation and the marker (`Doc.commented_iff`).
-/

set_option autoImplicit false

namespace SchemaPress

namespace Text

/-- A character that ends a line for a compiler. -/
def endsLine (c : Char) : Bool :=
  c = '\n' || c = '\r'

theorem endsLine_of_any_eq_false {cs : List Char} (free : cs.any endsLine = false) :
    ∀ c ∈ cs, endsLine c = false := by
  simpa using free

/-- The lines of a text for a compiler. A carriage return in front of a line feed ends the same
line, and a last line may lack its end. -/
def physicalLines : List Char → List (List Char)
  | [] => []
  | '\r' :: '\n' :: cs => [] :: physicalLines cs
  | c :: cs =>
    if endsLine c then [] :: physicalLines cs
    else
      match physicalLines cs with
      | [] => [[c]]
      | line :: rest => (c :: line) :: rest

theorem physicalLines_feed (cs : List Char) :
    physicalLines ('\n' :: cs) = [] :: physicalLines cs := by
  rw [physicalLines]
  · rfl
  · simp

theorem physicalLines_return {c : Char} (apart : c ≠ '\n') (cs : List Char) :
    physicalLines ('\r' :: c :: cs) = [] :: physicalLines (c :: cs) := by
  rw [physicalLines]
  · rfl
  · rintro rest - same
    exact apart (List.cons.inj same).1

/-- A character that ends no line belongs to the first line of what follows it. -/
theorem physicalLines_inside {c : Char} (inside : endsLine c = false) {line : List Char}
    {cs : List Char} {rest : List (List Char)} (follows : physicalLines cs = line :: rest) :
    physicalLines (c :: cs) = (c :: line) :: rest := by
  rw [physicalLines]
  · simp [inside, follows]
  · rintro others rfl -
    exact absurd inside (by decide)

/-- The first line of a text goes on up to the first character that ends a line. -/
theorem exists_physicalLines_eq_cons {cs : List Char} (some_text : cs ≠ []) :
    ∃ rest, physicalLines cs = cs.takeWhile (!endsLine ·) :: rest := by
  induction cs with
  | nil => exact absurd rfl some_text
  | cons c cs ih =>
      by_cases ends : endsLine c = true
      · have first : (c :: cs).takeWhile (!endsLine ·) = [] := by simp [ends]
        rw [first, physicalLines.eq_def]
        split
        · simp_all
        · exact ⟨_, rfl⟩
        · simp_all
      · rw [Bool.not_eq_true] at ends
        cases cs with
        | nil =>
            refine ⟨[], ?_⟩
            rw [physicalLines]
            · simp [ends, physicalLines]
            · simp
        | cons d cs =>
            obtain ⟨rest, follows⟩ := ih (by simp)
            refine ⟨rest, ?_⟩
            rw [physicalLines_inside ends follows]
            simp [ends]

/-- A line without a carriage return inside ends at its line feed. -/
theorem physicalLines_line {line : List Char} (unbroken : '\n' ∉ line)
    (whole : '\r' ∉ line.dropLast) (rest : List Char) :
    physicalLines (line ++ '\n' :: rest) = dropReturn line :: physicalLines rest := by
  induction line with
  | nil => exact physicalLines_feed rest
  | cons c line ih =>
      rw [List.mem_cons, not_or] at unbroken
      cases line with
      | nil =>
          by_cases back : c = '\r'
          · subst back
            simp [physicalLines, dropReturn]
          · have inside : endsLine c = false := by simp [endsLine, back, Ne.symm unbroken.1]
            rw [List.cons_append, List.nil_append,
              physicalLines_inside inside (physicalLines_feed rest)]
            simp [dropReturn, back]
      | cons d line =>
          rw [List.dropLast_cons_cons, List.mem_cons, not_or] at whole
          have inside : endsLine c = false := by
            simp [endsLine, Ne.symm unbroken.1, Ne.symm whole.1]
          rw [List.cons_append, physicalLines_inside inside (ih unbroken.2 whole.2)]
          simp only [dropReturn, List.getLast?_cons_cons, List.dropLast_cons_cons]
          split <;> rfl

/-- A carriage return that no line feed follows ends a line on its own. -/
theorem physicalLines_broken {line : List Char} (free : ∀ c ∈ line, endsLine c = false) {c : Char}
    (apart : c ≠ '\n') (rest : List Char) :
    physicalLines (line ++ '\r' :: c :: rest) = line :: physicalLines (c :: rest) := by
  induction line with
  | nil => exact physicalLines_return apart rest
  | cons d line ih =>
      rw [List.forall_mem_cons] at free
      exact physicalLines_inside free.1 (ih free.2)

/-- What a text begins with is still there without a closing carriage return. -/
theorem prefix_dropReturn {front : List Char} (free : '\r' ∉ front) (rest : List Char) :
    front <+: dropReturn (front ++ rest) := by
  unfold dropReturn
  split
  · rename_i closing
    have some_rest : rest ≠ [] := by
      rintro rfl
      rw [List.append_nil] at closing
      exact free (List.mem_of_getLast? closing)
    rw [List.dropLast_append_of_ne_nil some_rest]
    exact List.prefix_append _ _
  · exact List.prefix_append _ _

/-- A carriage return inside a line is followed by another character of the line. -/
theorem exists_broken {line : List Char} (inside : '\r' ∈ line.dropLast) :
    ∃ front c rest, line = front ++ '\r' :: c :: rest ∧ '\r' ∉ front := by
  obtain ⟨front, after, split, first⟩ := List.eq_append_cons_of_mem inside
  have some_line : line ≠ [] := by
    rintro rfl
    exact absurd inside List.not_mem_nil
  obtain ⟨c, rest, others⟩ : ∃ c rest, after ++ [line.getLast some_line] = c :: rest :=
    List.exists_cons_of_ne_nil (by simp)
  refine ⟨front, c, rest, ?_, first⟩
  calc line = line.dropLast ++ [line.getLast some_line] :=
        (List.dropLast_concat_getLast some_line).symm
    _ = front ++ '\r' :: (after ++ [line.getLast some_line]) := by simp [split]
    _ = front ++ '\r' :: c :: rest := by rw [others]

theorem mem_times_space {n : Nat} {c : Char} (inside : c ∈ (times n " ").toList) : c = ' ' := by
  induction n with
  | zero => simp [times] at inside
  | succ n ih =>
      rw [times, List.replicate_succ, String.join_cons, ← times, String.toList_append,
        List.mem_append] at inside
      rcases inside with first | later
      · simpa using first
      · exact ih later

end Text

namespace Doc

open Text (physicalLines endsLine dropReturn)

/-- The markers that docs are written with. -/
def markers : List String :=
  ["///", "//!", "#"]

/-- Every line of a doc starts with the indentation and the marker that it is written with. -/
def Commented (d : Doc) (indent marker : String) : Prop :=
  ∀ line ∈ physicalLines (d.marked indent marker).toList, (indent ++ marker).toList <+: line

/-- A doc line after what stands in front of it, without its line feed. -/
def markedChars (front : List Char) (line : String) : List Char :=
  front ++ (if line.isEmpty then "" else " " ++ line).toList

theorem toList_join_markedLine (indent marker line : String) (lines : List String) :
    (String.join ((line :: lines).map (markedLine indent marker))).toList =
      markedChars (indent ++ marker).toList line ++
        '\n' :: (String.join (lines.map (markedLine indent marker))).toList := by
  simp [markedLine, markedChars]

section Lines

variable {front : List Char} (free : ∀ c ∈ front, endsLine c = false) {line : String}
  (unbroken : '\n' ∉ line.toList)
include free unbroken

theorem no_break_markedChars : '\n' ∉ markedChars front line := by
  have clear : '\n' ∉ front := fun inside => absurd (free _ inside) (by decide)
  unfold markedChars
  split <;> simp [clear, unbroken]

/-- A line without a carriage return inside is one commented line. -/
theorem physicalLines_markedChars (whole : '\r' ∉ line.toList.dropLast) (rest : List Char) :
    ∃ first, front <+: first ∧
      physicalLines (markedChars front line ++ '\n' :: rest) = first :: physicalLines rest := by
  have clear : '\r' ∉ front := fun inside => absurd (free _ inside) (by decide)
  have closed : '\r' ∉ (markedChars front line).dropLast := by
    unfold markedChars
    by_cases empty : line.isEmpty = true
    · simpa [empty] using fun inside => clear (List.dropLast_subset _ inside)
    · have some_line : line.toList ≠ [] := by simpa using empty
      rw [if_neg empty, String.toList_append, ← List.append_assoc,
        List.dropLast_append_of_ne_nil some_line]
      simp [clear, whole]
  exact ⟨_, Text.prefix_dropReturn clear _,
    Text.physicalLines_line (no_break_markedChars free unbroken) closed rest⟩

/-- Behind a carriage return inside a line, the next line starts with a character of the doc. -/
theorem head_of_broken {c : Char} {u v : List Char} (broken : line.toList = u ++ '\r' :: c :: v)
    (first : '\r' ∉ u) {x : Char} {xs rest : List Char} (begins : front = x :: xs)
    (commented : ∀ l ∈ physicalLines (markedChars front line ++ '\n' :: rest), front <+: l) :
    c = x := by
  rw [broken] at unbroken
  simp only [List.mem_append, List.mem_cons, not_or] at unbroken
  obtain ⟨no_feed, -, apart, -⟩ := unbroken
  have some_line : line.isEmpty = false := by
    rw [← Bool.not_eq_true, String.isEmpty_iff]
    rintro rfl
    simp at broken
  have text : markedChars front line ++ '\n' :: rest =
      (front ++ ' ' :: u) ++ '\r' :: c :: (v ++ '\n' :: rest) := by
    simp [markedChars, some_line, broken]
  have clear : ∀ d ∈ front ++ ' ' :: u, endsLine d = false := by
    intro d inside
    rcases List.mem_append.mp inside with before | after
    · exact free d before
    · rcases List.mem_cons.mp after with rfl | within
      · decide
      · have feed : d ≠ '\n' := fun same => no_feed (same ▸ within)
        have back : d ≠ '\r' := fun same => first (same ▸ within)
        simp [endsLine, feed, back]
  rw [text, Text.physicalLines_broken clear (Ne.symm apart)] at commented
  have some_text : c :: (v ++ '\n' :: rest) ≠ [] := by simp
  obtain ⟨others, second⟩ := Text.exists_physicalLines_eq_cons some_text
  rw [second] at commented
  -- The second line would have to start with the marker, so its first character is known.
  have start := commented _ (List.mem_cons_of_mem _ List.mem_cons_self)
  rw [begins, List.takeWhile_cons] at start
  split at start
  · exact ((List.cons_prefix_cons.mp start).1).symm
  · simp at start

end Lines

/-- A doc without carriage returns inside its lines is commented. -/
theorem commented_of_whole {d : Doc} (whole : ∀ line ∈ d.lines, '\r' ∉ line.toList.dropLast)
    {indent marker : String} (free : ∀ c ∈ (indent ++ marker).toList, endsLine c = false) :
    d.Commented indent marker := by
  obtain ⟨lines, unbroken⟩ := d
  unfold Commented marked
  induction lines with
  | nil => simp [physicalLines]
  | cons line lines ih =>
      rw [List.forall_mem_cons] at whole
      have unbroken' := List.forall_mem_cons.mp unbroken
      obtain ⟨first, starts, split⟩ :=
        physicalLines_markedChars free unbroken'.1 whole.1
          (String.join (lines.map (markedLine indent marker))).toList
      rw [toList_join_markedLine, split, List.forall_mem_cons]
      exact ⟨starts, ih unbroken'.2 whole.2⟩

/-- A doc that is commented with two markers that begin differently has no carriage return inside a
line. -/
theorem whole_of_commented {d : Doc} (slashes : d.Commented "" "///")
    (sharps : d.Commented "" "#") : ∀ line ∈ d.lines, '\r' ∉ line.toList.dropLast := by
  obtain ⟨lines, unbroken⟩ := d
  unfold Commented marked at slashes sharps
  induction lines with
  | nil => simp
  | cons line lines ih =>
      have unbroken' := List.forall_mem_cons.mp unbroken
      have free := Text.endsLine_of_any_eq_false
        (by decide : ("" ++ "///").toList.any endsLine = false)
      have free' := Text.endsLine_of_any_eq_false
        (by decide : ("" ++ "#").toList.any endsLine = false)
      rw [toList_join_markedLine] at slashes sharps
      have whole : '\r' ∉ line.toList.dropLast := by
        intro inside
        obtain ⟨u, c, v, broken, first⟩ := Text.exists_broken inside
        have slash := head_of_broken free unbroken'.1 broken first rfl slashes
        have sharp := head_of_broken free' unbroken'.1 broken first rfl sharps
        rw [slash] at sharp
        exact absurd sharp (by decide)
      obtain ⟨_, _, split⟩ := physicalLines_markedChars free unbroken'.1 whole
        (String.join (lines.map (markedLine "" "///"))).toList
      obtain ⟨_, _, split'⟩ := physicalLines_markedChars free' unbroken'.1 whole
        (String.join (lines.map (markedLine "" "#"))).toList
      rw [split] at slashes
      rw [split'] at sharps
      rw [List.forall_mem_cons] at slashes sharps ⊢
      exact ⟨whole, ih unbroken'.2 slashes.2 sharps.2⟩

/-- **A doc is commented line by line**, with every indentation and every marker, exactly if no line
of it holds a carriage return in front of its last character. -/
theorem commented_iff (d : Doc) :
    (∀ n, ∀ marker ∈ markers, d.Commented (Text.times n " ") marker) ↔
      ∀ line ∈ d.lines, '\r' ∉ line.toList.dropLast := by
  constructor
  · intro commented
    exact whole_of_commented (commented 0 "///" (by decide)) (commented 0 "#" (by decide))
  · intro whole n marker known
    apply commented_of_whole whole
    intro c inside
    rw [String.toList_append, List.mem_append] at inside
    rcases inside with space | sign
    · rw [Text.mem_times_space space]
      decide
    · have free : ∀ m ∈ markers, m.toList.any endsLine = false := by decide
      exact Text.endsLine_of_any_eq_false (free marker known) c sign

/-- A carriage return inside a text leaves its second half without a marker. -/
theorem not_commented_lone_return :
    (Doc.ofText "a\rb").marked "" "///" = "/// a\rb\n" ∧
      physicalLines "/// a\rb\n".toList = ["/// a".toList, "b".toList] ∧
      ¬ (Doc.ofText "a\rb").Commented "" "///" := by
  have lines : physicalLines ((Doc.ofText "a\rb").marked "" "///").toList =
      ["/// a".toList, "b".toList] := by decide
  refine ⟨by decide, by decide, fun commented => ?_⟩
  have second := commented "b".toList (by rw [lines]; decide)
  exact absurd second (by decide)

end Doc

end SchemaPress
