import SchemaPress.Proofs.Text.Lines
import SchemaPress.Schema.Doc

/-!
# The code in a text

What is left of a text when its remarks are deleted: every line that ends with a line feed and is
blank, or begins with a comment marker after its indentation. What follows the last line feed is no
such line and stays.

A text is complete if nothing follows its last line feed. The code of a complete text and of what
follows it are deleted from on their own (`code_append`), so a text that is put together from
complete parts has the code of its parts. Docs have no code, and neither has the end of a text.
-/

set_option autoImplicit false

namespace SchemaPress.Text

/-- A line without code: it is blank, or a comment from its beginning on. -/
def isRemark (line : List Char) : Bool :=
  let content := line.dropWhile (· == ' ')
  content.isEmpty || "///".toList.isPrefixOf content || "//!".toList.isPrefixOf content

/-- Lines put together without the remarks among them; nothing ends the last line. -/
def joinCode : List (List Char) → List Char
  | [] => []
  | [last] => last
  | line :: next :: rest =>
      if isRemark line then joinCode (next :: rest) else line ++ '\n' :: joinCode (next :: rest)

/-- A text without its remarks. -/
def code (cs : List Char) : List Char :=
  joinCode (split '\n' cs)

/-- A text that is empty or ends with a line feed. -/
def Complete (cs : List Char) : Prop :=
  ∀ c ∈ cs.getLast?, c = '\n'

instance (cs : List Char) : Decidable (Complete cs) :=
  decidable_of_iff (cs.getLast?.all (· == '\n') = true) (by simp [Complete, Option.all_eq_true])

/-! ## Complete texts -/

theorem complete_nil : Complete [] := by
  intro c last
  cases last

/-- A text is complete if its last part is, and is not empty. -/
theorem Complete.prepend {lower : List Char} (complete : Complete lower) (filled : lower ≠ [])
    (upper : List Char) : Complete (upper ++ lower) := by
  intro c last
  rw [List.getLast?_append, List.getLast?_eq_some_getLast filled] at last
  exact complete c (List.getLast?_eq_some_getLast filled ▸ last)

theorem Complete.append {upper lower : List Char} (first : Complete upper)
    (second : Complete lower) : Complete (upper ++ lower) := by
  cases lower with
  | nil => rwa [List.append_nil]
  | cons c lower => exact second.prepend (List.cons_ne_nil c lower) upper

theorem complete_concat (cs : List Char) : Complete (cs ++ ['\n']) :=
  Complete.prepend (by decide) (by decide) cs

/-! ## The code of parts -/

/-- The first line of a text is deleted from on its own. -/
theorem code_line {line : List Char} (unbroken : '\n' ∉ line) (rest : List Char) :
    code (line ++ '\n' :: rest) =
      (if isRemark line then [] else line ++ ['\n']) ++ code rest := by
  unfold code
  rw [split_append_mark unbroken]
  obtain ⟨next, others, parts⟩ := List.exists_cons_of_ne_nil (split_ne_nil '\n' rest)
  rw [parts, joinCode]
  split
  · rfl
  · rw [List.append_assoc, List.singleton_append]

/-- **The code of a complete text and of what follows it.** The induction is on the text; the
characters of the line that has been begun are kept in front. -/
theorem code_append {upper : List Char} (complete : Complete upper) (lower : List Char) :
    code (upper ++ lower) = code upper ++ code lower := by
  have begun : ∀ (cs line : List Char), '\n' ∉ line → Complete (line ++ cs) →
      code (line ++ cs ++ lower) = code (line ++ cs) ++ code lower := by
    intro cs
    induction cs with
    | nil =>
        intro line unbroken complete
        -- A complete text without a line feed is empty.
        have empty : line = [] := by
          by_contra filled
          have last := complete (line.getLast filled)
            (by rw [List.append_nil]; exact List.getLast?_eq_some_getLast filled)
          exact unbroken (last ▸ List.getLast_mem filled)
        rw [empty]
        rfl
    | cons c cs ih =>
        intro line unbroken complete
        by_cases feed : c = '\n'
        · have rest : Complete cs := by
            intro d last
            apply complete d
            rw [List.getLast?_append, List.getLast?_cons, Option.mem_def.mp last]
            rfl
          have inner := ih [] List.not_mem_nil rest
          rw [List.nil_append] at inner
          rw [feed, List.append_assoc, List.cons_append, code_line unbroken, code_line unbroken,
            inner, List.append_assoc]
        · have longer : '\n' ∉ line ++ [c] := by
            rw [List.mem_append, List.mem_singleton]
            rintro (inside | same)
            · exact unbroken inside
            · exact feed same.symm
          have moved : line ++ c :: cs = line ++ [c] ++ cs := by simp
          rw [moved] at complete ⊢
          exact ih (line ++ [c]) longer complete
  exact begun upper [] List.not_mem_nil complete

theorem code_feeds (n : Nat) : code (List.replicate n '\n') = [] := by
  induction n with
  | zero => rfl
  | succ n ih =>
      have first := code_line List.not_mem_nil (List.replicate n '\n')
      rw [List.nil_append] at first
      rw [List.replicate_succ, first, ih]
      rfl

/-- Putting the end of a complete text in order does not change its code. -/
theorem code_endWithBreak {s : String} (complete : Complete s.toList) :
    code (endWithBreak s).toList = code s.toList := by
  obtain ⟨n, whole⟩ := exists_eq_dropFinalBreaks_append s.toList
  have ended : (endWithBreak s).toList = dropFinalBreaks s.toList ++ ['\n'] := by
    rw [endWithBreak, String.toList_append, String.toList_ofList]
    rfl
  generalize dropFinalBreaks s.toList = kept at whole ended
  rw [ended, whole]
  rw [whole] at complete
  cases n with
  | zero =>
      rw [List.replicate_zero, List.append_nil] at complete ⊢
      have one := code_append complete ['\n']
      rw [one]
      exact List.append_nil _
  | succ n =>
      have further : kept ++ List.replicate (n + 1) '\n' =
          kept ++ ['\n'] ++ List.replicate n '\n' := by
        rw [List.replicate_succ, List.append_assoc, List.singleton_append]
      rw [further, code_append (complete_concat kept), code_feeds, List.append_nil]

/-! ## Docs -/

theorem isRemark_marked {marker : String} (comment : marker = "///" ∨ marker = "//!")
    (n : Nat) (rest : List Char) :
    isRemark (List.replicate n ' ' ++ (marker.toList ++ rest)) = true := by
  have content : (List.replicate n ' ' ++ (marker.toList ++ rest)).dropWhile (· == ' ') =
      marker.toList ++ rest := by
    have spaces : ∀ c ∈ List.replicate n ' ', (c == ' ') = true := by
      intro c inside
      rw [List.eq_of_mem_replicate inside]
      rfl
    refine (takeWhile_dropWhile_run spaces ?_).2
    rcases comment with rfl | rfl
    · exact stop_cons (· == ' ') rfl _
    · exact stop_cons (· == ' ') rfl _
  unfold isRemark
  rw [content]
  rcases comment with rfl | rfl
  · rfl
  · rfl

/-- A doc that is written with markers is complete and has no code. -/
theorem code_marked (d : Doc) {indent marker : String} {n : Nat}
    (spaces : indent.toList = List.replicate n ' ') (comment : marker = "///" ∨ marker = "//!") :
    Complete (d.marked indent marker).toList ∧ code (d.marked indent marker).toList = [] := by
  obtain ⟨lines, unbroken⟩ := d
  change Complete (String.join (lines.map (Doc.markedLine indent marker))).toList ∧
    code (String.join (lines.map (Doc.markedLine indent marker))).toList = []
  induction lines with
  | nil => exact ⟨complete_nil, rfl⟩
  | cons line lines ih =>
      obtain ⟨complete, silent⟩ := ih fun l member => unbroken l (List.mem_cons_of_mem _ member)
      obtain ⟨content, written⟩ : ∃ content : List Char,
          content = (if line.isEmpty then "" else " " ++ line).toList := ⟨_, rfl⟩
      have text : (Doc.markedLine indent marker line).toList =
          (List.replicate n ' ' ++ (marker.toList ++ content)) ++ ['\n'] := by
        simp [Doc.markedLine, spaces, written]
      have whole : '\n' ∉ List.replicate n ' ' ++ (marker.toList ++ content) := by
        have own : '\n' ∉ line.toList := unbroken line List.mem_cons_self
        have inside : '\n' ∉ content := by
          rw [written]
          split
          · simp
          · simpa using own
        rcases comment with rfl | rfl
        · simpa using inside
        · simpa using inside
      rw [List.map_cons, String.join_cons, String.toList_append, text]
      refine ⟨(complete_concat _).append complete, ?_⟩
      rw [List.append_assoc, List.singleton_append, code_line whole, isRemark_marked comment n,
        silent]
      rfl

end SchemaPress.Text
