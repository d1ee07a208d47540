import Mathlib.Data.List.Chain
import SchemaPress.Proofs.Schema.Comment
import SchemaPress.Proofs.Target.UnionLayout

/-!
# Block comments end where they are meant to

A block comment ends at the first star with a slash behind it. In the lines of a doc a backslash
keeps the two apart, and no star of a line or of the layout comes to stand in front of a slash: what
the layout puts next to a line is a blank or the end of the line. So the comment of a doc, on lines
of its own or in front of an alternative of a union, ends in one place only, which is its own end
(`Doc.comment_closes_once`).
-/

set_option autoImplicit false

namespace SchemaPress

namespace Text

/-- Two neighbours do not end a block comment. -/
def Apart (c d : Char) : Prop :=
  ¬ (c = '*' ∧ d = '/')

/-- No block comment ends inside a text. -/
def Unclosed (cs : List Char) : Prop :=
  cs.IsChain Apart

/-- A block comment ends in one place of a text, in front of a given rest. -/
def ClosesOnce (rest cs : List Char) : Prop :=
  (∃ body, cs = body ++ '*' :: '/' :: rest) ∧
    ∀ before after, cs = before ++ '*' :: '/' :: after → after = rest

theorem Unclosed.absurd {before after : List Char}
    (unclosed : Unclosed (before ++ '*' :: '/' :: after)) : False :=
  (List.isChain_append_cons_cons.mp unclosed).2.1 ⟨rfl, rfl⟩

/-- A text that is not closed before its end and is closed there is closed once. -/
theorem Unclosed.closesOnce {body rest : List Char} (first : Unclosed body)
    (second : Unclosed rest) : ClosesOnce rest (body ++ '*' :: '/' :: rest) := by
  refine ⟨⟨body, rfl⟩, fun before after found => ?_⟩
  rcases List.append_eq_append_iff.mp found with ⟨later, whole, end_⟩ | ⟨earlier, whole, end_⟩
  · -- The end that was found stands behind the body, or inside the rest.
    rcases later with _ | ⟨c, _ | ⟨d, later⟩⟩
    · exact (List.cons.inj (List.cons.inj end_).2).2.symm
    · cases (List.cons.inj (List.cons.inj end_).2).1
    · have inside : rest = later ++ '*' :: '/' :: after :=
        (List.cons.inj (List.cons.inj end_).2).2
      rw [inside] at second
      exact second.absurd.elim
  · -- It stands behind the body, or inside it.
    rcases earlier with _ | ⟨c, _ | ⟨d, earlier⟩⟩
    · exact (List.cons.inj (List.cons.inj end_).2).2
    · cases (List.cons.inj (List.cons.inj end_).2).1
    · obtain ⟨star, slash_⟩ := List.cons.inj end_
      obtain ⟨slash, -⟩ := List.cons.inj slash_
      rw [whole, ← star, ← slash] at first
      exact first.absurd.elim

/-! ## Texts that are put together -/

theorem unclosed_nil : Unclosed [] :=
  .nil

theorem Unclosed.cons {c : Char} {cs : List Char} (unclosed : Unclosed cs)
    (apart : ∀ d ∈ cs.head?, Apart c d) : Unclosed (c :: cs) :=
  List.IsChain.cons unclosed apart

/-- A character that is no star closes nothing with what follows it. -/
theorem Unclosed.cons_of_ne {c : Char} (plain : c ≠ '*') {cs : List Char}
    (unclosed : Unclosed cs) : Unclosed (c :: cs) :=
  unclosed.cons fun _ _ both => plain both.1

/-- Two texts with a character between them that is neither a star nor a slash. -/
theorem Unclosed.between {c : Char} (plain : c ≠ '*') (plain' : c ≠ '/') {upper lower : List Char}
    (first : Unclosed upper) (second : Unclosed lower) : Unclosed (upper ++ c :: lower) := by
  refine List.IsChain.append first (second.cons_of_ne plain) ?_
  rintro x - y start ⟨-, rfl⟩
  exact plain' (Option.some.inj start)

theorem Unclosed.space {upper lower : List Char} (first : Unclosed upper)
    (second : Unclosed lower) : Unclosed (upper ++ ' ' :: lower) :=
  first.between (by decide) (by decide) second

theorem Unclosed.feed {upper lower : List Char} (first : Unclosed upper)
    (second : Unclosed lower) : Unclosed (upper ++ '\n' :: lower) :=
  first.between (by decide) (by decide) second

theorem unclosed_feed : Unclosed ['\n'] :=
  unclosed_nil.feed unclosed_nil

theorem Unclosed.spaces_append {indent cs : List Char} (spaces : ∀ c ∈ indent, c = ' ')
    (unclosed : Unclosed cs) : Unclosed (indent ++ cs) := by
  induction indent with
  | nil => exact unclosed
  | cons c indent ih =>
      rw [List.forall_mem_cons] at spaces
      rw [spaces.1]
      exact unclosed_nil.space (ih spaces.2)

theorem unclosed_opening : Unclosed ['/', '*', '*'] := by
  simp [Unclosed, Apart]

theorem unclosed_marker : Unclosed [' ', '*'] := by
  simp [Unclosed, Apart]

end Text

namespace Doc

open Text (Unclosed ClosesOnce)

/-! ## The lines of a comment -/

theorem head?_guardBlock (cs : List Char) : (guardBlock cs).head? = cs.head? := by
  fun_cases guardBlock cs with
  | case1 => rfl
  | case2 => rfl
  | case3 => rfl

/-- **No block comment ends inside a guarded text.** -/
theorem unclosed_guardBlock (cs : List Char) : Unclosed (guardBlock cs) := by
  fun_induction guardBlock cs with
  | case1 => exact Text.unclosed_nil
  | case2 cs ih =>
      have slash : Unclosed ('/' :: guardBlock cs) := ih.cons_of_ne (by decide)
      have backslash : Unclosed ('\\' :: '/' :: guardBlock cs) := slash.cons_of_ne (by decide)
      refine backslash.cons ?_
      rintro d start ⟨-, rfl⟩
      cases start
  | case3 c cs other ih =>
      refine ih.cons ?_
      -- A star in front of a slash would have been guarded together with it.
      rintro d start ⟨rfl, rfl⟩
      rw [head?_guardBlock] at start
      obtain ⟨rest, whole⟩ := List.head?_eq_some_iff.mp start
      exact other rest rfl whole

theorem unclosed_blockText (line : String) : Unclosed (blockText line).toList := by
  rw [blockText, String.toList_ofList]
  exact unclosed_guardBlock line.toList

/-- A comment on one line, up to its end. -/
theorem unclosed_opened (line : String) :
    Unclosed (['/', '*', '*'] ++ ' ' :: ((blockText line).toList ++ ' ' :: [])) :=
  Text.unclosed_opening.space ((unclosed_blockText line).space Text.unclosed_nil)

theorem unclosed_markedChars {front : List Char} (first : Unclosed front) {line : String}
    (second : Unclosed line.toList) : Unclosed (markedChars front line) := by
  unfold markedChars
  split
  · simpa using first
  · rw [String.toList_append]
    exact first.space second

/-- Lines behind a marker, in which no comment ends, with such a text below them. -/
theorem unclosed_join_markedLine {indent marker : String}
    (front : Unclosed (indent ++ marker).toList) {lines : List String}
    (each : ∀ line ∈ lines, Unclosed line.toList) {rest : List Char} (below : Unclosed rest) :
    Unclosed ((String.join (lines.map (markedLine indent marker))).toList ++ rest) := by
  induction lines with
  | nil => exact below
  | cons line lines ih =>
      rw [List.forall_mem_cons] at each
      rw [toList_join_markedLine, List.append_assoc, List.cons_append]
      exact (unclosed_markedChars front each.1).feed (ih each.2)

/-! ## Comments -/

section Block

variable {indent : String} (spaces : ∀ c ∈ indent.toList, c = ' ')
include spaces

theorem closesOnce_line (line : String) :
    ClosesOnce ['\n'] (indent ++ "/** " ++ blockText line ++ " */\n").toList := by
  have body := Unclosed.spaces_append spaces (unclosed_opened line)
  simpa using body.closesOnce Text.unclosed_feed

theorem closesOnce_lines (lines : List String) :
    ClosesOnce ['\n'] (indent ++ "/**\n" ++
      String.join (lines.map fun line => markedLine indent " *" (blockText line)) ++ indent
        ++ " */\n").toList := by
  have marker : Unclosed (indent ++ " *").toList := by
    rw [String.toList_append]
    exact .spaces_append spaces Text.unclosed_marker
  have guarded : ∀ line ∈ lines.map blockText, Unclosed line.toList :=
    List.forall_mem_map.mpr fun line _ => unclosed_blockText line
  have foot : Unclosed (indent.toList ++ [' ']) :=
    .spaces_append spaces (Text.unclosed_nil.space Text.unclosed_nil)
  have body : Unclosed (indent.toList ++ (['/', '*', '*'] ++ '\n' ::
      ((String.join ((lines.map blockText).map (markedLine indent " *"))).toList ++
        (indent.toList ++ [' '])))) :=
    .spaces_append spaces
      (Text.unclosed_opening.feed (unclosed_join_markedLine marker guarded foot))
  simpa [Function.comp_def] using body.closesOnce Text.unclosed_feed

/-- The block comment of a doc that says something opens behind its indentation and closes once, in
front of its last line feed. -/
theorem block_closesOnce {d : Doc} (filled : d.isEmpty = false) :
    (indent ++ "/**").toList <+: (d.block indent).toList ∧
      ClosesOnce ['\n'] (d.block indent).toList := by
  obtain ⟨lines, unbroken⟩ := d
  unfold block
  match lines with
  | [] => cases filled
  | [line] =>
      refine ⟨?_, closesOnce_line spaces line⟩
      simp
  | first :: second :: rest =>
      refine ⟨?_, closesOnce_lines spaces (first :: second :: rest)⟩
      simp

end Block

/-- A comment in front of an alternative closes once, at its end. -/
theorem inlineComment_closesOnce (d : Doc) :
    ClosesOnce [] (TypeScript.inlineComment d).toList := by
  have body := unclosed_opened (String.intercalate " "
    ((d.lines.map Text.trimBlanks).filter fun line => !line.isEmpty))
  simpa [TypeScript.inlineComment] using body.closesOnce Text.unclosed_nil

/-- **Comments end where they are meant to.** A doc that says nothing has no block comment. The
block comment of any other doc, indented by spaces, opens behind them and ends a comment in one
place only, in front of its last line feed. What stands in front of an alternative of a union that
is written on one line is a comment, which ends in one place only, and a space. -/
theorem comment_closes_once (d : Doc) :
    (d.isEmpty = true ∧ ∀ n, d.block (Text.times n " ") = "") ∨
      (d.isEmpty = false ∧
        (∀ n, (Text.times n " " ++ "/**").toList <+: (d.block (Text.times n " ")).toList ∧
          ClosesOnce ['\n'] (d.block (Text.times n " ")).toList) ∧
        TypeScript.inlineDoc d = TypeScript.inlineComment d ++ " " ∧
        ClosesOnce [] (TypeScript.inlineComment d).toList) := by
  cases empty : d.isEmpty with
  | true =>
      refine .inl ⟨rfl, fun n => ?_⟩
      rw [isEmpty, List.isEmpty_iff] at empty
      rw [block, empty]
  | false =>
      refine .inr ⟨rfl, fun n => ?_, ?_, inlineComment_closesOnce d⟩
      · exact block_closesOnce (fun _ inside => Text.mem_times_space inside) empty
      · rw [TypeScript.inlineDoc, if_neg (by simp [empty]), TypeScript.inlineComment,
          ← String.toList_inj]
        simp

end Doc

end SchemaPress
