import Mathlib.Data.List.TakeWhile
import SchemaPress.Text.Lines

/-!
# Texts as lists of lines

A text is cut at its line feeds: up to the first one stands the first line, and a line feed at the
end is followed by an empty line. Inside a line, characters of one kind are taken together. What
putting the end of a text in order drops are line feeds at its very end only
(`roundsOff_endWithBreak`).
-/

set_option autoImplicit false

namespace SchemaPress.Text

/-- Characters of one kind are taken up to the first character of another kind. -/
theorem takeWhile_dropWhile_run {kind : Char → Bool} {run rest : List Char}
    (inside : ∀ c ∈ run, kind c = true) (stop : ∀ c ∈ rest.head?, kind c = false) :
    (run ++ rest).takeWhile kind = run ∧ (run ++ rest).dropWhile kind = rest := by
  rw [List.takeWhile_append_of_pos inside, List.dropWhile_append_of_pos inside]
  cases rest with
  | nil => simp
  | cons c rest =>
      have other : kind c = false := stop c (by simp)
      simp [other]

theorem stop_cons (kind : Char → Bool) {c : Char} (other : kind c = false) (rest : List Char) :
    ∀ d ∈ (c :: rest).head?, kind d = false := by
  intro d first
  rw [List.head?_cons, Option.mem_some_iff] at first
  rw [← first, other]

/-- The first part of a text ends at the first mark. -/
theorem split_append_mark {mark : Char} {part : List Char} (absent : mark ∉ part)
    (rest : List Char) : split mark (part ++ mark :: rest) = part :: split mark rest := by
  induction part with
  | nil => simp [split]
  | cons c part ih =>
      rw [List.mem_cons, not_or] at absent
      obtain ⟨different, free⟩ := absent
      rw [List.cons_append, split, if_neg (Ne.symm different), ih free, List.modifyHead_cons]

theorem split_ne_nil (mark : Char) (cs : List Char) : split mark cs ≠ [] := by
  cases cs with
  | nil => simp [split]
  | cons c cs =>
      rw [split]
      split
      · simp
      · simp [split_ne_nil mark cs]

theorem split_of_not_mem {mark : Char} {part : List Char} (absent : mark ∉ part) :
    split mark part = [part] := by
  induction part with
  | nil => rfl
  | cons c part ih =>
      rw [List.mem_cons, not_or] at absent
      rw [split, if_neg (Ne.symm absent.1), ih absent.2, List.modifyHead_cons]

/-- The parts of a text with the mark in front of all but the first are the text. -/
theorem eq_append_of_split {mark : Char} {cs first : List Char} {rest : List (List Char)}
    (parts : split mark cs = first :: rest) : cs = first ++ rest.flatMap (mark :: ·) := by
  induction cs generalizing first rest with
  | nil =>
      obtain ⟨rfl, rfl⟩ := List.cons.inj parts
      rfl
  | cons c cs ih =>
      rw [split] at parts
      cases cut : split mark cs with
      | nil => exact absurd cut (split_ne_nil mark cs)
      | cons next others =>
          rw [cut, List.modifyHead_cons] at parts
          have whole := ih cut
          split at parts
          · rename_i marked
            obtain ⟨rfl, rfl⟩ := List.cons.inj parts
            rw [whole, marked, List.nil_append, List.flatMap_cons, List.cons_append]
          · obtain ⟨rfl, rfl⟩ := List.cons.inj parts
            rw [List.cons_append, ← whole]

/-- What stands in a part stands in the text. -/
theorem mem_of_mem_split {mark c : Char} {cs part : List Char} (listed : part ∈ split mark cs)
    (inside : c ∈ part) : c ∈ cs := by
  cases parts : split mark cs with
  | nil => exact absurd parts (split_ne_nil mark cs)
  | cons first rest =>
      rw [eq_append_of_split parts, List.mem_append, List.mem_flatMap]
      rw [parts] at listed
      rcases List.mem_cons.mp listed with rfl | later
      · exact .inl inside
      · exact .inr ⟨part, later, List.mem_cons_of_mem _ inside⟩

/-- A mark at the end of a text is followed by one more part, which is empty. -/
theorem split_concat_mark (mark : Char) (cs : List Char) :
    split mark (cs ++ [mark]) = split mark cs ++ [[]] := by
  induction cs with
  | nil => simp [split]
  | cons c cs ih =>
      rw [List.cons_append, split, ih]
      by_cases marked : c = mark
      · simp [split, marked]
      · rw [if_neg marked, split, if_neg marked]
        cases parts : split mark cs with
        | nil => exact absurd parts (split_ne_nil mark cs)
        | cons first rest => simp

/-- What is dropped from the end of a text are line feeds. -/
theorem exists_eq_dropFinalBreaks_append (cs : List Char) :
    ∃ n, cs = dropFinalBreaks cs ++ List.replicate n '\n' := by
  refine ⟨(cs.reverse.takeWhile (· = '\n')).length, ?_⟩
  have breaks : cs.reverse.takeWhile (· = '\n') =
      List.replicate (cs.reverse.takeWhile (· = '\n')).length '\n' := by
    refine List.eq_replicate_of_mem fun c member => ?_
    simpa using List.mem_takeWhile_imp member
  calc cs = (cs.reverse.takeWhile (· = '\n') ++ cs.reverse.dropWhile (· = '\n')).reverse := by
        rw [List.takeWhile_append_dropWhile, List.reverse_reverse]
    _ = dropFinalBreaks cs ++ (cs.reverse.takeWhile (· = '\n')).reverse := by
        rw [List.reverse_append]
        rfl
    _ = dropFinalBreaks cs ++
          List.replicate (cs.reverse.takeWhile (· = '\n')).length '\n' := by
        rw [breaks, List.reverse_replicate, List.length_replicate]

theorem getLast?_dropFinalBreaks (cs : List Char) :
    (dropFinalBreaks cs).getLast? ≠ some '\n' := by
  unfold dropFinalBreaks
  rw [List.getLast?_reverse]
  intro first
  have other := List.head?_dropWhile_not (fun c => decide (c = '\n')) cs.reverse
  rw [first] at other
  simp at other

/-- A text is another one with the line feeds at its very end replaced by exactly one. -/
def RoundsOff (whole text : String) : Prop :=
  ∃ (body : String) (n : Nat), whole = body ++ String.ofList (List.replicate n '\n') ∧
    body.toList.getLast? ≠ some '\n' ∧ text = body ++ "\n"

/-- **Putting the end of a text in order changes nothing but line feeds at its very end.** -/
theorem roundsOff_endWithBreak (s : String) : RoundsOff s (endWithBreak s) := by
  obtain ⟨n, whole⟩ := exists_eq_dropFinalBreaks_append s.toList
  refine ⟨String.ofList (dropFinalBreaks s.toList), n, ?_, ?_, rfl⟩
  · rw [← String.ofList_append, ← whole, String.ofList_toList]
  · rw [String.toList_ofList]
    exact getLast?_dropFinalBreaks s.toList

theorem dropFinalBreaks_append_replicate {body : List Char} (solid : body.getLast? ≠ some '\n')
    (n : Nat) : dropFinalBreaks (body ++ List.replicate n '\n') = body := by
  unfold dropFinalBreaks
  rw [List.reverse_append, List.reverse_replicate,
    List.dropWhile_append_of_pos fun c inside => by simp [List.eq_of_mem_replicate inside]]
  cases letters : body.reverse with
  | nil => rw [List.dropWhile_nil, ← letters, List.reverse_reverse]
  | cons c rest =>
      have other : c ≠ '\n' := by
        rintro rfl
        rw [List.getLast?_eq_head?_reverse, letters] at solid
        exact solid rfl
      rw [List.dropWhile_cons_of_neg (by simpa using other), ← letters, List.reverse_reverse]

/-- There is one way to put the end of a text in order. -/
theorem RoundsOff.eq {whole text : String} (rounds : RoundsOff whole text) :
    text = endWithBreak whole := by
  obtain ⟨body, n, rfl, solid, rfl⟩ := rounds
  unfold endWithBreak
  rw [String.toList_append, String.toList_ofList, dropFinalBreaks_append_replicate solid,
    String.ofList_toList]

/-- A property of texts that a further line feed at the end does not change is not changed by
putting the end in order. -/
theorem apply_endWithBreak {α : Type} {f : List Char → α}
    (indifferent : ∀ cs, f (cs ++ ['\n']) = f cs) (s : String) :
    f (endWithBreak s).toList = f s.toList := by
  have many : ∀ n cs, f (cs ++ List.replicate n '\n') = f cs := by
    intro n
    induction n with
    | zero => simp
    | succ n ih =>
        intro cs
        rw [List.replicate_succ', ← List.append_assoc, indifferent, ih]
  obtain ⟨n, whole⟩ := exists_eq_dropFinalBreaks_append s.toList
  rw [whole, many, endWithBreak]
  simpa using indifferent _

/-- A separated list as the first text and the others behind separators. -/
theorem intercalate_cons (between : String) (texts : List String) : ∀ first,
    String.intercalate between (first :: texts) =
      first ++ String.join (texts.map (between ++ ·)) := by
  induction texts with
  | nil =>
      intro first
      rw [String.intercalate_singleton, List.map_nil, String.join_nil, String.append_empty]
  | cons next texts ih =>
      intro first
      rw [String.intercalate_cons_cons, ih next, List.map_cons, String.join_cons]
      simp only [String.append_assoc]

/-- Texts without line feeds stay on one line when they are joined by such a text. -/
theorem no_break_intercalate {between : String} {texts : List String}
    (clean : '\n' ∉ between.toList) (free : ∀ text ∈ texts, '\n' ∉ text.toList) :
    '\n' ∉ (String.intercalate between texts).toList := by
  induction texts with
  | nil => simp
  | cons text texts ih =>
      rw [List.forall_mem_cons] at free
      cases texts with
      | nil => simpa using free.1
      | cons next texts =>
          rw [String.intercalate_cons_cons, String.toList_append, String.toList_append,
            List.mem_append, List.mem_append, not_or, not_or]
          exact ⟨⟨free.1, clean⟩, ih free.2⟩

/-- The indentation of a line is four spaces for each level. -/
theorem toList_indent (level : Nat) :
    (times level "    ").toList = List.replicate (4 * level) ' ' := by
  induction level with
  | zero => simp [times]
  | succ level ih =>
      rw [times, List.replicate_succ, String.join_cons, String.toList_append, ← times, ih,
        Nat.mul_succ, Nat.add_comm, ← List.replicate_append_replicate]
      rfl

end SchemaPress.Text
