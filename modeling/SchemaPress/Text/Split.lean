/-!
# Parts of a text

A text is cut at every place where a certain character stands. A text with `n` such characters
has `n + 1` parts, some of which may be empty.
-/

set_option autoImplicit false

namespace SchemaPress.Text

/-- The parts of a text between the places where `mark` stands. -/
def split (mark : Char) : List Char → List (List Char)
  | [] => [[]]
  | c :: cs => if c = mark then [] :: split mark cs else (split mark cs).modifyHead (c :: ·)

/-- The mark stands in no part. -/
theorem not_mem_of_mem_split {mark : Char} :
    ∀ {cs part : List Char}, part ∈ split mark cs → mark ∉ part
  | [], part, member => by
      simp only [split, List.mem_singleton] at member
      simp [member]
  | c :: cs, part, member => by
      simp only [split] at member
      split at member
      · rcases List.mem_cons.mp member with rfl | other
        · exact List.not_mem_nil
        · exact not_mem_of_mem_split other
      · rename_i different
        cases parts : split mark cs with
        | nil => simp [parts] at member
        | cons first rest =>
            rw [parts, List.modifyHead_cons] at member
            rcases List.mem_cons.mp member with rfl | other
            · have first_free : mark ∉ first := not_mem_of_mem_split (parts ▸ List.mem_cons_self)
              simpa [Ne.symm different] using first_free
            · exact not_mem_of_mem_split (parts ▸ List.mem_cons_of_mem _ other)

end SchemaPress.Text
