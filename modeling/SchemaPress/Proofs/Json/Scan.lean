import SchemaPress.Json.Basic
import SchemaPress.Json.Node
import SchemaPress.Proofs.Text.Digit

/-!
# Scanning a written value

The tree of a value is what a scan of its text ought to find: every part is there and sound.
A value *reads back* if a scan of its indented text finds exactly this tree, at any level of
indentation, whatever follows the text, and with no more steps than the text has characters.

Strings read back, whatever characters they hold, and so do arrays and objects whose parts read
back. The text of a whole document is given more steps than it has characters, so a value that
reads back is found in the document of its text with nothing left over
(`ReadsBack.ofText_indented`).
-/

set_option autoImplicit false

namespace SchemaPress.Json

/-! ## The tree of a value -/

mutual

/-- The tree of a value. -/
def toNode : Json → Node
  | .null => .null (.ok ())
  | .bool b => .bool b (.ok ())
  | .integer n => .number (.ok (.integer n)) (.ok ())
  | .string s => .string (.ok s) (.ok ())
  | .array items => .array (toItems items)
  | .object members => .object (toMembers members)

/-- The trees of the items of an array. -/
def toItems : List Json → Items
  | [] => .close
  | v :: vs => .item (toNode v) (toItems vs)

/-- The trees of the members of an object. -/
def toMembers : List (String × Json) → Members
  | [] => .close
  | (k, v) :: ms => .member (.ok k) (toNode v) (toMembers ms)

end

theorem toNode_object (ms : List (String × Json)) :
    (Json.object ms).toNode = .object (toMembers ms) := by
  rw [toNode]

theorem toNode_ne_missing (j : Json) (f : Fault) : j.toNode ≠ .missing f := by
  cases j <;> simp [toNode]

/-! ## Blanks -/

theorem skipSpace_cons {c : Char} (solid : isSpace c = false) (cs : List Char) :
    skipSpace (c :: cs) = c :: cs := by
  simp [skipSpace, solid]

theorem skipSpace_skipSpace (cs : List Char) : skipSpace (skipSpace cs) = skipSpace cs := by
  induction cs with
  | nil => rfl
  | cons c cs ih =>
      by_cases blank : isSpace c = true
      · simpa [skipSpace, blank] using ih
      · rw [Bool.not_eq_true] at blank
        rw [skipSpace_cons blank, skipSpace_cons blank]

theorem skipSpace_space (cs : List Char) : skipSpace (' ' :: cs) = skipSpace cs := by
  simp [skipSpace, isSpace]

/-- The start of a new line is blank. -/
theorem skipSpace_newLine (level : Nat) (cs : List Char) :
    skipSpace (newLine level ++ cs) = skipSpace cs := by
  refine List.dropWhile_append_of_pos fun c member => ?_
  rcases List.mem_cons.mp member with rfl | space
  · rfl
  · rw [List.eq_of_mem_replicate space]
    rfl

/-- A scan for a value begins after the blanks. -/
theorem scanNode_congr {fuel : Nat} {a b : List Char} (same : skipSpace a = skipSpace b) :
    scanNode fuel a = scanNode fuel b := by
  cases fuel with
  | zero => simp only [scanNode]
  | succ fuel => simp only [scanNode, same]

/-! ## Strings -/

theorem takeString_close (rest : List Char) : takeString none ('"' :: rest) = .ok ([], rest) := by
  rw [takeString.eq_def]
  simp

theorem passString_close (rest : List Char) : passString ('"' :: rest) = .ok rest := by
  rw [passString.eq_def]
  simp

/-- An escape of two characters is taken as the character that it stands for. -/
theorem takeString_short {e d : Char} (stands : shortEscape? e = some d) (plain : e ≠ 'u')
    (rest : List Char) :
    takeString none ('\\' :: e :: rest) = consTaken d (takeString none rest) := by
  rw [takeString.eq_def]
  simp [stands, plain]

theorem passString_short {e d : Char} (stands : shortEscape? e = some d) (plain : e ≠ 'u')
    (rest : List Char) : passString ('\\' :: e :: rest) = passString rest := by
  rw [passString.eq_def]
  simp [stands, plain]

/-- The four digits of a control character spell it. -/
theorem hexFour?_control {n : Nat} (control : n < 0x20) :
    hexFour? (Text.hexDigit (n / 16 / 16 / 16 % 16)) (Text.hexDigit (n / 16 / 16 % 16))
      (Text.hexDigit (n / 16 % 16)) (Text.hexDigit (n % 16)) = some n := by
  have spelled : Text.numberIn? 16 (Text.hexPadded Text.hexDigit 4 n) = some n :=
    Text.numberIn?_hexPadded Text.digitIn?_hexDigit (by omega)
  simpa [Text.hexPadded, hexFour?] using spelled

/-- A written character is taken as itself. -/
theorem takeString_escapeChar (c : Char) (rest : List Char) :
    takeString none (escapeChar c ++ rest) = consTaken c (takeString none rest) := by
  unfold escapeChar
  -- The seven characters with an escape of two characters come first.
  iterate 7
    split
    · subst c
      exact takeString_short rfl (by decide) rest
  split
  · rename_i control
    have low : ¬ (0xDC00 ≤ c.toNat ∧ c.toNat ≤ 0xDFFF) := by omega
    have high : ¬ (0xD800 ≤ c.toNat ∧ c.toNat ≤ 0xDBFF) := by omega
    simp only [Text.hexPadded, List.nil_append, List.cons_append]
    rw [takeString.eq_def]
    simp [hexFour?_control control, low, high]
  · rename_i quote backslash _ _ _ _ _ control
    rw [List.singleton_append, takeString.eq_def]
    simp [quote, backslash, control]

/-- A written character is passed. -/
theorem passString_escapeChar (c : Char) (rest : List Char) :
    passString (escapeChar c ++ rest) = passString rest := by
  unfold escapeChar
  iterate 7
    split
    · subst c
      exact passString_short rfl (by decide) rest
  split
  · rename_i control
    simp only [Text.hexPadded, List.nil_append, List.cons_append]
    rw [passString.eq_def]
    simp [hexFour?_control control]
  · rename_i quote backslash _ _ _ _ _ control
    rw [List.singleton_append, passString.eq_def]
    simp [quote, backslash, control]

/-- A written string is taken as itself, up to its closing quote. -/
theorem takeString_written (cs rest : List Char) :
    takeString none (cs.flatMap escapeChar ++ '"' :: rest) = .ok (cs, rest) := by
  induction cs with
  | nil => exact takeString_close rest
  | cons c cs ih =>
      rw [List.flatMap_cons, List.append_assoc, takeString_escapeChar, ih]
      rfl

/-- A written string is passed up to its closing quote. -/
theorem passString_written (cs rest : List Char) :
    passString (cs.flatMap escapeChar ++ '"' :: rest) = .ok rest := by
  induction cs with
  | nil => exact passString_close rest
  | cons c cs ih => rw [List.flatMap_cons, List.append_assoc, passString_escapeChar, ih]

/-! ## Values that read back -/

/-- A scan of the indented text of a value finds the tree of the value, at any level, whatever
follows the text, and with no more steps than the text has characters. -/
def ReadsBack (j : Json) : Prop :=
  ∀ (level fuel : Nat) (rest : List Char), (j.indentedChars level).length ≤ fuel →
    scanNode fuel (j.indentedChars level ++ rest) = (j.toNode, rest)

/-- **Every string reads back**, whatever characters it holds. -/
theorem ReadsBack.string (s : String) : ReadsBack (.string s) := by
  intro level fuel rest enough
  obtain ⟨fuel, rfl⟩ : ∃ n, fuel = n + 1 :=
    ⟨fuel - 1, by simp [indentedChars, stringChars] at enough; omega⟩
  have text : (Json.string s).indentedChars level ++ rest =
      '"' :: (s.toList.flatMap escapeChar ++ '"' :: rest) := by
    simp [indentedChars, stringChars]
  rw [text, scanNode, skipSpace_cons rfl]
  simp [scanString, takeString_written, passString_written, toNode]

/-- The first item of an array is any value that is not missing. -/
theorem scanItems_cons {fuel : Nat} {text rest : List Char} {n : Node}
    (scanned : scanNode fuel text = (n, rest)) (present : ∀ f, n ≠ .missing f) :
    scanItems (fuel + 1) text =
      (.item n (scanMoreItems fuel rest).1, (scanMoreItems fuel rest).2) := by
  cases fuel with
  | zero =>
      simp only [scanNode, Prod.mk.injEq] at scanned
      exact absurd scanned.1.symm (present _)
  | succ fuel =>
      rw [scanItems]
      cases solid : skipSpace text with
      | nil =>
          simp only [scanNode, solid, Prod.mk.injEq] at scanned
          exact absurd scanned.1.symm (present _)
      | cons c cs =>
          have same : scanNode (fuel + 1) (c :: cs) = (n, rest) := by
            rw [← scanned]
            exact scanNode_congr (by rw [← solid, skipSpace_skipSpace])
          have open_ : c ≠ ']' := by
            rintro rfl
            rw [scanNode, skipSpace_cons rfl] at same
            simp at same
            exact present _ same.1.symm
          simp [open_, same]

/-- Further items that read back are found up to the closing bracket. -/
theorem scanMoreItems_written {vs : List Json} (each : ∀ v ∈ vs, ReadsBack v)
    (level outer fuel : Nat) (rest : List Char) (enough : (indentedItems level vs).length < fuel) :
    scanMoreItems fuel (indentedItems level vs ++ (newLine outer ++ ']' :: rest)) =
      (toItems vs, rest) := by
  induction vs generalizing fuel with
  | nil =>
      obtain ⟨fuel, rfl⟩ : ∃ n, fuel = n + 1 := ⟨fuel - 1, by omega⟩
      rw [indentedItems, List.nil_append, scanMoreItems, skipSpace_newLine, skipSpace_cons rfl]
      simp [toItems]
  | cons v vs ih =>
      obtain ⟨fuel, rfl⟩ : ∃ n, fuel = n + 1 := ⟨fuel - 1, by omega⟩
      simp only [indentedItems, List.length_append, List.length_cons] at enough
      have first : scanNode fuel (newLine level ++ (v.indentedChars level ++
          (indentedItems level vs ++ (newLine outer ++ ']' :: rest)))) =
          (v.toNode, indentedItems level vs ++ (newLine outer ++ ']' :: rest)) := by
        rw [scanNode_congr (skipSpace_newLine level _)]
        exact each v List.mem_cons_self level fuel _ (by omega)
      have others := ih (fun w member => each w (List.mem_cons_of_mem _ member)) fuel (by omega)
      simp only [indentedItems, List.cons_append, List.append_assoc]
      rw [scanMoreItems, skipSpace_cons rfl]
      simp [first, others, toItems]

/-- **An array reads back if its items do.** -/
theorem ReadsBack.array {vs : List Json} (each : ∀ v ∈ vs, ReadsBack v) :
    ReadsBack (.array vs) := by
  intro level fuel rest enough
  cases vs with
  | nil =>
      obtain ⟨fuel, rfl⟩ : ∃ n, fuel = n + 2 :=
        ⟨fuel - 2, by simp [indentedChars] at enough; omega⟩
      simp [indentedChars, scanNode, scanItems, skipSpace, isSpace, toNode, toItems]
  | cons v vs =>
      simp only [indentedChars, newLine, List.cons_append, List.length_cons, List.length_append,
        List.length_nil] at enough
      obtain ⟨fuel, rfl⟩ : ∃ n, fuel = n + 2 := ⟨fuel - 2, by omega⟩
      have first : scanNode fuel (newLine (level + 1) ++ (v.indentedChars (level + 1) ++
          (indentedItems (level + 1) vs ++ (newLine level ++ ']' :: rest)))) =
          (v.toNode, indentedItems (level + 1) vs ++ (newLine level ++ ']' :: rest)) := by
        rw [scanNode_congr (skipSpace_newLine (level + 1) _)]
        exact each v List.mem_cons_self (level + 1) fuel _ (by omega)
      have others := scanMoreItems_written (fun w member => each w (List.mem_cons_of_mem _ member))
        (level + 1) level fuel rest (by omega)
      simp only [indentedChars, List.cons_append, List.append_assoc, List.nil_append]
      rw [scanNode, skipSpace_cons rfl]
      simp [scanItems_cons first v.toNode_ne_missing, others, toNode, toItems]

/-- A written key is found together with the value after its colon. -/
theorem scanMember_written (k : String) {fuel : Nat} {text rest : List Char} {n : Node}
    (scanned : scanNode fuel text = (n, rest)) :
    scanMember (fuel + 1) (k.toList.flatMap escapeChar ++ '"' :: ':' :: ' ' :: text) =
      (.member (.ok k) n (scanMoreMembers fuel rest).1, (scanMoreMembers fuel rest).2) := by
  have value : scanNode fuel (' ' :: text) = (n, rest) := by
    rw [scanNode_congr (skipSpace_space text), scanned]
  rw [scanMember, takeString_written, passString_written]
  simp [Except.map, skipSpace_cons, isSpace, value]

/-- Further members whose values read back are found up to the closing brace. -/
theorem scanMoreMembers_written {ms : List (String × Json)} (each : ∀ m ∈ ms, ReadsBack m.2)
    (level outer fuel : Nat) (rest : List Char)
    (enough : (indentedMembers level ms).length < fuel) :
    scanMoreMembers fuel (indentedMembers level ms ++ (newLine outer ++ '}' :: rest)) =
      (toMembers ms, rest) := by
  induction ms generalizing fuel with
  | nil =>
      obtain ⟨fuel, rfl⟩ : ∃ n, fuel = n + 1 := ⟨fuel - 1, by omega⟩
      rw [indentedMembers, List.nil_append, scanMoreMembers, skipSpace_newLine,
        skipSpace_cons rfl]
      simp [toMembers]
  | cons m ms ih =>
      obtain ⟨k, v⟩ := m
      simp only [indentedMembers, stringChars, newLine, List.cons_append, List.length_append,
        List.length_cons] at enough
      obtain ⟨fuel, rfl⟩ : ∃ n, fuel = n + 2 := ⟨fuel - 2, by omega⟩
      have first := each (k, v) List.mem_cons_self level fuel
        (indentedMembers level ms ++ (newLine outer ++ '}' :: rest)) (by dsimp only; omega)
      have others := ih (fun w member => each w (List.mem_cons_of_mem _ member)) fuel (by omega)
      simp only [indentedMembers, stringChars, List.cons_append, List.append_assoc,
        List.nil_append]
      rw [scanMoreMembers, skipSpace_cons rfl]
      simp [skipSpace_newLine, skipSpace_cons, isSpace, scanMember_written k first, others,
        toMembers]

/-- **An object reads back if the values of its members do**, whatever its keys are. -/
theorem ReadsBack.object {ms : List (String × Json)} (each : ∀ m ∈ ms, ReadsBack m.2) :
    ReadsBack (.object ms) := by
  intro level fuel rest enough
  cases ms with
  | nil =>
      obtain ⟨fuel, rfl⟩ : ∃ n, fuel = n + 2 :=
        ⟨fuel - 2, by simp [indentedChars] at enough; omega⟩
      simp [indentedChars, scanNode, scanMembers, skipSpace, isSpace, toNode, toMembers]
  | cons m ms =>
      obtain ⟨k, v⟩ := m
      simp only [indentedChars, stringChars, newLine, List.cons_append, List.length_cons,
        List.length_append, List.length_nil] at enough
      obtain ⟨fuel, rfl⟩ : ∃ n, fuel = n + 3 := ⟨fuel - 3, by omega⟩
      have first := each (k, v) List.mem_cons_self (level + 1) fuel
        (indentedMembers (level + 1) ms ++ (newLine level ++ '}' :: rest)) (by dsimp only; omega)
      have others := scanMoreMembers_written
        (fun w member => each w (List.mem_cons_of_mem _ member)) (level + 1) level fuel rest
        (by omega)
      simp only [indentedChars, stringChars, List.cons_append, List.append_assoc, List.nil_append]
      rw [scanNode, skipSpace_cons rfl]
      simp [scanMembers, skipSpace_newLine, skipSpace_cons, isSpace, scanMember_written k first,
        others, toNode, toMembers]

/-- **A value that reads back is the whole document of its indented text.** -/
theorem ReadsBack.ofText_indented {j : Json} (reads : ReadsBack j) :
    Document.ofText j.indented = ⟨j.toNode, false⟩ := by
  have scanned : scanNode (2 * (j.indentedChars 0).length + 2) (j.indentedChars 0) =
      (j.toNode, []) := by
    have whole := reads 0 (2 * (j.indentedChars 0).length + 2) [] (by omega)
    rwa [List.append_nil] at whole
  simp [Document.ofText, indented, scanned, skipSpace]

end SchemaPress.Json
