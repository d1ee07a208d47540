import Mathlib.Tactic.SplitIfs
import SchemaPress.Proofs.Json.Scan

/-!
# Strings and numbers of the JSON grammar

The grammar says what may stand between the quotes of a string (`StringBody`) and how a number may
be written (`Numeral.Spells`). Neither asks whether the token has a value: a string may hold half
of a surrogate pair, and a number may be too large.

A scan finds exactly these tokens. A string of the grammar is passed up to its closing quote, and
what is taken from it does not depend on what follows; a number is spelled out up to its end, unless
the text goes on with it. The other way round, what is passed or spelled out is a token of the
grammar.
-/

set_option autoImplicit false

namespace SchemaPress.Json

/-! ## Strings -/

/-- A hexadecimal digit, in lower or upper case. -/
def IsHex (c : Char) : Prop :=
  '0' ≤ c ∧ c ≤ '9' ∨ 'a' ≤ c ∧ c ≤ 'f' ∨ 'A' ≤ c ∧ c ≤ 'F'

/-- What may stand between the quotes of a string: characters that are neither quotes nor
backslashes nor controls, escapes of two characters, and escapes by four hexadecimal digits. -/
inductive StringBody : List Char → Prop where
  | nil : StringBody []
  | plain {c : Char} {cs : List Char} (quote : c ≠ '"') (backslash : c ≠ '\\')
      (visible : 0x20 ≤ c.toNat) (rest : StringBody cs) : StringBody (c :: cs)
  | short {e : Char} {cs : List Char} (known : e ∈ ['"', '\\', '/', 'b', 'f', 'n', 'r', 't'])
      (rest : StringBody cs) : StringBody ('\\' :: e :: cs)
  | unicode {h₁ h₂ h₃ h₄ : Char} {cs : List Char} (hex : ∀ h ∈ [h₁, h₂, h₃, h₄], IsHex h)
      (rest : StringBody cs) : StringBody ('\\' :: 'u' :: h₁ :: h₂ :: h₃ :: h₄ :: cs)

theorem toNat_le_of_le {c d : Char} (below : c ≤ d) : c.toNat ≤ d.toNat := by
  rw [Char.le_def, UInt32.le_iff_toNat_le] at below
  exact below

theorem exists_digitIn?_of_isHex {c : Char} (hex : IsHex c) : ∃ n, Text.digitIn? 16 c = some n := by
  have small : ∃ n, Text.hexValue? c = some n ∧ n < 16 := by
    unfold Text.hexValue?
    split
    · rename_i decimal
      have high : c.toNat ≤ 0x39 := toNat_le_of_le decimal.2
      exact ⟨_, rfl, by omega⟩
    · split
      · rename_i lower
        have high : c.toNat ≤ 0x66 := toNat_le_of_le lower.2
        exact ⟨_, rfl, by omega⟩
      · split
        · rename_i upper
          have high : c.toNat ≤ 0x46 := toNat_le_of_le upper.2
          exact ⟨_, rfl, by omega⟩
        · rename_i decimal lower upper
          rcases hex with inside | inside | inside
          · exact absurd inside decimal
          · exact absurd inside lower
          · exact absurd inside upper
  obtain ⟨n, value, below⟩ := small
  exact ⟨n, Option.filter_eq_some_iff.mpr ⟨value, decide_eq_true below⟩⟩

theorem isHex_of_digitIn? {c : Char} {n : Nat} (digit : Text.digitIn? 16 c = some n) : IsHex c := by
  obtain ⟨found, -⟩ := Option.filter_eq_some_iff.mp digit
  unfold Text.hexValue? at found
  split at found
  · rename_i decimal
    exact .inl decimal
  · split at found
    · rename_i lower
      exact .inr (.inl lower)
    · split at found
      · rename_i upper
        exact .inr (.inr upper)
      · cases found

theorem hexFour?_isSome_iff (h₁ h₂ h₃ h₄ : Char) :
    (hexFour? h₁ h₂ h₃ h₄).isSome = true ↔ ∀ h ∈ [h₁, h₂, h₃, h₄], IsHex h := by
  have each : ∀ (cs : List Char) (n : Nat),
      (cs.foldlM (fun n c => (Text.digitIn? 16 c).map (16 * n + ·)) n).isSome = true ↔
        ∀ h ∈ cs, IsHex h := by
    intro cs
    induction cs with
    | nil => simp
    | cons c cs ih =>
        intro n
        rw [List.foldlM_cons, List.forall_mem_cons]
        constructor
        · intro spelled
          cases digit : Text.digitIn? 16 c with
          | none =>
              rw [digit] at spelled
              cases spelled
          | some d =>
              rw [digit] at spelled
              exact ⟨isHex_of_digitIn? digit, (ih _).mp spelled⟩
        · rintro ⟨hex, others⟩
          obtain ⟨d, digit⟩ := exists_digitIn?_of_isHex hex
          rw [digit]
          exact (ih _).mpr others
  exact each _ 0

/-- The escapes of two characters. -/
theorem shortEscape?_isSome_iff (e : Char) :
    (shortEscape? e).isSome = true ↔ e ∈ ['"', '\\', '/', 'b', 'f', 'n', 'r', 't'] := by
  unfold shortEscape?
  simp only [List.mem_cons, List.not_mem_nil, or_false]
  split_ifs <;> simp_all

theorem ne_of_shortEscape {e : Char} (known : e ∈ ['"', '\\', '/', 'b', 'f', 'n', 'r', 't']) :
    e ≠ 'u' := by
  rintro rfl
  revert known
  decide

theorem passString_plain {c : Char} (quote : c ≠ '"') (backslash : c ≠ '\\')
    (visible : ¬ c.toNat < 0x20) (rest : List Char) : passString (c :: rest) = passString rest := by
  rw [passString.eq_def]
  simp only [quote, backslash, visible, ↓reduceIte]

theorem passString_unicode {h₁ h₂ h₃ h₄ : Char} (spelled : (hexFour? h₁ h₂ h₃ h₄).isSome = true)
    (rest : List Char) :
    passString ('\\' :: 'u' :: h₁ :: h₂ :: h₃ :: h₄ :: rest) = passString rest := by
  rw [passString.eq_def]
  simp only [spelled, ↓reduceIte]

/-- A string is passed up to its closing quote. -/
theorem passString_body {body : List Char} (grammatical : StringBody body) (rest : List Char) :
    passString (body ++ '"' :: rest) = .ok rest := by
  induction grammatical with
  | nil => exact passString_close rest
  | plain quote backslash visible _ ih =>
      exact (passString_plain quote backslash (Nat.not_lt.mpr visible) _).trans ih
  | short known _ ih =>
      obtain ⟨d, stands⟩ := Option.isSome_iff_exists.mp ((shortEscape?_isSome_iff _).mpr known)
      exact (passString_short stands (ne_of_shortEscape known) _).trans ih
  | unicode hex _ ih => exact (passString_unicode ((hexFour?_isSome_iff ..).mpr hex) _).trans ih

theorem consTaken_map (c : Char) (r : Except Fault (List Char × List Char)) (rest : List Char) :
    consTaken c (r.map fun p => (p.1, rest)) = (consTaken c r).map fun p => (p.1, rest) := by
  cases r with
  | error f => rfl
  | ok p => rfl

/-- Taking a string does not depend on what follows it. -/
theorem takeString_body {body : List Char} (grammatical : StringBody body) (rest : List Char) :
    ∀ lead, takeString lead (body ++ '"' :: rest) =
      (takeString lead (body ++ ['"'])).map fun p => (p.1, rest) := by
  induction grammatical with
  | nil =>
      intro lead
      rw [List.nil_append, List.nil_append, takeString.eq_def, takeString.eq_def]
      cases lead <;> rfl
  | plain quote backslash visible _ ih =>
      intro lead
      have shown : ¬ _ := Nat.not_lt.mpr visible
      rw [List.cons_append, List.cons_append, takeString.eq_def, takeString.eq_def]
      cases lead with
      | none =>
          simp only [quote, backslash, shown, ↓reduceIte, ih, consTaken_map, Option.isSome_none,
            Bool.false_eq_true]
      | some n =>
          simp only [backslash, ↓reduceIte, Option.isSome_some]
          rfl
  | short known _ ih =>
      intro lead
      obtain ⟨d, stands⟩ := Option.isSome_iff_exists.mp ((shortEscape?_isSome_iff _).mpr known)
      have plain := ne_of_shortEscape known
      simp only [List.cons_append]
      rw [takeString.eq_def, takeString.eq_def]
      cases lead with
      | none => simp only [plain, ↓reduceIte, stands, ih, consTaken_map]
      | some n => simp only [plain, ↓reduceIte, stands]; rfl
  | unicode hex _ ih =>
      intro lead
      obtain ⟨n, spelled⟩ := Option.isSome_iff_exists.mp ((hexFour?_isSome_iff ..).mpr hex)
      simp only [List.cons_append]
      rw [takeString.eq_def, takeString.eq_def]
      cases lead with
      | none =>
        simp only [↓reduceIte, spelled]
        split_ifs
        · rfl
        · exact ih _
        · rw [ih, consTaken_map]
      | some high =>
        simp only [↓reduceIte, spelled]
        split_ifs
        · rw [ih, consTaken_map]
        · rfl

/-- What is passed as a string is one. -/
theorem exists_body_of_passString {cs rest : List Char} (passed : passString cs = .ok rest) :
    ∃ body, StringBody body ∧ cs = body ++ '"' :: rest := by
  fun_induction passString cs with
  | case1 | case2 | case4 | case5 | case7 | case9 => cases passed
  | case3 h₁ h₂ h₃ h₄ after spelled ih =>
      obtain ⟨body, grammatical, rfl⟩ := ih passed
      exact ⟨_, .unicode ((hexFour?_isSome_iff ..).mp spelled) grammatical, rfl⟩
  | case6 e after plain stands ih =>
      obtain ⟨body, grammatical, rfl⟩ := ih passed
      exact ⟨_, .short ((shortEscape?_isSome_iff e).mp stands) grammatical, rfl⟩
  | case8 after backslash =>
      cases passed
      exact ⟨[], .nil, rfl⟩
  | case10 c after backslash quote visible ih =>
      obtain ⟨body, grammatical, rfl⟩ := ih passed
      exact ⟨_, .plain quote backslash (Nat.not_lt.mp visible) grammatical, rfl⟩

theorem exists_of_consTaken {c : Char} {r : Except Fault (List Char × List Char)}
    {taken rest : List Char} (took : consTaken c r = .ok (taken, rest)) :
    ∃ others, r = .ok (others, rest) := by
  cases r with
  | error f => cases took
  | ok p =>
      cases took
      exact ⟨p.1, rfl⟩

/-- A string that is taken is also passed. -/
theorem passString_of_takeString {lead : Option Nat} {cs taken rest : List Char}
    (took : takeString lead cs = .ok (taken, rest)) : passString cs = .ok rest := by
  fun_induction takeString lead cs generalizing taken with
  | case1 | case2 | case3 | case5 | case6 | case9 | case11 | case12 | case14 => cases took
  | case4 h₁ h₂ h₃ h₄ after n high spelled trailing ih =>
      obtain ⟨others, taken⟩ := exists_of_consTaken took
      rw [passString_unicode (by rw [spelled]; rfl), ih taken]
  | case7 h₁ h₂ h₃ h₄ after n spelled _ leading ih =>
      rw [passString_unicode (by rw [spelled]; rfl), ih took]
  | case8 h₁ h₂ h₃ h₄ after n spelled _ _ ih =>
      obtain ⟨others, taken⟩ := exists_of_consTaken took
      rw [passString_unicode (by rw [spelled]; rfl), ih taken]
  | case10 e after plain d stands ih =>
      obtain ⟨others, taken⟩ := exists_of_consTaken took
      rw [passString_short stands plain, ih taken]
  | case13 lead after _ _ =>
      cases took
      exact passString_close _
  | case15 lead c after backslash _ quote visible ih =>
      obtain ⟨others, taken⟩ := exists_of_consTaken took
      rw [passString_plain quote backslash visible, ih taken]

/-- A string of the grammar, by what stands between its quotes. -/
structure Quoted where
  body : List Char
  grammatical : StringBody body

namespace Quoted

/-- The string with its quotes. -/
def chars (q : Quoted) : List Char :=
  '"' :: (q.body ++ ['"'])

/-- The text that the string stands for, or the fault of an escape that stands for no character. -/
def taken (q : Quoted) : Except Fault String :=
  (takeString none (q.body ++ ['"'])).map fun p => String.ofList p.1

/-- The text that the string stands for, if there is one. -/
def text? (q : Quoted) : Option String :=
  q.taken.toOption

theorem takeString_eq (q : Quoted) (rest : List Char) :
    (takeString none (q.body ++ '"' :: rest)).map (fun p => String.ofList p.1) = q.taken := by
  unfold taken
  rw [takeString_body q.grammatical rest none]
  cases takeString none (q.body ++ ['"']) with
  | error f => rfl
  | ok p => rfl

theorem stringBody_escaped (cs : List Char) : StringBody (cs.flatMap escapeChar) := by
  obtain ⟨body, grammatical, split⟩ := exists_body_of_passString (passString_written cs [])
  rwa [List.append_cancel_right split]

/-- A text as a string of the grammar, with escapes where they are needed. -/
def ofText (s : String) : Quoted :=
  ⟨s.toList.flatMap escapeChar, stringBody_escaped s.toList⟩

theorem text?_ofText (s : String) : (ofText s).text? = some s := by
  rw [text?, taken, ofText, takeString_written]
  exact congrArg some String.ofList_toList

/-- **A scan finds a string of the grammar**, whatever follows it. -/
theorem scanString_eq (q : Quoted) (rest : List Char) :
    scanString (q.body ++ '"' :: rest) = (.string q.taken (.ok ()), rest) := by
  have taken := q.takeString_eq rest
  have passed := passString_body q.grammatical rest
  unfold scanString
  cases took : takeString none (q.body ++ '"' :: rest) with
  | error f =>
      rw [took] at taken
      rw [passed, ← taken]
      rfl
  | ok p =>
      rw [took] at taken
      rw [passed, ← taken]
      rfl

end Quoted

/-! ## Numbers -/

/-- At least one decimal digit and nothing else. -/
def Digits (cs : List Char) : Prop :=
  cs ≠ [] ∧ ∀ c ∈ cs, c.isDigit = true

/-- A number of the grammar: there are digits wherever a part has to have some, and a zero stands
alone in front of the point. -/
structure Numeral where
  spelling : Spelling
  whole : Digits spelling.whole
  unpadded : spelling.whole.head? = some '0' → spelling.whole = ['0']
  fraction : ∀ digits ∈ spelling.fraction, Digits digits
  exponent : ∀ e ∈ spelling.exponent, Digits e.2

/-- How an exponent may be written. -/
def SpellsExponent : Option (Bool × List Char) → List Char → Prop
  | none, cs => cs = []
  | some (negative, digits), cs => ∃ mark sign, (mark = 'e' ∨ mark = 'E') ∧
      (if negative then sign = ['-'] else sign = [] ∨ sign = ['+']) ∧ cs = mark :: (sign ++ digits)

/-- How a fraction is written. -/
def fractionChars : Option (List Char) → List Char
  | none => []
  | some digits => '.' :: digits

/-- How a number may be written after its sign. -/
def Spelling.SpellsUnsigned (s : Spelling) (cs : List Char) : Prop :=
  ∃ exponent, SpellsExponent s.exponent exponent ∧
    cs = s.whole ++ (fractionChars s.fraction ++ exponent)

/-- How a number may be written. -/
def Numeral.Spells (n : Numeral) (cs : List Char) : Prop :=
  ∃ unsigned, n.spelling.SpellsUnsigned unsigned ∧
    cs = if n.spelling.negative then '-' :: unsigned else unsigned

/-- A text that does not go on with a number. -/
def Detached (rest : List Char) : Prop :=
  ∀ c ∈ rest.head?, c.isDigit = false ∧ c ≠ '.' ∧ c ≠ 'e' ∧ c ≠ 'E'

theorem spanDigits_append {digits rest : List Char} (all : ∀ c ∈ digits, c.isDigit = true)
    (ends : ∀ c ∈ rest.head?, c.isDigit = false) :
    spanDigits (digits ++ rest) = (digits, rest) := by
  have stops : rest.takeWhile Char.isDigit = [] ∧ rest.dropWhile Char.isDigit = rest := by
    cases rest with
    | nil => exact ⟨rfl, rfl⟩
    | cons c cs =>
        have stop := ends c rfl
        simp [stop]
  unfold spanDigits
  rw [List.takeWhile_append_of_pos all, List.dropWhile_append_of_pos all, stops.1, stops.2,
    List.append_nil]

theorem ne_of_isDigit {c d : Char} (digit : c.isDigit = true) (other : d.isDigit = false) :
    c ≠ d := by
  rintro rfl
  rw [digit] at other
  cases other

theorem spellExponent_spelled {s : Spelling} {cs rest : List Char} {e : Option (Bool × List Char)}
    (digits : ∀ p ∈ e, Digits p.2) (spelled : SpellsExponent e cs) (detached : Detached rest)
    (bare : s.exponent = none) :
    spellExponent s (cs ++ rest) = .ok (⟨s.negative, s.whole, s.fraction, e⟩, rest) := by
  obtain ⟨negative, whole, fraction, _⟩ := s
  cases bare
  cases e with
  | none =>
      cases spelled
      cases rest with
      | nil => rfl
      | cons c rest =>
          obtain ⟨-, -, lower, upper⟩ := detached c rfl
          simp only [List.nil_append, spellExponent, lower, upper, or_self, ↓reduceIte]
  | some p =>
      obtain ⟨minus, ds⟩ := p
      obtain ⟨filled, all⟩ : Digits ds := digits _ rfl
      obtain ⟨mark, sign, marked, signed, rfl⟩ := spelled
      obtain ⟨d, ds, rfl⟩ := List.exists_cons_of_ne_nil filled
      have span : spanDigits (d :: (ds ++ rest)) = (d :: ds, rest) :=
        spanDigits_append all fun c member => (detached c member).1
      have first := all d List.mem_cons_self
      cases minus with
      | true =>
          cases signed
          simp [spellExponent, marked, span]
      | false =>
          rcases signed with rfl | rfl
          · have unsigned : d ≠ '-' ∧ d ≠ '+' := ⟨ne_of_isDigit first rfl, ne_of_isDigit first rfl⟩
            simp [spellExponent, marked, span, unsigned]
          · simp [spellExponent, marked, span]

theorem SpellsExponent.head? {e : Option (Bool × List Char)} {cs rest : List Char}
    (spelled : SpellsExponent e cs) (detached : Detached rest) :
    ∀ c ∈ (cs ++ rest).head?, c.isDigit = false ∧ c ≠ '.' := by
  intro c member
  cases e with
  | none =>
      cases spelled
      exact ⟨(detached c member).1, (detached c member).2.1⟩
  | some p =>
      obtain ⟨mark, sign, marked, -, rfl⟩ := spelled
      cases member
      rcases marked with rfl | rfl
      · exact ⟨rfl, by decide⟩
      · exact ⟨rfl, by decide⟩

theorem spellFraction_spelled (negative : Bool) (whole : List Char) {cs rest : List Char}
    {f : Option (List Char)} {e : Option (Bool × List Char)}
    (fraction : ∀ digits ∈ f, Digits digits) (digits : ∀ p ∈ e, Digits p.2)
    (spelled : SpellsExponent e cs) (detached : Detached rest) :
    spellFraction ⟨negative, whole, none, none⟩ (fractionChars f ++ (cs ++ rest)) =
      .ok (⟨negative, whole, f, e⟩, rest) := by
  have ends := spelled.head? detached
  cases f with
  | none =>
      have exponent := spellExponent_spelled (s := ⟨negative, whole, none, none⟩) digits spelled
        detached rfl
      rw [← exponent]
      change spellFraction _ (cs ++ rest) = _
      unfold spellFraction
      split
      · rename_i after same
        rw [same] at ends
        exact absurd rfl (ends '.' rfl).2
      · rfl
  | some ds =>
      obtain ⟨filled, all⟩ := fraction ds rfl
      have span : spanDigits (ds ++ (cs ++ rest)) = (ds, cs ++ rest) :=
        spanDigits_append all fun c member => (ends c member).1
      have exponent := spellExponent_spelled (s := ⟨negative, whole, some ds, none⟩) digits spelled
        detached rfl
      simp [fractionChars, spellFraction, span, filled, exponent]

/-- A number is spelled out up to its end. -/
theorem spellNumber_spelled (n : Numeral) {cs rest : List Char}
    (spelled : n.spelling.SpellsUnsigned cs) (detached : Detached rest) :
    spellNumber n.spelling.negative (cs ++ rest) = .ok (n.spelling, rest) := by
  obtain ⟨⟨negative, whole, f, e⟩, ⟨filled, all⟩, unpadded, fraction, exponent⟩ := n
  obtain ⟨tail, written, rfl⟩ := spelled
  have span : spanDigits (whole ++ (fractionChars f ++ (tail ++ rest))) =
      (whole, fractionChars f ++ (tail ++ rest)) := by
    refine spanDigits_append all fun c member => ?_
    cases f with
    | none => exact (written.head? detached c member).1
    | some ds =>
        cases member
        rfl
  have rested := spellFraction_spelled negative whole fraction exponent written detached
  simp only [List.append_assoc, spellNumber, span]
  split
  · exact absurd rfl filled
  · exact rested
  · rename_i others more
    exact absurd (List.cons.inj (unpadded rfl)).2 more
  · exact rested

/-- The sign of an exponent is a minus, a plus or nothing. -/
theorem exists_sign (cs : List Char) :
    ∃ sign, (if cs.head? == some '-' then sign = ['-'] else sign = [] ∨ sign = ['+']) ∧
      cs = sign ++ if cs.head? == some '-' || cs.head? == some '+' then cs.drop 1 else cs := by
  cases cs with
  | nil => exact ⟨[], .inl rfl, rfl⟩
  | cons c cs =>
      by_cases minus : c = '-'
      · subst minus
        exact ⟨['-'], rfl, rfl⟩
      · by_cases plus : c = '+'
        · subst plus
          exact ⟨['+'], .inr rfl, rfl⟩
        · exact ⟨[], by simp [minus], by simp [minus, plus]⟩

theorem digits_takeWhile {cs : List Char} (filled : (cs.takeWhile Char.isDigit).isEmpty = false) :
    Digits (cs.takeWhile Char.isDigit) :=
  ⟨List.isEmpty_eq_false_iff.mp filled, List.all_eq_true.mp List.all_takeWhile⟩

/-- What is spelled out as an exponent is one. -/
theorem exists_of_spellExponent {s s' : Spelling} {cs rest : List Char} (bare : s.exponent = none)
    (spelled : spellExponent s cs = .ok (s', rest)) :
    ∃ e text, (∀ p ∈ e, Digits p.2) ∧ SpellsExponent e text ∧ cs = text ++ rest ∧
      s' = ⟨s.negative, s.whole, s.fraction, e⟩ := by
  obtain ⟨negative, whole, fraction, _⟩ := s
  cases bare
  have nothing : ∀ p ∈ (none : Option (Bool × List Char)), Digits p.2 := by
    rintro p ⟨⟩
  unfold spellExponent at spelled
  split at spelled
  · cases spelled
    exact ⟨none, [], nothing, rfl, rfl, rfl⟩
  · rename_i mark after
    by_cases marked : mark = 'e' ∨ mark = 'E'
    · rw [if_pos marked] at spelled
      dsimp only [spanDigits] at spelled
      obtain ⟨sign, signed, split⟩ := exists_sign after
      generalize
        (if after.head? == some '-' || after.head? == some '+' then after.drop 1 else after)
        = unsigned at spelled split
      by_cases filled : (unsigned.takeWhile Char.isDigit).isEmpty = true
      · rw [if_pos filled] at spelled
        cases spelled
      · rw [if_neg filled] at spelled
        cases spelled
        have digits := digits_takeWhile (Bool.eq_false_iff.mpr filled)
        refine ⟨some (_, _), _, ?_, ⟨mark, sign, marked, signed, rfl⟩, ?_, rfl⟩
        · rintro p ⟨⟩
          exact digits
        · rw [split, List.cons_append, List.append_assoc, List.takeWhile_append_dropWhile]
    · rw [if_neg marked] at spelled
      cases spelled
      exact ⟨none, [], nothing, rfl, rfl, rfl⟩

/-- What is spelled out as a fraction and an exponent is one. -/
theorem exists_of_spellFraction {negative : Bool} {whole cs rest : List Char} {s : Spelling}
    (spelled : spellFraction ⟨negative, whole, none, none⟩ cs = .ok (s, rest)) :
    ∃ f e text, (∀ digits ∈ f, Digits digits) ∧ (∀ p ∈ e, Digits p.2) ∧ SpellsExponent e text ∧
      cs = fractionChars f ++ (text ++ rest) ∧ s = ⟨negative, whole, f, e⟩ := by
  unfold spellFraction at spelled
  split at spelled
  · rename_i after
    dsimp only [spanDigits] at spelled
    by_cases filled : (after.takeWhile Char.isDigit).isEmpty = true
    · rw [if_pos filled] at spelled
      cases spelled
    · rw [if_neg filled] at spelled
      have digits := digits_takeWhile (Bool.eq_false_iff.mpr filled)
      obtain ⟨e, text, exponent, written, rested, rfl⟩ := exists_of_spellExponent rfl spelled
      refine ⟨some (after.takeWhile Char.isDigit), e, text, ?_, exponent, written, ?_, rfl⟩
      · rintro ds ⟨⟩
        exact digits
      · rw [← rested, fractionChars, List.cons_append, List.takeWhile_append_dropWhile]
  · obtain ⟨e, text, exponent, written, rested, rfl⟩ := exists_of_spellExponent rfl spelled
    refine ⟨none, e, text, ?_, exponent, written, rested, rfl⟩
    rintro ds ⟨⟩

/-- What is spelled out as a number is one. -/
theorem exists_of_spellNumber {negative : Bool} {cs rest : List Char} {s : Spelling}
    (spelled : spellNumber negative cs = .ok (s, rest)) :
    ∃ (n : Numeral) (text : List Char), n.spelling = s ∧ s.negative = negative ∧
      s.SpellsUnsigned text ∧ cs = text ++ rest := by
  have finish : ∀ {whole after : List Char}, Digits whole →
      (whole.head? = some '0' → whole = ['0']) → cs = whole ++ after →
      spellFraction ⟨negative, whole, none, none⟩ after = .ok (s, rest) →
      ∃ (n : Numeral) (text : List Char), n.spelling = s ∧ s.negative = negative ∧
        s.SpellsUnsigned text ∧ cs = text ++ rest := by
    intro whole after digits unpadded split fraction
    obtain ⟨f, e, text, fractional, exponent, written, rested, rfl⟩ :=
      exists_of_spellFraction fraction
    refine ⟨⟨_, digits, unpadded, fractional, exponent⟩, _, rfl, rfl, ⟨text, written, rfl⟩, ?_⟩
    rw [split, rested, List.append_assoc, List.append_assoc]
  have split : cs = cs.takeWhile Char.isDigit ++ cs.dropWhile Char.isDigit :=
    List.takeWhile_append_dropWhile.symm
  have digits := @digits_takeWhile cs
  unfold spellNumber spanDigits at spelled
  dsimp only at spelled
  generalize cs.takeWhile Char.isDigit = whole at spelled split digits
  split at spelled
  · cases spelled
  · exact finish (digits rfl) (fun _ => rfl) split spelled
  · cases spelled
  · rename_i filled single padded
    refine finish (digits ?_) ?_ split spelled
    · cases whole with
      | nil => exact absurd rfl filled
      | cons c cs => rfl
    · intro zero
      cases whole with
      | nil => cases zero
      | cons c others =>
          cases zero
          exact absurd rfl (padded others)

/-- The tree of a number. -/
def Numeral.toNode (n : Numeral) : Node :=
  match n.spelling.value with
  | some x => .number (.ok x) (.ok ())
  | none => .number (.error .malformed) (.ok ())

theorem Numeral.exists_toNode_eq (n : Numeral) : ∃ taken, n.toNode = .number taken (.ok ()) := by
  unfold Numeral.toNode
  split
  · exact ⟨_, rfl⟩
  · exact ⟨_, rfl⟩

/-- **A scan finds a number of the grammar**, unless the text goes on with it. -/
theorem Numeral.scanNumber_eq (n : Numeral) {cs rest : List Char}
    (spelled : n.spelling.SpellsUnsigned cs) (detached : Detached rest) :
    scanNumber n.spelling.negative (cs ++ rest) = (n.toNode, rest) := by
  unfold scanNumber Numeral.toNode
  rw [spellNumber_spelled n spelled detached]
  dsimp only
  cases n.spelling.value with
  | none => rfl
  | some x => rfl

end SchemaPress.Json
