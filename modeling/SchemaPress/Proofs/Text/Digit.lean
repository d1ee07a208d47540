import Mathlib.Algebra.Group.Nat.Defs
import SchemaPress.Text.Digit
import SchemaPress.Text.Escape

/-!
# Hexadecimal digits read back

Escapes give a character by its number in hexadecimal digits. The digits that are written for a
number spell this number again, whatever their width, as long as the number has room in it.
-/

set_option autoImplicit false

namespace SchemaPress.Text

/-- A written digit has the value that it is written for. -/
theorem digitIn?_hexDigit {n : Nat} (small : n < 16) : digitIn? 16 (hexDigit n) = some n := by
  revert n
  decide

theorem digitIn?_upperHexDigit {n : Nat} (small : n < 16) :
    digitIn? 16 (upperHexDigit n) = some n := by
  revert n
  decide

/-- One digit more appends to the number that the digits before it spell. -/
theorem numberIn?_concat (base : Nat) (cs : List Char) (c : Char) :
    numberIn? base (cs ++ [c]) =
      (numberIn? base cs).bind fun n => (digitIn? base c).map (base * n + ·) := by
  simp only [numberIn?, List.foldlM_append, List.foldlM_cons, List.foldlM_nil, bind_pure]
  rfl

/-- **Digits spell the number they are written for**, if it has room in their width. -/
theorem numberIn?_hexPadded {digit : Nat → Char}
    (known : ∀ {d : Nat}, d < 16 → digitIn? 16 (digit d) = some d) {width n : Nat}
    (room : n < 16 ^ width) : numberIn? 16 (hexPadded digit width n) = some n := by
  induction width generalizing n with
  | zero =>
      have none_left : n = 0 := by simpa using room
      simp [none_left, hexPadded, numberIn?]
  | succ width ih =>
      have upper : n / 16 < 16 ^ width := by
        rw [Nat.pow_succ] at room
        exact Nat.div_lt_of_lt_mul (by rwa [Nat.mul_comm])
      have lower : n % 16 < 16 := Nat.mod_lt n (by decide)
      rw [hexPadded, numberIn?_concat, ih upper, known lower]
      simp only [Option.bind_some, Option.map_some, Option.some.injEq]
      exact Nat.div_add_mod n 16

theorem exists_of_mem_hexPadded {digit : Nat → Char} {c : Char} {width n : Nat}
    (member : c ∈ hexPadded digit width n) : ∃ d < 16, c = digit d := by
  induction width generalizing n with
  | zero => simp [hexPadded] at member
  | succ width ih =>
      rw [hexPadded, List.mem_append, List.mem_singleton] at member
      rcases member with earlier | rfl
      · exact ih earlier
      · exact ⟨n % 16, Nat.mod_lt n (by decide), rfl⟩

/-- Written digits are letters or decimal digits. -/
theorem isAlphanum_of_mem_hexPadded {c : Char} {width n : Nat}
    (member : c ∈ hexPadded hexDigit width n) : c.isAlphanum = true := by
  have each : ∀ d, d < 16 → (hexDigit d).isAlphanum = true := by decide
  obtain ⟨d, small, rfl⟩ := exists_of_mem_hexPadded member
  exact each d small

/-- The least width of a code point has room for it. -/
theorem lt_pow_hexWidth {n : Nat} (valid : n < 0x1000000) : n < 16 ^ hexWidth n := by
  unfold hexWidth
  repeat' split
  all_goals omega

end SchemaPress.Text
