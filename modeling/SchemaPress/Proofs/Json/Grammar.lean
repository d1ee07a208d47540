import SchemaPress.Proofs.Json.Token

/-!
# Texts of the JSON grammar

A JSON text is a value of the grammar with blanks around it and between its tokens. `Written` is
such a value with its tokens as they are written, so that it says everything about a text but its
blanks, and `Written.Spells` says which texts it has.

The tree that a scan finds is the tree of the value (`Written.ofText_eq`), and a text whose tree is
free of faults has a value (`exists_spellsText`). So what a reader makes of a text can be
told from the value alone, and nothing that a reader accepts lies outside the grammar.
-/

set_option autoImplicit false

namespace SchemaPress.Json

/-! ## Values as they are written -/

/-- A value of the grammar, with its tokens as they are written. -/
inductive Written where
  | null
  | bool (b : Bool)
  | number (n : Numeral)
  | string (q : Quoted)
  | array (items : List Written)
  | object (members : List (Quoted × Written))

/-- Blanks only. -/
def Blank (cs : List Char) : Prop :=
  ∀ c ∈ cs, isSpace c = true

/-- A key, a colon and a value, with blanks before and after the colon. -/
def MemberChars (key : Quoted) (value cs : List Char) : Prop :=
  ∃ before after, Blank before ∧ Blank after ∧ cs = key.chars ++ (before ++ ':' :: (after ++ value))

namespace Written

mutual

/-- The texts of a value, from its first token to its last. -/
def Spells : Written → List Char → Prop
  | .null, cs => cs = "null".toList
  | .bool b, cs => cs = boolChars b
  | .number n, cs => n.Spells cs
  | .string q, cs => cs = q.chars
  | .array [], cs => ∃ blank, Blank blank ∧ cs = '[' :: (blank ++ [']'])
  | .array (v :: vs), cs => ∃ blank first more, Blank blank ∧ v.Spells first ∧ SpellsItems vs more ∧
      cs = '[' :: (blank ++ (first ++ (more ++ [']'])))
  | .object [], cs => ∃ blank, Blank blank ∧ cs = '{' :: (blank ++ ['}'])
  | .object ((k, v) :: ms), cs => ∃ blank value first more, Blank blank ∧ v.Spells value ∧
      MemberChars k value first ∧ SpellsMembers ms more ∧
      cs = '{' :: (blank ++ (first ++ (more ++ ['}'])))

/-- The texts of further items of an array, each after its comma. -/
def SpellsItems : List Written → List Char → Prop
  | [], cs => Blank cs
  | v :: vs, cs => ∃ before after next more, Blank before ∧ Blank after ∧ v.Spells next ∧
      SpellsItems vs more ∧ cs = before ++ ',' :: (after ++ (next ++ more))

/-- The texts of further members of an object, each after its comma. -/
def SpellsMembers : List (Quoted × Written) → List Char → Prop
  | [], cs => Blank cs
  | (k, v) :: ms, cs => ∃ before after value next more, Blank before ∧ Blank after ∧
      v.Spells value ∧ MemberChars k value next ∧ SpellsMembers ms more ∧
      cs = before ++ ',' :: (after ++ (next ++ more))

end

/-- The texts of a value as a document: blanks may stand around it. -/
def SpellsText (v : Written) (text : String) : Prop :=
  ∃ before cs after, Blank before ∧ v.Spells cs ∧ Blank after ∧
    text.toList = before ++ (cs ++ after)

mutual

/-- The tree of a value. -/
def toNode : Written → Node
  | .null => .null (.ok ())
  | .bool b => .bool b (.ok ())
  | .number n => n.toNode
  | .string q => .string q.taken (.ok ())
  | .array items => .array (toItems items)
  | .object members => .object (toMembers members)

/-- The trees of the items of an array. -/
def toItems : List Written → Items
  | [] => .close
  | v :: vs => .item v.toNode (toItems vs)

/-- The trees of the members of an object. -/
def toMembers : List (Quoted × Written) → Members
  | [] => .close
  | (k, v) :: ms => .member k.taken v.toNode (toMembers ms)

end

theorem toNode_ne_missing (v : Written) (f : Fault) : v.toNode ≠ .missing f := by
  cases v with
  | number n =>
      obtain ⟨taken, number⟩ := n.exists_toNode_eq
      simp [toNode, number]
  | null | bool | string | array | object => simp [toNode]

end Written

/-! ## Blanks -/

theorem skipSpace_blank {blank : List Char} (blanks : Blank blank) (cs : List Char) :
    skipSpace (blank ++ cs) = skipSpace cs :=
  List.dropWhile_append_of_pos blanks

/-- Blanks end at a character that is none. -/
theorem skipSpace_solid {blank : List Char} (blanks : Blank blank) {c : Char}
    (solid : isSpace c = false) (cs : List Char) : skipSpace (blank ++ c :: cs) = c :: cs := by
  rw [skipSpace_blank blanks, skipSpace_cons solid]

theorem exists_blank (cs : List Char) : ∃ blank, Blank blank ∧ cs = blank ++ skipSpace cs :=
  ⟨cs.takeWhile isSpace, List.all_eq_true.mp List.all_takeWhile,
    List.takeWhile_append_dropWhile.symm⟩

theorem detached_cons {c : Char} (apart : c.isDigit = false ∧ c ≠ '.' ∧ c ≠ 'e' ∧ c ≠ 'E')
    (cs : List Char) : Detached (c :: cs) := by
  intro d member
  cases member
  exact apart

theorem apart_of_isSpace {c : Char} (space : isSpace c = true) :
    c.isDigit = false ∧ c ≠ '.' ∧ c ≠ 'e' ∧ c ≠ 'E' := by
  simp only [isSpace, Bool.or_eq_true, decide_eq_true_eq] at space
  rcases space with ((rfl | rfl) | rfl) | rfl
  all_goals exact ⟨rfl, by decide, by decide, by decide⟩

/-- A number ends where blanks begin. -/
theorem detached_blank {blank : List Char} (blanks : Blank blank) {cs : List Char}
    (detached : Detached cs) : Detached (blank ++ cs) := by
  cases blank with
  | nil => exact detached
  | cons c blank => exact detached_cons (apart_of_isSpace (blanks c List.mem_cons_self)) _

namespace Written

theorem detached_items {vs : List Written} {more : List Char} (spelled : SpellsItems vs more)
    (rest : List Char) : Detached (more ++ ']' :: rest) := by
  have apart : Detached (']' :: rest) := detached_cons ⟨rfl, by decide, by decide, by decide⟩ _
  cases vs with
  | nil =>
      rw [SpellsItems] at spelled
      exact detached_blank spelled apart
  | cons v vs =>
      rw [SpellsItems] at spelled
      obtain ⟨before, after, next, others, blanks, -, -, -, rfl⟩ := spelled
      rw [List.append_assoc]
      exact detached_blank blanks (detached_cons ⟨rfl, by decide, by decide, by decide⟩ _)

theorem detached_members {ms : List (Quoted × Written)} {more : List Char}
    (spelled : SpellsMembers ms more) (rest : List Char) : Detached (more ++ '}' :: rest) := by
  have apart : Detached ('}' :: rest) := detached_cons ⟨rfl, by decide, by decide, by decide⟩ _
  rcases ms with _ | ⟨⟨k, v⟩, ms⟩
  · rw [SpellsMembers] at spelled
    exact detached_blank spelled apart
  · rw [SpellsMembers] at spelled
    obtain ⟨before, after, value, next, others, blanks, -, -, -, -, rfl⟩ := spelled
    rw [List.append_assoc]
    exact detached_blank blanks (detached_cons ⟨rfl, by decide, by decide, by decide⟩ _)

/-! ## A scan finds the tree of a value -/

theorem scanNode_number (n : Numeral) {cs blank rest : List Char} {fuel : Nat}
    (spelled : n.Spells cs) (blanks : Blank blank) (detached : Detached rest) :
    scanNode (fuel + 1) (blank ++ (cs ++ rest)) = (n.toNode, rest) := by
  obtain ⟨unsigned, written, rfl⟩ := spelled
  have found := n.scanNumber_eq written detached
  cases sign : n.spelling.negative with
  | true =>
      rw [sign] at found
      rw [if_pos rfl, List.cons_append, scanNode, skipSpace_solid blanks rfl]
      exact found
  | false =>
      rw [sign] at found
      obtain ⟨exponent, -, whole⟩ := written
      obtain ⟨c, others, digits⟩ := List.exists_cons_of_ne_nil n.whole.1
      rw [digits, List.cons_append] at whole
      have digit : c.isDigit = true := n.whole.2 c (by rw [digits]; exact List.mem_cons_self)
      have solid : isSpace c = false := by
        cases space : isSpace c with
        | false => rfl
        | true =>
            rw [(apart_of_isSpace space).1] at digit
            cases digit
      subst whole
      rw [if_neg Bool.false_ne_true, List.cons_append, scanNode, skipSpace_solid blanks solid]
      have different : c ≠ 'n' ∧ c ≠ 't' ∧ c ≠ 'f' ∧ c ≠ '-' :=
        ⟨ne_of_isDigit digit rfl, ne_of_isDigit digit rfl, ne_of_isDigit digit rfl,
          ne_of_isDigit digit rfl⟩
      simp only [different, digit, ↓reduceIte]
      exact found

/-- A key is found together with the value after its colon. -/
theorem scanMember_spelled {k : Quoted} {value cs rest : List Char}
    (spelled : MemberChars k value cs) {fuel : Nat} {n : Node} {others : List Char}
    (scanned : ∀ {blank}, Blank blank → scanNode fuel (blank ++ (value ++ rest)) = (n, others)) :
    ∃ tail, cs = '"' :: tail ∧ scanMember (fuel + 1) (tail ++ rest) =
      (.member k.taken n (scanMoreMembers fuel others).1, (scanMoreMembers fuel others).2) := by
  obtain ⟨before, after, blanks, blanks', rfl⟩ := spelled
  refine ⟨k.body ++ '"' :: (before ++ ':' :: (after ++ value)), by simp [Quoted.chars], ?_⟩
  simp only [List.append_assoc, List.cons_append]
  rw [scanMember, k.takeString_eq, passString_body k.grammatical]
  dsimp only
  rw [skipSpace_solid blanks rfl]
  simp only [scanned blanks']

theorem length_memberChars {k : Quoted} {value cs : List Char} (spelled : MemberChars k value cs) :
    value.length + 3 ≤ cs.length := by
  obtain ⟨before, after, -, -, rfl⟩ := spelled
  simp only [Quoted.chars, List.length_append, List.length_cons, List.length_nil]
  omega

mutual

/-- **A scan finds the tree of a value**, after any blanks and whatever follows, if the text does
not go on with a number. -/
theorem scanNode_spelled : ∀ (v : Written) {cs blank rest : List Char} {fuel : Nat}, v.Spells cs →
    Blank blank → Detached rest → cs.length ≤ fuel →
      scanNode (fuel + 1) (blank ++ (cs ++ rest)) = (v.toNode, rest)
  | .null, cs, blank, rest, fuel, spelled, blanks, _, enough => by
      rw [Spells] at spelled
      subst spelled
      rw [scanNode]
      change (match skipSpace (blank ++ 'n' :: _) with | [] => _ | c :: cs => _) = _
      rw [skipSpace_solid blanks rfl, toNode]
      rfl
  | .bool b, cs, blank, rest, fuel, spelled, blanks, _, enough => by
      rw [Spells] at spelled
      subst spelled
      rw [scanNode, toNode]
      cases b with
      | true =>
          change (match skipSpace (blank ++ 't' :: _) with | [] => _ | c :: cs => _) = _
          rw [skipSpace_solid blanks rfl]
          rfl
      | false =>
          change (match skipSpace (blank ++ 'f' :: _) with | [] => _ | c :: cs => _) = _
          rw [skipSpace_solid blanks rfl]
          rfl
  | .number n, cs, blank, rest, fuel, spelled, blanks, detached, _ => by
      rw [Spells] at spelled
      rw [toNode]
      exact scanNode_number n spelled blanks detached
  | .string q, cs, blank, rest, fuel, spelled, blanks, _, _ => by
      rw [Spells] at spelled
      subst spelled
      rw [scanNode, Quoted.chars, List.cons_append, List.append_assoc, skipSpace_solid blanks rfl,
        toNode]
      exact q.scanString_eq rest
  | .array [], cs, blank, rest, fuel, spelled, blanks, _, enough => by
      rw [Spells] at spelled
      obtain ⟨inner, inners, rfl⟩ := spelled
      simp only [List.length_append, List.length_cons] at enough
      obtain ⟨fuel, rfl⟩ : ∃ n, fuel = n + 1 := ⟨fuel - 1, by omega⟩
      have closed : scanItems (fuel + 1) (inner ++ ']' :: rest) = (.close, rest) := by
        rw [scanItems, skipSpace_solid inners rfl]
        rfl
      rw [scanNode, List.cons_append, List.append_assoc, skipSpace_solid blanks rfl, toNode,
        toItems]
      simp [closed]
  | .array (v :: vs), cs, blank, rest, fuel, spelled, blanks, _, enough => by
      rw [Spells] at spelled
      obtain ⟨inner, first, more, inners, value, others, rfl⟩ := spelled
      simp only [List.length_append, List.length_cons, List.length_nil] at enough
      obtain ⟨fuel, rfl⟩ : ∃ n, fuel = n + 2 := ⟨fuel - 2, by omega⟩
      have found : scanNode (fuel + 1) (inner ++ (first ++ (more ++ ']' :: rest))) =
          (v.toNode, more ++ ']' :: rest) :=
        scanNode_spelled v value inners (detached_items others rest) (by omega)
      have tail := scanMoreItems_spelled vs rest others (show more.length < fuel + 1 by omega)
      rw [scanNode, List.cons_append, skipSpace_solid blanks rfl, toNode, toItems]
      simp [scanItems_cons found v.toNode_ne_missing, tail]
  | .object [], cs, blank, rest, fuel, spelled, blanks, _, enough => by
      rw [Spells] at spelled
      obtain ⟨inner, inners, rfl⟩ := spelled
      simp only [List.length_append, List.length_cons] at enough
      obtain ⟨fuel, rfl⟩ : ∃ n, fuel = n + 1 := ⟨fuel - 1, by omega⟩
      have closed : scanMembers (fuel + 1) (inner ++ '}' :: rest) = (.close, rest) := by
        rw [scanMembers, skipSpace_solid inners rfl]
        rfl
      rw [scanNode, List.cons_append, List.append_assoc, skipSpace_solid blanks rfl, toNode,
        toMembers]
      simp [closed]
  | .object ((k, v) :: ms), cs, blank, rest, fuel, spelled, blanks, _, enough => by
      rw [Spells] at spelled
      obtain ⟨inner, value, first, more, inners, written, member, others, rfl⟩ := spelled
      simp only [List.length_append, List.length_cons, List.length_nil] at enough
      have longer := length_memberChars member
      obtain ⟨fuel, rfl⟩ : ∃ n, fuel = n + 4 := ⟨fuel - 4, by omega⟩
      obtain ⟨tail, rfl, found⟩ := scanMember_spelled member fun blanks =>
        scanNode_spelled v written blanks (detached_members others rest)
          (show value.length ≤ fuel + 1 by omega)
      have further := scanMoreMembers_spelled ms rest others (show more.length < fuel + 2 by omega)
      have members : scanMembers (fuel + 4) (inner ++ '"' :: (tail ++ (more ++ '}' :: rest))) =
          (.member k.taken v.toNode (toMembers ms), rest) := by
        rw [scanMembers, skipSpace_solid inners rfl]
        simp [found, further]
      rw [scanNode, List.cons_append, skipSpace_solid blanks rfl, toNode, toMembers]
      simp [members]

/-- Further items are found up to the closing bracket. -/
theorem scanMoreItems_spelled : ∀ (vs : List Written) {cs : List Char} (rest : List Char)
    {fuel : Nat}, SpellsItems vs cs → cs.length < fuel →
      scanMoreItems fuel (cs ++ ']' :: rest) = (toItems vs, rest)
  | [], cs, rest, fuel, spelled, enough => by
      obtain ⟨fuel, rfl⟩ : ∃ n, fuel = n + 1 := ⟨fuel - 1, by omega⟩
      rw [SpellsItems] at spelled
      rw [scanMoreItems, skipSpace_solid spelled rfl, toItems]
      rfl
  | v :: vs, cs, rest, fuel, spelled, enough => by
      rw [SpellsItems] at spelled
      obtain ⟨before, after, next, more, blanks, blanks', value, others, rfl⟩ := spelled
      simp only [List.length_append, List.length_cons] at enough
      obtain ⟨fuel, rfl⟩ : ∃ n, fuel = n + 2 := ⟨fuel - 2, by omega⟩
      have first : scanNode (fuel + 1) (after ++ (next ++ (more ++ ']' :: rest))) =
          (v.toNode, more ++ ']' :: rest) :=
        scanNode_spelled v value blanks' (detached_items others rest) (by omega)
      have tail := scanMoreItems_spelled vs rest others (show more.length < fuel + 1 by omega)
      simp only [List.append_assoc, List.cons_append]
      rw [scanMoreItems, skipSpace_solid blanks rfl, toItems]
      simp [first, tail]

/-- Further members are found up to the closing brace. -/
theorem scanMoreMembers_spelled : ∀ (ms : List (Quoted × Written)) {cs : List Char}
    (rest : List Char) {fuel : Nat}, SpellsMembers ms cs → cs.length < fuel →
      scanMoreMembers fuel (cs ++ '}' :: rest) = (toMembers ms, rest)
  | [], cs, rest, fuel, spelled, enough => by
      obtain ⟨fuel, rfl⟩ : ∃ n, fuel = n + 1 := ⟨fuel - 1, by omega⟩
      rw [SpellsMembers] at spelled
      rw [scanMoreMembers, skipSpace_solid spelled rfl, toMembers]
      rfl
  | (k, v) :: ms, cs, rest, fuel, spelled, enough => by
      rw [SpellsMembers] at spelled
      obtain ⟨before, after, value, next, more, blanks, blanks', written, member, others, rfl⟩ :=
        spelled
      simp only [List.length_append, List.length_cons] at enough
      have longer := length_memberChars member
      obtain ⟨fuel, rfl⟩ : ∃ n, fuel = n + 3 := ⟨fuel - 3, by omega⟩
      obtain ⟨tail, rfl, found⟩ := scanMember_spelled member fun blanks =>
        scanNode_spelled v written blanks (detached_members others rest)
          (show value.length ≤ fuel by omega)
      have further := scanMoreMembers_spelled ms rest others (show more.length < fuel + 1 by omega)
      simp only [List.append_assoc, List.cons_append]
      rw [scanMoreMembers, skipSpace_solid blanks rfl, toMembers]
      simp [skipSpace_solid blanks', isSpace, found, further]

end

/-- **The document of a text of the grammar is the tree of its value**, with nothing left over. -/
theorem ofText_eq {v : Written} {text : String} (spelled : v.SpellsText text) :
    Document.ofText text = ⟨v.toNode, false⟩ := by
  obtain ⟨before, cs, after, blanks, written, blanks', chars⟩ := spelled
  have ends : Detached after := by
    have nothing : Detached [] := by
      rintro c ⟨⟩
    have apart := detached_blank blanks' nothing
    rwa [List.append_nil] at apart
  have rested : skipSpace after = [] := by
    have skipped := skipSpace_blank blanks' []
    rwa [List.append_nil] at skipped
  have enough : cs.length ≤ 2 * (before ++ (cs ++ after)).length + 1 := by
    simp only [List.length_append]
    omega
  unfold Document.ofText
  simp only [chars]
  rw [scanNode_spelled v written blanks ends enough]
  simp [rested]

end Written

/-! ## A text without faults has a value -/

mutual

/-- A tree without faults, except that a string or a number may have no value. -/
def Node.Faultless : Node → Prop
  | .null spelled => spelled = .ok ()
  | .bool _ spelled => spelled = .ok ()
  | .number taken passed => (∃ n, taken = .ok n) ∨ passed = .ok ()
  | .string taken passed => (∃ s, taken = .ok s) ∨ passed = .ok ()
  | .array items => items.Faultless
  | .object members => members.Faultless
  | .missing _ => False

/-- The rest of an array without faults. -/
def Items.Faultless : Items → Prop
  | .close => True
  | .broken _ => False
  | .item value rest => value.Faultless ∧ rest.Faultless

/-- The rest of an object without faults. -/
def Members.Faultless : Members → Prop
  | .close => True
  | .broken _ => False
  | .member _ value rest => value.Faultless ∧ rest.Faultless

end

theorem eq_append_of_passWord {word cs rest : List Char} (passed : passWord word cs = .ok rest) :
    cs = word ++ rest := by
  fun_induction passWord word cs with
  | case1 cs => exact Except.ok.inj passed
  | case2 => cases passed
  | case3 w ws cs ih => rw [List.cons_append, ih passed]
  | case4 => cases passed

theorem scanWord_faultless {make : Except Fault Unit → Node} {word cs rest : List Char} {n : Node}
    (scanned : scanWord make word cs = (n, rest)) (faultless : n.Faultless)
    (spelled : ∀ f, ¬ (make (.error f)).Faultless) : cs = word ++ rest := by
  unfold scanWord at scanned
  cases passed : passWord word cs with
  | error f =>
      rw [passed] at scanned
      cases scanned
      exact absurd faultless (spelled f)
  | ok after =>
      rw [passed] at scanned
      cases scanned
      exact eq_append_of_passWord passed

/-- What a scan finds to be a string is one. -/
theorem exists_of_scanString {cs rest : List Char} {n : Node} (scanned : scanString cs = (n, rest))
    (faultless : n.Faultless) : ∃ q : Quoted, cs = q.body ++ '"' :: rest := by
  have passed : passString cs = .ok rest := by
    unfold scanString at scanned
    cases took : takeString none cs with
    | ok p =>
        have alike := passString_of_takeString took
        rw [took, alike] at scanned
        cases scanned
        exact alike
    | error f =>
        cases passed : passString cs with
        | ok after =>
            rw [took, passed] at scanned
            cases scanned
            rfl
        | error g =>
            rw [took, passed] at scanned
            cases scanned
            rw [Node.Faultless] at faultless
            rcases faultless with ⟨s, taken⟩ | passed
            · cases taken
            · cases passed
  obtain ⟨body, grammatical, split⟩ := exists_body_of_passString passed
  exact ⟨⟨body, grammatical⟩, split⟩

/-- What a scan finds to be a number is one. -/
theorem exists_of_scanNumber {negative : Bool} {cs rest : List Char} {n : Node}
    (scanned : scanNumber negative cs = (n, rest)) (faultless : n.Faultless) :
    ∃ (m : Numeral) (unsigned : List Char), m.spelling.negative = negative ∧
      m.spelling.SpellsUnsigned unsigned ∧ cs = unsigned ++ rest := by
  unfold scanNumber at scanned
  cases spelled : spellNumber negative cs with
  | error faults =>
      rw [spelled] at scanned
      cases scanned
      rw [Node.Faultless] at faultless
      rcases faultless with ⟨x, taken⟩ | passed
      · cases taken
      · cases passed
  | ok p =>
      obtain ⟨s, after⟩ := p
      have same : after = rest := by
        rw [spelled] at scanned
        dsimp only at scanned
        cases value : s.value with
        | none =>
            rw [value] at scanned
            cases scanned
            rfl
        | some x =>
            rw [value] at scanned
            cases scanned
            rfl
      subst same
      obtain ⟨m, unsigned, rfl, sign, written, split⟩ := exists_of_spellNumber spelled
      exact ⟨m, unsigned, sign, written, split⟩

open Written

mutual

/-- A value of the grammar stands where a scan finds a tree without faults. -/
theorem exists_of_scanNode : ∀ (fuel : Nat) {cs rest : List Char} {n : Node},
    scanNode fuel cs = (n, rest) → n.Faultless →
      ∃ (v : Written) (blank text : List Char),
        Blank blank ∧ v.Spells text ∧ cs = blank ++ (text ++ rest)
  | 0, _, _, _, scanned, faultless => by
      cases scanned
      exact False.elim faultless
  | fuel + 1, cs, rest, n, scanned, faultless => by
      obtain ⟨blank, blanks, split⟩ := exists_blank cs
      suffices found :
          ∃ (v : Written) (text : List Char), v.Spells text ∧ skipSpace cs = text ++ rest by
        obtain ⟨v, text, spelled, solid⟩ := found
        rw [solid] at split
        exact ⟨v, blank, text, blanks, spelled, split⟩
      rw [scanNode] at scanned
      cases solid : skipSpace cs with
      | nil =>
          rw [solid] at scanned
          cases scanned
          exact False.elim faultless
      | cons c tail =>
          rw [solid] at scanned
          dsimp only at scanned
          split_ifs at scanned with null yes no minus digit quote bracket brace
          · subst null
            have word := scanWord_faultless scanned faultless fun f spelled => by cases spelled
            exact ⟨.null, _, rfl, congrArg ('n' :: ·) word⟩
          · subst yes
            have word := scanWord_faultless scanned faultless fun f spelled => by cases spelled
            exact ⟨.bool true, _, rfl, congrArg ('t' :: ·) word⟩
          · subst no
            have word := scanWord_faultless scanned faultless fun f spelled => by cases spelled
            exact ⟨.bool false, _, rfl, congrArg ('f' :: ·) word⟩
          · subst minus
            obtain ⟨m, unsigned, sign, written, rfl⟩ := exists_of_scanNumber scanned faultless
            refine ⟨.number m, '-' :: unsigned, ?_, rfl⟩
            rw [Spells]
            exact ⟨unsigned, written, by rw [if_pos sign]⟩
          · obtain ⟨m, unsigned, sign, written, number⟩ := exists_of_scanNumber scanned faultless
            refine ⟨.number m, unsigned, ?_, number⟩
            rw [Spells]
            exact ⟨unsigned, written, by rw [if_neg (by rw [sign]; exact Bool.false_ne_true)]⟩
          · subst quote
            obtain ⟨q, rfl⟩ := exists_of_scanString scanned faultless
            refine ⟨.string q, q.chars, rfl, ?_⟩
            simp [Quoted.chars]
          · subst bracket
            cases scanned
            rw [Node.Faultless] at faultless
            obtain ⟨vs, inside, spelled, rested⟩ := exists_of_scanItems fuel rfl faultless
            exact ⟨.array vs, _, spelled, congrArg ('[' :: ·) rested⟩
          · subst brace
            cases scanned
            rw [Node.Faultless] at faultless
            obtain ⟨ms, inside, spelled, rested⟩ := exists_of_scanMembers fuel rfl faultless
            exact ⟨.object ms, _, spelled, congrArg ('{' :: ·) rested⟩
          · cases scanned
            exact False.elim faultless

theorem exists_of_scanItems : ∀ (fuel : Nat) {cs rest : List Char} {items : Items},
    scanItems fuel cs = (items, rest) → items.Faultless →
      ∃ (vs : List Written) (inside : List Char),
        (Written.array vs).Spells ('[' :: inside) ∧ cs = inside ++ rest
  | 0, _, _, _, scanned, faultless => by
      cases scanned
      exact False.elim faultless
  | fuel + 1, cs, rest, items, scanned, faultless => by
      obtain ⟨blank, blanks, split⟩ := exists_blank cs
      rw [scanItems] at scanned
      cases solid : skipSpace cs with
      | nil =>
          rw [solid] at scanned
          cases scanned
          exact False.elim faultless
      | cons c tail =>
          rw [solid] at scanned split
          dsimp only at scanned
          split_ifs at scanned with close
          · subst close
            cases scanned
            refine ⟨[], blank ++ [']'], ?_, ?_⟩
            · rw [Spells]
              exact ⟨blank, blanks, rfl⟩
            · rw [split, List.append_assoc]
              rfl
          · rcases first : scanNode fuel (c :: tail) with ⟨value, after⟩
            rcases tails : scanMoreItems fuel after with ⟨items', rest'⟩
            simp only [first, tails] at scanned
            cases scanned
            rw [Items.Faultless] at faultless
            obtain ⟨v, blank', text, blanks', spelled, rested⟩ :=
              exists_of_scanNode fuel first faultless.1
            obtain ⟨vs, more, others, rfl⟩ := exists_of_scanMoreItems fuel tails faultless.2
            refine ⟨v :: vs, (blank ++ blank') ++ (text ++ (more ++ [']'])), ?_, ?_⟩
            · rw [Spells]
              exact ⟨blank ++ blank', text, more, List.forall_mem_append.mpr ⟨blanks, blanks'⟩,
                spelled, others, rfl⟩
            · rw [split, rested]
              simp only [List.append_assoc, List.cons_append, List.nil_append]

theorem exists_of_scanMoreItems : ∀ (fuel : Nat) {cs rest : List Char} {items : Items},
    scanMoreItems fuel cs = (items, rest) → items.Faultless →
      ∃ (vs : List Written) (more : List Char), SpellsItems vs more ∧ cs = more ++ ']' :: rest
  | 0, _, _, _, scanned, faultless => by
      cases scanned
      exact False.elim faultless
  | fuel + 1, cs, rest, items, scanned, faultless => by
      obtain ⟨blank, blanks, split⟩ := exists_blank cs
      rw [scanMoreItems] at scanned
      cases solid : skipSpace cs with
      | nil =>
          rw [solid] at scanned
          cases scanned
          exact False.elim faultless
      | cons c tail =>
          rw [solid] at scanned split
          dsimp only at scanned
          split_ifs at scanned with close comma
          · subst close
            cases scanned
            refine ⟨[], blank, ?_, split⟩
            rw [SpellsItems]
            exact blanks
          · subst comma
            rcases first : scanNode fuel tail with ⟨value, after⟩
            rcases tails : scanMoreItems fuel after with ⟨items', rest'⟩
            simp only [first, tails] at scanned
            cases scanned
            rw [Items.Faultless] at faultless
            obtain ⟨v, blank', text, blanks', spelled, rfl⟩ :=
              exists_of_scanNode fuel first faultless.1
            obtain ⟨vs, more, others, rfl⟩ := exists_of_scanMoreItems fuel tails faultless.2
            refine ⟨v :: vs, blank ++ ',' :: (blank' ++ (text ++ more)), ?_, ?_⟩
            · rw [SpellsItems]
              exact ⟨blank, blank', text, more, blanks, blanks', spelled, others, rfl⟩
            · rw [split]
              simp only [List.append_assoc, List.cons_append]
          · cases scanned
            exact False.elim faultless

theorem exists_of_scanMembers : ∀ (fuel : Nat) {cs rest : List Char} {members : Members},
    scanMembers fuel cs = (members, rest) → members.Faultless →
      ∃ (ms : List (Quoted × Written)) (inside : List Char),
        (Written.object ms).Spells ('{' :: inside) ∧ cs = inside ++ rest
  | 0, _, _, _, scanned, faultless => by
      cases scanned
      exact False.elim faultless
  | fuel + 1, cs, rest, members, scanned, faultless => by
      obtain ⟨blank, blanks, split⟩ := exists_blank cs
      rw [scanMembers] at scanned
      cases solid : skipSpace cs with
      | nil =>
          rw [solid] at scanned
          cases scanned
          exact False.elim faultless
      | cons c tail =>
          rw [solid] at scanned split
          dsimp only at scanned
          split_ifs at scanned with close quote
          · subst close
            cases scanned
            refine ⟨[], blank ++ ['}'], ?_, ?_⟩
            · rw [Spells]
              exact ⟨blank, blanks, rfl⟩
            · rw [split, List.append_assoc]
              rfl
          · subst quote
            obtain ⟨k, v, ms, value, first, more, spelled, member, others, rested⟩ :=
              exists_of_scanMember fuel scanned faultless
            refine ⟨(k, v) :: ms, blank ++ (first ++ (more ++ ['}'])), ?_, ?_⟩
            · rw [Spells]
              exact ⟨blank, value, first, more, blanks, spelled, member, others, rfl⟩
            · rw [split, rested]
              simp only [List.append_assoc, List.cons_append, List.nil_append]
          · cases scanned
            exact False.elim faultless

theorem exists_of_scanMember : ∀ (fuel : Nat) {cs rest : List Char} {members : Members},
    scanMember fuel cs = (members, rest) → members.Faultless →
      ∃ (k : Quoted) (v : Written) (ms : List (Quoted × Written)) (value first more : List Char),
        v.Spells value ∧ MemberChars k value first ∧ SpellsMembers ms more ∧
        '"' :: cs = first ++ (more ++ '}' :: rest)
  | 0, _, _, _, scanned, faultless => by
      cases scanned
      exact False.elim faultless
  | fuel + 1, cs, rest, members, scanned, faultless => by
      rw [scanMember] at scanned
      cases passed : passString cs with
      | error f =>
          rw [passed] at scanned
          cases scanned
          exact False.elim faultless.1
      | ok after =>
          rw [passed] at scanned
          dsimp only at scanned
          obtain ⟨body, grammatical, rfl⟩ := exists_body_of_passString passed
          obtain ⟨blank, blanks, split⟩ := exists_blank after
          split at scanned
          · rename_i tail colon
            rw [colon] at split
            rcases first : scanNode fuel tail with ⟨value, after'⟩
            rcases tails : scanMoreMembers fuel after' with ⟨members', rest'⟩
            simp only [first, tails] at scanned
            cases scanned
            rw [Members.Faultless] at faultless
            obtain ⟨v, blank', text, blanks', spelled, rfl⟩ :=
              exists_of_scanNode fuel first faultless.1
            obtain ⟨ms, more, others, rfl⟩ := exists_of_scanMoreMembers fuel tails faultless.2
            refine ⟨⟨body, grammatical⟩, v, ms, text, _, more, spelled,
              ⟨blank, blank', blanks, blanks', rfl⟩, others, ?_⟩
            rw [split]
            simp only [Quoted.chars, List.append_assoc, List.cons_append, List.nil_append]
          · cases scanned
            exact False.elim faultless.1

theorem exists_of_scanMoreMembers : ∀ (fuel : Nat) {cs rest : List Char} {members : Members},
    scanMoreMembers fuel cs = (members, rest) → members.Faultless →
      ∃ (ms : List (Quoted × Written)) (more : List Char),
        SpellsMembers ms more ∧ cs = more ++ '}' :: rest
  | 0, _, _, _, scanned, faultless => by
      cases scanned
      exact False.elim faultless
  | fuel + 1, cs, rest, members, scanned, faultless => by
      obtain ⟨blank, blanks, split⟩ := exists_blank cs
      rw [scanMoreMembers] at scanned
      cases solid : skipSpace cs with
      | nil =>
          rw [solid] at scanned
          cases scanned
          exact False.elim faultless
      | cons c tail =>
          rw [solid] at scanned split
          dsimp only at scanned
          split_ifs at scanned with close comma
          · subst close
            cases scanned
            refine ⟨[], blank, ?_, split⟩
            rw [SpellsMembers]
            exact blanks
          · subst comma
            obtain ⟨blank', blanks', split'⟩ := exists_blank tail
            split at scanned
            · rename_i after quote
              obtain ⟨k, v, ms, value, first, more, spelled, member, others, rested⟩ :=
                exists_of_scanMember fuel scanned faultless
              rw [quote, rested] at split'
              refine ⟨(k, v) :: ms, blank ++ ',' :: (blank' ++ (first ++ more)), ?_, ?_⟩
              · rw [SpellsMembers]
                exact ⟨blank, blank', value, first, more, blanks, blanks', spelled, member, others,
                  rfl⟩
              · rw [split, split']
                simp only [List.append_assoc, List.cons_append]
            · cases scanned
              exact False.elim faultless.1
          · cases scanned
            exact False.elim faultless

end

/-- **A text without faults has a value**, so it is a text of the grammar. -/
theorem exists_spellsText {text : String} (faultless : (Document.ofText text).root.Faultless)
    (whole : (Document.ofText text).trailing = false) : ∃ v : Written, v.SpellsText text := by
  rcases scanned : scanNode (2 * text.toList.length + 2) text.toList with ⟨root, rest⟩
  simp only [Document.ofText, scanned, Bool.not_eq_false', List.isEmpty_iff] at faultless whole
  obtain ⟨v, blank, chars, blanks, spelled, split⟩ := exists_of_scanNode _ scanned faultless
  obtain ⟨after, blanks', rested⟩ := exists_blank rest
  rw [whole, List.append_nil] at rested
  subst rested
  exact ⟨v, blank, chars, rest, blanks, spelled, blanks', split⟩

/-! ## A text of every value -/

/-- An exponent with a small mark and without a plus sign. -/
def exponentChars : Option (Bool × List Char) → List Char
  | none => []
  | some (negative, digits) => 'e' :: ((if negative then ['-'] else []) ++ digits)

theorem spells_exponentChars (exponent : Option (Bool × List Char)) :
    SpellsExponent exponent (exponentChars exponent) := by
  rcases exponent with _ | ⟨_ | _, digits⟩
  · rfl
  · exact ⟨'e', [], .inl rfl, .inl rfl, rfl⟩
  · exact ⟨'e', ['-'], .inl rfl, rfl, rfl⟩

/-- The characters of a number. -/
def Numeral.chars (n : Numeral) : List Char :=
  let unsigned := n.spelling.whole ++
    (fractionChars n.spelling.fraction ++ exponentChars n.spelling.exponent)
  if n.spelling.negative then '-' :: unsigned else unsigned

namespace Written

mutual

/-- The characters of a value without blanks. -/
def chars : Written → List Char
  | .null => "null".toList
  | .bool b => boolChars b
  | .number n => n.chars
  | .string q => q.chars
  | .array [] => ['[', ']']
  | .array (v :: vs) => '[' :: (v.chars ++ (charsOfItems vs ++ [']']))
  | .object [] => ['{', '}']
  | .object ((k, v) :: ms) => '{' :: (k.chars ++ ':' :: (v.chars ++ (charsOfMembers ms ++ ['}'])))

/-- The characters of further items, each after its comma. -/
def charsOfItems : List Written → List Char
  | [] => []
  | v :: vs => ',' :: (v.chars ++ charsOfItems vs)

/-- The characters of further members, each after its comma. -/
def charsOfMembers : List (Quoted × Written) → List Char
  | [] => []
  | (k, v) :: ms => ',' :: (k.chars ++ ':' :: (v.chars ++ charsOfMembers ms))

end

theorem blank_nil : Blank [] :=
  fun _ absent => absurd absent List.not_mem_nil

theorem memberChars_nil (k : Quoted) (value : List Char) :
    MemberChars k value (k.chars ++ ':' :: value) :=
  ⟨[], [], blank_nil, blank_nil, rfl⟩

mutual

theorem spells_chars : ∀ v : Written, v.Spells v.chars
  | .null => by rw [Spells, chars]
  | .bool b => by rw [Spells, chars]
  | .number n => by
      rw [Spells, chars]
      exact ⟨_, ⟨_, spells_exponentChars n.spelling.exponent, rfl⟩, rfl⟩
  | .string q => by rw [Spells, chars]
  | .array [] => by
      rw [Spells, chars]
      exact ⟨[], blank_nil, rfl⟩
  | .array (v :: vs) => by
      rw [Spells, chars]
      exact ⟨[], v.chars, charsOfItems vs, blank_nil, spells_chars v, spells_charsOfItems vs, rfl⟩
  | .object [] => by
      rw [Spells, chars]
      exact ⟨[], blank_nil, rfl⟩
  | .object ((k, v) :: ms) => by
      rw [Spells, chars]
      refine ⟨[], v.chars, k.chars ++ ':' :: v.chars, charsOfMembers ms, blank_nil, spells_chars v,
        memberChars_nil k v.chars, spells_charsOfMembers ms, ?_⟩
      simp

theorem spells_charsOfItems : ∀ vs : List Written, SpellsItems vs (charsOfItems vs)
  | [] => by
      rw [SpellsItems, charsOfItems]
      exact blank_nil
  | v :: vs => by
      rw [SpellsItems, charsOfItems]
      exact ⟨[], [], v.chars, charsOfItems vs, blank_nil, blank_nil, spells_chars v,
        spells_charsOfItems vs, rfl⟩

theorem spells_charsOfMembers : ∀ ms : List (Quoted × Written), SpellsMembers ms (charsOfMembers ms)
  | [] => by
      rw [SpellsMembers, charsOfMembers]
      exact blank_nil
  | (k, v) :: ms => by
      rw [SpellsMembers, charsOfMembers]
      refine ⟨[], [], v.chars, k.chars ++ ':' :: v.chars, charsOfMembers ms, blank_nil, blank_nil,
        spells_chars v, memberChars_nil k v.chars, spells_charsOfMembers ms, ?_⟩
      simp

end

/-- **Every value has a text.** -/
theorem spellsText_chars (v : Written) : v.SpellsText (String.ofList v.chars) := by
  refine ⟨[], v.chars, [], blank_nil, v.spells_chars, blank_nil, ?_⟩
  rw [List.nil_append, List.append_nil, String.toList_ofList]

end Written

end SchemaPress.Json
