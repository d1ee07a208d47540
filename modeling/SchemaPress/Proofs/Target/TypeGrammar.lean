import SchemaPress.Proofs.Schema.Names
import SchemaPress.Proofs.Target.PassThrough
import SchemaPress.Proofs.Text.Contents

/-!
# Types as the languages parse them

The text of a type is scanned into words and marks, and these are phrases of the grammar of the
language. Swift has a postfix for optionals and brackets around elements. Rust applies a name to an
argument between angle brackets. TypeScript has two operators, of which the brackets of arrays bind
tighter than the bar of unions, and parentheses.

No grammar is ambiguous: a parser that goes through the lexemes once, with a stack for what is open,
arrives at the expression of every phrase (`Language.Phrase.parse_eq`). The text of a type is a
phrase, for the expression with the same layers around the token of its leaf, and so for no other
one. Hence types are written alike exactly if they have the same layers and the same token
(`Language.typeText_parses_back`). This also holds if an optional stands directly inside an optional,
since the postfix can be repeated and the bar associates to the left.
-/

set_option autoImplicit false

namespace SchemaPress

open Text (Word isWordChar Language)

/-! ## Lexemes -/

/-- A word, or another character. -/
inductive Lexeme where
  | word (text : String)
  | mark (c : Char)
deriving DecidableEq, Repr

namespace Lexeme

/-- The word of a run of characters, if there are any. -/
def ofRun : List Char → List Lexeme
  | [] => []
  | c :: cs => [.word (String.ofList (c :: cs))]

/-- The mark of a character that is not part of a word. A space only separates. -/
def ofMark (c : Char) : List Lexeme :=
  if c = ' ' then [] else [.mark c]

/-- The lexemes of characters that go on with a run. A word is as long as it can be. -/
def scanFrom (run : List Char) : List Char → List Lexeme
  | [] => ofRun run
  | c :: cs =>
      if isWordChar c then scanFrom (run ++ [c]) cs
      else ofRun run ++ ofMark c ++ scanFrom [] cs

/-- The lexemes of a text. -/
def scan (text : String) : List Lexeme :=
  scanFrom [] text.toList

/-- A mark separates what stands in front of it from what follows. -/
theorem scanFrom_append_mark {c : Char} (other : isWordChar c = false) (run cs rest : List Char) :
    scanFrom run (cs ++ c :: rest) = scanFrom run cs ++ ofMark c ++ scanFrom [] rest := by
  induction cs generalizing run with
  | nil => simp [scanFrom, other]
  | cons d cs ih =>
      rw [List.cons_append, scanFrom, scanFrom]
      split
      · exact ih (run ++ [d])
      · rw [ih []]
        simp only [List.append_assoc]

/-- A text that does not begin inside a word has its own lexemes. -/
theorem scan_append_of_begin (s : String) {t : String}
    (apart : (t.toList.head?.all fun c => !isWordChar c) = true) :
    scan (s ++ t) = scan s ++ scan t := by
  unfold scan
  rw [String.toList_append]
  cases begins : t.toList with
  | nil => simp [scanFrom, ofRun]
  | cons c rest =>
      have other : isWordChar c = false := by simpa [begins] using apart
      rw [scanFrom_append_mark other, scanFrom, if_neg (Bool.not_eq_true _ ▸ other),
        List.append_assoc]
      rfl

/-- A text that does not end inside a word has its own lexemes. -/
theorem scan_append_of_end {s : String} (t : String)
    (apart : (s.toList.getLast?.all fun c => !isWordChar c) = true) :
    scan (s ++ t) = scan s ++ scan t := by
  unfold scan
  rw [String.toList_append]
  rcases List.eq_nil_or_concat s.toList with ends | ⟨cs, c, ends⟩
  · rw [ends]
    rfl
  · have other : isWordChar c = false := by simpa [ends] using apart
    rw [ends, List.concat_eq_append, List.append_assoc, List.singleton_append,
      scanFrom_append_mark other, scanFrom_append_mark other]
    simp [scanFrom, ofRun]

theorem scanFrom_run {cs : List Char} (inside : ∀ c ∈ cs, isWordChar c = true) (run : List Char) :
    scanFrom run cs = ofRun (run ++ cs) := by
  induction cs generalizing run with
  | nil => rw [scanFrom, List.append_nil]
  | cons c cs ih =>
      rw [List.forall_mem_cons] at inside
      rw [scanFrom, if_pos inside.1, ih inside.2, List.append_assoc]
      rfl

/-- A word is one lexeme. -/
theorem scan_word {token : String} (word : Word token) : scan token = [.word token] := by
  obtain ⟨filled, inside⟩ := word
  unfold scan
  rw [scanFrom_run inside, List.nil_append]
  cases letters : token.toList with
  | nil => exact absurd (String.toList_eq_nil_iff.mp letters) filled
  | cons c cs => rw [ofRun, ← letters, String.ofList_toList]

end Lexeme

/-! ## Expressions -/

/-- A type in the syntax of a language. -/
inductive TypeExpr where
  | name (token : String)
  /-- Brackets around or behind the type of the elements. -/
  | array (element : TypeExpr)
  /-- A question mark behind a type. -/
  | question (inner : TypeExpr)
  /-- A bar between two types. -/
  | union (left right : TypeExpr)
  /-- An argument in angle brackets behind a name. -/
  | applied (head : String) (argument : TypeExpr)
deriving DecidableEq, Repr

namespace TypeExpr

/-- Optionals and sequences around a token, in the words of the languages. Other expressions, such
as the union of any two types, have no such meaning. -/
def nesting : TypeExpr → Option (List Layer × String)
  | .name token => some ([], token)
  | .array element => element.nesting.map (Prod.map (.sequence :: ·) id)
  | .question inner => inner.nesting.map (Prod.map (.optional :: ·) id)
  | .union left right =>
      if right = .name "undefined" then left.nesting.map (Prod.map (.optional :: ·) id) else none
  | .applied head argument =>
      if head = "Option" then argument.nesting.map (Prod.map (.optional :: ·) id)
      else if head = "Vec" then argument.nesting.map (Prod.map (.sequence :: ·) id)
      else none

end TypeExpr

/-! ## Grammars -/

/-- The types of Swift. -/
inductive Swift.Phrase : TypeExpr → List Lexeme → Prop where
  | name (token : String) : Phrase (.name token) [.word token]
  | question {e : TypeExpr} {ls : List Lexeme} (inner : Phrase e ls) :
      Phrase (.question e) (ls ++ [.mark '?'])
  | array {e : TypeExpr} {ls : List Lexeme} (element : Phrase e ls) :
      Phrase (.array e) (.mark '[' :: ls ++ [.mark ']'])

/-- The types of Rust. -/
inductive Rust.Phrase : TypeExpr → List Lexeme → Prop where
  | name (token : String) : Phrase (.name token) [.word token]
  | applied (head : String) {e : TypeExpr} {ls : List Lexeme} (argument : Phrase e ls) :
      Phrase (.applied head e) (.word head :: .mark '<' :: ls ++ [.mark '>'])

namespace TypeScript

/-- How tight a type binds. -/
inductive Binding where
  | union
  | array
  | primary
deriving DecidableEq, Repr

/-- The types of TypeScript. -/
inductive Phrase : Binding → TypeExpr → List Lexeme → Prop where
  | name (token : String) : Phrase .primary (.name token) [.word token]
  | parentheses {e : TypeExpr} {ls : List Lexeme} (inner : Phrase .union e ls) :
      Phrase .primary e (.mark '(' :: ls ++ [.mark ')'])
  | primary {e : TypeExpr} {ls : List Lexeme} (alone : Phrase .primary e ls) : Phrase .array e ls
  | array {e : TypeExpr} {ls : List Lexeme} (element : Phrase .array e ls) :
      Phrase .array (.array e) (ls ++ [.mark '[', .mark ']'])
  | single {e : TypeExpr} {ls : List Lexeme} (alone : Phrase .array e ls) : Phrase .union e ls
  | union {left right : TypeExpr} {ls rs : List Lexeme} (first : Phrase .union left ls)
      (last : Phrase .array right rs) : Phrase .union (.union left right) (ls ++ .mark '|' :: rs)

end TypeScript

/-! ## Parsers -/

namespace Swift

/-- How far a type has been parsed: the number of open brackets, and the type behind them. -/
structure Parsing where
  depth : Nat := 0
  operand : Option TypeExpr := none

/-- Parses one lexeme. -/
def Parsing.shift : Parsing → Lexeme → Option Parsing
  | ⟨depth, none⟩, .word token => some ⟨depth, some (.name token)⟩
  | ⟨depth, none⟩, .mark '[' => some ⟨depth + 1, none⟩
  | ⟨depth, some e⟩, .mark '?' => some ⟨depth, some (.question e)⟩
  | ⟨depth + 1, some e⟩, .mark ']' => some ⟨depth, some (.array e)⟩
  | _, _ => none

/-- The type that has been parsed, if nothing is open. -/
def Parsing.result : Parsing → Option TypeExpr
  | ⟨0, operand⟩ => operand
  | _ => none

/-- A phrase is parsed to its expression, inside any open brackets. -/
theorem Phrase.foldlM_shift {e : TypeExpr} {ls : List Lexeme} (phrase : Phrase e ls)
    (depth : Nat) : ls.foldlM Parsing.shift ⟨depth, none⟩ = some ⟨depth, some e⟩ := by
  induction phrase generalizing depth with
  | name token => rfl
  | question inner ih =>
      rw [List.foldlM_append, ih]
      rfl
  | array element ih =>
      rw [List.cons_append, List.foldlM_cons]
      change List.foldlM Parsing.shift ⟨depth + 1, none⟩ _ = _
      rw [List.foldlM_append, ih]
      rfl

end Swift

namespace Rust

/-- How far a type has been parsed: the names whose argument is open, and the type behind them. -/
structure Parsing where
  heads : List String := []
  operand : Option TypeExpr := none

/-- Parses one lexeme. -/
def Parsing.shift : Parsing → Lexeme → Option Parsing
  | ⟨heads, none⟩, .word token => some ⟨heads, some (.name token)⟩
  | ⟨heads, some (.name head)⟩, .mark '<' => some ⟨head :: heads, none⟩
  | ⟨head :: heads, some e⟩, .mark '>' => some ⟨heads, some (.applied head e)⟩
  | _, _ => none

/-- The type that has been parsed, if nothing is open. -/
def Parsing.result : Parsing → Option TypeExpr
  | ⟨[], operand⟩ => operand
  | _ => none

theorem Parsing.shift_close (head : String) (heads : List String) (e : TypeExpr) :
    Parsing.shift ⟨head :: heads, some e⟩ (.mark '>') = some ⟨heads, some (.applied head e)⟩ := by
  cases e <;> rfl

/-- A phrase is parsed to its expression, inside any open arguments. -/
theorem Phrase.foldlM_shift {e : TypeExpr} {ls : List Lexeme} (phrase : Phrase e ls)
    (heads : List String) : ls.foldlM Parsing.shift ⟨heads, none⟩ = some ⟨heads, some e⟩ := by
  induction phrase generalizing heads with
  | name token => rfl
  | applied head argument ih =>
      rw [List.cons_append, List.cons_append, List.foldlM_cons]
      change List.foldlM Parsing.shift ⟨head :: heads, none⟩ _ = _
      rw [List.foldlM_append, ih]
      change (List.foldlM Parsing.shift _ [Lexeme.mark '>']) = _
      rw [List.foldlM_cons, Parsing.shift_close]
      rfl

end Rust

namespace TypeScript

/-- A type behind the bar of a union, if there is one. -/
def joined : Option TypeExpr → TypeExpr → TypeExpr
  | none, e => e
  | some left, e => .union left e

/-- How far a type has been parsed: what stands in front of the last bar, the operand behind it, what
stood in front of the last bar before each open parenthesis, and whether a bracket is open. -/
structure Parsing where
  left : Option TypeExpr := none
  operand : Option TypeExpr := none
  outer : List (Option TypeExpr) := []
  bracket : Bool := false

/-- Parses one lexeme. -/
def Parsing.shift : Parsing → Lexeme → Option Parsing
  | ⟨left, none, outer, false⟩, .word token => some ⟨left, some (.name token), outer, false⟩
  | ⟨left, none, outer, false⟩, .mark '(' => some ⟨none, none, left :: outer, false⟩
  | ⟨left, some e, outer, false⟩, .mark '[' => some ⟨left, some e, outer, true⟩
  | ⟨left, some e, outer, true⟩, .mark ']' => some ⟨left, some (.array e), outer, false⟩
  | ⟨left, some e, outer, false⟩, .mark '|' => some ⟨some (joined left e), none, outer, false⟩
  | ⟨left, some e, before :: outer, false⟩, .mark ')' =>
      some ⟨before, some (joined left e), outer, false⟩
  | _, _ => none

/-- The type that has been parsed, if nothing is open. -/
def Parsing.result : Parsing → Option TypeExpr
  | ⟨left, some e, [], false⟩ => some (joined left e)
  | _ => none

/-- A type that binds tight becomes the operand. A union is left as what stands in front of its last
bar and what stands behind it. -/
def Parses : Binding → TypeExpr → List Lexeme → Prop
  | .union, e, ls => ∀ outer, ∃ left operand, joined left operand = e ∧
      ls.foldlM Parsing.shift ⟨none, none, outer, false⟩ = some ⟨left, some operand, outer, false⟩
  | _, e, ls => ∀ left outer,
      ls.foldlM Parsing.shift ⟨left, none, outer, false⟩ = some ⟨left, some e, outer, false⟩

theorem Phrase.parses {binding : Binding} {e : TypeExpr} {ls : List Lexeme}
    (phrase : Phrase binding e ls) : Parses binding e ls := by
  induction phrase with
  | name token => exact fun left outer => rfl
  | parentheses inner ih =>
      intro left outer
      obtain ⟨before, operand, rfl, run⟩ := ih (left :: outer)
      rw [List.cons_append, List.foldlM_cons]
      change List.foldlM Parsing.shift ⟨none, none, left :: outer, false⟩ _ = _
      rw [List.foldlM_append, run]
      rfl
  | primary alone ih => exact ih
  | array element ih =>
      intro left outer
      rw [List.foldlM_append, ih]
      rfl
  | single alone ih => exact fun outer => ⟨none, _, rfl, ih none outer⟩
  | @union left right ls rs first last ihFirst ihLast =>
      intro outer
      obtain ⟨before, operand, rfl, run⟩ := ihFirst outer
      refine ⟨some (joined before operand), right, rfl, ?_⟩
      rw [List.foldlM_append, run]
      exact ihLast (some (joined before operand)) outer

end TypeScript

namespace Text.Language

/-- The types of a language. -/
def Phrase : Language → TypeExpr → List Lexeme → Prop
  | .swift => Swift.Phrase
  | .typeScript => TypeScript.Phrase .union
  | .rust => Rust.Phrase

/-- Parses a type of a language. -/
def parse : Language → List Lexeme → Option TypeExpr
  | .swift, ls => (ls.foldlM Swift.Parsing.shift {}).bind (·.result)
  | .typeScript, ls => (ls.foldlM TypeScript.Parsing.shift {}).bind (·.result)
  | .rust, ls => (ls.foldlM Rust.Parsing.shift {}).bind (·.result)

/-- **Every phrase is parsed to its expression**, so it is a phrase for no other one. -/
theorem Phrase.parse_eq {l : Language} {e : TypeExpr} {ls : List Lexeme}
    (phrase : l.Phrase e ls) : l.parse ls = some e := by
  cases l with
  | swift => exact congrArg (Option.bind · _) (Swift.Phrase.foldlM_shift phrase 0)
  | rust => exact congrArg (Option.bind · _) (Rust.Phrase.foldlM_shift phrase [])
  | typeScript =>
      obtain ⟨left, operand, rfl, run⟩ := TypeScript.Phrase.parses phrase []
      exact congrArg (Option.bind · _) run

/-! ## The types that are written -/

/-- A layer around an expression. -/
def wrap : Language → Layer → TypeExpr → TypeExpr
  | .swift, .optional, e => .question e
  | .swift, .sequence, e => .array e
  | .typeScript, .optional, e => .union e (.name "undefined")
  | .typeScript, .sequence, e => .array e
  | .rust, .optional, e => .applied "Option" e
  | .rust, .sequence, e => .applied "Vec" e

/-- The expression of layers around a token. -/
def express (l : Language) (token : String) (layers : List Layer) : TypeExpr :=
  layers.foldr l.wrap (.name token)

theorem nesting_wrap (l : Language) (layer : Layer) (e : TypeExpr) :
    (l.wrap layer e).nesting = e.nesting.map (Prod.map (layer :: ·) id) := by
  cases l <;> cases layer <;> rfl

/-- The expression says what it is made for. -/
theorem nesting_express (l : Language) (token : String) (layers : List Layer) :
    (l.express token layers).nesting = some (layers, token) := by
  induction layers with
  | nil => rfl
  | cons layer layers ih =>
      change (l.wrap layer (l.express token layers)).nesting = _
      rw [nesting_wrap, ih]
      rfl

end Text.Language

open Lexeme (scan scan_append_of_begin scan_append_of_end scan_word)

theorem Swift.phrase_surround {token : String} (word : Word token) (layers : List Layer) :
    Phrase (Language.swift.express token layers) (scan (surround token layers)) := by
  induction layers with
  | nil =>
      rw [surround, scan_word word]
      exact .name token
  | cons layer layers ih =>
      cases layer with
      | optional =>
          rw [surround, scan_append_of_begin _ rfl]
          exact .question ih
      | sequence =>
          rw [surround, scan_append_of_begin _ rfl, scan_append_of_end _ rfl]
          exact .array ih

theorem Rust.phrase_surround {token : String} (word : Word token) (layers : List Layer) :
    Phrase (Language.rust.express token layers) (scan (surround token layers)) := by
  induction layers with
  | nil =>
      rw [surround, scan_word word]
      exact .name token
  | cons layer layers ih =>
      cases layer with
      | optional =>
          have opening : scan "Option<" = [.word "Option", .mark '<'] := by decide
          rw [surround, scan_append_of_begin _ rfl, scan_append_of_end _ rfl, opening]
          exact .applied "Option" ih
      | sequence =>
          have opening : scan "Vec<" = [.word "Vec", .mark '<'] := by decide
          rw [surround, scan_append_of_begin _ rfl, scan_append_of_end _ rfl, opening]
          exact .applied "Vec" ih

/-- An optional is a union; everything else binds as tight as an array does. -/
theorem TypeScript.phrase_surround {token : String} (word : Word token) (layers : List Layer) :
    Phrase .union (Language.typeScript.express token layers) (scan (surround token layers)) ∧
      (layers.head? ≠ some .optional →
        Phrase .array (Language.typeScript.express token layers)
          (scan (surround token layers))) := by
  induction layers with
  | nil =>
      rw [surround, scan_word word]
      have alone : Phrase .array (.name token) [.word token] := .primary (.name token)
      exact ⟨.single alone, fun _ => alone⟩
  | cons layer layers ih =>
      cases layer with
      | optional =>
          have missing : scan " | undefined" = [.mark '|', .word "undefined"] := by decide
          rw [surround, scan_append_of_begin _ rfl, missing]
          exact ⟨.union ih.1 (.primary (.name "undefined")), fun other => absurd rfl other⟩
      | sequence =>
          have element : Phrase .array (Language.typeScript.express token (.sequence :: layers))
              (scan (surround token (.sequence :: layers))) := by
            cases layers with
            | nil =>
                rw [surround, scan_append_of_begin _ rfl]
                · exact .array (ih.2 (by decide))
                · simp
            | cons inner layers =>
                cases inner with
                | optional =>
                    have closing : scan ")[]" = [.mark ')'] ++ [.mark '[', .mark ']'] := rfl
                    rw [surround, scan_append_of_begin _ rfl, scan_append_of_end _ rfl, closing,
                      ← List.append_assoc]
                    exact .array (.primary (.parentheses ih.1))
                | sequence =>
                    rw [surround, scan_append_of_begin _ rfl]
                    · exact .array (ih.2 (by simp))
                    · simp
          exact ⟨.single element, fun _ => element⟩

namespace Text.Language

/-- Layers around a token. -/
def surround : Language → String → List Layer → String
  | .swift => Swift.surround
  | .typeScript => TypeScript.surround
  | .rust => Rust.surround

theorem phrase_surround (l : Language) {token : String} (word : Word token)
    (layers : List Layer) : l.Phrase (l.express token layers) (scan (l.surround token layers)) := by
  cases l with
  | swift => exact Swift.phrase_surround word layers
  | typeScript => exact (TypeScript.phrase_surround word layers).1
  | rust => exact Rust.phrase_surround word layers

section Types

variable (c : Config)

/-- What a language says about names. -/
def lexicon : Language → Lexicon
  | .swift => Swift.lexicon c.swift
  | .typeScript => TypeScript.lexicon c.typeScript
  | .rust => Rust.lexicon c.rust

/-- The text of a type. -/
def typeText : Language → TypeRef → String
  | .swift, type => (Swift.typeText c.swift type).text
  | .typeScript, type => (TypeScript.typeText c.typeScript type).text
  | .rust, type => (Rust.typeText c.rust type).text

/-- The token of the leaf of a type. -/
def leafToken (l : Language) (type : TypeRef) : String :=
  ((l.lexicon c).token type).text

theorem typeText_eq (l : Language) (type : TypeRef) :
    l.typeText c type = l.surround (l.leafToken c type) type.layers := by
  cases l with
  | swift => exact Swift.text_typeText c.swift type
  | typeScript => exact TypeScript.text_typeText c.typeScript type
  | rust => exact Rust.text_typeText c.rust type

/-- **Type expressions keep their structure.** If the leaf of a type is written as a word, then the
text of the type is a phrase of the language for one expression only, and this has the layers of the
type around the token of its leaf. So two such types are written alike exactly if they have the same
layers and the same token. -/
theorem typeText_parses_back (l : Language) {type : TypeRef} (word : Word (l.leafToken c type)) :
    (∃ e, (∀ e', l.Phrase e' (scan (l.typeText c type)) ↔ e' = e) ∧
        l.parse (scan (l.typeText c type)) = some e ∧
        e.nesting = some (type.layers, l.leafToken c type)) ∧
      ∀ other : TypeRef, Word (l.leafToken c other) →
        (l.typeText c type = l.typeText c other ↔
          type.layers = other.layers ∧ l.leafToken c type = l.leafToken c other) := by
  have phrase := l.phrase_surround word type.layers
  rw [← typeText_eq] at phrase
  refine ⟨⟨_, fun e' => ⟨fun again => ?_, ?_⟩, phrase.parse_eq, l.nesting_express _ _⟩, ?_⟩
  · exact Option.some.inj (again.parse_eq.symm.trans phrase.parse_eq)
  · rintro rfl
    exact phrase
  · intro other otherWord
    constructor
    · intro same
      have phrase' := l.phrase_surround otherWord other.layers
      rw [← typeText_eq, ← same] at phrase'
      have alike := Option.some.inj (phrase.parse_eq.symm.trans phrase'.parse_eq)
      have meaning := congrArg TypeExpr.nesting alike
      rw [nesting_express, nesting_express] at meaning
      exact Prod.mk.inj (Option.some.inj meaning)
    · rintro ⟨layers, token⟩
      rw [typeText_eq, typeText_eq, layers, token]

/-- Sequences and optionals in turn around a named type. -/
def alternatingSample : TypeRef :=
  .optional (.sequence (.optional (.sequence (.named "Id"))))

theorem typeText_parses_back_alternatingSample :
    let other : TypeRef := .sequence (.optional (.sequence (.optional (.named "Id"))))
    Word (typeScript.leafToken {} alternatingSample) ∧
      typeScript.typeText {} alternatingSample = "(Id[] | undefined)[] | undefined" ∧
      (∀ e, typeScript.Phrase e (scan "(Id[] | undefined)[] | undefined") ↔
        e = .union (.array (.union (.array (.name "Id")) (.name "undefined")))
          (.name "undefined")) ∧
      typeScript.typeText {} alternatingSample ≠ typeScript.typeText {} other := by
  intro other
  have word : Word (typeScript.leafToken {} alternatingSample) := by decide
  have text : typeScript.typeText {} alternatingSample = "(Id[] | undefined)[] | undefined" := by
    decide
  obtain ⟨⟨e, unique, parsed, -⟩, apart⟩ := typeText_parses_back {} typeScript word
  rw [text] at unique parsed
  obtain rfl : _ = e := Option.some.inj parsed
  refine ⟨word, text, unique, fun same => ?_⟩
  exact absurd ((apart other (by decide)).mp same).1 (by decide)

end Types

end Text.Language

end SchemaPress
