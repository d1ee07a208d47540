import Mathlib.Logic.Function.Basic
import Mathlib.Tactic.SplitIfs
import SchemaPress.Command.FileTree

/-!
# What operations do to a file tree

A tree is looked at place by place: at the end of a list of names stands a file with its bytes, a
directory, or nothing. Writing a file and making a directory change exactly one place each
(`FileTree.look_writeText`, `FileTree.look_makeDirectory`), and no directory ever goes away. So a
path that leads somewhere leads to the same place after any further operations
(`FileTree.Extends.locate`).
-/

set_option autoImplicit false

namespace SchemaPress

/-- What stands at a place, without what a directory holds. -/
inductive Entry where
  | file (content : ByteArray)
  | directory

instance (entry : Option Entry) : Decidable (entry = some .directory) :=
  match entry with
  | none => isFalse nofun
  | some (.file _) => isFalse nofun
  | some .directory => isTrue rfl

/-! ## Nodes -/

namespace FileNode

/-- A node without what it holds. -/
def entry : FileNode → Entry
  | .file content => .file content
  | .directory _ => .directory

/-- What stands at the end of a list of names. -/
def look (n : FileNode) (names : List String) : Option Entry :=
  (n.find? names).map entry

theorem look_cons (n : FileNode) (name : String) (names : List String) :
    n.look (name :: names) = (n.get? name).bind fun below => below.look names := by
  unfold look
  rw [find?]
  cases n.get? name with
  | none => rfl
  | some below => rfl

theorem look_of_file (content : ByteArray) {names : List String} (below : names ≠ []) :
    (FileNode.file content).look names = none := by
  cases names with
  | nil => exact absurd rfl below
  | cons name names => rfl

theorem look_of_empty {names : List String} (below : names ≠ []) :
    (FileNode.directory []).look names = none := by
  cases names with
  | nil => exact absurd rfl below
  | cons name names => rfl

/-- Nothing stands below a place where nothing or a file stands. -/
theorem look_append_of_ne_directory {n : FileNode} {names : List String}
    (solid : n.look names ≠ some .directory) {others : List String} (below : others ≠ []) :
    n.look (names ++ others) = none := by
  induction names generalizing n with
  | nil =>
      cases n with
      | file content => exact look_of_file content below
      | directory entries => exact absurd rfl solid
  | cons name names ih =>
      rw [look_cons] at solid
      rw [List.cons_append, look_cons]
      cases found : n.get? name with
      | none => rfl
      | some inner =>
          rw [found] at solid
          exact ih solid

/-- A place on the way to a directory is a directory. -/
theorem look_of_append {n : FileNode} {names others : List String}
    (found : n.look (names ++ others) = some .directory) : n.look names = some .directory := by
  by_cases here : others = []
  · rwa [here, List.append_nil] at found
  · by_contra solid
    rw [look_append_of_ne_directory solid here] at found
    cases found

/-- An entry that is set is found under its name; the others stay. -/
theorem lookup_setEntry (name : String) (node : FileNode) (entries : List (String × FileNode))
    (other : String) :
    (setEntry name node entries).lookup other =
      if other = name then some node else entries.lookup other := by
  induction entries with
  | nil =>
      by_cases same : other = name
      · rw [same, if_pos rfl]
        exact List.lookup_cons_self
      · rw [if_neg same, setEntry, List.lookup_cons, beq_false_of_ne same]
  | cons first entries ih =>
      obtain ⟨key, held⟩ := first
      unfold setEntry
      by_cases here : key = name
      · rw [if_pos here, here, List.lookup_cons, List.lookup_cons]
        by_cases same : other = name
        · rw [same, if_pos rfl, beq_self_eq_true]
        · rw [if_neg same, beq_false_of_ne same]
      · rw [if_neg here, List.lookup_cons, List.lookup_cons, ih]
        by_cases same : other = key
        · simp only [same, here, ↓reduceIte, beq_self_eq_true]
        · rw [beq_false_of_ne same]

/-- **Setting a node changes the place where it is set and those below**, if all places on the way
are directories. -/
theorem look_set (node : FileNode) {names : List String} : ∀ {n : FileNode},
    (∀ way, way <+: names → way ≠ names → n.look way = some .directory) →
      ∀ other, (set node n names).look other =
        if names <+: other then node.look (other.drop names.length) else n.look other := by
  induction names with
  | nil =>
      intro n _ other
      rw [if_pos List.nil_prefix]
      cases n <;> rfl
  | cons name names ih =>
      intro n passable other
      cases n with
      | file content =>
          have root := passable [] List.nil_prefix (List.cons_ne_nil _ _).symm
          cases root
      | directory entries =>
          rw [set]
          cases other with
          | nil =>
              rw [if_neg (by simp)]
              rfl
          | cons first other =>
              rw [look_cons, look_cons, get?, get?, lookup_setEntry]
              by_cases same : first = name
              · subst same
                rw [if_pos rfl, Option.bind_some]
                simp only [List.cons_prefix_cons, true_and, List.length_cons, List.drop_succ_cons]
                cases names with
                | nil =>
                    rw [if_pos List.nil_prefix]
                    cases (entries.lookup first).getD (.directory []) <;> rfl
                | cons next names =>
                    -- There are names left, so that the entry is there and a directory.
                    have present := passable [first] (by simp) (by simp)
                    rw [look_cons, get?] at present
                    cases found : entries.lookup first with
                    | none =>
                        rw [found] at present
                        cases present
                    | some below =>
                        refine ih ?_ other
                        intro way front proper
                        have onward := passable (first :: way)
                          (List.cons_prefix_cons.mpr ⟨rfl, front⟩) (by simpa using proper)
                        rwa [look_cons, get?, found] at onward
              · have apart : ¬ name :: names <+: first :: other := by
                  rw [List.cons_prefix_cons]
                  exact fun front => same front.1.symm
                rw [if_neg same, if_neg apart]

end FileNode

/-! ## Places of a tree -/

namespace FileTree

/-- What stands at a place of a tree. -/
def look (t : FileTree) (names : List String) : Option Entry :=
  t.root.look names

/-- The current directory is there. -/
def AtHome (t : FileTree) : Prop :=
  t.look t.current = some .directory

theorem look_eq_directory_iff {t : FileTree} {names : List String} :
    t.look names = some .directory ↔ ∃ entries, t.root.find? names = some (.directory entries) := by
  unfold look FileNode.look
  cases t.root.find? names with
  | none => simp
  | some n =>
      cases n with
      | file content => simp [FileNode.entry]
      | directory entries => simp [FileNode.entry]

/-- A way goes on from a name if this leads to a directory. -/
theorem walk_name_cons {t : FileTree} {name : String} (here : List String) (dot : name ≠ ".")
    (dots : name ≠ "..") (short : name.utf8ByteSize ≤ maxName) (next : String)
    (rest : List String) :
    t.walk here (name :: next :: rest) =
      match t.root.find? (here ++ [name]) with
      | none => .error .notFound
      | some (.file _) => .error .notDirectory
      | some (.directory _) => t.walk (here ++ [name]) (next :: rest) := by
  rw [walk.eq_def]
  simp only [dot, dots, Nat.not_lt.mpr short, ↓reduceIte]
  rcases t.root.find? (here ++ [name]) with _ | _ | _
  · rfl
  · rfl
  · rfl

/-- **What one step of a way does:** it stays, goes up, or goes into a directory; the last one may
lead to a place where nothing stands. -/
theorem walk_cons_eq_ok_iff {t : FileTree} {name : String} {rest here place : List String} :
    t.walk here (name :: rest) = .ok place ↔
      name = "." ∧ t.walk here rest = .ok place ∨
      name = ".." ∧ t.walk here.dropLast rest = .ok place ∨
      (name ≠ "." ∧ name ≠ ".." ∧ name.utf8ByteSize ≤ maxName) ∧
        (rest = [] ∧ place = here ++ [name] ∨
          rest ≠ [] ∧ t.look (here ++ [name]) = some .directory ∧
            t.walk (here ++ [name]) rest = .ok place) := by
  by_cases dot : name = "."
  · subst dot
    simp [walk]
  by_cases dots : name = ".."
  · subst dots
    simp [walk]
  by_cases long : maxName < name.utf8ByteSize
  · have short : ¬ name.utf8ByteSize ≤ maxName := Nat.not_le.mpr long
    simp [walk, dot, dots, long, short]
  have short : name.utf8ByteSize ≤ maxName := Nat.not_lt.mp long
  cases rest with
  | nil => simp [walk, dot, dots, long, short, eq_comm]
  | cons next rest =>
      rw [walk_name_cons here dot dots short, look_eq_directory_iff]
      cases stands : t.root.find? (here ++ [name]) with
      | none => simp [dot, dots]
      | some n =>
          cases n with
          | file content => simp [dot, dots]
          | directory entries => simp [dot, dots, short]

/-- A tree in which every directory of another one is still there, with the same current
directory. -/
structure Extends (t after : FileTree) : Prop where
  current : after.current = t.current
  directory : ∀ names, t.look names = some .directory → after.look names = some .directory

namespace Extends

variable {t middle after : FileTree}

theorem refl (t : FileTree) : t.Extends t :=
  ⟨rfl, fun _ found => found⟩

theorem trans (first : t.Extends middle) (second : middle.Extends after) : t.Extends after :=
  ⟨second.current.trans first.current,
    fun names found => second.directory names (first.directory names found)⟩

theorem atHome (grown : t.Extends after) (home : t.AtHome) : after.AtHome := by
  unfold AtHome
  rw [grown.current]
  exact grown.directory _ home

/-- A way through directories stays. -/
theorem walk (grown : t.Extends after) : ∀ {path here place : List String},
    t.walk here path = .ok place → after.walk here path = .ok place := by
  intro path
  induction path with
  | nil => exact fun found => found
  | cons name rest ih =>
      intro here place found
      rw [walk_cons_eq_ok_iff] at found ⊢
      rcases found with ⟨dot, onward⟩ | ⟨dots, onward⟩ | ⟨proper, last | ⟨more, into, onward⟩⟩
      · exact .inl ⟨dot, ih onward⟩
      · exact .inr (.inl ⟨dots, ih onward⟩)
      · exact .inr (.inr ⟨proper, .inl last⟩)
      · exact .inr (.inr ⟨proper, .inr ⟨more, grown.directory _ into, ih onward⟩⟩)

/-- **A path that leads somewhere leads to the same place.** -/
theorem locate (grown : t.Extends after) {path : String} {place : List String}
    (found : t.locate path = .ok place) : after.locate path = .ok place := by
  unfold FileTree.locate at found ⊢
  split_ifs at found ⊢ with null empty long absolute
  · exact grown.walk found
  · rw [grown.current]
    exact grown.walk found

end Extends

/-! ## Ways to a place -/

/-- A directory stands in a directory. -/
theorem look_dropLast {t : FileTree} {names : List String}
    (found : t.look names = some .directory) : t.look names.dropLast = some .directory := by
  obtain ⟨last, whole⟩ := List.dropLast_prefix names
  rw [← whole] at found
  exact FileNode.look_of_append found

/-- The place above the end of a path is a directory. -/
theorem look_dropLast_of_walk {t : FileTree} : ∀ {path here place : List String},
    t.look here = some .directory → t.walk here path = .ok place →
      t.look place.dropLast = some .directory := by
  intro path
  induction path with
  | nil =>
      intro here place home found
      cases found
      exact look_dropLast home
  | cons name rest ih =>
      intro here place home found
      rcases walk_cons_eq_ok_iff.mp found with
        ⟨-, onward⟩ | ⟨-, onward⟩ | ⟨-, ⟨-, rfl⟩ | ⟨-, into, onward⟩⟩
      · exact ih home onward
      · exact ih (look_dropLast home) onward
      · rwa [List.dropLast_concat]
      · exact ih into onward

/-- **All places on the way to the end of a path are directories.** -/
theorem look_of_locate {t : FileTree} (home : t.AtHome) {path : String} {place : List String}
    (found : t.locate path = .ok place) :
    ∀ way, way <+: place → way ≠ place → t.look way = some .directory := by
  have above : t.look place.dropLast = some .directory := by
    unfold locate at found
    split_ifs at found with null empty long absolute
    · have root : t.look ([] ++ t.current) = some .directory := home
      exact look_dropLast_of_walk (FileNode.look_of_append root) found
    · exact look_dropLast_of_walk home found
  intro way front proper
  obtain ⟨rest, rfl⟩ := front
  have more : rest ≠ [] := by
    rintro rfl
    exact proper (List.append_nil way).symm
  rw [List.dropLast_append_of_ne_nil more] at above
  exact FileNode.look_of_append above

/-! ## Changing one place -/

/-- Setting a node that holds nothing changes only its place, if no directory stood there. -/
theorem look_set_root {t : FileTree} (home : t.AtHome) {path : String} {place : List String}
    (found : t.locate path = .ok place) (vacant : t.look place ≠ some .directory)
    {node : FileNode} (bare : ∀ names, names ≠ [] → node.look names = none) :
    ({ t with root := FileNode.set node t.root place } : FileTree).look =
      Function.update t.look place (some node.entry) := by
  funext other
  change (FileNode.set node t.root place).look other = _
  rw [FileNode.look_set node (look_of_locate home found)]
  by_cases same : other = place
  · subst same
    rw [if_pos List.prefix_rfl, List.drop_length, Function.update_self]
    rfl
  · rw [Function.update_of_ne same]
    split
    · rename_i front
      obtain ⟨rest, rfl⟩ := front
      have more : rest ≠ [] := by
        rintro rfl
        exact same (List.append_nil place)
      rw [List.drop_left, bare rest more]
      exact (FileNode.look_append_of_ne_directory vacant more).symm
    · rfl

/-- **Writing a file changes the place of its path**, and nothing else. -/
theorem look_writeText {t after : FileTree} (home : t.AtHome) {path text : String}
    (written : t.writeText path text = .ok after) :
    ∃ place, t.locate path = .ok place ∧ Path.endsWithSlash path = false ∧
      t.look place ≠ some .directory ∧ after.current = t.current ∧
      after.look = Function.update t.look place (some (.file text.toUTF8)) := by
  unfold writeText at written
  cases found : t.locate path with
  | error e =>
      rw [found] at written
      cases written
  | ok place =>
      rw [found] at written
      dsimp only [bind, Except.bind] at written
      have vacant : t.look place ≠ some .directory := by
        intro stands
        obtain ⟨entries, held⟩ := look_eq_directory_iff.mp stands
        rw [held] at written
        cases written
      split at written
      · cases written
      · split at written
        · cases written
        · rename_i open_
          cases written
          refine ⟨place, rfl, Bool.not_eq_true _ ▸ open_, vacant, rfl, ?_⟩
          exact look_set_root home found vacant fun names => FileNode.look_of_file _

/-- **Making a directory changes the place of its path**, where nothing stood. -/
theorem look_makeDirectory {t after : FileTree} (home : t.AtHome) {path : String}
    (made : t.makeDirectory path = .ok after) :
    ∃ place, t.locate path = .ok place ∧ t.look place = none ∧ after.current = t.current ∧
      after.look = Function.update t.look place (some .directory) := by
  unfold makeDirectory at made
  cases found : t.locate path with
  | error e =>
      rw [found] at made
      cases made
  | ok place =>
      rw [found] at made
      dsimp only [bind, Except.bind] at made
      cases stands : t.root.find? place with
      | some n =>
          rw [stands] at made
          cases made
      | none =>
          rw [stands] at made
          cases made
          have vacant : t.look place = none := by
            unfold look FileNode.look
            rw [stands]
            rfl
          refine ⟨place, rfl, vacant, rfl, ?_⟩
          refine look_set_root home found ?_ fun names => FileNode.look_of_empty
          rw [vacant]
          exact (Option.some_ne_none _).symm

theorem Extends.of_update {t after : FileTree} (current : after.current = t.current)
    {place : List String} {entry : Entry} (vacant : t.look place ≠ some .directory)
    (changed : after.look = Function.update t.look place (some entry)) : t.Extends after := by
  refine ⟨current, fun names found => ?_⟩
  have other : names ≠ place := by
    rintro rfl
    exact vacant found
  rw [changed, Function.update_of_ne other, found]

/-- The text of a file that stands at the place of a path. -/
theorem readText_of_look {t : FileTree} {path text : String} {place : List String}
    (found : t.locate path = .ok place) (open_ : Path.endsWithSlash path = false)
    (stands : t.look place = some (.file text.toUTF8)) : t.readText path = .ok text := by
  have decoded : String.fromUTF8? text.toUTF8 = some text := by
    rw [String.fromUTF8?]
    exact dif_pos text.isValidUTF8
  unfold look FileNode.look at stands
  obtain ⟨n, held, content⟩ := Option.map_eq_some_iff.mp stands
  cases n with
  | directory entries => cases content
  | file bytes =>
      cases content
      unfold readText
      rw [found]
      simp only [bind, Except.bind, held, open_, Bool.false_eq_true, ↓reduceIte, decoded]

end FileTree

end SchemaPress
