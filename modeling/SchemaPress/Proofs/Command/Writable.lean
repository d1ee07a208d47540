import SchemaPress.Proofs.Command.Delivery

/-!
# When renderings can be written

Whether renderings can be written is a matter of the file tree and of the paths alone. A directory
can be made, with those that it stands in, if its path is regular, no file stands at a place that
the path passes, and a path that ends with a dot leads to a directory already (`FileTree.Makes`). A
file can be written next to it if all places in front of the file are directories or are passed on
the way to the directory, and the place of the file is neither (`FileTree.Receives`).

Directories are made from the last one that is missing upwards and then back down. What carries the
proof is that after the directories above have been made all places up to the last component are
directories, so that the last one is made or is there already (`FileTree.makeChain_chain`).
-/

set_option autoImplicit false

namespace SchemaPress

open FileStore

/-! ## Ways through directories -/

/-- A text with fewer of the same characters has no more bytes. -/
theorem Text.utf8ByteSize_le_of_sublist {text longer : String}
    (shorter : text.toList.Sublist longer.toList) : text.utf8ByteSize ≤ longer.utf8ByteSize := by
  have sizes : ∀ {cs ds : List Char}, cs.Sublist ds →
      (String.ofList cs).utf8ByteSize ≤ (String.ofList ds).utf8ByteSize := by
    intro cs ds sublist
    induction sublist with
    | slnil => exact Nat.le_refl _
    | cons d _ ih =>
        rw [String.ofList_cons, String.utf8ByteSize_append]
        exact Nat.le_add_left_of_le ih
    | cons_cons d _ ih =>
        rw [String.ofList_cons, String.ofList_cons, String.utf8ByteSize_append,
          String.utf8ByteSize_append]
        exact Nat.add_le_add_left ih _
  have both := sizes shorter
  rwa [String.ofList_toList, String.ofList_toList] at both

/-- A path that a file system can have: it has letters, but no null character, and neither the path
nor one of its components is too long. -/
structure Path.Regular (path : String) : Prop where
  some_path : path ≠ ""
  no_null : '\x00' ∉ path.toList
  short : path.utf8ByteSize ≤ FileTree.maxPath
  short_names : ∀ name ∈ Path.components path, name.utf8ByteSize ≤ FileTree.maxName

namespace FileTree

/-- The root or the current directory. -/
def origin (t : FileTree) (absolute : Bool) : List String :=
  if absolute then [] else t.current

/-- Where a path begins. -/
def start (t : FileTree) (path : String) : List String :=
  t.origin (Path.isAbsolute path)

/-- The place where a path leads, whatever stands in the way. -/
def placeOf (t : FileTree) (path : String) : List String :=
  Path.resolve (t.start path) (Path.components path)

/-- The places that a path passes, from where it begins to where it leads. -/
def placesTo (t : FileTree) (path : String) : List (List String) :=
  Path.passed (t.start path) (Path.components path)

/-- All places on a way are directories. -/
def Open (t : FileTree) (here names : List String) : Prop :=
  ∀ place ∈ Path.passed here names, t.look place = some .directory

/-- No file stands on a way: at each place is nothing or a directory. -/
def Clear (t : FileTree) (here names : List String) : Prop :=
  ∀ place ∈ Path.passed here names, t.look place = none ∨ t.look place = some .directory

theorem look_origin {t : FileTree} (home : t.AtHome) (absolute : Bool) :
    t.look (t.origin absolute) = some .directory := by
  unfold origin
  split
  · have root : t.look ([] ++ t.current) = some .directory := home
    exact FileNode.look_of_append root
  · exact home

theorem Extends.start {t after : FileTree} (grown : t.Extends after) (path : String) :
    after.start path = t.start path := by
  unfold FileTree.start FileTree.origin
  rw [grown.current]

theorem locate_eq_walk {path : String} (regular : Path.Regular path) (t : FileTree) :
    t.locate path = t.walk (t.start path) (Path.components path) := by
  have null : path.toList.contains '\x00' = false := by simpa using regular.no_null
  have some_path : path.isEmpty = false := by simpa using regular.some_path
  unfold locate start origin
  rw [null, some_path, if_neg Bool.false_ne_true, if_neg Bool.false_ne_true,
    if_neg (Nat.not_lt.mpr regular.short)]

/-- A way is that of its first component, which leads to a directory unless it is the last one or
made of dots, and then that of the others. -/
theorem walk_cons_iff_step {t : FileTree} {name : String} {rest here place : List String} :
    t.walk here (name :: rest) = .ok place ↔
      name.utf8ByteSize ≤ maxName ∧
        (rest = [] ∨ name = "." ∨ name = ".." ∨
          t.look (Path.step here name) = some .directory) ∧
        t.walk (Path.step here name) rest = .ok place := by
  rw [walk_cons_eq_ok_iff]
  unfold Path.step
  by_cases dot : name = "."
  · have fits : ".".utf8ByteSize ≤ maxName := by decide
    simp [dot, fits]
  by_cases dots : name = ".."
  · have fits : "..".utf8ByteSize ≤ maxName := by decide
    simp [dots, fits]
  cases rest with
  | nil => simp [dot, dots, walk, eq_comm]
  | cons next rest => simp [dot, dots]

theorem eq_resolve_of_walk {t : FileTree} {names here place : List String}
    (found : t.walk here names = .ok place) : place = Path.resolve here names := by
  induction names generalizing here with
  | nil => exact (Except.ok.inj found).symm
  | cons name rest ih =>
      obtain ⟨-, -, onward⟩ := walk_cons_iff_step.mp found
      exact ih onward

theorem eq_placeOf_of_locate {t : FileTree} {path : String} {place : List String}
    (found : t.locate path = .ok place) : place = t.placeOf path :=
  eq_resolve_of_walk (walk_of_locate found)

/-- A way through directories leads on by one component more. -/
theorem Open.walk_concat {t : FileTree} {names here : List String} {last : String}
    (way : t.Open here names) (short : ∀ name ∈ names, name.utf8ByteSize ≤ maxName)
    (fits : last.utf8ByteSize ≤ maxName) :
    t.walk here (names ++ [last]) = .ok (Path.resolve here (names ++ [last])) := by
  induction names generalizing here with
  | nil => exact walk_cons_iff_step.mpr ⟨fits, .inl rfl, rfl⟩
  | cons name names ih =>
      rw [Open, Path.passed_cons, List.forall_mem_cons] at way
      rw [List.forall_mem_cons] at short
      have into := way.2 _ (Path.first_mem_passed _ names)
      exact walk_cons_iff_step.mpr ⟨short.1, .inr (.inr (.inr into)), ih way.2 short.2⟩

/-- A way that leads to a directory leads through directories. -/
theorem open_of_walk {t : FileTree} {names here place : List String}
    (stands : t.look here = some .directory) (found : t.walk here names = .ok place)
    (there : t.look place = some .directory) : t.Open here names := by
  induction names generalizing here with
  | nil =>
      intro other member
      rw [List.mem_singleton.mp member]
      exact stands
  | cons name rest ih =>
      obtain ⟨-, into, onward⟩ := walk_cons_iff_step.mp found
      have next : t.look (Path.step here name) = some .directory := by
        rcases into with rfl | rfl | rfl | into
        · rwa [eq_resolve_of_walk onward] at there
        · exact stands
        · exact look_dropLast stands
        · exact into
      rw [Open, Path.passed_cons, List.forall_mem_cons]
      exact ⟨stands, ih next onward⟩

/-- A way without files leads somewhere, or a directory is missing on it. -/
theorem Clear.walk_eq {t : FileTree} {names here : List String} (clear : t.Clear here names)
    (short : ∀ name ∈ names, name.utf8ByteSize ≤ maxName) :
    t.walk here names = .ok (Path.resolve here names) ∨ t.walk here names = .error .notFound := by
  induction names generalizing here with
  | nil => exact .inl rfl
  | cons name rest ih =>
      rw [Clear, Path.passed_cons, List.forall_mem_cons] at clear
      rw [List.forall_mem_cons] at short
      have onward := ih clear.2 short.2
      have solid := clear.2 _ (Path.first_mem_passed _ rest)
      change _ = Except.ok (Path.resolve (Path.step here name) rest) ∨ _
      by_cases dot : name = "."
      · subst dot
        simpa [walk, Path.step] using onward
      by_cases dots : name = ".."
      · subst dots
        simpa [walk, Path.step] using onward
      rw [Path.step, if_neg dot, if_neg dots] at onward solid ⊢
      cases rest with
      | nil =>
          refine .inl (walk_cons_eq_ok_iff.mpr ?_)
          exact .inr (.inr ⟨⟨dot, dots, short.1⟩, .inl ⟨rfl, rfl⟩⟩)
      | cons next rest =>
          rw [walk_name_cons here dot dots short.1]
          unfold look FileNode.look at solid
          cases stands : t.root.find? (here ++ [name]) with
          | none => exact .inr rfl
          | some n =>
              cases n with
              | file content => simp [stands, FileNode.entry] at solid
              | directory entries => exact onward

/-! ## Directories that can be made -/

/-- A directory can be made at once, or is there. -/
def Settles (t : FileTree) (path : String) : Prop :=
  (∃ after, t.makeDirectory path = .ok after) ∨ t.Present path

theorem isDirectory_of_present {t : FileTree} {path : String} (there : t.Present path) :
    t.isDirectory path = true := by
  obtain ⟨place, found, stands⟩ := there
  obtain ⟨entries, held⟩ := look_eq_directory_iff.mp stands
  unfold isDirectory
  rw [found]
  dsimp only
  rw [held]
  rfl

theorem makeDirectory_of_present {t : FileTree} {path : String} (there : t.Present path) :
    t.makeDirectory path = .error .exists := by
  obtain ⟨place, found, stands⟩ := there
  obtain ⟨entries, held⟩ := look_eq_directory_iff.mp stands
  unfold makeDirectory
  rw [found]
  dsimp only [bind, Except.bind]
  rw [held]

theorem makeDirectory_of_missing {t : FileTree} {path : String}
    (missing : t.locate path = .error .notFound) : t.makeDirectory path = .error .notFound := by
  unfold makeDirectory
  rw [missing]
  rfl

/-- A path that leads to a place without a file settles. -/
theorem settles_of_locate {t : FileTree} {path : String} {place : List String}
    (found : t.locate path = .ok place)
    (solid : t.look place = none ∨ t.look place = some .directory) : t.Settles path := by
  rcases solid with vacant | stands
  · have held : t.root.find? place = none := Option.map_eq_none_iff.mp vacant
    refine .inl ⟨{ t with root := FileNode.set (.directory []) t.root place }, ?_⟩
    unfold makeDirectory
    rw [found]
    dsimp only [bind, Except.bind]
    rw [held]
    rfl
  · exact .inr ⟨place, found, stands⟩

theorem Settles.orPresent {t : FileTree} {path : String} (settles : t.Settles path) :
    ∃ after, (FileStore.makeDirectory path >>= orPresent path : StateM FileTree _) t =
      (.ok (), after) := by
  rw [run_bind, run_makeDirectory]
  rcases settles with ⟨after, made⟩ | there
  · rw [made]
    exact ⟨after, rfl⟩
  · rw [makeDirectory_of_present there]
    refine ⟨t, ?_⟩
    change ((if t.isDirectory path then .ok () else .error .exists : Except FileError Unit), t) = _
    rw [isDirectory_of_present there]
    rfl

/-- **What makes a directory:** it settles, or it is missing together with directories above, and
settles after these have been made. -/
theorem exists_makeChain {t : FileTree} {path : String} {above : List String}
    (now : t.Settles path ∨ t.locate path = .error .notFound)
    (later : ∃ middle, (makeChain above : StateM FileTree _) t = (.ok (), middle) ∧
      middle.Settles path) :
    ∃ after, (makeChain (path :: above) : StateM FileTree _) t = (.ok (), after) := by
  rw [makeChain, run_bind, run_makeDirectory]
  rcases now with settles | missing
  · obtain ⟨after, settled⟩ := settles.orPresent
    rw [run_bind, run_makeDirectory] at settled
    refine ⟨after, ?_⟩
    rcases settles with ⟨_, made⟩ | there
    · rw [made] at settled ⊢
      exact settled
    · rw [makeDirectory_of_present there] at settled ⊢
      exact settled
  · obtain ⟨middle, chained, settles⟩ := later
    obtain ⟨after, settled⟩ := settles.orPresent
    refine ⟨after, ?_⟩
    rw [makeDirectory_of_missing missing]
    change (makeChain above >>= _ : StateM FileTree _) t = _
    rw [run_bind, chained]
    exact settled

/-- A directory without files on its way settles, or one above it is missing. -/
theorem Clear.now {t : FileTree} {path : String} (regular : Path.Regular path)
    (clear : t.Clear (t.start path) (Path.components path)) :
    t.Settles path ∨ t.locate path = .error .notFound := by
  rw [locate_eq_walk regular]
  rcases clear.walk_eq regular.short_names with found | missing
  · refine .inl (settles_of_locate ((locate_eq_walk regular t).trans found) ?_)
    exact clear _ (Path.resolve_mem_passed _ _)
  · exact .inr missing

/-- A path leads to its place if its way leads through directories up to the last component. -/
theorem Open.locate_eq {t : FileTree} {path : String} (regular : Path.Regular path)
    (way : t.Open (t.start path) (Path.components path).dropLast) :
    t.locate path = .ok (t.placeOf path) := by
  rw [locate_eq_walk regular, placeOf]
  have short := regular.short_names
  rcases List.eq_nil_or_concat (Path.components path) with none | ⟨init, last, whole⟩
  · rw [none]
    rfl
  · rw [whole, List.concat_eq_append] at way short ⊢
    rw [List.dropLast_concat] at way
    rw [List.forall_mem_append, List.forall_mem_singleton] at short
    exact way.walk_concat short.1 short.2

/-- Directories that are added put no file in the way. -/
theorem AddsDirectories.clear {t after : FileTree} {paths : List String}
    (adds : t.AddsDirectories after paths) {here names : List String}
    (clear : t.Clear here names) : after.Clear here names := by
  intro place member
  rcases adds.places place with same | ⟨-, made, -⟩
  · rw [same]
    exact clear place member
  · exact .inr made

theorem addsDirectories_of_makeChain {t after : FileTree} (home : t.AtHome) {paths : List String}
    {result : Except FileError Unit}
    (ran : (makeChain paths : StateM FileTree _) t = (result, after)) :
    t.AddsDirectories after paths := by
  have adds := makeChain_addsDirectories paths home
  rwa [ran] at adds

/-- One more directory below those that have been made: its way leads through directories. -/
theorem makeChain_cons_open {t middle : FileTree} (home : t.AtHome) {path : String}
    {above : List String} (regular : Path.Regular path)
    (clear : t.Clear (t.start path) (Path.components path))
    (chained : (makeChain above : StateM FileTree _) t = (.ok (), middle))
    (way : middle.Open (t.start path) (Path.components path).dropLast) :
    ∃ after, (makeChain (path :: above) : StateM FileTree _) t = (.ok (), after) ∧
      after.Open (t.start path) (Path.components path) := by
  have before := addsDirectories_of_makeChain home chained
  have begins : middle.start path = t.start path := before.grown.start path
  have later : middle.Settles path := by
    refine settles_of_locate (Open.locate_eq regular ?_) ?_
    · rwa [begins]
    · rw [placeOf, begins]
      exact before.clear clear _ (Path.resolve_mem_passed _ _)
  obtain ⟨after, made⟩ := exists_makeChain (clear.now regular) ⟨middle, chained, later⟩
  have grown := (addsDirectories_of_makeChain home made).grown
  obtain ⟨place, found, stands⟩ := makeChain_present path above home made
  rw [locate_eq_walk regular, grown.start path] at found
  exact ⟨after, made, open_of_walk (grown.directory _ (look_origin home _)) found stands⟩

/-- **Directories are made one below the other:** if no file stands on the way of components, then
the directories at all their paths can be made, and the way leads through directories. -/
theorem makeChain_chain {t : FileTree} (home : t.AtHome) (absolute : Bool) {names : List String}
    (good : ∀ name ∈ names, Path.IsComponent name)
    (regular : ∀ path ∈ Path.chain (if absolute then "/" else "") names, Path.Regular path)
    (clear : t.Clear (t.origin absolute) names.reverse) :
    ∃ after, (makeChain (Path.chain (if absolute then "/" else "") names) :
        StateM FileTree _) t = (.ok (), after) ∧
      after.Open (t.origin absolute) names.reverse := by
  induction names with
  | nil =>
      refine ⟨t, rfl, fun place member => ?_⟩
      rw [List.mem_singleton.mp member]
      exact look_origin home absolute
  | cons last before ih =>
      rw [List.reverse_cons] at clear ⊢
      have listed : ∀ name ∈ before.reverse ++ [last], Path.IsComponent name := by
        intro name member
        rw [← List.reverse_cons, List.mem_reverse] at member
        exact good name member
      rw [Path.chain, List.forall_mem_cons] at regular
      obtain ⟨middle, chained, way⟩ :=
        ih (fun name member => good name (List.mem_cons_of_mem last member)) regular.2
          fun place member => clear place (Path.mem_passed_concat.mpr (.inr member))
      have steps := Path.components_ofComponents absolute listed
      have begins : t.start (Path.ofComponents absolute (before.reverse ++ [last])) =
          t.origin absolute := by
        rw [start, Path.isAbsolute_ofComponents absolute (by simp) listed]
      have fits : Path.Regular (Path.ofComponents absolute (before.reverse ++ [last])) := regular.1
      have next := makeChain_cons_open home fits
        (by rwa [begins, steps]) chained (by rwa [begins, steps, List.dropLast_concat])
      rwa [begins, steps] at next

/-- What it takes to make a directory, together with those that it stands in: no file stands on the
way, and if its path ends with a dot then it is there. -/
structure Makes (t : FileTree) (dir : String) : Prop where
  regular : Path.Regular dir
  no_file : ∀ place ∈ t.placesTo dir, t.look place = none ∨ t.look place = some .directory
  dotted : (Path.components dir).getLast? = some "." → t.look (t.placeOf dir) = some .directory

/-- What it takes to write a file after a directory has been made: every place in front of it is a
directory or one on the way to the directory, and its own place is neither. -/
structure Receives (t : FileTree) (dir path : String) : Prop where
  regular : Path.Regular path
  no_slash : Path.endsWithSlash path = false
  way : ∀ place ∈ Path.passed (t.start path) (Path.components path).dropLast,
    t.look place = some .directory ∨ place ∈ t.placesTo dir
  free : t.look (t.placeOf path) ≠ some .directory ∧ t.placeOf path ∉ t.placesTo dir

end FileTree

theorem Path.Regular.of_mem_ancestors {dir above : String} (regular : Path.Regular dir)
    (listed : above ∈ Path.ancestors dir) : Path.Regular above := by
  obtain ⟨front, some_name, good, shorter, rfl⟩ := Path.exists_of_mem_ancestors listed
  have sublist : front.Sublist (Path.components dir) :=
    (shorter.sublist.trans (List.dropLast_sublist _)).trans (Path.plainComponents_sublist dir)
  have letters := Path.toList_ofComponents_sublist some_name sublist
  refine ⟨fun none => ?_, fun null => regular.no_null (letters.subset null),
    (Text.utf8ByteSize_le_of_sublist letters).trans regular.short, ?_⟩
  · have steps := Path.components_ofComponents (Path.isAbsolute dir) good
    rw [none] at steps
    exact some_name steps.symm
  · rw [Path.components_ofComponents _ good]
    exact fun name member => regular.short_names name (sublist.subset member)

namespace FileTree

/-- **A directory that can be made is made**, and then its path leads through directories. -/
theorem Makes.exists_makeDirectories {t : FileTree} (home : t.AtHome) {dir : String}
    (makes : t.Makes dir) :
    ∃ after, (makeDirectories dir : StateM FileTree _) t = (.ok (), after) ∧
      after.Open (t.start dir) (Path.components dir) := by
  have fewer : ∀ place ∈ Path.passed (t.start dir) (Path.plainComponents dir).dropLast,
      place ∈ t.placesTo dir := fun place member =>
    (Path.mem_passed_plainComponents dir).mp
      (Path.mem_passed_of_prefix (List.dropLast_prefix _) member)
  have good : ∀ name ∈ (Path.plainComponents dir).dropLast.reverse, Path.IsComponent name := by
    intro name member
    exact Path.isComponent_of_mem_dropLast (List.mem_reverse.mp member)
  have clear : t.Clear (t.start dir) (Path.plainComponents dir).dropLast.reverse.reverse := by
    rw [List.reverse_reverse]
    exact fun place member => makes.no_file place (fewer place member)
  obtain ⟨middle, chained, way⟩ := makeChain_chain home (Path.isAbsolute dir) good
    (fun path listed => makes.regular.of_mem_ancestors listed) clear
  rw [List.reverse_reverse] at way
  refine makeChain_cons_open home makes.regular makes.no_file chained fun place member => ?_
  by_cases dot : (Path.components dir).getLast? = some "."
  · have there := Path.mem_passed_of_prefix (List.dropLast_prefix _) member
    rw [← Path.mem_passed_plainComponents] at there
    rcases List.eq_nil_or_concat (Path.plainComponents dir) with none | ⟨init, last, whole⟩
    · rw [none] at there way
      exact way place there
    · rw [whole, List.concat_eq_append, Path.mem_passed_concat] at there
      rw [whole, List.concat_eq_append, List.dropLast_concat] at way
      rcases there with rfl | before
      · -- The last plain component leads to the directory, which has been there.
        have adds : t.AddsDirectories middle (Path.ancestors dir) :=
          addsDirectories_of_makeChain home chained
        rw [← List.concat_eq_append, ← whole, Path.resolve_plainComponents]
        exact adds.grown.directory _ (makes.dotted dot)
      · exact way place before
  · exact way place (Path.mem_passed_dropLast dot member)

/-- Directories are added on the way to the directory that is made. -/
theorem mem_placesTo_of_locate {t after : FileTree} (grown : t.Extends after) {dir path : String}
    (listed : path ∈ dir :: Path.ancestors dir) {place : List String}
    (found : after.locate path = .ok place) : place ∈ t.placesTo dir := by
  have leads := eq_placeOf_of_locate found
  rw [placeOf, grown.start path] at leads
  rw [leads, placesTo]
  rcases List.mem_cons.mp listed with rfl | above
  · exact Path.resolve_mem_passed _ _
  · obtain ⟨front, some_name, good, shorter, rfl⟩ := Path.exists_of_mem_ancestors above
    have begins : t.start (Path.ofComponents (Path.isAbsolute dir) front) = t.start dir := by
      unfold start
      rw [Path.isAbsolute_ofComponents _ some_name good]
    rw [begins, Path.components_ofComponents _ good]
    refine (Path.mem_passed_plainComponents dir).mp ?_
    exact Path.mem_passed_iff.mpr ⟨front, shorter.trans (List.dropLast_prefix _), rfl⟩

/-! ## Files that can be written -/

/-- A text can be written to the file at a path. -/
def Takes (t : FileTree) (path : String) : Prop :=
  Path.endsWithSlash path = false ∧
    ∃ place, t.locate path = .ok place ∧ t.look place ≠ some .directory

theorem exists_writeText_of_takes {t : FileTree} {path : String} (takes : t.Takes path)
    (text : String) : ∃ after, t.writeText path text = .ok after := by
  obtain ⟨open_, place, found, vacant⟩ := takes
  unfold writeText
  rw [found]
  dsimp only [bind, Except.bind]
  cases stands : t.root.find? place with
  | none => exact ⟨_, by simp only [open_]; rfl⟩
  | some n =>
      cases n with
      | file content => exact ⟨_, by simp only [open_]; rfl⟩
      | directory entries => exact absurd (look_eq_directory_iff.mpr ⟨entries, stands⟩) vacant

/-- Writing a file makes no directory and removes none. -/
theorem extends_writeText {t after : FileTree} (home : t.AtHome) {path text : String}
    (written : t.writeText path text = .ok after) : t.Extends after ∧ after.Extends t := by
  obtain ⟨place, -, -, vacant, current, changed⟩ := look_writeText home written
  refine ⟨Extends.of_update current vacant changed, current.symm, fun names found => ?_⟩
  rw [changed] at found
  by_cases here : names = place
  · rw [here, Function.update_self] at found
    cases found
  · rwa [Function.update_of_ne here] at found

/-- Which files can be written depends on the directories only. -/
theorem Takes.of_extends {t after : FileTree} (grown : t.Extends after) (back : after.Extends t)
    {path : String} (takes : t.Takes path) : after.Takes path := by
  obtain ⟨open_, place, found, vacant⟩ := takes
  exact ⟨open_, place, grown.locate found, fun stands => vacant (back.directory place stands)⟩

/-- **Files can be written exactly if each of them can be written on its own.** -/
theorem writeFiles_eq_ok_iff (files : List (String × String)) : ∀ {t : FileTree}, t.AtHome →
    (((Command.writeFiles files : StateM FileTree _) t).1 = .ok () ↔
      ∀ file ∈ files, t.Takes file.1) := by
  induction files with
  | nil => exact fun _ => ⟨fun _ file member => absurd member List.not_mem_nil, fun _ => rfl⟩
  | cons file files ih =>
      obtain ⟨path, text⟩ := file
      intro t home
      rw [Command.writeFiles, run_bind, run_writeText, List.forall_mem_cons]
      cases written : t.writeText path text with
      | error e =>
          constructor
          · intro done
            cases done
          · rintro ⟨takes, -⟩
            obtain ⟨after, wrote⟩ := exists_writeText_of_takes takes text
            rw [written] at wrote
            cases wrote
      | ok middle =>
          obtain ⟨grown, back⟩ := extends_writeText home written
          obtain ⟨place, found, open_, vacant, -, -⟩ := look_writeText home written
          have first : t.Takes path := ⟨open_, place, found, vacant⟩
          refine (ih (grown.atHome home)).trans ⟨fun rest => ⟨first, fun file member => ?_⟩, ?_⟩
          · exact (rest file member).of_extends back grown
          · rintro ⟨-, rest⟩ file member
            exact (rest file member).of_extends grown back

/-- A file that can be written after a directory has been made can be written then. -/
theorem Receives.takes {t made : FileTree} {dir path : String} (receives : t.Receives dir path)
    (adds : t.AddsDirectories made (dir :: Path.ancestors dir))
    (way : made.Open (t.start dir) (Path.components dir)) : made.Takes path := by
  have begins : made.start path = t.start path := adds.grown.start path
  have into : made.Open (made.start path) (Path.components path).dropLast := by
    rw [begins]
    intro place member
    rcases receives.way place member with stands | passed
    · exact adds.grown.directory place stands
    · exact way place passed
  refine ⟨receives.no_slash, t.placeOf path, ?_, fun stands => ?_⟩
  · rw [into.locate_eq receives.regular, placeOf, begins, placeOf]
  · rcases adds.places (t.placeOf path) with same | ⟨-, -, above, listed, found⟩
    · exact receives.free.1 (same.symm.trans stands)
    · exact receives.free.2 (mem_placesTo_of_locate adds.grown listed found)

end FileTree

namespace Command

/-- **Renderings can be written if the file tree takes their directory and their files.** -/
theorem exists_writeRenderings {t : FileTree} (home : t.AtHome) {dir : String} (makes : t.Makes dir)
    {s : Schema} {rs : List Rendering}
    (receives : ∀ r ∈ rs, t.Receives dir (Path.join dir (r.fileName s))) :
    ∃ after, (writeRenderings dir s rs : StateM FileTree _) t = (.ok (), after) := by
  obtain ⟨middle, made, way⟩ := makes.exists_makeDirectories home
  have adds : t.AddsDirectories middle (dir :: Path.ancestors dir) :=
    FileTree.addsDirectories_of_makeChain home made
  have taken : ∀ file ∈ filesIn dir s rs, middle.Takes file.1 := by
    intro file member
    obtain ⟨r, inside, rfl⟩ := List.mem_map.mp member
    exact (receives r inside).takes adds way
  have written := (FileTree.writeFiles_eq_ok_iff _ (adds.grown.atHome home)).mpr taken
  refine ⟨((writeFiles (filesIn dir s rs) : StateM FileTree _) middle).2, ?_⟩
  rw [writeRenderings, run_bind, made]
  exact Prod.ext written rfl

end Command

end SchemaPress
