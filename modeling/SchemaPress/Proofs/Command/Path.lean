import Mathlib.Data.List.Flatten
import Mathlib.Data.List.Infix
import SchemaPress.Command.Path
import SchemaPress.Proofs.Text.Lines

/-!
# Names in directories

A name is put into a directory by joining the two. Unless the name leads from the root, the
components of the path are those of the directory and of the name (`Path.components_join`).

Components lead from place to place, whatever stands there (`Path.passed`). Single dots make no
difference to that (`Path.mem_passed_plainComponents`), and the directories that a path stands in
are the paths of its first plain components (`Path.exists_of_mem_ancestors`).

A path leads into a directory itself if it has one component more than the directory, and this one
is neither of the two that stand for a directory. What a name with an ending gives is of this kind
exactly if nothing in front of its last slash leads elsewhere (`Path.isIn_join_iff`). In particular
a name without a slash is.
-/

set_option autoImplicit false

namespace SchemaPress

/-! ## Parts -/

namespace Text

/-- What is appended to a text without the mark is appended to its last part. -/
theorem exists_split_append (mark : Char) (cs : List Char) :
    ∃ init last, ∀ tail : List Char, mark ∉ tail →
      split mark (cs ++ tail) = init ++ [last ++ tail] := by
  induction cs with
  | nil => exact ⟨[], [], fun tail free => split_of_not_mem free⟩
  | cons c cs ih =>
      obtain ⟨init, last, parts⟩ := ih
      by_cases marked : c = mark
      · refine ⟨[] :: init, last, fun tail free => ?_⟩
        rw [List.cons_append, split, if_pos marked, parts tail free]
        rfl
      · cases init with
        | nil =>
            refine ⟨[], c :: last, fun tail free => ?_⟩
            rw [List.cons_append, split, if_neg marked, parts tail free]
            rfl
        | cons first init =>
            refine ⟨(c :: first) :: init, last, fun tail free => ?_⟩
            rw [List.cons_append, split, if_neg marked, parts tail free]
            rfl

/-- A text with a mark has the parts of what stands before it and of what stands after it. -/
theorem split_append_mark_cons (mark : Char) (cs rest : List Char) :
    split mark (cs ++ mark :: rest) = split mark cs ++ split mark rest := by
  induction cs with
  | nil => simp [split]
  | cons c cs ih =>
      rw [List.cons_append, split, split, ih]
      split
      · rfl
      · cases parts : split mark cs with
        | nil => exact absurd parts (split_ne_nil mark cs)
        | cons first others => rfl

end Text

namespace Path

/-! ## Components -/

/-- The components of a name in front of its last slash. -/
def folder (name : String) : List String :=
  ((Text.split '/' name.toList).dropLast.filter fun part => !part.isEmpty).map String.ofList

/-- What follows the last slash of a name. -/
def leaf (name : String) : String :=
  String.ofList ((Text.split '/' name.toList).getLast?.getD [])

theorem folder_of_not_mem {name : String} (free : '/' ∉ name.toList) : folder name = [] := by
  unfold folder
  rw [Text.split_of_not_mem free]
  rfl

theorem leaf_of_not_mem {name : String} (free : '/' ∉ name.toList) : leaf name = name := by
  unfold leaf
  rw [Text.split_of_not_mem free]
  exact String.ofList_toList

/-- What is appended to a name without a slash is appended to its last component. -/
theorem components_append (name : String) {tail : String} (some_tail : tail ≠ "")
    (free : '/' ∉ tail.toList) :
    components (name ++ tail) = folder name ++ [leaf name ++ tail] := by
  obtain ⟨init, last, parts⟩ := Text.exists_split_append '/' name.toList
  have whole : Text.split '/' name.toList = init ++ [last] := by
    have bare := parts [] List.not_mem_nil
    rwa [List.append_nil, List.append_nil] at bare
  have letters : tail.toList ≠ [] := fun none => some_tail (String.toList_eq_nil_iff.mp none)
  have solid :
      [last ++ tail.toList].filter (fun part => !part.isEmpty) = [last ++ tail.toList] := by
    simp [letters]
  unfold components folder leaf
  rw [String.toList_append, parts tail.toList free, whole, List.filter_append, solid,
    List.map_append, List.dropLast_concat, List.getLast?_concat, Option.getD_some,
    List.map_singleton, String.ofList_append, String.ofList_toList]

/-- A component with an ending that is not a dot is a name. -/
theorem leaf_append_ne (name : String) {tail : String} (some_tail : tail ≠ "")
    (undotted : tail.toList.getLast? ≠ some '.') :
    leaf name ++ tail ≠ "." ∧ leaf name ++ tail ≠ ".." := by
  have letters : tail.toList ≠ [] := fun none => some_tail (String.toList_eq_nil_iff.mp none)
  have last : (leaf name ++ tail).toList.getLast? ≠ some '.' := by
    rwa [String.toList_append, List.getLast?_append,
      Option.or_of_isSome (List.getLast?_isSome.mpr letters)]
  constructor
  · intro dot
    rw [dot] at last
    exact last rfl
  · intro dots
    rw [dots] at last
    exact last rfl

/-- A slash divides the components of a path. -/
theorem components_append_slash (path name : String) :
    components (path ++ "/" ++ name) = components path ++ components name := by
  have slash : (path ++ "/" ++ name).toList = path.toList ++ '/' :: name.toList := by simp
  unfold components
  rw [slash, Text.split_append_mark_cons, List.filter_append, List.map_append]

theorem isAbsolute_append {path : String} (some_path : path ≠ "") (tail : String) :
    isAbsolute (path ++ tail) = isAbsolute path := by
  unfold isAbsolute
  rw [String.toList_append, List.head?_append, Option.or_of_isSome]
  exact List.isSome_head?.mpr fun none => some_path (String.toList_eq_nil_iff.mp none)

theorem isAbsolute_of_not_mem {name : String} (free : '/' ∉ name.toList) :
    isAbsolute name = false := by
  unfold isAbsolute
  rw [decide_eq_false_iff_not]
  exact fun first => free (List.mem_of_head? first)

/-- A path that leads from the current directory has a component. -/
theorem components_ne_nil {path : String} (some_path : path ≠ "")
    (relative : isAbsolute path = false) : components path ≠ [] := by
  unfold isAbsolute at relative
  cases letters : path.toList with
  | nil => exact absurd (String.toList_eq_nil_iff.mp letters) some_path
  | cons c cs =>
      rw [letters, List.head?_cons, decide_eq_false_iff_not, Option.some_inj] at relative
      unfold components
      rw [letters, Text.split, if_neg relative]
      cases parts : Text.split '/' cs with
      | nil => exact absurd parts (Text.split_ne_nil '/' cs)
      | cons first rest => simp

/-! ## Names that are joined to a directory -/

section Join

variable {dir name : String} (some_dir : dir ≠ "") (relative : isAbsolute name = false)
include some_dir relative

theorem join_eq :
    join dir name = if endsWithSlash dir then dir ++ name else dir ++ "/" ++ name := by
  have given : dir.isEmpty = false := by simpa using some_dir
  unfold join
  rw [relative, given]
  rfl

theorem isAbsolute_join : isAbsolute (join dir name) = isAbsolute dir := by
  rw [join_eq some_dir relative]
  split
  · exact isAbsolute_append some_dir name
  · rw [String.append_assoc]
    exact isAbsolute_append some_dir _

/-- The components of a path are those of the directory and of the name. -/
theorem components_join : components (join dir name) = components dir ++ components name := by
  rw [join_eq some_dir relative]
  split
  · rename_i slash
    -- The slash at the end of the directory is the one that divides it from the name.
    obtain ⟨front, whole⟩ : ∃ front, dir = front ++ "/" := by
      unfold endsWithSlash at slash
      obtain ⟨front, whole⟩ := List.getLast?_eq_some_iff.mp (of_decide_eq_true slash)
      exact ⟨String.ofList front, String.toList_inj.mp (by simp [whole])⟩
    have bare : components dir = components front := by
      have divided := components_append_slash front ""
      rw [String.append_empty, ← whole] at divided
      exact divided.trans (List.append_nil _)
    rw [bare, whole]
    exact components_append_slash front name
  · exact components_append_slash dir name

end Join

/-! ## Plain components -/

theorem filter_plainComponents (path : String) :
    (plainComponents path).filter (· ≠ ".") = (components path).filter (· ≠ ".") := by
  unfold plainComponents
  cases components path with
  | nil => rfl
  | cons first rest =>
      by_cases dot : first = "."
      · cases absolute : isAbsolute path with
        | true => simp [dot]
        | false => simp [dot]
      · simp [dot]

theorem plainComponents_of_isAbsolute {path : String} (absolute : isAbsolute path = true) :
    plainComponents path = (components path).filter (· ≠ ".") := by
  unfold plainComponents
  cases components path with
  | nil => rfl
  | cons first rest =>
      by_cases dot : first = "."
      · simp [dot, absolute]
      · simp [dot]

/-- Further components of a path are among its plain ones, without the single dots. -/
theorem plainComponents_append {path longer : String} {more : List String} (some_path : path ≠ "")
    (start : isAbsolute longer = isAbsolute path)
    (steps : components longer = components path ++ more) :
    plainComponents longer = plainComponents path ++ more.filter (· ≠ ".") := by
  cases absolute : isAbsolute path with
  | true =>
      rw [plainComponents_of_isAbsolute absolute,
        plainComponents_of_isAbsolute (start.trans absolute), steps, List.filter_append]
  | false =>
      have some_step := components_ne_nil some_path absolute
      unfold plainComponents
      rw [steps, start, absolute]
      cases stepped : components path with
      | nil => exact absurd stepped some_step
      | cons first rest => simp

/-! ## Where components lead -/

/-- Where a component leads from a place: a dot stays there, two dots lead up, and a name leads
below it. -/
def step (here : List String) (name : String) : List String :=
  if name = "." then here else if name = ".." then here.dropLast else here ++ [name]

/-- Where components lead from a place, whatever stands in the way. -/
def resolve (here names : List String) : List String :=
  names.foldl step here

/-- The places on the way there, from the first to the last. -/
def passed (here names : List String) : List (List String) :=
  names.inits.map (resolve here)

theorem mem_passed_iff {here names place : List String} :
    place ∈ passed here names ↔ ∃ way, way <+: names ∧ resolve here way = place := by
  simp only [passed, List.mem_map, List.mem_inits]

theorem passed_cons (here : List String) (name : String) (names : List String) :
    passed here (name :: names) = here :: passed (step here name) names := by
  unfold passed
  rw [List.inits_cons, List.map_cons, List.map_map]
  rfl

theorem first_mem_passed (here names : List String) : here ∈ passed here names :=
  mem_passed_iff.mpr ⟨[], List.nil_prefix, rfl⟩

theorem resolve_mem_passed (here names : List String) : resolve here names ∈ passed here names :=
  mem_passed_iff.mpr ⟨names, List.prefix_rfl, rfl⟩

theorem mem_passed_concat {here names place : List String} {name : String} :
    place ∈ passed here (names ++ [name]) ↔
      place = resolve here (names ++ [name]) ∨ place ∈ passed here names := by
  simp only [mem_passed_iff, List.prefix_concat_iff]
  constructor
  · rintro ⟨way, rfl | front, rfl⟩
    · exact .inl rfl
    · exact .inr ⟨way, front, rfl⟩
  · rintro (rfl | ⟨way, front, rfl⟩)
    · exact ⟨_, .inl rfl, rfl⟩
    · exact ⟨way, .inr front, rfl⟩

theorem mem_passed_of_prefix {here names longer place : List String} (front : names <+: longer)
    (there : place ∈ passed here names) : place ∈ passed here longer := by
  obtain ⟨way, shorter, leads⟩ := mem_passed_iff.mp there
  exact mem_passed_iff.mpr ⟨way, shorter.trans front, leads⟩

/-- Single dots lead nowhere else. -/
theorem resolve_filter (here names : List String) :
    resolve here (names.filter (· ≠ ".")) = resolve here names := by
  induction names generalizing here with
  | nil => rfl
  | cons name names ih =>
      by_cases dot : name = "."
      · have same : step here name = here := if_pos dot
        rw [List.filter_cons_of_neg (by simpa using dot), ih, resolve, resolve, List.foldl_cons,
          same]
      · rw [List.filter_cons_of_pos (by simpa using dot)]
        exact ih (step here name)

theorem mem_passed_filter {here names place : List String} :
    place ∈ passed here (names.filter (· ≠ ".")) ↔ place ∈ passed here names := by
  simp only [mem_passed_iff]
  constructor
  · rintro ⟨way, ⟨rest, whole⟩, rfl⟩
    obtain ⟨front, back, rfl, rfl, -⟩ := List.filter_eq_append_iff.mp whole.symm
    exact ⟨front, List.prefix_append front back, (resolve_filter here front).symm⟩
  · rintro ⟨way, front, rfl⟩
    exact ⟨_, front.filter _, resolve_filter here way⟩

theorem resolve_plainComponents (here : List String) (path : String) :
    resolve here (plainComponents path) = resolve here (components path) := by
  rw [← resolve_filter, filter_plainComponents, resolve_filter]

/-- The same places are passed with and without the single dots that change nothing. -/
theorem mem_passed_plainComponents {here place : List String} (path : String) :
    place ∈ passed here (plainComponents path) ↔ place ∈ passed here (components path) := by
  rw [← mem_passed_filter, filter_plainComponents, mem_passed_filter]

/-- If the last component is a name or leads up, then what is passed before it is passed before the
last plain component. -/
theorem mem_passed_dropLast {here place : List String} {path : String}
    (solid : (components path).getLast? ≠ some ".")
    (there : place ∈ passed here (components path).dropLast) :
    place ∈ passed here (plainComponents path).dropLast := by
  rcases List.eq_nil_or_concat (components path) with none | ⟨init, last, whole⟩
  · have plain : plainComponents path = [] := by
      unfold plainComponents
      rw [none]
    rwa [plain, ← none]
  · rw [whole, List.concat_eq_append, List.getLast?_concat] at solid
    rw [whole, List.concat_eq_append, List.dropLast_concat] at there
    have filtered : (plainComponents path).filter (· ≠ ".") = init.filter (· ≠ ".") ++ [last] := by
      rw [filter_plainComponents, whole, List.concat_eq_append, List.filter_append]
      simpa using fun dot => solid (congrArg some dot)
    obtain ⟨front, back, divided, before, after⟩ := List.filter_eq_append_iff.mp filtered
    have more : back ≠ [] := by
      rintro rfl
      cases after
    rw [divided, List.dropLast_append_of_ne_nil more]
    refine mem_passed_of_prefix (List.prefix_append front back.dropLast) ?_
    rwa [← mem_passed_filter, before, mem_passed_filter]

/-! ## The directories that a path stands in -/

/-- A name that can be a component: it has letters, and no slash. -/
def IsComponent (name : String) : Prop :=
  name ≠ "" ∧ '/' ∉ name.toList

theorem isComponent_of_mem {path name : String} (listed : name ∈ components path) :
    IsComponent name := by
  unfold components at listed
  obtain ⟨part, inside, rfl⟩ := List.mem_map.mp listed
  obtain ⟨piece, some_part⟩ := List.mem_filter.mp inside
  refine ⟨fun none => ?_, ?_⟩
  · rw [String.ofList_eq_empty_iff] at none
    simp [none] at some_part
  · rw [String.toList_ofList]
    exact Text.not_mem_of_mem_split piece

theorem components_of_isComponent {name : String} (good : IsComponent name) :
    components name = [name] := by
  have bare := components_append "" good.1 good.2
  rwa [String.empty_append, folder_of_not_mem (by simp), leaf_of_not_mem (by simp),
    String.empty_append, List.nil_append] at bare

/-- The path of components, from the root or from the current directory. -/
def ofComponents (absolute : Bool) (names : List String) : String :=
  (if absolute then "/" else "") ++ String.intercalate "/" names

theorem components_intercalate {names : List String} (good : ∀ name ∈ names, IsComponent name) :
    components (String.intercalate "/" names) = names := by
  induction names with
  | nil => rfl
  | cons name names ih =>
      rw [List.forall_mem_cons] at good
      cases names with
      | nil => rw [String.intercalate_singleton, components_of_isComponent good.1]
      | cons next names =>
          rw [String.intercalate_cons_cons, components_append_slash,
            components_of_isComponent good.1, ih good.2]
          rfl

theorem components_ofComponents (absolute : Bool) {names : List String}
    (good : ∀ name ∈ names, IsComponent name) :
    components (ofComponents absolute names) = names := by
  unfold ofComponents
  cases absolute with
  | false =>
      rw [if_neg Bool.false_ne_true, String.empty_append]
      exact components_intercalate good
  | true =>
      have slash := components_append_slash "" (String.intercalate "/" names)
      rw [String.empty_append] at slash
      rw [if_pos rfl, slash, components_intercalate good]
      rfl

theorem isAbsolute_ofComponents (absolute : Bool) {names : List String} (some_name : names ≠ [])
    (good : ∀ name ∈ names, IsComponent name) :
    isAbsolute (ofComponents absolute names) = absolute := by
  unfold ofComponents
  cases absolute with
  | true => exact isAbsolute_append (by simp) _
  | false =>
      rw [if_neg Bool.false_ne_true, String.empty_append]
      cases names with
      | nil => exact absurd rfl some_name
      | cons name names =>
          obtain ⟨letters, free⟩ := good name List.mem_cons_self
          rw [Text.intercalate_cons]
          exact (isAbsolute_append letters _).trans (isAbsolute_of_not_mem free)

/-- The directories that a path stands in have initial components of it. -/
theorem exists_of_mem_chain {start path : String} {names : List String}
    (listed : path ∈ chain start names) :
    ∃ front, front ≠ [] ∧ front <+: names.reverse ∧
      path = start ++ String.intercalate "/" front := by
  induction names with
  | nil => exact absurd listed List.not_mem_nil
  | cons last before ih =>
      rw [List.reverse_cons]
      rcases List.mem_cons.mp listed with rfl | above
      · exact ⟨before.reverse ++ [last], by simp, List.prefix_rfl, rfl⟩
      · obtain ⟨front, some_name, shorter, same⟩ := ih above
        exact ⟨front, some_name, shorter.trans (List.prefix_append _ _), same⟩

theorem cons_eq_flatMap_split (mark : Char) (cs : List Char) :
    mark :: cs = (Text.split mark cs).flatMap (mark :: ·) := by
  cases parts : Text.split mark cs with
  | nil => exact absurd parts (Text.split_ne_nil mark cs)
  | cons first rest =>
      rw [List.flatMap_cons, List.cons_append]
      exact congrArg _ (Text.eq_append_of_split parts)

theorem cons_toList_intercalate {names : List String} (some_name : names ≠ []) :
    '/' :: (String.intercalate "/" names).toList =
      (names.map String.toList).flatMap ('/' :: ·) := by
  induction names with
  | nil => exact absurd rfl some_name
  | cons name names ih =>
      cases names with
      | nil => simp
      | cons next names =>
          have rest := ih (List.cons_ne_nil next names)
          rw [String.intercalate_cons_cons, List.map_cons, List.flatMap_cons, ← rest]
          simp

/-- A path of some components of a path is shorter, with no other characters. -/
theorem toList_ofComponents_sublist {path : String} {names : List String} (some_name : names ≠ [])
    (listed : names.Sublist (components path)) :
    (ofComponents (isAbsolute path) names).toList.Sublist path.toList := by
  have pieces : (names.map String.toList).Sublist
      ((Text.split '/' path.toList).filter fun part => !part.isEmpty) := by
    have mapped := listed.map String.toList
    unfold components at mapped
    rw [List.map_map] at mapped
    simpa [Function.comp_def] using mapped
  unfold ofComponents
  cases absolute : isAbsolute path with
  | false =>
      rw [if_neg Bool.false_ne_true, String.empty_append, ← List.cons_sublist_cons (a := '/'),
        cons_toList_intercalate some_name, cons_eq_flatMap_split]
      exact (pieces.trans List.filter_sublist).flatMap _
  | true =>
      obtain ⟨rest, whole⟩ : ∃ rest, path.toList = '/' :: rest := by
        unfold isAbsolute at absolute
        exact List.head?_eq_some_iff.mp (of_decide_eq_true absolute)
      have slash : Text.split '/' path.toList = [] :: Text.split '/' rest := by
        rw [whole, Text.split, if_pos rfl]
      rw [slash, List.filter_cons_of_neg (by simp)] at pieces
      have text : ("/" ++ String.intercalate "/" names).toList =
          '/' :: (String.intercalate "/" names).toList := by
        simp
      rw [if_pos rfl, text, cons_toList_intercalate some_name, whole, cons_eq_flatMap_split]
      exact (pieces.trans List.filter_sublist).flatMap _

theorem plainComponents_sublist (path : String) :
    (plainComponents path).Sublist (components path) := by
  unfold plainComponents
  cases components path with
  | nil => exact .slnil
  | cons first rest =>
      dsimp only
      split
      · exact List.filter_sublist.trans (List.sublist_cons_self first rest)
      · exact List.filter_sublist.cons_cons first

theorem isComponent_of_mem_dropLast {path name : String}
    (listed : name ∈ (plainComponents path).dropLast) : IsComponent name :=
  isComponent_of_mem ((plainComponents_sublist path).subset (List.mem_of_mem_dropLast listed))

theorem exists_of_mem_ancestors {path above : String} (listed : above ∈ ancestors path) :
    ∃ front, front ≠ [] ∧ (∀ name ∈ front, IsComponent name) ∧
      front <+: (plainComponents path).dropLast ∧
      above = ofComponents (isAbsolute path) front := by
  obtain ⟨front, some_name, shorter, same⟩ := exists_of_mem_chain listed
  rw [List.reverse_reverse] at shorter
  have good : ∀ name ∈ front, IsComponent name := fun name member =>
    isComponent_of_mem_dropLast (shorter.subset member)
  exact ⟨front, some_name, good, shorter, same⟩

/-! ## Paths that lead into a directory -/

/-- A path leads to a name in a directory itself: it has the components of the directory and one
more, which is a name. -/
structure IsIn (dir path name : String) : Prop where
  start : isAbsolute path = isAbsolute dir
  steps : plainComponents path = plainComponents dir ++ [name]
  proper : name ≠ "." ∧ name ≠ ".."

/-- A name leads to no other directory than the one where it is put. In front of its last slash
stand only single dots or, if it leads from the root, the components of that directory. -/
def StaysIn (dir name : String) : Prop :=
  if isAbsolute name then
    isAbsolute dir = true ∧ (folder name).filter (· ≠ ".") = plainComponents dir
  else ∀ part ∈ folder name, part = "."

instance (dir name : String) : Decidable (StaysIn dir name) :=
  inferInstanceAs (Decidable (if isAbsolute name then _ else _))

/-- A name without a slash stays in every directory. -/
theorem staysIn_of_not_mem (dir : String) {name : String} (free : '/' ∉ name.toList) :
    StaysIn dir name := by
  unfold StaysIn
  rw [isAbsolute_of_not_mem free, folder_of_not_mem free]
  exact fun part member => absurd member List.not_mem_nil

/-- **A name with an ending leads into the directory itself exactly if it stays there**, and then to
what follows its last slash. -/
theorem isIn_join_iff {dir name tail file : String} (some_dir : dir ≠ "") (some_tail : tail ≠ "")
    (free : '/' ∉ tail.toList) (undotted : tail.toList.getLast? ≠ some '.') :
    IsIn dir (join dir (name ++ tail)) file ↔ StaysIn dir name ∧ file = leaf name ++ tail := by
  have proper := leaf_append_ne name some_tail undotted
  have start : isAbsolute (name ++ tail) = isAbsolute name := by
    by_cases none : name = ""
    · rw [none, String.empty_append]
      exact isAbsolute_of_not_mem free
    · exact isAbsolute_append none tail
  have plain : (components (name ++ tail)).filter (· ≠ ".") =
      (folder name).filter (· ≠ ".") ++ [leaf name ++ tail] := by
    rw [components_append name some_tail free, List.filter_append]
    simp [proper.1]
  unfold StaysIn
  cases absolute : isAbsolute name with
  | true =>
      rw [absolute] at start
      have alone : join dir (name ++ tail) = name ++ tail := by
        unfold join
        rw [start]
        rfl
      have steps : plainComponents (name ++ tail) =
          (folder name).filter (· ≠ ".") ++ [leaf name ++ tail] :=
        (plainComponents_of_isAbsolute start).trans plain
      rw [alone]
      constructor
      · rintro ⟨same, listed, -⟩
        rw [steps] at listed
        have ends := List.append_inj_right' listed rfl
        exact ⟨⟨same ▸ start, List.append_inj_left' listed rfl⟩, (List.cons.inj ends).1.symm⟩
      · rintro ⟨⟨rooted, same⟩, rfl⟩
        exact ⟨start.trans rooted.symm, by rw [steps, same], proper⟩
  | false =>
      rw [absolute] at start
      have steps : plainComponents (join dir (name ++ tail)) =
          plainComponents dir ++ ((folder name).filter (· ≠ ".") ++ [leaf name ++ tail]) := by
        rw [← plain]
        exact plainComponents_append some_dir (isAbsolute_join some_dir start)
          (components_join some_dir start)
      have dots : (folder name).filter (· ≠ ".") = [] ↔ ∀ part ∈ folder name, part = "." := by
        simp [List.filter_eq_nil_iff]
      simp only [Bool.false_eq_true, ↓reduceIte]
      rw [← dots]
      constructor
      · rintro ⟨-, listed, -⟩
        rw [steps, List.append_cancel_left_eq] at listed
        obtain ⟨none, ends⟩ := List.append_inj' (listed.trans (List.nil_append [file]).symm) rfl
        exact ⟨none, (List.cons.inj ends).1.symm⟩
      · rintro ⟨none, rfl⟩
        exact ⟨isAbsolute_join some_dir start, by rw [steps, none, List.nil_append], proper⟩

end Path

end SchemaPress
