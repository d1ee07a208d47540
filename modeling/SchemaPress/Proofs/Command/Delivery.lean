import SchemaPress.Command.Run
import SchemaPress.Proofs.Command.FileTree
import SchemaPress.Proofs.Command.Path

/-!
# What is left of renderings in a file tree

Renderings are written to a directory, which is made before together with those that it stands in.
Making directories changes only places where nothing stood (`makeChain_addsDirectories`), and one
that could be made is there (`makeChain_present`). Writing files one after the other, up to the
first that cannot be written, changes only the places of their paths, and each of these holds the
text of a file that leads there (`writeFiles_fills`).

The files of renderings differ in the ending of their names, which stays the ending of their places.
So renderings for different targets never meet, and every rendering can be read back from its file
(`writeRenderings_delivers`).
-/

set_option autoImplicit false

namespace SchemaPress

open FileStore

/-! ## Directories -/

theorem run_bind {α β : Type} (x : StateM FileTree α) (f : α → StateM FileTree β) (t : FileTree) :
    (x >>= f) t = f (x t).1 (x t).2 := rfl

namespace FileTree

/-- Nothing has changed but that directories stand at the places of some paths, where nothing
stood. -/
structure AddsDirectories (t after : FileTree) (paths : List String) : Prop where
  grown : t.Extends after
  places : ∀ names, after.look names = t.look names ∨
    t.look names = none ∧ after.look names = some .directory ∧
      ∃ path ∈ paths, after.locate path = .ok names

namespace AddsDirectories

variable {t middle after : FileTree} {paths others : List String}

theorem refl (t : FileTree) (paths : List String) : t.AddsDirectories t paths :=
  ⟨Extends.refl t, fun _ => .inl rfl⟩

theorem mono (adds : t.AddsDirectories after paths) (listed : paths ⊆ others) :
    t.AddsDirectories after others := by
  refine ⟨adds.grown, fun names => ?_⟩
  rcases adds.places names with same | ⟨vacant, made, path, member, leads⟩
  · exact .inl same
  · exact .inr ⟨vacant, made, path, listed member, leads⟩

theorem trans (first : t.AddsDirectories middle paths)
    (second : middle.AddsDirectories after paths) : t.AddsDirectories after paths := by
  refine ⟨first.grown.trans second.grown, fun names => ?_⟩
  rcases second.places names with same | ⟨vacant, made, path, member, leads⟩
  · rw [same]
    rcases first.places names with earlier | ⟨vacant, made, path, member, leads⟩
    · exact .inl earlier
    · exact .inr ⟨vacant, made, path, member, second.grown.locate leads⟩
  · rcases first.places names with earlier | ⟨-, before, -⟩
    · exact .inr ⟨earlier ▸ vacant, made, path, member, leads⟩
    · rw [vacant] at before
      cases before

theorem of_makeDirectory (home : t.AtHome) {path : String}
    (made : t.makeDirectory path = .ok after) : t.AddsDirectories after [path] := by
  obtain ⟨place, found, vacant, current, changed⟩ := look_makeDirectory home made
  have grown : t.Extends after :=
    Extends.of_update current (by rw [vacant]; exact (Option.some_ne_none _).symm) changed
  refine ⟨grown, fun names => ?_⟩
  by_cases here : names = place
  · subst here
    refine .inr ⟨vacant, ?_, path, List.mem_singleton_self path, grown.locate found⟩
    rw [changed, Function.update_self]
  · rw [changed, Function.update_of_ne here]
    exact .inl rfl

end AddsDirectories

theorem run_makeDirectory (path : String) (t : FileTree) :
    (FileStore.makeDirectory path : StateM FileTree _) t = t.attempt (t.makeDirectory path) := rfl

theorem state_orPresent (path : String) (result : Except FileError Unit) (t : FileTree) :
    ((orPresent path result : StateM FileTree _) t).2 = t := by
  cases result with
  | ok _ => rfl
  | error e => rfl

/-- An attempt to make a directory adds it or leaves the tree as it is. -/
theorem addsDirectories_attempt {t : FileTree} (home : t.AtHome) (path : String) :
    t.AddsDirectories (t.attempt (t.makeDirectory path)).2 [path] := by
  cases made : t.makeDirectory path with
  | ok after => exact AddsDirectories.of_makeDirectory home made
  | error e => exact AddsDirectories.refl t [path]

/-- **Making a directory and those that it stands in adds directories only**, whether it succeeds or
not. -/
theorem makeChain_addsDirectories (paths : List String) : ∀ {t : FileTree}, t.AtHome →
    t.AddsDirectories ((makeChain paths : StateM FileTree _) t).2 paths := by
  induction paths with
  | nil => exact fun _ => AddsDirectories.refl _ []
  | cons path above ih =>
      intro t home
      have here : [path] ⊆ path :: above := by simp
      have first := (addsDirectories_attempt home path).mono here
      rw [makeChain, run_bind, run_makeDirectory]
      generalize t.attempt (t.makeDirectory path) = attempted at first ⊢
      obtain ⟨result, t₁⟩ := attempted
      cases result with
      | ok _ => exact first
      | error e =>
          cases e with
          | notFound =>
              -- Only now the directories above are made, and then this one.
              have second := (ih (first.grown.atHome home)).mono (List.subset_cons_self path above)
              have both := first.trans second
              change t.AddsDirectories ((makeChain above >>= _ : StateM FileTree _) t₁).2 _
              rw [run_bind]
              generalize (makeChain above : StateM FileTree _) t₁ = chained at both ⊢
              obtain ⟨outcome, t₂⟩ := chained
              cases outcome with
              | error e => exact both
              | ok _ =>
                  change t.AddsDirectories ((FileStore.makeDirectory path >>= orPresent path :
                    StateM FileTree _) t₂).2 _
                  rw [run_bind, run_makeDirectory, state_orPresent]
                  exact both.trans
                    ((addsDirectories_attempt (both.grown.atHome home) path).mono here)
          | _ => exact first

/-- A path leads to a directory. -/
def Present (t : FileTree) (path : String) : Prop :=
  ∃ place, t.locate path = .ok place ∧ t.look place = some .directory

theorem Extends.present {t after : FileTree} (grown : t.Extends after) {path : String}
    (there : t.Present path) : after.Present path := by
  obtain ⟨place, found, stands⟩ := there
  exact ⟨place, grown.locate found, grown.directory place stands⟩

theorem present_of_isDirectory {t : FileTree} {path : String} (there : t.isDirectory path = true) :
    t.Present path := by
  unfold isDirectory at there
  cases found : t.locate path with
  | error e =>
      rw [found] at there
      cases there
  | ok place =>
      rw [found] at there
      refine ⟨place, found, look_eq_directory_iff.mpr ?_⟩
      cases held : t.root.find? place with
      | none =>
          simp only [held] at there
          cases there
      | some n =>
          simp only [held] at there
          cases n with
          | file content => cases there
          | directory entries => exact ⟨entries, rfl⟩

/-- A directory that could be made, or was there already, is there. -/
theorem present_of_orPresent {t after : FileTree} (home : t.AtHome) {path : String}
    (made : (orPresent path (t.attempt (t.makeDirectory path)).1 : StateM FileTree _)
      (t.attempt (t.makeDirectory path)).2 = (.ok (), after)) : after.Present path := by
  cases attempted : t.makeDirectory path with
  | ok later =>
      rw [attempted] at made
      cases made
      obtain ⟨place, found, vacant, current, changed⟩ := look_makeDirectory home attempted
      have grown := (AddsDirectories.of_makeDirectory home attempted).grown
      refine ⟨place, grown.locate found, ?_⟩
      change later.look place = _
      rw [changed, Function.update_self]
  | error e =>
      rw [attempted] at made
      change ((if t.isDirectory path then .ok () else .error e : Except FileError Unit), t) = _
        at made
      split at made
      · rename_i there
        cases made
        exact present_of_isDirectory there
      · cases made

/-- **A directory that is made with those that it stands in is there.** -/
theorem makeChain_present (path : String) (above : List String) {t after : FileTree}
    (home : t.AtHome)
    (made : (makeChain (path :: above) : StateM FileTree _) t = (.ok (), after)) :
    after.Present path := by
  rw [makeChain, run_bind, run_makeDirectory] at made
  cases attempted : t.makeDirectory path with
  | ok later =>
      rw [attempted] at made
      exact present_of_orPresent home (by rw [attempted]; exact made)
  | error e =>
      rw [attempted] at made
      cases e with
      | notFound =>
          have adds := makeChain_addsDirectories above home
          change ((makeChain above >>= _ : StateM FileTree _) t) = _ at made
          rw [run_bind] at made
          generalize (makeChain above : StateM FileTree _) t = chained at made adds
          obtain ⟨result, middle⟩ := chained
          cases result with
          | error e => cases made
          | ok _ => exact present_of_orPresent (adds.grown.atHome home) made
      | _ => exact present_of_orPresent home (by rw [attempted]; exact made)

/-! ## Files -/

/-- Files have been written: only the places of their paths have changed, and each of them holds the
text of a file that leads there. -/
structure Fills (t after : FileTree) (files : List (String × String)) : Prop where
  grown : t.Extends after
  places : ∀ names, after.look names = t.look names ∨
    ∃ file ∈ files, after.locate file.1 = .ok names ∧
      after.look names = some (.file file.2.toUTF8)
  holds : ∀ file ∈ files, Path.endsWithSlash file.1 = false ∧
    ∃ names, after.locate file.1 = .ok names ∧
      ∃ other ∈ files, after.locate other.1 = .ok names ∧
        after.look names = some (.file other.2.toUTF8)

theorem Fills.nil (t : FileTree) : t.Fills t [] :=
  ⟨Extends.refl t, fun _ => .inl rfl, fun _ member => absurd member List.not_mem_nil⟩

/-- One more file in front of those that are written. -/
theorem Fills.cons {t middle after : FileTree} (home : t.AtHome) {path text : String}
    {files : List (String × String)} (written : t.writeText path text = .ok middle)
    (rest : middle.Fills after files) : t.Fills after ((path, text) :: files) := by
  obtain ⟨place, found, open_, vacant, current, changed⟩ := look_writeText home written
  have first : t.Extends middle := Extends.of_update current vacant changed
  have grown := first.trans rest.grown
  have leads : after.locate path = .ok place := grown.locate found
  have later : ∀ file ∈ files, file ∈ (path, text) :: files := fun file =>
    List.mem_cons_of_mem (path, text)
  -- The place of the first file holds its text, or that of a later file that leads there.
  have mine : ∃ other ∈ (path, text) :: files, after.locate other.1 = .ok place ∧
      after.look place = some (.file other.2.toUTF8) := by
    rcases rest.places place with same | ⟨file, member, file_leads, held⟩
    · refine ⟨(path, text), List.mem_cons_self, leads, ?_⟩
      rw [same, changed, Function.update_self]
    · exact ⟨file, later file member, file_leads, held⟩
  refine ⟨grown, fun names => ?_, fun file member => ?_⟩
  · by_cases here : names = place
    · subst here
      exact .inr mine
    · rcases rest.places names with same | ⟨file, member, file_leads, held⟩
      · rw [same, changed, Function.update_of_ne here]
        exact .inl rfl
      · exact .inr ⟨file, later file member, file_leads, held⟩
  · rcases List.mem_cons.mp member with rfl | member
    · exact ⟨open_, place, leads, mine⟩
    · obtain ⟨slashless, names, file_leads, other, among, other_leads, held⟩ :=
        rest.holds file member
      exact ⟨slashless, names, file_leads, other, later other among, other_leads, held⟩

theorem run_writeText (path text : String) (t : FileTree) :
    (FileStore.writeText path text : StateM FileTree _) t = t.attempt (t.writeText path text) := rfl

/-- **Files are written up to the first one that cannot be**, and those that are fill the places of
their paths. -/
theorem writeFiles_fills (files : List (String × String)) :
    ∀ {t after : FileTree} {result : Except Command.Failure Unit}, t.AtHome →
      (Command.writeFiles files : StateM FileTree _) t = (result, after) →
        ∃ front, front <+: files ∧ t.Fills after front ∧ (result = .ok () → front = files) := by
  induction files with
  | nil =>
      intro t after result home written
      cases written
      exact ⟨[], List.nil_prefix, Fills.nil t, fun _ => rfl⟩
  | cons file files ih =>
      obtain ⟨path, text⟩ := file
      intro t after result home written
      rw [Command.writeFiles, run_bind, run_writeText] at written
      cases first : t.writeText path text with
      | error e =>
          rw [first] at written
          cases written
          exact ⟨[], List.nil_prefix, Fills.nil t, fun done => by cases done⟩
      | ok middle =>
          rw [first] at written
          obtain ⟨place, -, -, vacant, current, changed⟩ := look_writeText home first
          have grown : t.Extends middle := Extends.of_update current vacant changed
          obtain ⟨front, leading, fills, whole⟩ := ih (grown.atHome home) written
          refine ⟨(path, text) :: front, List.cons_prefix_cons.mpr ⟨rfl, leading⟩,
            Fills.cons home first fills, fun done => ?_⟩
          rw [whole done]

/-- What has changed after directories have been made and files have been written. -/
theorem AddsDirectories.places_of_fills {t middle after : FileTree} {paths : List String}
    {files : List (String × String)} (adds : t.AddsDirectories middle paths)
    (fills : middle.Fills after files) (names : List String) :
    after.look names = t.look names ∨
      (t.look names = none ∧ after.look names = some .directory ∧
        ∃ path ∈ paths, after.locate path = .ok names) ∨
      ∃ file ∈ files, after.locate file.1 = .ok names ∧
        after.look names = some (.file file.2.toUTF8) := by
  rcases fills.places names with same | filled
  · rcases adds.places names with earlier | ⟨vacant, made, path, member, leads⟩
    · exact .inl (same.trans earlier)
    · exact .inr (.inl ⟨vacant, same.trans made, path, member, fills.grown.locate leads⟩)
  · exact .inr (.inr filled)

/-- Files are in place: each can be read back from its path, and nothing else has changed but that
the directory is there, with those that it stands in. -/
structure Delivers (t after : FileTree) (dir : String) (files : List (String × String)) : Prop where
  grown : t.Extends after
  readable : ∀ file ∈ files, after.readText file.1 = .ok file.2
  only : ∀ names, after.look names = t.look names ∨
    (∃ file ∈ files, after.locate file.1 = .ok names) ∨
    t.look names = none ∧ after.look names = some .directory ∧
      ∃ path ∈ dir :: Path.ancestors dir, after.locate path = .ok names

/-- Files are in place after the directory has been made and they have been written, if those that
lead to one place have the same text. -/
theorem delivers_of_fills {t middle after : FileTree} {dir : String}
    {files : List (String × String)} (adds : t.AddsDirectories middle (dir :: Path.ancestors dir))
    (fills : middle.Fills after files)
    (agree : ∀ file ∈ files, ∀ other ∈ files, ∀ names, after.locate file.1 = .ok names →
      after.locate other.1 = .ok names → file.2 = other.2) : t.Delivers after dir files := by
  refine ⟨adds.grown.trans fills.grown, fun file member => ?_, fun names => ?_⟩
  · obtain ⟨open_, names, leads, other, among, other_leads, held⟩ := fills.holds file member
    rw [← agree file member other among names leads other_leads] at held
    exact readText_of_look leads open_ held
  · rcases adds.places_of_fills fills names with same | made | ⟨file, member, leads, -⟩
    · exact .inl same
    · exact .inr (.inr made)
    · exact .inr (.inl ⟨file, member, leads⟩)

end FileTree

/-! ## The places of renderings -/

/-- A way that ends with a name ends right below the place where the way before it ends. -/
theorem FileTree.exists_walk_of_walk_concat {t : FileTree} {name : String} (proper : name ≠ ".")
    (below : name ≠ "..") : ∀ {path here place : List String},
      t.walk here (path ++ [name]) = .ok place →
        ∃ above, t.walk here path = .ok above ∧ place = above ++ [name] := by
  intro path
  induction path with
  | nil =>
      intro here place found
      rcases FileTree.walk_cons_eq_ok_iff.mp found with
        ⟨dot, -⟩ | ⟨dots, -⟩ | ⟨-, ⟨-, last⟩ | ⟨more, -⟩⟩
      · exact absurd dot proper
      · exact absurd dots below
      · exact ⟨here, rfl, last⟩
      · exact absurd rfl more
  | cons first path ih =>
      intro here place found
      simp only [FileTree.walk_cons_eq_ok_iff]
      rcases FileTree.walk_cons_eq_ok_iff.mp found with
        ⟨dot, onward⟩ | ⟨dots, onward⟩ | ⟨fits, ⟨none, -⟩ | ⟨-, into, onward⟩⟩
      · obtain ⟨above, before, last⟩ := ih onward
        exact ⟨above, .inl ⟨dot, before⟩, last⟩
      · obtain ⟨above, before, last⟩ := ih onward
        exact ⟨above, .inr (.inl ⟨dots, before⟩), last⟩
      · exact absurd none (by simp)
      · obtain ⟨above, before, last⟩ := ih onward
        refine ⟨above, .inr (.inr ⟨fits, ?_⟩), last⟩
        cases path with
        | nil => exact .inl ⟨rfl, (Except.ok.inj before).symm⟩
        | cons next path => exact .inr ⟨List.cons_ne_nil next path, into, before⟩

theorem FileTree.walk_of_locate {t : FileTree} {path : String} {place : List String}
    (found : t.locate path = .ok place) :
    t.walk (if Path.isAbsolute path then [] else t.current) (Path.components path) = .ok place := by
  unfold FileTree.locate at found
  split_ifs at found ⊢ with null empty long absolute
  · exact found
  · exact found

/-- Two paths that differ in what is appended to them lead to different places, unless they end
with a dot or lead nowhere. -/
theorem FileTree.eq_of_locate_append {t : FileTree} {base tail other : String} {place : List String}
    (solid : ∀ tail' ∈ [tail, other], tail' ≠ "" ∧ '/' ∉ tail'.toList ∧
      tail'.toList.getLast? ≠ some '.')
    (found : t.locate (base ++ tail) = .ok place) (found' : t.locate (base ++ other) = .ok place) :
    tail = other := by
  have ends : ∀ tail' ∈ [tail, other], t.locate (base ++ tail') = .ok place →
      ∃ above, place = above ++ [Path.leaf base ++ tail'] := by
    intro tail' member leads
    obtain ⟨some_tail, free, undotted⟩ := solid tail' member
    have onward := FileTree.walk_of_locate leads
    rw [Path.components_append base some_tail free] at onward
    obtain ⟨proper, below⟩ := Path.leaf_append_ne base some_tail undotted
    obtain ⟨above, -, last⟩ := FileTree.exists_walk_of_walk_concat proper below onward
    exact ⟨above, last⟩
  obtain ⟨above, first⟩ := ends tail (by simp) found
  obtain ⟨above', second⟩ := ends other (by simp) found'
  have names := (List.cons.inj (List.append_inj_right' (first.symm.trans second) rfl)).1
  exact String.append_right_inj _ |>.mp names

theorem Target.extension_solid (target : Target) :
    target.extension ≠ "" ∧ '/' ∉ target.extension.toList ∧
      target.extension.toList.getLast? ≠ some '.' := by
  cases target with
  | swift => decide
  | typeScript => decide
  | rust => decide
  | openApi => decide

theorem Target.extension_injective {target other : Target}
    (same : target.extension = other.extension) : target = other := by
  revert same
  cases target <;> cases other <;> decide

namespace Command

/-- The path of a rendering is that of the schema in the directory with the ending of the target. -/
theorem exists_join_fileName (dir : String) (s : Schema) :
    ∃ base : String,
      ∀ r : Rendering, Path.join dir (r.fileName s) = base ++ r.target.extension := by
  have absolute : ∀ tail : String,
      Path.isAbsolute (s.name ++ "." ++ tail) = Path.isAbsolute (s.name ++ ".") :=
    Path.isAbsolute_append (by simp)
  refine ⟨(if Path.isAbsolute (s.name ++ ".") || dir.isEmpty then ""
    else if Path.endsWithSlash dir then dir else dir ++ "/") ++ s.name ++ ".", fun r => ?_⟩
  unfold Path.join Rendering.fileName
  rw [absolute]
  split
  · simp [String.append_assoc]
  · split
    · simp [String.append_assoc]
    · simp [String.append_assoc]

/-- Renderings whose files meet are for the same target. -/
theorem target_eq_of_locate {t : FileTree} {dir : String} {s : Schema} {r other : Rendering}
    {place : List String} (found : t.locate (Path.join dir (r.fileName s)) = .ok place)
    (found' : t.locate (Path.join dir (other.fileName s)) = .ok place) :
    r.target = other.target := by
  obtain ⟨base, path⟩ := exists_join_fileName dir s
  rw [path] at found found'
  have solid : ∀ tail ∈ [r.target.extension, other.target.extension], tail ≠ "" ∧
      '/' ∉ tail.toList ∧ tail.toList.getLast? ≠ some '.' := by
    intro tail member
    rw [List.mem_cons, List.mem_singleton] at member
    rcases member with rfl | rfl
    · exact r.target.extension_solid
    · exact other.target.extension_solid
  exact Target.extension_injective (FileTree.eq_of_locate_append solid found found')

/-- **What writing renderings can do:** the directory cannot be made, and nothing is written; or it
is there, and the files are written. -/
theorem writeRenderings_cases {t after : FileTree} (home : t.AtHome) {dir : String} {s : Schema}
    {rs : List Rendering} {result : Except Failure Unit}
    (written : (writeRenderings dir s rs : StateM FileTree _) t = (result, after)) :
    t.AddsDirectories after (dir :: Path.ancestors dir) ∧ result ≠ .ok () ∨
      ∃ middle, (makeDirectories dir : StateM FileTree _) t = (.ok (), middle) ∧
        t.AddsDirectories middle (dir :: Path.ancestors dir) ∧ middle.Present dir ∧
        (writeFiles (filesIn dir s rs) : StateM FileTree _) middle = (result, after) := by
  have adds := FileTree.makeChain_addsDirectories (dir :: Path.ancestors dir) home
  change t.AddsDirectories ((makeDirectories dir : StateM FileTree _) t).2 _ at adds
  rw [writeRenderings, run_bind] at written
  rcases chained : (makeDirectories dir : StateM FileTree _) t with ⟨made, middle⟩
  rw [chained] at written adds
  cases made with
  | error e =>
      cases written
      exact .inl ⟨adds, fun done => by cases done⟩
  | ok _ =>
      have there := FileTree.makeChain_present dir (Path.ancestors dir) home chained
      exact .inr ⟨middle, rfl, adds, there, written⟩

/-- **What has changed after renderings have been written, whatever became of it:** directories
stand at the place of the directory and on the way there, and files at the places of renderings. -/
theorem writeRenderings_places {t after : FileTree} (home : t.AtHome) {dir : String} {s : Schema}
    {rs : List Rendering} {result : Except Failure Unit}
    (written : (writeRenderings dir s rs : StateM FileTree _) t = (result, after))
    (names : List String) :
    after.look names = t.look names ∨
      (t.look names = none ∧ after.look names = some .directory ∧
        ∃ path ∈ dir :: Path.ancestors dir, after.locate path = .ok names) ∨
      after.Present dir ∧ ∃ r ∈ rs, after.locate (Path.join dir (r.fileName s)) = .ok names ∧
        after.look names = some (.file r.text.toUTF8) := by
  rcases writeRenderings_cases home written with ⟨adds, -⟩ | ⟨middle, -, adds, there, files⟩
  · rcases adds.places names with same | made
    · exact .inl same
    · exact .inr (.inl made)
  · obtain ⟨front, leading, fills, -⟩ :=
      FileTree.writeFiles_fills (filesIn dir s rs) (adds.grown.atHome home) files
    rcases adds.places_of_fills fills names with same | made | ⟨file, member, leads, held⟩
    · exact .inl same
    · exact .inr (.inl made)
    · obtain ⟨r, inside, rfl⟩ := List.mem_map.mp (leading.subset member)
      exact .inr (.inr ⟨fills.grown.present there, r, inside, leads, held⟩)

/-- **Renderings that are written are in place**, if those for one target have one text. -/
theorem writeRenderings_delivers {t after : FileTree} (home : t.AtHome) {dir : String} {s : Schema}
    {rs : List Rendering}
    (agree : ∀ r ∈ rs, ∀ other ∈ rs, r.target = other.target → r.text = other.text)
    (written : (writeRenderings dir s rs : StateM FileTree _) t = (.ok (), after)) :
    t.Delivers after dir (filesIn dir s rs) := by
  rcases writeRenderings_cases home written with ⟨-, failed⟩ | ⟨middle, -, adds, -, files⟩
  · exact absurd rfl failed
  · obtain ⟨front, -, fills, whole⟩ :=
      FileTree.writeFiles_fills (filesIn dir s rs) (adds.grown.atHome home) files
    rw [whole rfl] at fills
    refine FileTree.delivers_of_fills adds fills ?_
    intro file member other among names leads other_leads
    obtain ⟨r, inside, rfl⟩ := List.mem_map.mp member
    obtain ⟨r', inside', rfl⟩ := List.mem_map.mp among
    exact agree r inside r' inside' (target_eq_of_locate leads other_leads)

end Command

end SchemaPress
