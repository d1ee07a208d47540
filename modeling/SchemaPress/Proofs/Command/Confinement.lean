import SchemaPress.Proofs.Command.AllOrNothing
import SchemaPress.Proofs.Command.Arguments

/-!
# Files in the directory of a run

A run that is given a directory writes its files there, under the name of the schema. This name is
not checked, so that it may lead out of the directory: the paths of the files lead into the
directory itself exactly if the name stays in it, as every name without a slash does.

If it does, then whatever becomes of the run, all that it changes are files in the directory, the
directory, and those that it stands in (`Command.run_confined`). The name `../x` does not stay, and
its files are next to the directory (`Command.run_escapes`).
-/

set_option autoImplicit false

namespace SchemaPress

/-! ## Places below a directory -/

namespace FileTree

/-- Single dots change nothing on a way. -/
theorem walk_filter {t : FileTree} : ∀ {path here place : List String},
    t.walk here path = .ok place → t.walk here (path.filter (· ≠ ".")) = .ok place := by
  intro path
  induction path with
  | nil => exact fun found => found
  | cons name rest ih =>
      intro here place found
      rcases walk_cons_eq_ok_iff.mp found with
        ⟨rfl, onward⟩ | ⟨rfl, onward⟩ | ⟨fits, ⟨rfl, rfl⟩ | ⟨-, into, onward⟩⟩
      · exact ih onward
      · exact walk_cons_eq_ok_iff.mpr (.inr (.inl ⟨rfl, ih onward⟩))
      · rwa [List.filter_cons_of_pos (by simpa using fits.1)]
      · rw [List.filter_cons_of_pos (by simpa using fits.1)]
        refine walk_cons_eq_ok_iff.mpr (.inr (.inr ⟨fits, ?_⟩))
        have plain := ih onward
        -- What is left may be nothing but single dots.
        by_cases none : rest.filter (· ≠ ".") = []
        · rw [none] at plain
          exact .inl ⟨none, (Except.ok.inj plain).symm⟩
        · exact .inr ⟨none, into, plain⟩

/-- **A path into a directory leads right below the place of the directory.** -/
theorem eq_concat_of_isIn {t : FileTree} {dir path name : String} {place names : List String}
    (inside : Path.IsIn dir path name) (found : t.locate dir = .ok place)
    (leads : t.locate path = .ok names) : names = place ++ [name] := by
  obtain ⟨start, steps, proper, below⟩ := inside
  have way := walk_filter (walk_of_locate found)
  have onward := walk_filter (walk_of_locate leads)
  rw [← Path.filter_plainComponents] at way onward
  rw [start, steps, List.filter_append,
    List.filter_cons_of_pos (by simpa using proper), List.filter_nil] at onward
  obtain ⟨above, before, last⟩ := exists_walk_of_walk_concat proper below onward
  rw [way] at before
  cases before
  exact last

/-- Nothing has changed but that directories stand where nothing stood, at the place of a directory
or on the way there, and that files with certain names stand in it. -/
def Confined (t after : FileTree) (dir : String) (files : List String) : Prop :=
  ∀ names, after.look names = t.look names ∨
    (t.look names = none ∧ after.look names = some .directory ∧
      ∃ path ∈ dir :: Path.ancestors dir, after.locate path = .ok names) ∨
    ∃ place, ∃ file ∈ files, after.locate dir = .ok place ∧ names = place ++ [file] ∧
      ∃ content, after.look names = some (.file content)

end FileTree

namespace Command

/-- The names of the files of a schema in a directory where its name stays. -/
def fileNames (s : Schema) : List String :=
  Target.all.map fun target => Path.leaf s.name ++ "." ++ target.extension

/-- **The path of a rendering leads into the directory itself exactly if the name of the schema
stays there**, and then to what follows its last slash, with the ending of the target. -/
theorem isIn_fileName_iff {dir : String} (some_dir : dir ≠ "") (s : Schema) (r : Rendering)
    (file : String) :
    Path.IsIn dir (Path.join dir (r.fileName s)) file ↔
      Path.StaysIn dir s.name ∧ file = Path.leaf s.name ++ "." ++ r.target.extension := by
  obtain ⟨some_ending, free, undotted⟩ := r.target.extension_solid
  have letters : r.target.extension.toList ≠ [] :=
    fun none => some_ending (String.toList_eq_nil_iff.mp none)
  have dotted : ("." ++ r.target.extension).toList = '.' :: r.target.extension.toList := by simp
  unfold Rendering.fileName
  rw [String.append_assoc, String.append_assoc]
  refine Path.isIn_join_iff some_dir ?_ ?_ ?_
  · intro none
    rw [none] at dotted
    cases dotted
  · rw [dotted, List.mem_cons, not_or]
    exact ⟨by decide, free⟩
  · rwa [dotted, List.getLast?_cons_of_ne_nil letters]

/-- Whatever becomes of writing renderings, all changes are in the directory, if the name of the
schema stays there. -/
theorem writeRenderings_confined {t after : FileTree} (home : t.AtHome) {dir : String}
    (some_dir : dir ≠ "") {s : Schema} (stays : Path.StaysIn dir s.name) {rs : List Rendering}
    {result : Except Failure Unit}
    (written : (writeRenderings dir s rs : StateM FileTree _) t = (result, after)) :
    t.Confined after dir (fileNames s) := by
  intro names
  rcases writeRenderings_places home written names with same | made | ⟨there, r, -, leads, held⟩
  · exact .inl same
  · exact .inr (.inl made)
  · obtain ⟨place, found, -⟩ := there
    have inside := (isIn_fileName_iff some_dir s r _).mpr ⟨stays, rfl⟩
    refine .inr (.inr ⟨place, _, List.mem_map_of_mem ?_, found,
      FileTree.eq_concat_of_isIn inside found leads, _, held⟩)
    cases r.target <;> decide

/-! ## Runs -/

section Run

variable {o : Options} {t after : FileTree}

/-- Delivering renderings to a directory leaves the tree as writing them does. -/
theorem state_deliver {dir : String} (placed : o.outDir = some dir) (s : Schema)
    (rs : List Rendering) :
    ((deliver o s rs : StateM FileTree _) t).2 =
      ((writeRenderings dir s rs : StateM FileTree _) t).2 := by
  unfold deliver
  rw [placed]
  change (((writeRenderings dir s rs : StateM FileTree _) >>= _) t).2 = _
  rw [run_bind]
  cases ((writeRenderings dir s rs : StateM FileTree _) t).1 with
  | error f => rfl
  | ok _ => rfl

end Run

/-- **A run changes only what is in its directory, if the name of the schema stays there.** The
paths of its files lead into the directory itself exactly if the name of the schema stays there, as
every name without a slash does. Whatever becomes of the run, the tree is as before if no schema can
be read, and if its name stays in the directory, then all changes are there. -/
theorem run_confined {arguments : List String} {o : Options} {dir : String}
    (asked : Request.ofArguments arguments = .run o) (placed : o.outDir = some dir) :
    (∀ (s : Schema) (r : Rendering) (file : String),
      Path.IsIn dir (Path.join dir (r.fileName s)) file ↔
        Path.StaysIn dir s.name ∧ file = Path.leaf s.name ++ "." ++ r.target.extension) ∧
    (∀ name : String, '/' ∉ name.toList → Path.StaysIn dir name ∧ Path.leaf name = name) ∧
    ∀ {t after : FileTree} {outcome : Outcome}, t.AtHome →
      (run arguments : StateM FileTree Outcome) t = (outcome, after) →
        ((¬ ∃ s, o.Parses t s) → after = t) ∧
        ∀ s, o.Parses t s → Path.StaysIn dir s.name → t.Confined after dir (fileNames s) := by
  have some_dir := outDir_ne_empty asked placed
  refine ⟨isIn_fileName_iff some_dir, fun name free => ?_, fun {t after outcome} home ran => ?_⟩
  · exact ⟨Path.staysIn_of_not_mem dir free, Path.leaf_of_not_mem free⟩
  · unfold run at ran
    rw [asked] at ran
    change (generate o : StateM FileTree Outcome) t = _ at ran
    rcases generate_cases o t with ⟨-, f, fails⟩ | ⟨merged, s, rs, admits, -, delivers⟩
    · rw [fails] at ran
      cases ran
      exact ⟨fun _ => rfl, fun s _ _ names => .inl rfl⟩
    · refine ⟨fun unread => absurd ⟨s, admits.parses⟩ unread, fun other parses stays => ?_⟩
      obtain rfl := admits.parses.unique parses
      have left : ((writeRenderings dir s rs : StateM FileTree _) t).2 = after := by
        rw [← state_deliver placed s rs, ← delivers, ran]
      exact writeRenderings_confined home some_dir stays (Prod.ext rfl left)

/-- A schema with a given name and one declaration, as a text. -/
def namedText (name : String) : String :=
  "\x7b\"name\":\"" ++ name ++ "\",\"declarations\":["
    ++ "\x7b\"kind\":\"alias\",\"name\":\"A\",\"target\":\x7b\"primitive\":\"x\"\x7d\x7d]\x7d"

/-- This text as the only file. -/
def namedTree (name : String) : FileTree where
  root := .directory [("m.json", .file (namedText name).toUTF8)]

/-- A name may have a slash and stay all the same. -/
theorem run_confined_dotted :
    let arguments := ["m.json", "-o", "out", "-b", "ts"]
    ∃ outcome after,
      (run arguments : StateM FileTree Outcome) (namedTree "./m") = (outcome, after) ∧
      (namedTree "./m").Confined after "out" ["m.swift", "m.ts", "m.rs", "m.yaml"] ∧
      after.readText "out/m.ts" = .ok "type A = x\n" := by
  intro arguments
  let o : Options := { input := "m.json", backends := ["ts"], outDir := some "out" }
  let s : Schema := ⟨"./m", {}, [Declaration.alias ⟨"A", .primitive "x", {}⟩]⟩
  have asked : Request.ofArguments arguments = .run o := by decide +kernel
  have home : (namedTree "./m").AtHome := rfl
  have parses : o.Parses (namedTree "./m") s :=
    ⟨namedText "./m", by decide +kernel, Json.eq_ok_of_toOption (by decide +kernel)⟩
  have stays : Path.StaysIn "out" s.name := by decide +kernel
  have names : fileNames s = ["m.swift", "m.ts", "m.rs", "m.yaml"] := by decide +kernel
  have held : ((run arguments : StateM FileTree Outcome) (namedTree "./m")).2.readText "out/m.ts" =
      .ok "type A = x\n" := by decide +kernel
  rcases ran : (run arguments : StateM FileTree Outcome) (namedTree "./m") with ⟨outcome, after⟩
  rw [ran] at held
  have kept := ((run_confined asked rfl).2.2 home ran).2 s parses stays
  rw [names] at kept
  exact ⟨outcome, after, rfl, kept, held⟩

/-- **A name that does not stay leads out of the directory.** The run succeeds, the directory is
empty, and the file is next to it. -/
theorem run_escapes :
    let arguments := ["m.json", "-o", "out", "-b", "ts"]
    let ended := (run arguments : StateM FileTree Outcome) (namedTree "../x")
    ended.1 = ⟨0, "", ""⟩ ∧ (∀ file, ¬ Path.IsIn "out" (Path.join "out" "../x.ts") file) ∧
      (namedTree "../x").readText "x.ts" = .error .notFound ∧
      ended.2.readText "x.ts" = .ok "type A = x\n" ∧
      ended.2.readText "out/x.ts" = .error .notFound := by
  refine ⟨by decide +kernel, ?_, by decide +kernel, by decide +kernel, by decide +kernel⟩
  rintro file ⟨-, steps, -⟩
  have lengths := congrArg List.length steps
  rw [List.length_append, List.length_singleton] at lengths
  revert lengths
  decide +kernel

end Command

end SchemaPress
