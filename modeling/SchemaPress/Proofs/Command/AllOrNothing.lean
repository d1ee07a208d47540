import SchemaPress.Proofs.Command.Writable
import SchemaPress.Proofs.Generator.RawValues
import SchemaPress.Proofs.Json.Reader

/-!
# All or nothing

A run of the command reads its configuration and its schema, and asks that the configuration can be
loaded, that the schema can be parsed, that all its targets are known, that no mention is unresolved
if this is asked for, and that the prepared schema is sound. It makes no change before all of this
has been found to hold.

So there are two ways for a run to end, unless the file system refuses to take what is written:
everything was in order, and then exactly the renderings of the generator are printed or written; or
something was not, and then nothing is printed and the file tree is as before
(`Command.run_all_or_nothing`). Whether the file system takes what is written is a condition on the
places that the paths pass (`Command.Options.Undisturbed`).
-/

set_option autoImplicit false

namespace SchemaPress

/-! ## Backends -/

namespace Backend

theorem ofName_of_known {c : Config} {name : String} {target : Target}
    (known : Target.ofName? name = some target) : ofName c name = .ok (ofTarget c target) := by
  unfold ofName
  rw [known]

/-- Names give backends exactly if all are known; then these are the backends of their targets. -/
theorem mapM_ofName_eq_ok_iff {c : Config} {names : List String} : ∀ {bs : List Backend},
    names.mapM (ofName c) = .ok bs ↔
      ∃ targets : List Target, names.map Target.ofName? = targets.map some ∧
        bs = targets.map (ofTarget c) := by
  induction names with
  | nil =>
      intro bs
      rw [List.mapM_nil]
      constructor
      · intro made
        exact ⟨[], rfl, (Except.ok.inj made).symm⟩
      · rintro ⟨targets, listed, rfl⟩
        rw [List.map_eq_nil_iff.mp listed.symm]
        rfl
  | cons name names ih =>
      intro bs
      rw [List.mapM_cons]
      cases known : Target.ofName? name with
      | none =>
          have unknown : ofName c name = .error ⟨name⟩ := by
            unfold ofName
            rw [known]
          rw [unknown]
          constructor
          · intro made
            cases made
          · rintro ⟨targets, listed, -⟩
            cases targets with
            | nil => cases listed
            | cons target targets =>
                rw [List.map_cons, known] at listed
                cases (List.cons.inj listed).1
      | some target =>
          rw [ofName_of_known known]
          constructor
          · intro made
            cases others : names.mapM (ofName c) with
            | error unknown =>
                rw [others] at made
                cases made
            | ok rest =>
                rw [others] at made
                cases made
                obtain ⟨targets, listed, rfl⟩ := ih.mp others
                refine ⟨target :: targets, ?_, rfl⟩
                rw [List.map_cons, List.map_cons, known, listed]
          · rintro ⟨targets, listed, rfl⟩
            cases targets with
            | nil => cases listed
            | cons first targets =>
                rw [List.map_cons, List.map_cons, known] at listed
                obtain ⟨same, others⟩ := List.cons.inj listed
                cases same
                rw [ih.mpr ⟨targets, others, rfl⟩]
                rfl

theorem exists_targets_of_known {names : List String}
    (known : ∀ name ∈ names, ∃ target, Target.ofName? name = some target) :
    ∃ targets : List Target, names.map Target.ofName? = targets.map some := by
  induction names with
  | nil => exact ⟨[], rfl⟩
  | cons name names ih =>
      obtain ⟨target, first⟩ := known name List.mem_cons_self
      obtain ⟨targets, others⟩ := ih fun other member => known other (List.mem_cons_of_mem _ member)
      exact ⟨target :: targets, by rw [List.map_cons, List.map_cons, first, others]⟩

/-- **A configuration has backends exactly if it names known targets only.** -/
theorem exists_ofConfig_iff (c : Config) :
    (∃ bs, ofConfig c = .ok bs) ↔
      ∀ name ∈ c.backends, ∃ target, Target.ofName? name = some target := by
  unfold ofConfig
  split
  · rename_i none
    rw [List.isEmpty_iff.mp none]
    exact ⟨fun _ name member => absurd member List.not_mem_nil, fun _ => ⟨_, rfl⟩⟩
  · constructor
    · rintro ⟨bs, made⟩ name member
      obtain ⟨targets, listed, -⟩ := mapM_ofName_eq_ok_iff.mp made
      have inside : Target.ofName? name ∈ targets.map some := listed ▸ List.mem_map_of_mem member
      obtain ⟨target, -, found⟩ := List.mem_map.mp inside
      exact ⟨target, found.symm⟩
    · intro known
      obtain ⟨targets, listed⟩ := exists_targets_of_known known
      exact ⟨_, mapM_ofName_eq_ok_iff.mpr ⟨targets, listed, rfl⟩⟩

/-- Every backend of a configuration has the options that the configuration gives its target. -/
theorem eq_ofTarget_of_mem {c : Config} {bs : List Backend} (made : ofConfig c = .ok bs) :
    ∀ b ∈ bs, b = ofTarget c b.target := by
  have listed : ∃ targets : List Target, bs = targets.map (ofTarget c) := by
    unfold ofConfig at made
    split at made
    · exact ⟨Target.all, (Except.ok.inj made).symm⟩
    · obtain ⟨targets, -, whole⟩ := mapM_ofName_eq_ok_iff.mp made
      exact ⟨targets, whole⟩
  obtain ⟨targets, rfl⟩ := listed
  intro b member
  obtain ⟨target, -, rfl⟩ := List.mem_map.mp member
  cases target with
  | swift => rfl
  | typeScript => rfl
  | rust => rfl
  | openApi => rfl

end Backend

namespace Command

/-! ## What a run asks for -/

/-- The configuration that a run starts from: the default one, or that of its file. -/
def Options.Loads (o : Options) (t : FileTree) (c : Config) : Prop :=
  match o.config with
  | none => c = {}
  | some path => ∃ text, t.readText path = .ok text ∧ Config.ofTomlText text = .ok c

/-- The text of the input. -/
def Options.inputText (o : Options) (t : FileTree) : Except FileError String :=
  if o.input = "-" then .ok t.input else t.readText o.input

/-- The schema that the input describes. -/
def Options.Parses (o : Options) (t : FileTree) (s : Schema) : Prop :=
  ∃ text, o.inputText t = .ok text ∧ Schema.ofJsonText text = .ok s

/-- A configuration merged with the arguments. Targets that are named replace those of the
configuration, further declarations are left out, a rule replaces all rules, and strictness is
turned on in all languages. Everything else stays. -/
structure Options.Merges (o : Options) (c merged : Config) : Prop where
  backends : merged.backends = if o.backends = [] then c.backends else o.backends
  skip : merged.skip = c.skip ++ o.skip
  rename : merged.rename = match o.rename with
    | some rule => ⟨some rule, some rule, some rule⟩
    | none => c.rename
  swift : merged.swift = if o.strictIdentifiers then { c.swift with strictIdentifiers := true }
    else c.swift
  typeScript : merged.typeScript =
    if o.strictIdentifiers then { c.typeScript with strictIdentifiers := true } else c.typeScript
  rust : merged.rust = if o.strictIdentifiers then { c.rust with strictIdentifiers := true }
    else c.rust
  openApi : merged.openApi = c.openApi

/-- What a run asks of its configuration and its input: it loads the one and parses the other, knows
all targets, finds no unresolved mention if it is to look for them, and finds the prepared schema
sound. -/
structure Options.Admits (o : Options) (t : FileTree) (merged : Config) (s : Schema) : Prop where
  configured : ∃ c, o.Loads t c ∧ o.Merges c merged
  parses : o.Parses t s
  known : ∀ name ∈ merged.backends, ∃ target, Target.ofName? name = some target
  resolved : o.strictReferences = true →
    ((s.skip merged.skip).rename merged.rename).unresolved = []
  sound : ((s.skip merged.skip).rename merged.rename).check = .ok ()

/-- Renderings as they are printed: a single one as it is, several below their headlines, with an
empty line in front of all but the first. -/
def streamed (s : Schema) : List Rendering → String
  | [] => ""
  | [r] => r.text
  | r :: rs =>
      "==> " ++ r.fileName s ++ " <==\n" ++ r.text
        ++ String.join (rs.map fun r => "\n==> " ++ r.fileName s ++ " <==\n" ++ r.text)

/-- The file system takes what is written: if there are renderings for a directory, then the
directory can be made, and the file of each rendering can be written. -/
def Options.Undisturbed (o : Options) (t : FileTree) : Prop :=
  ∀ dir, o.outDir = some dir → ∀ merged s g rs, o.Admits t merged s →
    Generator.ofConfig merged = .ok g → g.generate s = .ok rs →
      t.Makes dir ∧ ∀ r ∈ rs, t.Receives dir (Path.join dir (r.fileName s))

/-- Renderings are in a directory: the file of each holds its text, and nothing else has changed but
that directories stand on the way to the directory, where nothing stood. -/
structure Placed (t after : FileTree) (dir : String) (s : Schema) (rs : List Rendering) : Prop where
  readable : ∀ r ∈ rs, after.readText (Path.join dir (r.fileName s)) = .ok r.text
  only : ∀ place, after.look place = t.look place ∨
    (∃ r ∈ rs, place = t.placeOf (Path.join dir (r.fileName s))) ∨
    t.look place = none ∧ after.look place = some .directory ∧ place ∈ t.placesTo dir

/-- What a run shows for renderings: they are printed and the file tree is as before, or nothing is
printed and they are in the directory. -/
def Options.Shows (o : Options) (t after : FileTree) (out : String) (s : Schema)
    (rs : List Rendering) : Prop :=
  match o.outDir with
  | none => out = streamed s rs ∧ after = t
  | some dir => out = "" ∧ Placed t after dir s rs

/-! ## What a run finds -/

section Finding

variable {o : Options} {t : FileTree}

theorem Options.merges_iff {c merged : Config} : o.Merges c merged ↔ merged = o.configure c := by
  constructor
  · rintro ⟨backends, skip, rename, swift, typeScript, rust, openApi⟩
    obtain ⟨_, _, _, _, _, _, _⟩ := merged
    simp only at backends skip rename swift typeScript rust openApi
    subst backends skip rename swift typeScript rust openApi
    unfold Options.configure
    cases o.strictIdentifiers <;> cases o.rename <;> simp [RenameOptions.all]
  · rintro rfl
    unfold Options.configure
    refine ⟨?_, rfl, ?_, ?_, ?_, ?_, rfl⟩
    · simp
    · cases o.rename <;> rfl
    · cases o.strictIdentifiers <;> simp
    · cases o.strictIdentifiers <;> simp
    · cases o.strictIdentifiers <;> simp

/-- Decoding a text that may be missing succeeds exactly with what the text stands for. -/
theorem decode_run {α δ : Type} (read : Except FileError String) (decode : String → Except δ α)
    (unread : FileError → Failure) (undecoded : Failure) (t : FileTree) :
    ∃ result : Except Failure α, (match read with
        | .error e => (pure (.error (unread e)) : StateM FileTree (Except Failure α))
        | .ok text => pure ((decode text).mapError fun _ => undecoded)) t = (result, t) ∧
      ∀ a, result = .ok a ↔ ∃ text, read = .ok text ∧ decode text = .ok a := by
  cases read with
  | error e =>
      refine ⟨_, rfl, fun a => ⟨fun given => ?_, ?_⟩⟩
      · cases given
      · rintro ⟨text, given, -⟩
        cases given
  | ok text =>
      refine ⟨_, rfl, fun a => ⟨fun given => ?_, ?_⟩⟩
      · refine ⟨text, rfl, ?_⟩
        cases decoded : decode text with
        | error e =>
            rw [decoded] at given
            cases given
        | ok other =>
            rw [decoded] at given
            cases given
            rfl
      · rintro ⟨other, same, decoded⟩
        cases same
        rw [decoded]
        rfl

/-- Reading the configuration changes nothing and succeeds exactly with the one that is loaded. -/
theorem readConfig_run (o : Options) (t : FileTree) :
    ∃ result, (readConfig o : StateM FileTree _) t = (result, t) ∧
      ∀ c, result = .ok c ↔ o.Loads t c := by
  unfold readConfig Options.Loads
  cases o.config with
  | none =>
      refine ⟨.ok {}, rfl, fun c => ?_⟩
      rw [Except.ok.injEq, eq_comm]
  | some path => exact decode_run (t.readText path) Config.ofTomlText _ _ t

/-- Reading the schema changes nothing and succeeds exactly with the one that is parsed. -/
theorem readSchema_run (o : Options) (t : FileTree) :
    ∃ result, (readSchema o : StateM FileTree _) t = (result, t) ∧
      ∀ s, result = .ok s ↔ o.Parses t s := by
  have input : (readInput o.input : StateM FileTree _) t = (o.inputText t, t) := by
    unfold readInput Options.inputText
    split
    · rfl
    · rfl
  unfold readSchema
  rw [run_bind, input]
  exact decode_run (o.inputText t) Schema.ofJsonText _ _ t

/-- Rendering succeeds exactly if there is a generator, which finds all mentions resolved where this
is asked for, and succeeds. -/
theorem Options.render_eq_ok_iff {c : Config} {s : Schema} {rs : List Rendering} :
    o.render c s = .ok rs ↔ ∃ g, Generator.ofConfig c = .ok g ∧
      (o.strictReferences = true → (g.prepare s).unresolved = []) ∧ g.generate s = .ok rs := by
  unfold Options.render
  cases Generator.ofConfig c with
  | error unknown =>
      constructor
      · intro rendered
        cases rendered
      · rintro ⟨g, made, -⟩
        cases made
  | ok g =>
      change (if _ then _ else (g.generate s).mapError Failure.unsound) = _ ↔ _
      by_cases refused : (o.strictReferences && !(g.prepare s).unresolved.isEmpty) = true
      · rw [if_pos refused]
        rw [Bool.and_eq_true, Bool.not_eq_true', List.isEmpty_eq_false_iff] at refused
        constructor
        · intro rendered
          cases rendered
        · rintro ⟨other, same, resolved, -⟩
          cases same
          exact absurd (resolved refused.1) refused.2
      · rw [if_neg refused]
        have resolved : o.strictReferences = true → (g.prepare s).unresolved = [] := by
          intro strict
          rw [strict, Bool.true_and, Bool.not_eq_true', Bool.not_eq_false,
            List.isEmpty_iff] at refused
          exact refused
        constructor
        · intro rendered
          refine ⟨g, rfl, resolved, ?_⟩
          cases generated : g.generate s with
          | error problems =>
              rw [generated] at rendered
              cases rendered
          | ok others =>
              rw [generated] at rendered
              cases rendered
              rfl
        · rintro ⟨other, same, -, generated⟩
          cases same
          rw [generated]
          rfl

/-- A run admits a schema exactly if it can be rendered. -/
theorem Options.admits_iff {merged : Config} {s : Schema} :
    o.Admits t merged s ↔
      (∃ c, o.Loads t c ∧ merged = o.configure c) ∧ o.Parses t s ∧
        ∃ rs, o.render merged s = .ok rs := by
  have prepared : ∀ {g}, Generator.ofConfig merged = .ok g →
      g.prepare s = (s.skip merged.skip).rename merged.rename := by
    intro g made
    obtain ⟨-, skip, rename⟩ := (Generator.ofConfig_eq_ok_iff merged g).mp made
    rw [Generator.prepare_eq, skip, rename]
  constructor
  · rintro ⟨⟨c, loads, merges⟩, parses, known, resolved, sound⟩
    refine ⟨⟨c, loads, Options.merges_iff.mp merges⟩, parses, ?_⟩
    obtain ⟨bs, backends⟩ := (Backend.exists_ofConfig_iff merged).mpr known
    have made : Generator.ofConfig merged = .ok ⟨bs, merged.skip, merged.rename⟩ :=
      (Generator.ofConfig_eq_ok_iff _ _).mpr ⟨backends, rfl, rfl⟩
    rw [← prepared made] at resolved sound
    have generated := (Generator.generate_eq_ok_iff ⟨bs, merged.skip, merged.rename⟩ s _).mpr
      ⟨(Schema.check_eq_ok_iff _).mp sound, rfl⟩
    exact ⟨_, Options.render_eq_ok_iff.mpr ⟨_, made, resolved, generated⟩⟩
  · rintro ⟨⟨c, loads, merges⟩, parses, rs, rendered⟩
    obtain ⟨g, made, resolved, generated⟩ := Options.render_eq_ok_iff.mp rendered
    have sound := ((Generator.generate_eq_ok_iff _ _ _).mp generated).1
    rw [prepared made] at resolved sound
    have backends := ((Generator.ofConfig_eq_ok_iff _ _).mp made).1
    exact ⟨⟨c, loads, Options.merges_iff.mpr merges⟩, parses,
      (Backend.exists_ofConfig_iff merged).mp ⟨_, backends⟩, resolved,
      (Schema.check_eq_ok_iff _).mpr sound⟩

/-! ## How a run ends -/

/-- **A run either fails before it has changed anything, and admits nothing, or it delivers the
renderings of what it admits.** -/
theorem generate_cases (o : Options) (t : FileTree) :
    ((¬ ∃ merged s, o.Admits t merged s) ∧
      ∃ f, (generate o : StateM FileTree _) t = (failed "" f, t)) ∨
    ∃ merged s rs, o.Admits t merged s ∧ o.render merged s = .ok rs ∧
      (generate o : StateM FileTree _) t = (deliver o s rs : StateM FileTree _) t := by
  obtain ⟨config, configured, loads⟩ := readConfig_run o t
  obtain ⟨schema, parsed, parses⟩ := readSchema_run o t
  unfold generate
  rw [run_bind, configured]
  cases config with
  | error f =>
      refine .inl ⟨?_, f, rfl⟩
      rintro ⟨merged, s, ⟨c, loaded, -⟩, -⟩
      cases (loads c).mpr loaded
  | ok c =>
      dsimp only
      rw [run_bind, parsed]
      cases schema with
      | error f =>
          refine .inl ⟨?_, f, rfl⟩
          rintro ⟨merged, s, -, reads, -⟩
          cases (parses s).mpr reads
      | ok s =>
          have loaded := (loads c).mp rfl
          have reads := (parses s).mp rfl
          cases rendered : o.render (o.configure c) s with
          | error f =>
              refine .inl ⟨?_, f, by simp only [rendered]; rfl⟩
              rintro ⟨merged, other, admits⟩
              obtain ⟨⟨c', again, rfl⟩, reads', rs, succeeds⟩ := Options.admits_iff.mp admits
              cases (loads c').mpr again
              cases (parses other).mpr reads'
              rw [rendered] at succeeds
              cases succeeds
          | ok rs =>
              refine .inr ⟨o.configure c, s, rs, ?_, rendered, by simp only [rendered]⟩
              exact Options.admits_iff.mpr ⟨⟨c, loaded, rfl⟩, reads, rs, rendered⟩

theorem printed_eq_streamed (s : Schema) : ∀ rs, printed s rs = streamed s rs
  | [] => rfl
  | [r] => rfl
  | r :: next :: rs => by
      have below : (fun r : Rendering => "\n==> " ++ r.fileName s ++ " <==\n" ++ r.text) =
          ("\n" ++ ·) ∘ fun r => headline s r ++ r.text := by
        funext other
        simp only [Function.comp_apply, headline, ← String.append_assoc]
        rfl
      change String.intercalate "\n" ((r :: next :: rs).map fun r => headline s r ++ r.text) =
        headline s r ++ r.text ++ String.join
          ((next :: rs).map fun r => "\n==> " ++ r.fileName s ++ " <==\n" ++ r.text)
      rw [List.map_cons, Text.intercalate_cons, List.map_map, below]

/-- Renderings of one target have one text, since a configuration has one set of options for it. -/
theorem text_eq_of_target_eq {merged : Config} {g : Generator} {s : Schema} {rs : List Rendering}
    (made : Generator.ofConfig merged = .ok g) (generated : g.generate s = .ok rs) :
    ∀ r ∈ rs, ∀ other ∈ rs, r.target = other.target → r.text = other.text := by
  obtain ⟨-, rfl⟩ := (Generator.generate_eq_ok_iff _ _ _).mp generated
  have backends := ((Generator.ofConfig_eq_ok_iff _ _).mp made).1
  intro r member other among same
  obtain ⟨b, inside, rfl⟩ := List.mem_map.mp member
  obtain ⟨b', inside', rfl⟩ := List.mem_map.mp among
  have target : b.target = b'.target := same
  rw [Backend.eq_ofTarget_of_mem backends b inside, Backend.eq_ofTarget_of_mem backends b' inside',
    target]

theorem Options.Parses.unique {s other : Schema} (parses : o.Parses t s)
    (parses' : o.Parses t other) : s = other := by
  obtain ⟨result, -, gives⟩ := readSchema_run o t
  exact Except.ok.inj (((gives s).mpr parses).symm.trans ((gives other).mpr parses'))

/-- Configuration and schema are the only ones that are admitted. -/
theorem Options.Admits.unique {merged merged' : Config} {s s' : Schema}
    (admits : o.Admits t merged s) (other : o.Admits t merged' s') : merged = merged' ∧ s = s' := by
  obtain ⟨config, -, loads⟩ := readConfig_run o t
  obtain ⟨⟨c, loaded, rfl⟩, read, -⟩ := Options.admits_iff.mp admits
  obtain ⟨⟨c', loaded', rfl⟩, read', -⟩ := Options.admits_iff.mp other
  have sameConfig := ((loads c).mpr loaded).symm.trans ((loads c').mpr loaded')
  exact ⟨congrArg o.configure (Except.ok.inj sameConfig), read.unique read'⟩

/-- The file system takes what is written if it takes the renderings of what is admitted. -/
theorem Options.Admits.undisturbed {dir : String} {merged : Config} {s : Schema}
    {rs : List Rendering} (admits : o.Admits t merged s) (placed : o.outDir = some dir)
    (rendered : o.render merged s = .ok rs) (makes : t.Makes dir)
    (receives : ∀ r ∈ rs, t.Receives dir (Path.join dir (r.fileName s))) : o.Undisturbed t := by
  intro dir' placed' merged' s' g rs' admits' made generated
  obtain ⟨rfl, rfl⟩ := admits.unique admits'
  obtain ⟨g', made', -, generated'⟩ := Options.render_eq_ok_iff.mp rendered
  cases made'.symm.trans made
  cases generated'.symm.trans generated
  cases placed.symm.trans placed'
  exact ⟨makes, receives⟩

/-- Renderings that are delivered are in the directory. -/
theorem placed_of_delivers {after : FileTree} {dir : String} {s : Schema} {rs : List Rendering}
    (delivers : t.Delivers after dir (filesIn dir s rs)) : Placed t after dir s rs := by
  have readable := delivers.readable
  rw [filesIn, List.forall_mem_map] at readable
  have grown := delivers.grown
  refine ⟨readable, fun place => ?_⟩
  rcases delivers.only place with same | ⟨file, listed, leads⟩ | ⟨vacant, made, path, above, leads⟩
  · exact .inl same
  · obtain ⟨r, member, rfl⟩ := List.mem_map.mp listed
    refine .inr (.inl ⟨r, member, ?_⟩)
    rw [FileTree.eq_placeOf_of_locate leads, FileTree.placeOf, grown.start, FileTree.placeOf]
  · exact .inr (.inr ⟨vacant, made, FileTree.mem_placesTo_of_locate grown above leads⟩)

end Finding

/-- **A run is all or nothing.** Unless the file system refuses to take what is written, a run ends
with exit code 0 exactly if it admits its configuration and its schema. If it does not, nothing is
printed and the file tree is as before. If it does, it shows exactly the renderings of the generator
for the merged configuration. -/
theorem run_all_or_nothing {arguments : List String} {o : Options}
    (asked : Request.ofArguments arguments = .run o) {t after : FileTree} (home : t.AtHome)
    (calm : o.Undisturbed t) {outcome : Outcome}
    (ran : (run arguments : StateM FileTree Outcome) t = (outcome, after)) :
    (outcome.exit = 0 ↔ ∃ merged s, o.Admits t merged s) ∧
    (outcome.exit ≠ 0 → outcome.exit = 1 ∧ outcome.out = "" ∧ after = t) ∧
    (outcome.exit = 0 → ∃ merged s g rs, o.Admits t merged s ∧ Generator.ofConfig merged = .ok g ∧
      g.generate s = .ok rs ∧ o.Shows t after outcome.out s rs) := by
  unfold run at ran
  rw [asked] at ran
  change (generate o : StateM FileTree Outcome) t = _ at ran
  rcases generate_cases o t with ⟨refuses, f, fails⟩ | ⟨merged, s, rs, admits, rendered, delivers⟩
  · rw [fails] at ran
    cases ran
    refine ⟨⟨fun zero => ?_, fun found => absurd found refuses⟩, fun _ => ⟨rfl, rfl, rfl⟩,
      fun zero => ?_⟩
    · cases zero
    · cases zero
  · obtain ⟨g, made, -, generated⟩ := Options.render_eq_ok_iff.mp rendered
    have shown : outcome.exit = 0 ∧ o.Shows t after outcome.out s rs := by
      rw [delivers, deliver] at ran
      unfold Options.Shows
      cases placed : o.outDir with
      | none =>
          rw [placed] at ran
          cases ran
          exact ⟨rfl, printed_eq_streamed s rs, rfl⟩
      | some dir =>
          rw [placed] at ran
          obtain ⟨makes, receives⟩ := calm dir placed merged s g rs admits made generated
          obtain ⟨later, written⟩ := exists_writeRenderings home makes receives
          change ((writeRenderings dir s rs : StateM FileTree _) >>= _) t = _ at ran
          rw [run_bind, written] at ran
          cases ran
          exact ⟨rfl, rfl, placed_of_delivers
            (writeRenderings_delivers home (text_eq_of_target_eq made generated) written)⟩
    refine ⟨⟨fun _ => ⟨merged, s, admits⟩, fun _ => shown.1⟩, fun nonzero => absurd shown.1 nonzero,
      fun _ => ⟨merged, s, g, rs, admits, made, generated, shown.2⟩⟩

/-- The text of a configuration that leaves out a declaration. -/
def sampleConfig : String :=
  "backends = [\"rust\"]\nskip = [\"B\"]"

/-- The text of a schema, with an unresolved mention in that declaration. -/
def sampleSchema : String :=
  "\x7b\"declarations\":["
    ++ "\x7b\"name\":\"A\",\"kind\":\"alias\",\"target\":\x7b\"primitive\":\"bool\"\x7d\x7d,"
    ++ "\x7b\"name\":\"B\",\"kind\":\"alias\",\"target\":\x7b\"named\":\"C\"\x7d\x7d"
    ++ "],\"name\":\"m\"\x7d"

/-- Both in the current directory. -/
def sampleTree : FileTree where
  root := .directory [("c.toml", .file sampleConfig.toUTF8), ("m.json", .file sampleSchema.toUTF8)]

/-- The mention is not looked at, the arguments name other targets, and the directory is made. -/
theorem run_all_or_nothing_sampleTree :
    let arguments := ["m.json", "-c", "c.toml", "-o", "out", "-b", "swift", "-b", "typescript",
      "--strict-references", "--rename", "camel"]
    ∃ o outcome after, Request.ofArguments arguments = .run o ∧ sampleTree.AtHome ∧
      o.Undisturbed sampleTree ∧
      (run arguments : StateM FileTree Outcome) sampleTree = (outcome, after) ∧
      outcome.exit = 0 ∧ outcome.out = "" ∧
      after.readText "out/m.swift" = .ok "typealias A = Bool\n" ∧
      after.readText "out/m.ts" = .ok "type A = boolean\n" ∧
      ∀ place, after.look place = sampleTree.look place ∨
        place ∈ [["out"], ["out", "m.swift"], ["out", "m.ts"]] := by
  intro arguments
  let o : Options := ⟨"m.json", ["swift", "typescript"], some "out", some "c.toml", [],
    some .camel, false, true, false⟩
  let c : Config := { backends := ["rust"], skip := ["B"] }
  let s : Schema := ⟨"m", {}, [Declaration.alias ⟨"A", .primitive "bool", {}⟩,
    Declaration.alias ⟨"B", .named "C", {}⟩]⟩
  let rs : List Rendering := [⟨.swift, "typealias A = Bool\n", []⟩,
    ⟨.typeScript, "type A = boolean\n", []⟩]
  have asked : Request.ofArguments arguments = .run o := by decide +kernel
  have home : sampleTree.AtHome := rfl
  have loads : o.Loads sampleTree c := ⟨sampleConfig, by decide +kernel, by decide +kernel⟩
  have parses : o.Parses sampleTree s :=
    ⟨sampleSchema, by decide +kernel, Json.eq_ok_of_toOption (by decide +kernel)⟩
  have rendered : o.render (o.configure c) s = .ok rs := by decide +kernel
  have admits : o.Admits sampleTree (o.configure c) s :=
    Options.admits_iff.mpr ⟨⟨c, loads, rfl⟩, parses, rs, rendered⟩
  have makes : sampleTree.Makes "out" :=
    ⟨⟨by decide, by decide, by decide, by decide +kernel⟩, by decide +kernel, by decide +kernel⟩
  have paths : rs.map (fun r => Path.join "out" (r.fileName s)) = ["out/m.swift", "out/m.ts"] := by
    decide +kernel
  have taken : ∀ path ∈ ["out/m.swift", "out/m.ts"], sampleTree.Receives "out" path := by
    rw [List.forall_mem_cons, List.forall_mem_singleton]
    constructor
    · exact ⟨⟨by decide, by decide, by decide, by decide +kernel⟩, by decide, by decide +kernel,
        by decide +kernel⟩
    · exact ⟨⟨by decide, by decide, by decide, by decide +kernel⟩, by decide, by decide +kernel,
        by decide +kernel⟩
  have receives : ∀ r ∈ rs, sampleTree.Receives "out" (Path.join "out" (r.fileName s)) := by
    rwa [← paths, List.forall_mem_map] at taken
  have calm : o.Undisturbed sampleTree := admits.undisturbed rfl rendered makes receives
  rcases ran : (run arguments : StateM FileTree Outcome) sampleTree with ⟨outcome, after⟩
  have whole := run_all_or_nothing asked home calm ran
  have ends := whole.1.mpr ⟨_, _, admits⟩
  obtain ⟨merged, s', g, rs', admits', made, generated, quiet, placed⟩ := whole.2.2 ends
  obtain ⟨rfl, rfl⟩ := admits.unique admits'
  obtain ⟨g', made', -, generated'⟩ := Options.render_eq_ok_iff.mp rendered
  cases made'.symm.trans made
  cases generated'.symm.trans generated
  have files : rs.map (fun r => (Path.join "out" (r.fileName s), r.text)) =
      [("out/m.swift", "typealias A = Bool\n"), ("out/m.ts", "type A = boolean\n")] := by
    decide +kernel
  have readable : ∀ file ∈ [("out/m.swift", "typealias A = Bool\n"),
      ("out/m.ts", "type A = boolean\n")], after.readText file.1 = .ok file.2 := by
    rw [← files, List.forall_mem_map]
    exact placed.readable
  rw [List.forall_mem_cons, List.forall_mem_singleton] at readable
  refine ⟨o, outcome, after, asked, home, calm, rfl, ends, quiet, readable.1, readable.2, ?_⟩
  intro place
  rcases placed.only place with same | ⟨r, member, rfl⟩ | ⟨vacant, -, passed⟩
  · exact .inl same
  · have places : ∀ path ∈ ["out/m.swift", "out/m.ts"],
        sampleTree.placeOf path ∈ [["out"], ["out", "m.swift"], ["out", "m.ts"]] := by
      decide +kernel
    rw [← paths, List.forall_mem_map] at places
    exact .inr (places r member)
  · have places : ∀ place ∈ sampleTree.placesTo "out", sampleTree.look place = none →
        place ∈ [["out"], ["out", "m.swift"], ["out", "m.ts"]] := by
      decide +kernel
    exact .inr (places place passed vacant)

end Command

end SchemaPress
