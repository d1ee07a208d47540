import SchemaPress.Proofs.Command.AllOrNothing

/-!
# Targets that are listed more than once

A configuration lists targets in any order, perhaps several times, and one of them under two names.
There is one rendering for each entry of the list, and what is rendered for a target depends on the
target alone, so that its renderings are the same. Three readers of the renderings deal with this in
different ways: of the renderings for a target one takes the first, one the last, and the third
writes all to the same file.

Files can be written exactly if each of them can be written on its own
(`FileTree.writeFiles_eq_ok_iff`), and if those that lead to one place have one text, then their
order and number do not matter (`FileTree.exists_writeFiles_of_mem_iff`). So no reader can tell
whether a configuration lists its targets in another order or more often
(`Command.repetition_loses_nothing`).
-/

set_option autoImplicit false

namespace SchemaPress

/-! ## Renderings of listed targets -/

/-- What a configuration lists: targets under any of their names, all of them if there is no list,
and nothing for a name that no target has. -/
def Config.listed (c : Config) : List (Option Target) :=
  if c.backends = [] then Target.all.map some else c.backends.map Target.ofName?

/-- Another configuration lists the same, perhaps in another order or another number of times, and
is the same in everything else. -/
structure Config.Rearranges (c other : Config) : Prop where
  listed : ∀ entry, entry ∈ other.listed ↔ entry ∈ c.listed
  rest : other = { c with backends := other.backends }

/-- The rendering of a schema for a target. -/
def Config.rendering (c : Config) (s : Schema) (target : Target) : Rendering :=
  (Backend.ofTarget c target).render ((s.skip c.skip).rename c.rename)

@[simp] theorem Config.target_rendering (c : Config) (s : Schema) (target : Target) :
    (c.rendering s target).target = target := by
  cases target with
  | swift => rfl
  | typeScript => rfl
  | rust => rfl
  | openApi => rfl

theorem Config.Rearranges.prepared_eq {c other : Config} (rearranges : c.Rearranges other)
    (s : Schema) :
    (s.skip other.skip).rename other.rename = (s.skip c.skip).rename c.rename := by
  rw [rearranges.rest]

theorem Config.Rearranges.rendering_eq {c other : Config} (rearranges : c.Rearranges other)
    (s : Schema) : other.rendering s = c.rendering s := by
  rw [rearranges.rest]
  funext target
  cases target with
  | swift => rfl
  | typeScript => rfl
  | rust => rfl
  | openApi => rfl

/-- If all that is listed is known, then so is what is listed otherwise. -/
theorem Config.Rearranges.exists_targets {c other : Config} (rearranges : c.Rearranges other)
    {targets : List Target} (listed : c.listed = targets.map some) :
    ∃ others : List Target, other.listed = others.map some ∧
      ∀ target, target ∈ others ↔ target ∈ targets := by
  have whole : ∃ others : List Target, other.listed = others.map some := by
    by_cases none : other.backends = []
    · exact ⟨Target.all, if_pos none⟩
    · have names : other.listed = other.backends.map Target.ofName? := if_neg none
      rw [names]
      refine Backend.exists_targets_of_known fun name member => ?_
      have entry := (rearranges.listed _).mp (names ▸ List.mem_map_of_mem member)
      rw [listed] at entry
      obtain ⟨target, -, found⟩ := List.mem_map.mp entry
      exact ⟨target, found.symm⟩
  obtain ⟨others, whole⟩ := whole
  refine ⟨others, whole, fun target => ?_⟩
  have entry := rearranges.listed (some target)
  rw [whole, listed] at entry
  simpa using entry

theorem Backend.ofConfig_eq_ok_iff {c : Config} {bs : List Backend} :
    ofConfig c = .ok bs ↔
      ∃ targets : List Target, c.listed = targets.map some ∧ bs = targets.map (ofTarget c) := by
  unfold ofConfig Config.listed
  by_cases none : c.backends = []
  · rw [if_pos (List.isEmpty_iff.mpr none), if_pos none]
    constructor
    · intro made
      exact ⟨Target.all, rfl, (Except.ok.inj made).symm⟩
    · rintro ⟨targets, listed, rfl⟩
      rw [(List.map_inj_right fun _ _ => Option.some.inj).mp listed]
  · rw [if_neg (by simpa using none), if_neg none]
    exact mapM_ofName_eq_ok_iff

/-- **There is one rendering for each entry of the list**, and it is that of its target. -/
theorem Generator.generates_iff {c : Config} {s : Schema} {rs : List Rendering} :
    (∃ g, ofConfig c = .ok g ∧ g.generate s = .ok rs) ↔
      ((s.skip c.skip).rename c.rename).Sound ∧
        ∃ targets : List Target,
          c.listed = targets.map some ∧ rs = targets.map (c.rendering s) := by
  constructor
  · rintro ⟨g, made, generated⟩
    obtain ⟨backends, skip, rename⟩ := (ofConfig_eq_ok_iff c g).mp made
    obtain ⟨sound, rfl⟩ := (generate_eq_ok_iff g s rs).mp generated
    obtain ⟨targets, listed, whole⟩ := Backend.ofConfig_eq_ok_iff.mp backends
    rw [prepare_eq, skip, rename] at sound ⊢
    refine ⟨sound, targets, listed, ?_⟩
    rw [whole, List.map_map]
    rfl
  · rintro ⟨sound, targets, listed, rfl⟩
    let g : Generator := ⟨targets.map (Backend.ofTarget c), c.skip, c.rename⟩
    have prepared : g.prepare s = (s.skip c.skip).rename c.rename := g.prepare_eq s
    refine ⟨g, (ofConfig_eq_ok_iff c g).mpr ⟨?_, rfl, rfl⟩, (generate_eq_ok_iff g s _).mpr ?_⟩
    · exact Backend.ofConfig_eq_ok_iff.mpr ⟨targets, listed, rfl⟩
    · rw [prepared]
      refine ⟨sound, ?_⟩
      rw [List.map_map]
      rfl

/-! ## Looking up renderings -/

theorem Target.name_injective {target other : Target} (same : target.name = other.name) :
    target = other := by
  revert same
  cases target <;> cases other <;> decide

namespace Rendering

/-- There is one rendering for each target, however often it is listed. -/
def Consistent (rs : List Rendering) : Prop :=
  ∀ r ∈ rs, ∀ other ∈ rs, r.target = other.target → r = other

/-- The rendering that is found first is the one with the property, if there is only one. -/
theorem find?_eq_some_of_unique {rs : List Rendering} {p : Rendering → Bool} {r : Rendering}
    (member : r ∈ rs) (holds : p r = true) (unique : ∀ other ∈ rs, p other = true → r = other) :
    rs.find? p = some r := by
  cases found : rs.find? p with
  | none => exact absurd holds (List.find?_eq_none.mp found r member)
  | some other =>
      rw [unique other (List.mem_of_find?_eq_some found) (List.find?_some found)]

theorem find?_eq_of_mem_iff {rs others : List Rendering} {p : Rendering → Bool}
    (same : ∀ r, r ∈ others ↔ r ∈ rs)
    (unique : ∀ r ∈ rs, ∀ other ∈ rs, p r = true → p other = true → r = other) :
    others.find? p = rs.find? p := by
  cases found : rs.find? p with
  | none =>
      rw [List.find?_eq_none] at found ⊢
      exact fun r member => found r ((same r).mp member)
  | some r =>
      have member := List.mem_of_find?_eq_some found
      refine find?_eq_some_of_unique ((same r).mpr member) (List.find?_some found) ?_
      exact fun other among => unique r member other ((same other).mp among) (List.find?_some found)

namespace Consistent

variable {rs others : List Rendering} (consistent : Consistent rs)
include consistent

theorem eq_of_fileName {s : Schema} {r other : Rendering} (member : r ∈ rs) (among : other ∈ rs)
    (same : r.fileName s = other.fileName s) : r = other := by
  unfold fileName at same
  exact consistent r member other among
    (Target.extension_injective ((String.append_right_inj _).mp same))

/-- The first rendering for a target is any of them. -/
theorem find?_name {r : Rendering} (member : r ∈ rs) : find? rs r.target.name = some r := by
  refine find?_eq_some_of_unique member (beq_self_eq_true _) fun other among named => ?_
  exact consistent r member other among (Target.name_injective (beq_iff_eq.mp named)).symm

/-- The last text for a target is any of them. -/
theorem mem_texts_iff {target : Target} {text : String} :
    (target, text) ∈ texts rs ↔ ∃ r ∈ rs, r.target = target ∧ r.text = text := by
  unfold texts
  rw [List.mem_filterMap]
  constructor
  · rintro ⟨other, -, found⟩
    obtain ⟨r, last, same⟩ := Option.map_eq_some_iff.mp found
    cases same
    have holds := List.find?_some last
    exact ⟨r, List.mem_reverse.mp (List.mem_of_find?_eq_some last), of_decide_eq_true holds, rfl⟩
  · rintro ⟨r, member, rfl, rfl⟩
    have last : rs.reverse.find? (fun other => other.target = r.target) = some r := by
      refine find?_eq_some_of_unique (List.mem_reverse.mpr member) (decide_eq_true rfl) ?_
      intro other among same
      exact consistent r member other (List.mem_reverse.mp among) (of_decide_eq_true same).symm
    refine ⟨r.target, by cases r.target <;> decide, ?_⟩
    rw [last]
    rfl

theorem find?_eq (same : ∀ r, r ∈ others ↔ r ∈ rs) (name : String) :
    find? others name = find? rs name := by
  refine find?_eq_of_mem_iff same fun r member other among named named' => ?_
  refine consistent r member other among (Target.name_injective ?_)
  exact (beq_iff_eq.mp named).trans (beq_iff_eq.mp named').symm

theorem texts_eq (same : ∀ r, r ∈ others ↔ r ∈ rs) : texts others = texts rs := by
  have last : ∀ target : Target, others.reverse.find? (fun r => r.target = target) =
      rs.reverse.find? fun r => r.target = target := by
    intro target
    refine find?_eq_of_mem_iff (fun r => ?_) fun r member other among named named' => ?_
    · rw [List.mem_reverse, List.mem_reverse, same r]
    · refine consistent r (List.mem_reverse.mp member) other (List.mem_reverse.mp among) ?_
      exact (of_decide_eq_true named).trans (of_decide_eq_true named').symm
  unfold texts
  simp only [last]

end Consistent

end Rendering

theorem Config.consistent_renderings (c : Config) (s : Schema) (targets : List Target) :
    Rendering.Consistent (targets.map (c.rendering s)) := by
  intro r member other among same
  obtain ⟨target, -, rfl⟩ := List.mem_map.mp member
  obtain ⟨target', -, rfl⟩ := List.mem_map.mp among
  rw [Config.target_rendering, Config.target_rendering] at same
  rw [same]

/-! ## Writing files in any order -/

namespace FileTree

/-- What stands where after files have been written, if those that lead to one place have one
text. -/
theorem look_writeFiles {t after : FileTree} (home : t.AtHome) {files : List (String × String)}
    (agree : ∀ file ∈ files, ∀ other ∈ files, ∀ names, t.locate file.1 = .ok names →
      t.locate other.1 = .ok names → file.2 = other.2)
    (written : (Command.writeFiles files : StateM FileTree _) t = (.ok (), after))
    (names : List String) :
    (∀ file ∈ files, t.locate file.1 = .ok names → after.look names = some (.file file.2.toUTF8)) ∧
      ((∀ file ∈ files, t.locate file.1 ≠ .ok names) → after.look names = t.look names) := by
  obtain ⟨front, -, fills, whole⟩ := writeFiles_fills files home written
  rw [whole rfl] at fills
  have taken := (writeFiles_eq_ok_iff files home).mp (congrArg Prod.fst written)
  -- Every file has led to its place from the start.
  have early : ∀ file ∈ files, ∀ place, after.locate file.1 = .ok place →
      t.locate file.1 = .ok place := by
    intro file member place leads
    obtain ⟨-, place', found, -⟩ := taken file member
    cases leads.symm.trans (fills.grown.locate found)
    exact found
  constructor
  · intro file member leads
    obtain ⟨-, place, found, other, among, other_leads, held⟩ := fills.holds file member
    cases found.symm.trans (fills.grown.locate leads)
    rw [held, agree file member other among names leads (early other among names other_leads)]
  · intro untouched
    rcases fills.places names with same | ⟨file, member, leads, -⟩
    · exact same
    · exact absurd (early file member names leads) (untouched file member)

/-- **The order and the number of files do not matter**, if those that lead to one place have one
text. -/
theorem exists_writeFiles_of_mem_iff {t after : FileTree} (home : t.AtHome)
    {files others : List (String × String)} (same : ∀ file, file ∈ others ↔ file ∈ files)
    (agree : ∀ file ∈ files, ∀ other ∈ files, ∀ names, t.locate file.1 = .ok names →
      t.locate other.1 = .ok names → file.2 = other.2)
    (written : (Command.writeFiles files : StateM FileTree _) t = (.ok (), after)) :
    ∃ after', (Command.writeFiles others : StateM FileTree _) t = (.ok (), after') ∧
      after'.look = after.look := by
  have taken := (writeFiles_eq_ok_iff files home).mp (congrArg Prod.fst written)
  have takes : ((Command.writeFiles others : StateM FileTree _) t).1 = .ok () :=
    (writeFiles_eq_ok_iff others home).mpr fun file member => taken file ((same file).mp member)
  rcases written' : (Command.writeFiles others : StateM FileTree _) t with ⟨result, after'⟩
  rw [written'] at takes
  cases takes
  have agree' : ∀ file ∈ others, ∀ other ∈ others, ∀ names, t.locate file.1 = .ok names →
      t.locate other.1 = .ok names → file.2 = other.2 := fun file member other among =>
    agree file ((same file).mp member) other ((same other).mp among)
  refine ⟨after', rfl, funext fun names => ?_⟩
  obtain ⟨filled, kept⟩ := look_writeFiles home agree written names
  obtain ⟨filled', kept'⟩ := look_writeFiles home agree' written' names
  by_cases reached : ∃ file ∈ files, t.locate file.1 = .ok names
  · obtain ⟨file, member, leads⟩ := reached
    rw [filled file member leads, filled' file ((same file).mpr member) leads]
  · have untouched : ∀ file ∈ files, t.locate file.1 ≠ .ok names :=
      fun file member leads => reached ⟨file, member, leads⟩
    rw [kept untouched, kept' fun file member => untouched file ((same file).mp member)]

end FileTree

namespace Command

/-- Files of renderings that lead to one place have one text, if there is one rendering for each
target. -/
theorem text_eq_of_locate {rs : List Rendering} (consistent : Rendering.Consistent rs)
    (t : FileTree) (dir : String) (s : Schema) :
    ∀ file ∈ filesIn dir s rs, ∀ other ∈ filesIn dir s rs, ∀ names,
      t.locate file.1 = .ok names → t.locate other.1 = .ok names → file.2 = other.2 := by
  intro file member other among names leads other_leads
  obtain ⟨r, inside, rfl⟩ := List.mem_map.mp member
  obtain ⟨r', inside', rfl⟩ := List.mem_map.mp among
  rw [consistent r inside r' inside' (target_eq_of_locate leads other_leads)]

/-- **Renderings are written in any order and number with the same effect.** -/
theorem exists_writeRenderings_of_mem_iff {t after : FileTree} (home : t.AtHome) {dir : String}
    {s : Schema} {rs others : List Rendering} (consistent : Rendering.Consistent rs)
    (same : ∀ r, r ∈ others ↔ r ∈ rs)
    (written : (writeRenderings dir s rs : StateM FileTree _) t = (.ok (), after)) :
    ∃ after', (writeRenderings dir s others : StateM FileTree _) t = (.ok (), after') ∧
      after'.look = after.look := by
  rcases writeRenderings_cases home written with ⟨-, failed⟩ | ⟨middle, made, adds, -, files⟩
  · exact absurd rfl failed
  · have listed : ∀ file, file ∈ filesIn dir s others ↔ file ∈ filesIn dir s rs := by
      intro file
      simp only [filesIn, List.mem_map, same]
    obtain ⟨after', files', stands⟩ := FileTree.exists_writeFiles_of_mem_iff
      (adds.grown.atHome home) listed (text_eq_of_locate consistent middle dir s) files
    refine ⟨after', ?_, stands⟩
    rw [writeRenderings, run_bind, made]
    exact files'

/-- Whatever becomes of writing renderings, the file of each holds its text or what it held
before. -/
theorem content_writeRenderings {t after : FileTree} (home : t.AtHome) {dir : String} {s : Schema}
    {rs : List Rendering} (consistent : Rendering.Consistent rs) {result : Except Failure Unit}
    (written : (writeRenderings dir s rs : StateM FileTree _) t = (result, after))
    {r : Rendering} (member : r ∈ rs) {names : List String} {content : ByteArray}
    (leads : after.locate (Path.join dir (r.fileName s)) = .ok names)
    (held : after.look names = some (.file content)) :
    content = r.text.toUTF8 ∨ t.look names = some (.file content) := by
  rcases writeRenderings_places home written names with
    same | ⟨-, made, -⟩ | ⟨-, other, among, other_leads, filled⟩
  · exact .inr (same ▸ held)
  · rw [made] at held
    cases held
  · rw [filled] at held
    cases held
    rw [consistent r member other among (target_eq_of_locate leads other_leads)]
    exact .inl rfl

/-- **Listing a target more than once loses nothing.** Renderings come one for each entry of the
list in its order, and those with the same file name are equal. So the first rendering for a target,
the last text for it and what its file holds are those of any of its renderings. A configuration
that lists the same targets in another order or number has the same renderings in every respect but
their order and number, and leaves the same files. -/
theorem repetition_loses_nothing {c : Config} {g : Generator} {s : Schema} {rs : List Rendering}
    (made : Generator.ofConfig c = .ok g) (generated : g.generate s = .ok rs) :
    rs.map (fun r => some r.target) = c.listed ∧
    (∀ r ∈ rs, ∀ other ∈ rs, r.fileName s = other.fileName s → r = other) ∧
    (∀ r ∈ rs, Rendering.find? rs r.target.name = some r) ∧
    (∀ target text, (target, text) ∈ Rendering.texts rs ↔
      ∃ r ∈ rs, r.target = target ∧ r.text = text) ∧
    (∀ {dir : String} {t after : FileTree} {result : Except Failure Unit}, t.AtHome →
      (writeRenderings dir s rs : StateM FileTree _) t = (result, after) → ∀ r ∈ rs,
        (result = .ok () → after.readText (Path.join dir (r.fileName s)) = .ok r.text) ∧
        ∀ names content, after.locate (Path.join dir (r.fileName s)) = .ok names →
          after.look names = some (.file content) →
            content = r.text.toUTF8 ∨ t.look names = some (.file content)) ∧
    ∀ other, c.Rearranges other →
      ∃ g' rs', Generator.ofConfig other = .ok g' ∧ g'.generate s = .ok rs' ∧
        (∀ r, r ∈ rs' ↔ r ∈ rs) ∧ (∀ name, Rendering.find? rs' name = Rendering.find? rs name) ∧
        Rendering.texts rs' = Rendering.texts rs ∧
        ∀ {dir : String} {t after : FileTree}, t.AtHome →
          (writeRenderings dir s rs : StateM FileTree _) t = (.ok (), after) →
            ∃ after', (writeRenderings dir s rs' : StateM FileTree _) t = (.ok (), after') ∧
              after'.look = after.look := by
  obtain ⟨sound, targets, listed, rfl⟩ := Generator.generates_iff.mp ⟨g, made, generated⟩
  have consistent := c.consistent_renderings s targets
  refine ⟨?_, fun r member other among => consistent.eq_of_fileName member among,
    fun r => consistent.find?_name, fun target text => consistent.mem_texts_iff,
    fun {dir t after result} home written r member => ⟨?_, ?_⟩, fun other rearranges => ?_⟩
  · rw [listed, List.map_map]
    exact List.map_congr_left fun target _ => congrArg some (c.target_rendering s target)
  · rintro rfl
    have delivers := writeRenderings_delivers home
      (fun r member other among same => by rw [consistent r member other among same]) written
    exact delivers.readable (Path.join dir (r.fileName s), r.text)
      (List.mem_map.mpr ⟨r, member, rfl⟩)
  · intro names content leads held
    exact content_writeRenderings home consistent written member leads held
  · obtain ⟨targets', listed', same⟩ := rearranges.exists_targets listed
    have renderings : other.rendering s = c.rendering s := rearranges.rendering_eq s
    have members : ∀ r, r ∈ targets'.map (c.rendering s) ↔ r ∈ targets.map (c.rendering s) := by
      intro r
      simp only [List.mem_map, same]
    rw [← rearranges.prepared_eq s] at sound
    obtain ⟨g', made', generated'⟩ :=
      Generator.generates_iff.mpr ⟨sound, targets', listed', rfl⟩
    rw [renderings] at generated'
    exact ⟨g', _, made', generated', members, consistent.find?_eq members,
      consistent.texts_eq members,
      fun home written => exists_writeRenderings_of_mem_iff home consistent members written⟩

/-- A list with repetitions, where a target has both of its names. -/
def repeatingConfig : Config where
  backends := ["ts", "swift", "typescript", "ts"]

/-- The same targets without repetitions. -/
def tidyConfig : Config where
  backends := ["swift", "typescript"]

theorem repetition_loses_nothing_repeatingConfig :
    let s : Schema := ⟨"m", {}, [Declaration.alias ⟨"A", .primitive "bool", {}⟩]⟩
    ∃ g rs g' rs' after after', Generator.ofConfig repeatingConfig = .ok g ∧ g.generate s = .ok rs ∧
      rs.map (·.target) = [.typeScript, .swift, .typeScript, .typeScript] ∧
      repeatingConfig.Rearranges tidyConfig ∧ Generator.ofConfig tidyConfig = .ok g' ∧
      g'.generate s = .ok rs' ∧ Rendering.texts rs' = Rendering.texts rs ∧
      (writeRenderings "out" s rs : StateM FileTree _) {} = (.ok (), after) ∧
      (writeRenderings "out" s rs' : StateM FileTree _) {} = (.ok (), after') ∧
      after'.look = after.look := by
  intro s
  let g : Generator := { backends := [.typeScript {}, .swift {}, .typeScript {}, .typeScript {}] }
  let text : Rendering := ⟨.typeScript, "type A = boolean\n", []⟩
  let rs : List Rendering := [text, ⟨.swift, "typealias A = Bool\n", []⟩, text, text]
  have made : Generator.ofConfig repeatingConfig = .ok g := by decide +kernel
  have generated : g.generate s = .ok rs := by decide +kernel
  have written : ((writeRenderings "out" s rs : StateM FileTree _) {}).1 = .ok () := by
    decide +kernel
  have rearranges : repeatingConfig.Rearranges tidyConfig := by
    have here : repeatingConfig.listed =
        [some .typeScript, some .swift, some .typeScript, some .typeScript] := by decide +kernel
    have there : tidyConfig.listed = [some .swift, some .typeScript] := by decide +kernel
    refine ⟨fun entry => ?_, rfl⟩
    rw [here, there]
    simp only [List.mem_cons, List.not_mem_nil, or_false]
    constructor
    · rintro (rfl | rfl)
      · exact .inr (.inl rfl)
      · exact .inl rfl
    · rintro (rfl | rfl | rfl | rfl)
      · exact .inr rfl
      · exact .inl rfl
      · exact .inr rfl
      · exact .inr rfl
  obtain ⟨-, -, -, -, -, others⟩ := repetition_loses_nothing made generated
  obtain ⟨g', rs', made', generated', -, -, texts, writes⟩ := others tidyConfig rearranges
  rcases ran : (writeRenderings "out" s rs : StateM FileTree _) {} with ⟨result, after⟩
  rw [ran] at written
  cases written
  have home : ({} : FileTree).AtHome := rfl
  obtain ⟨after', ran', stands⟩ := writes home ran
  exact ⟨g, rs, g', rs', after, after', made, generated, rfl, rearranges, made', generated', texts,
    ran, ran', stands⟩

end Command

end SchemaPress
