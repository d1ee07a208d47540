import SchemaPress.Command.Arguments

/-!
# What reading arguments gives

Arguments are read one after the other into a draft. Every step of this keeps what the draft holds
sound, or ends with an answer that is not a run. So whatever the arguments are, a run that they ask
for has no directory with an empty name (`Command.outDir_ne_empty`).
-/

set_option autoImplicit false

namespace SchemaPress.Command

/-- What reading arguments may give: something with a property, or a request that is not a run. -/
def Reads {α : Type} (P : α → Prop) : Except Request α → Prop
  | .ok a => P a
  | .error request => ∀ o, request ≠ .run o

namespace Reads

variable {α β : Type} {P : α → Prop} {Q : β → Prop} {x : Except Request α}

theorem bind {f : α → Except Request β} (read : Reads P x) (rest : ∀ a, P a → Reads Q (f a)) :
    Reads Q (x >>= f) := by
  cases x with
  | error request => exact read
  | ok a => exact rest a read

theorem map {f : α → β} (read : Reads P x) (rest : ∀ a, P a → Q (f a)) : Reads Q (x.map f) := by
  cases x with
  | error request => exact read
  | ok a => exact rest a read

theorem misuse : Reads P (.error .misuse) :=
  fun _ same => by cases same

end Reads

theorem nonempty_reads (path : String) : Reads (· ≠ "") (nonempty path) := by
  unfold nonempty
  split
  · exact Reads.misuse
  · rename_i given
    rintro rfl
    exact given rfl

theorem once_reads {α : Type} (old : Option α) (new : α) : Reads (· = some new) (once old new) := by
  unfold once
  split
  · exact Reads.misuse
  · rfl

theorem raise_reads (old : Bool) : Reads (· = true) (raise old) := by
  unfold raise
  split
  · exact Reads.misuse
  · rfl

/-- No empty directory has been taken. -/
def Draft.Sound (d : Draft) : Prop :=
  d.options.outDir ≠ some ""

namespace Draft.Sound

variable {d : Draft} (sound : d.Sound)
include sound

theorem setInput (path : String) : Reads Draft.Sound (d.setInput path) := by
  refine (nonempty_reads path).bind fun path _ => ?_
  refine (once_reads d.input path).bind fun input _ => ?_
  exact sound

/-- Only the option for the directory takes one, and refuses an empty one. -/
theorem setValue (switch : Switch) (value : String) :
    Reads Draft.Sound (d.setValue switch value) := by
  cases switch with
  | backend | skip => exact sound
  | outDir =>
      refine (nonempty_reads value).bind fun path some_path => ?_
      refine (once_reads d.options.outDir path).bind fun dir only => ?_
      rintro rfl
      exact some_path (Option.some_inj.mp only).symm
  | config =>
      refine (nonempty_reads value).bind fun path _ => ?_
      exact (once_reads d.options.config path).bind fun config _ => sound
  | rename =>
      unfold Draft.setValue
      cases RenameRule.ofName? value with
      | none => exact Reads.misuse
      | some rule => exact (once_reads d.options.rename rule).bind fun rename _ => sound
  | _ => exact Reads.misuse

theorem setFlag (switch : Switch) : Reads Draft.Sound (d.setFlag switch) := by
  cases switch with
  | strictIdentifiers => exact (raise_reads d.options.strictIdentifiers).bind fun _ _ => sound
  | strictReferences => exact (raise_reads d.options.strictReferences).bind fun _ _ => sound
  | verbose => exact (raise_reads d.options.verbose).bind fun _ _ => sound
  | version | help => exact fun _ same => by cases same
  | _ => exact Reads.misuse

theorem takeNext (switch : Switch) (rest : List String) :
    Reads (·.1.Sound) (takeNext d switch rest) := by
  cases rest with
  | nil => exact Reads.misuse
  | cons value rest =>
      rw [Command.takeNext]
      split
      · exact (sound.setValue switch value).bind fun later kept => kept
      · exact Reads.misuse

theorem takeLong (argument : List Char) (rest : List String) :
    Reads (·.1.Sound) (takeLong d argument rest) := by
  unfold Command.takeLong
  dsimp only
  split
  · exact Reads.misuse
  · split
    · exact sound.takeNext _ rest
    · exact (sound.setValue _ _).map fun later kept => kept
    · exact (sound.setFlag _).map fun later kept => kept
    · exact Reads.misuse

end Draft.Sound

theorem takeLetters_reads (rest : List String) (letters : List Char) : ∀ {d : Draft}, d.Sound →
    Reads (·.1.Sound) (takeLetters rest d letters) := by
  induction letters with
  | nil => exact fun sound => sound
  | cons c letters ih =>
      intro d sound
      unfold takeLetters
      split
      · exact Reads.misuse
      · split
        · split
          · exact sound.takeNext _ rest
          · exact (sound.setValue _ _).map fun later kept => kept
          · exact (sound.setValue _ _).map fun later kept => kept
        · exact (sound.setFlag _).bind fun later kept => ih kept

theorem takeInputs_reads (arguments : List String) : ∀ {d : Draft}, d.Sound →
    Reads Draft.Sound (takeInputs d arguments) := by
  induction arguments with
  | nil => exact fun sound => sound
  | cons argument rest ih =>
      intro d sound
      exact (sound.setInput argument).bind fun later kept => ih kept

/-- Whatever the arguments are, no empty directory is taken. -/
theorem takeAll_reads (fuel : Nat) : ∀ {d : Draft} (arguments : List String), d.Sound →
    Reads Draft.Sound (takeAll fuel d arguments) := by
  induction fuel with
  | zero =>
      intro d arguments sound
      cases arguments with
      | nil => exact sound
      | cons argument rest => exact Reads.misuse
  | succ fuel ih =>
      intro d arguments sound
      cases arguments with
      | nil => exact sound
      | cons argument rest =>
          unfold takeAll
          split
          · exact takeInputs_reads rest sound
          · exact (sound.takeLong _ rest).bind fun later kept => ih _ kept
          · exact (takeLetters_reads rest _ sound).bind fun later kept => ih _ kept
          · exact (sound.setInput argument).bind fun later kept => ih _ kept

/-- **A directory that is asked for has a name.** -/
theorem outDir_ne_empty {arguments : List String} {o : Options} {dir : String}
    (asked : Request.ofArguments arguments = .run o) (placed : o.outDir = some dir) : dir ≠ "" := by
  have reads := takeAll_reads arguments.length arguments (d := {}) fun none => by cases none
  unfold Request.ofArguments at asked
  cases read : takeAll arguments.length {} arguments with
  | error request =>
      rw [read] at asked reads
      exact absurd asked (reads o)
  | ok d =>
      rw [read] at asked reads
      dsimp only [Draft.finish] at asked
      cases given : d.input with
      | none =>
          rw [given] at asked
          cases asked
      | some input =>
          rw [given] at asked
          cases asked
          intro none
          exact reads (placed.trans (congrArg some none))

end SchemaPress.Command
