import SchemaPress.Target.Fragment

/-!
# Fragments and emissions

Fragments are put together one after the other, or with a text between each two. The text of a
fragment that is put together is put together from the texts of its parts, and its reserved words
are those of its parts, in order.

A fragment is pushed to an emission by adding its text and reporting its reserved words. Texts and
reports do not get in each other's way, so that fragments which are pushed one after the other are
pushed as one (`Emission.pushFragment_append`), and what a fragment adds does not depend on what is
there already (`Emission.pushFragment_eq`).
-/

set_option autoImplicit false

namespace SchemaPress

namespace Fragment

/-- Fragments one after the other. -/
def concat (fs : List Fragment) : Fragment :=
  fs.foldr append {}

/-- Fragments with a text between each two. -/
def join (separator : String) : List Fragment → Fragment
  | [] => {}
  | [f] => f
  | f :: rest => f ++ (separator : Fragment) ++ join separator rest

/-! ## Texts -/

@[simp]
theorem text_ofText (s : String) : (Fragment.ofText s).text = s := rfl

@[simp]
theorem text_append (a b : Fragment) : (a ++ b).text = a.text ++ b.text := rfl

@[simp]
theorem text_empty : ({} : Fragment).text = "" := rfl

@[simp]
theorem text_line (level : Nat) (f : Fragment) :
    (Fragment.line level f).text = Text.times level "    " ++ f.text ++ "\n" := rfl

@[simp]
theorem text_concat (fs : List Fragment) :
    (Fragment.concat fs).text = String.join (fs.map Fragment.text) := by
  induction fs with
  | nil => simp [Fragment.concat]
  | cons f fs ih =>
      have step : (Fragment.concat (f :: fs)).text = f.text ++ (Fragment.concat fs).text := rfl
      rw [step, ih, List.map_cons, String.join_cons]

/-- Joined fragments are the first one and then each further one after the separator. -/
theorem text_join_cons (separator : String) (f : Fragment) (fs : List Fragment) :
    (Fragment.join separator (f :: fs)).text =
      f.text ++ String.join (fs.map fun g => separator ++ g.text) := by
  induction fs generalizing f with
  | nil => simp [Fragment.join]
  | cons g fs ih =>
      rw [Fragment.join]
      · rw [text_append, text_append, ih, text_ofText, List.map_cons, String.join_cons,
          String.append_assoc, String.append_assoc]
      · simp

/-- The text of joined fragments is their texts with the separator between each two. -/
theorem text_join (separator : String) (fs : List Fragment) :
    (Fragment.join separator fs).text = String.intercalate separator (fs.map Fragment.text) := by
  induction fs with
  | nil => rfl
  | cons f fs ih =>
      cases fs with
      | nil => simp [Fragment.join]
      | cons g fs =>
          rw [Fragment.join]
          · simp [ih, String.append_assoc]
          · simp

theorem text_join_empty (fs : List Fragment) :
    (Fragment.join "" fs).text = String.join (fs.map Fragment.text) := by
  cases fs with
  | nil => rfl
  | cons f fs => simp [text_join_cons]

/-- A fragment that is joined with others stands after the earlier ones and before the later ones,
with a separator between each two. -/
theorem text_join_append_cons (separator : String) (f : Fragment) (earlier later : List Fragment) :
    (Fragment.join separator (earlier ++ f :: later)).text =
      String.join (earlier.map fun g => g.text ++ separator) ++ f.text
        ++ String.join (later.map fun g => separator ++ g.text) := by
  induction earlier with
  | nil => simp [text_join_cons]
  | cons e earlier ih =>
      rw [List.cons_append, Fragment.join]
      · simp [ih, String.append_assoc]
      · simp

/-! ## Reserved words -/

@[simp]
theorem collisions_ofText (s : String) : (ofText s).collisions = [] := rfl

@[simp]
theorem collisions_append (a b : Fragment) :
    (a ++ b).collisions = a.collisions ++ b.collisions := rfl

@[simp]
theorem collisions_empty : ({} : Fragment).collisions = [] := rfl

@[simp]
theorem collisions_line (level : Nat) (f : Fragment) :
    (line level f).collisions = f.collisions :=
  List.append_nil f.collisions

@[simp]
theorem collisions_concat (fs : List Fragment) :
    (concat fs).collisions = fs.flatMap collisions := by
  induction fs with
  | nil => rfl
  | cons f fs ih =>
      change f.collisions ++ (concat fs).collisions = _
      rw [ih, List.flatMap_cons]

@[simp]
theorem collisions_join (separator : String) (fs : List Fragment) :
    (join separator fs).collisions = fs.flatMap collisions := by
  induction fs with
  | nil => rfl
  | cons f fs ih =>
      cases fs with
      | nil => exact (List.append_nil f.collisions).symm
      | cons next fs =>
          change f.collisions ++ [] ++ (join separator (next :: fs)).collisions = _
          rw [ih, List.append_nil, ← List.flatMap_cons]

end Fragment

namespace Emission

/-! ## Reports -/

/-- Reports do not change the text. -/
theorem text_foldl_report (ds : List Diagnostic) (e : Emission) :
    (ds.foldl report e).text = e.text := by
  induction ds generalizing e with
  | nil => rfl
  | cons d ds ih =>
      rw [List.foldl_cons, ih]
      unfold report
      split
      · rfl
      · rfl

theorem mem_foldl_report {e : Emission} {ds : List Diagnostic} {d : Diagnostic} :
    d ∈ (ds.foldl report e).diagnostics ↔ d ∈ e.diagnostics ∨ d ∈ ds := by
  induction ds generalizing e with
  | nil => simp
  | cons first ds ih =>
      rw [List.foldl_cons, ih, List.mem_cons]
      unfold report
      split
      · rename_i known
        have there : first ∈ e.diagnostics := List.contains_iff_mem.mp known
        constructor
        · rintro (old | later)
          · exact .inl old
          · exact .inr (.inr later)
        · rintro (old | rfl | later)
          · exact .inl old
          · exact .inl there
          · exact .inr later
      · simp only [List.mem_append, List.mem_singleton, or_assoc]

theorem report_of_mem {e : Emission} {d : Diagnostic} (known : d ∈ e.diagnostics) :
    e.report d = e :=
  if_pos (List.contains_iff_mem.mpr known)

theorem report_of_not_mem {e : Emission} {d : Diagnostic} (new : d ∉ e.diagnostics) :
    e.report d = { e with diagnostics := e.diagnostics ++ [d] } :=
  if_neg (mt List.contains_iff_mem.mp new)

/-- Reporting what another emission has collected is the same as reporting all that was reported to
it. -/
theorem foldl_report_diagnostics (e other : Emission) (ds : List Diagnostic) :
    (ds.foldl report other).diagnostics.foldl report e =
      ds.foldl report (other.diagnostics.foldl report e) := by
  induction ds generalizing other with
  | nil => rfl
  | cons d ds ih =>
      have one : (other.report d).diagnostics.foldl report e =
          (other.diagnostics.foldl report e).report d := by
        by_cases known : d ∈ other.diagnostics
        · rw [report_of_mem known, report_of_mem (mem_foldl_report.mpr (.inr known))]
        · rw [report_of_not_mem known, List.foldl_append]
          rfl
      rw [List.foldl_cons, List.foldl_cons, ih, one]

/-- Reporting again what has just been reported changes nothing. -/
theorem foldl_report_of_subset {e : Emission} {ds : List Diagnostic}
    (known : ds ⊆ e.diagnostics) : ds.foldl report e = e := by
  induction ds with
  | nil => rfl
  | cons d ds ih =>
      obtain ⟨here, later⟩ := List.cons_subset.mp known
      rw [List.foldl_cons, report_of_mem here, ih later]

/-! ## Pushing fragments -/

variable (target : Target)

theorem push_report (e : Emission) (text : String) (d : Diagnostic) :
    (e.report d).push text = (e.push text).report d := by
  by_cases known : d ∈ e.diagnostics
  · rw [report_of_mem known, report_of_mem (e := e.push text) known]
  · rw [report_of_not_mem known, report_of_not_mem (e := e.push text) known]
    rfl

/-- Reports and texts do not get in each other's way. -/
theorem push_foldl_report (e : Emission) (text : String) (ds : List Diagnostic) :
    (ds.foldl report e).push text = ds.foldl report (e.push text) := by
  induction ds generalizing e with
  | nil => rfl
  | cons d ds ih => rw [List.foldl_cons, ih, push_report, List.foldl_cons]

/-- Fragments that are pushed one after the other are pushed as one. -/
theorem pushFragment_append (e : Emission) (f g : Fragment) :
    e.pushFragment target (f ++ g) = (e.pushFragment target f).pushFragment target g := by
  unfold pushFragment
  have joined : (f ++ g).collisions = f.collisions ++ g.collisions := rfl
  rw [joined, List.map_append, List.foldl_append, Fragment.text_append, push_foldl_report]
  unfold push
  rw [String.append_assoc]

theorem pushFragment_ofText (e : Emission) (text : String) :
    e.pushFragment target (Fragment.ofText text) = e.push text := rfl

/-- The diagnostics of a fragment do not depend on its text. -/
theorem diagnostics_pushFragment (f : Fragment) :
    (({} : Emission).pushFragment target f).diagnostics =
      ((f.collisions.map (.reservedIdentifier target)).foldl report {}).diagnostics := by
  unfold pushFragment
  rw [← push_foldl_report]
  rfl

/-- Pushing a fragment adds its text and reports what it gives alone. -/
theorem pushFragment_eq (e : Emission) (f : Fragment) :
    e.pushFragment target f =
      (({} : Emission).pushFragment target f).diagnostics.foldl report
        (e.push (({} : Emission).pushFragment target f).text) := by
  have alone : (({} : Emission).pushFragment target f).text = f.text := by
    unfold pushFragment
    rw [text_foldl_report]
    exact String.empty_append
  rw [alone]
  unfold pushFragment
  rw [foldl_report_diagnostics]
  rfl

end Emission

end SchemaPress
