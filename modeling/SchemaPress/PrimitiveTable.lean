/-!
# Primitive tables

A primitive table gives the native spelling of primitives. It is a finite map, kept as a list
of pairs in increasing order of their keys, so that equal maps are equal lists.
-/

set_option autoImplicit false

namespace SchemaPress

/-- A pair put into a list of pairs in increasing order of keys; it replaces the pair of its key. -/
def insertPair (key value : String) : List (String × String) → List (String × String)
  | [] => [(key, value)]
  | (k, v) :: rest =>
      if key < k then (key, value) :: (k, v) :: rest
      else if k < key then (k, v) :: insertPair key value rest
      else (key, value) :: rest

/-- The keys of pairs are strictly increasing. -/
def Increasing (pairs : List (String × String)) : Prop :=
  pairs.Pairwise fun p q => p.1 < q.1

/-- A pair of a list into which one was put is this one or stood in the list. -/
theorem mem_insertPair {key value : String} {p : String × String} :
    ∀ {pairs : List (String × String)},
      p ∈ insertPair key value pairs → p = (key, value) ∨ p ∈ pairs
  | [], member => by simp_all [insertPair]
  | (k, v) :: rest, member => by
      unfold insertPair at member
      split at member
      · exact List.mem_cons.mp member
      · split at member
        · rcases List.mem_cons.mp member with rfl | other
          · exact .inr List.mem_cons_self
          · rcases mem_insertPair other with same | inner
            · exact .inl same
            · exact .inr (List.mem_cons_of_mem _ inner)
        · rcases List.mem_cons.mp member with rfl | other
          · exact .inl rfl
          · exact .inr (List.mem_cons_of_mem _ other)

/-- Putting a pair in keeps the order. -/
theorem increasing_insertPair (key value : String) :
    ∀ {pairs : List (String × String)}, Increasing pairs → Increasing (insertPair key value pairs)
  | [], _ => by simp [insertPair, Increasing]
  | (k, v) :: rest, ordered => by
      have head : ∀ q ∈ rest, k < q.1 := (List.pairwise_cons.mp ordered).1
      have tail : Increasing rest := (List.pairwise_cons.mp ordered).2
      unfold insertPair
      split
      · rename_i before
        refine List.pairwise_cons.mpr ⟨fun q member => ?_, ordered⟩
        rcases List.mem_cons.mp member with rfl | other
        · exact before
        · exact String.lt_trans before (head q other)
      · split
        · rename_i after
          refine List.pairwise_cons.mpr ⟨fun q member => ?_, increasing_insertPair key value tail⟩
          rcases mem_insertPair member with rfl | inner
          · exact after
          · exact head q inner
        · rename_i notBefore notAfter
          have same : key = k :=
            String.le_antisymm (String.not_lt.mp notAfter) (String.not_lt.mp notBefore)
          exact List.pairwise_cons.mpr ⟨fun q member => same ▸ head q member, tail⟩

/-- A finite map from primitives to native types. -/
structure PrimitiveTable where
  entries : List (String × String)
  increasing : Increasing entries
deriving DecidableEq

namespace PrimitiveTable

/-- The table without entries. -/
def empty : PrimitiveTable :=
  ⟨[], List.Pairwise.nil⟩

instance : Inhabited PrimitiveTable := ⟨empty⟩

/-- The table with one more entry, which replaces an entry of the same name. -/
def insert (t : PrimitiveTable) (name native : String) : PrimitiveTable :=
  ⟨insertPair name native t.entries, increasing_insertPair name native t.increasing⟩

/-- The table with further entries, one after the other. -/
def insertAll (t : PrimitiveTable) (pairs : List (String × String)) : PrimitiveTable :=
  pairs.foldl (fun t p => t.insert p.1 p.2) t

/-- An entry of a table with further entries is one of them or stood in the table. -/
theorem mem_insertAll {p : String × String} {pairs : List (String × String)} :
    ∀ {t : PrimitiveTable}, p ∈ (t.insertAll pairs).entries → p ∈ pairs ∨ p ∈ t.entries := by
  induction pairs with
  | nil => exact fun member => .inr member
  | cons q pairs ih =>
      intro t member
      rcases ih member with further | inside
      · exact .inl (List.mem_cons_of_mem _ further)
      · rcases mem_insertPair inside with rfl | old
        · exact .inl List.mem_cons_self
        · exact .inr old

/-- The table of a list of pairs, the later of which win. -/
def ofList (pairs : List (String × String)) : PrimitiveTable :=
  empty.insertAll pairs

/-- The native type of a name, if the table has one. -/
def get? (t : PrimitiveTable) (name : String) : Option String :=
  t.entries.lookup name

/-- The native type of a name, or the name itself. -/
def native (t : PrimitiveTable) (name : String) : String :=
  (t.get? name).getD name

/-- The number of entries. -/
def size (t : PrimitiveTable) : Nat :=
  t.entries.length

end PrimitiveTable

end SchemaPress
