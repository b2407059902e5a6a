import Mathlib

/-!
Database tables. A table keeps its rows in insertion order; an insertion or an update that would make two rows clash
under its unique constraints does not happen.
-/
namespace Vyane.Tables
/-- A table whose unique constraints are `clash`: rows that clash cannot both be in it. -/
structure Table (Row : Type) (clash : Row → Row → Bool) where
  rows : List Row
  distinct : rows.Pairwise fun first second => clash first second = false

namespace Table
variable {Row Key : Type} {clash : Row → Row → Bool} {table after : Table Row clash}

def empty : Table Row clash := ⟨[],.nil⟩

/-- `INSERT`: nothing when the new row clashes with one that is there. -/
def insert (table : Table Row clash) (row : Row) : Option (Table Row clash) :=
  if free : ∀ other ∈ table.rows, clash other row = false then
    some ⟨table.rows ++ [row],List.pairwise_append.mpr
      ⟨table.distinct,List.pairwise_singleton _ _,fun other member _ last => by
        rw [List.mem_singleton] at last; exact last ▸ free other member⟩⟩
  else none

/-- `UPDATE`: nothing when the changed rows would clash. -/
def update (table : Table Row clash) (selected : Row → Bool) (change : Row → Row) : Option (Table Row clash) :=
  if distinct : (table.rows.map fun row => if selected row then change row else row).Pairwise
      fun first second => clash first second = false then
    some ⟨_,distinct⟩
  else none

theorem insert_rows {row : Row} (inserted : table.insert row = some after) :
    after.rows = table.rows ++ [row] := by
  unfold insert at inserted
  split at inserted
  · cases inserted; rfl
  · cases inserted

theorem update_rows {selected : Row → Bool} {change : Row → Row}
    (updated : table.update selected change = some after) :
    after.rows = table.rows.map fun row => if selected row then change row else row := by
  unfold update at updated
  split at updated
  · cases updated; rfl
  · cases updated

/-- Stored rows that clash are one row. -/
theorem eq_of_clash {first second : Row} (mem₁ : first ∈ table.rows) (mem₂ : second ∈ table.rows)
    (clashes₁ : clash first second = true) (clashes₂ : clash second first = true) : first = second := by
  by_contra different
  obtain ⟨i,hi,at₁⟩ := List.getElem_of_mem mem₁
  obtain ⟨j,hj,at₂⟩ := List.getElem_of_mem mem₂
  have apart := List.pairwise_iff_getElem.mp table.distinct
  rcases Nat.lt_trichotomy i j with less | equal | greater
  · have := apart i j hi hj less
    rw [at₁,at₂,clashes₁] at this
    cases this
  · subst equal; exact different (at₁ ▸ at₂)
  · have := apart j i hj hi greater
    rw [at₁,at₂,clashes₂] at this
    cases this

section keys
variable [DecidableEq Key] (key : Row → Key)

/-- The row with a key. -/
def find (table : Table Row clash) (k : Key) : Option Row := table.rows.find? fun row => key row = k

variable {key} {table : Table Row clash}

theorem find_mem {k : Key} {row : Row} (found : table.find key k = some row) :
    row ∈ table.rows ∧ key row = k :=
  ⟨List.mem_of_find?_eq_some found,by simpa using List.find?_some found⟩
theorem find_eq_none {k : Key} :
    table.find key k = none ↔ ∀ row ∈ table.rows, key row ≠ k := by
  simp [find]

omit [DecidableEq Key] in
/-- Rows with the same key are the same row. -/
theorem eq_of_key (unique : ∀ first second, key first = key second → clash first second = true)
    {first second : Row} (mem₁ : first ∈ table.rows) (mem₂ : second ∈ table.rows) (same : key first = key second) :
    first = second :=
  eq_of_clash mem₁ mem₂ (unique _ _ same) (unique _ _ same.symm)

theorem find_of_mem (unique : ∀ first second, key first = key second → clash first second = true)
    {row : Row} (member : row ∈ table.rows) : table.find key (key row) = some row := by
  cases found : table.find key (key row) with
  | none => exact absurd rfl (find_eq_none.mp found row member)
  | some other =>
    have ⟨there,same⟩ := find_mem found
    rw [eq_of_key unique there member same]

end keys
end Table
end Vyane.Tables
