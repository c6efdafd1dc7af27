import QueryCompiler.Plan.Basic

/-! # Rows

The columns that an INSERT or UPDATE writes, each with its operand, in the order in which they were
first set.
-/

namespace QueryCompiler
set_option autoImplicit false

/-- Columns with their operands. -/
structure Row where
  entries : List (String × Operand) := []
  /-- No column occurs twice. -/
  nodup : (entries.map (·.1)).Nodup := by decide

namespace Row

/-- Puts an operand in the place of the one for `column`, or at the end if there is none. -/
def setEntry (column : String) (operand : Operand) :
    List (String × Operand) → List (String × Operand)
  | [] => [(column, operand)]
  | (name, old) :: rest =>
    if name = column then (name, operand) :: rest else (name, old) :: setEntry column operand rest

theorem columns_setEntry (column : String) (operand : Operand) (entries : List (String × Operand)) :
    (setEntry column operand entries).map (·.1) =
      if column ∈ entries.map (·.1) then entries.map (·.1) else entries.map (·.1) ++ [column] := by
  induction entries with
  | nil => rfl
  | cons entry entries ih =>
    obtain ⟨name, old⟩ := entry
    rw [setEntry]
    by_cases hname : name = column
    · simp [hname]
    · have hne : column ≠ name := Ne.symm hname
      rw [if_neg hname, List.map_cons, ih]
      by_cases hmem : column ∈ entries.map (·.1)
      · simp [hmem]
      · simp [hmem, hne]

theorem nodup_setEntry (column : String) (operand : Operand) {entries : List (String × Operand)}
    (h : (entries.map (·.1)).Nodup) : ((setEntry column operand entries).map (·.1)).Nodup := by
  rw [columns_setEntry]
  by_cases hmem : column ∈ entries.map (·.1)
  · rw [if_pos hmem]
    exact h
  · rw [if_neg hmem]
    refine List.nodup_append.2 ⟨h, by simp, fun name hname other hother => ?_⟩
    rw [List.mem_singleton.1 hother]
    rintro rfl
    exact hmem hname

/-- Sets a column; an operand that was set for it before is replaced where it stands. -/
def set (row : Row) (column : String) (operand : Operand) : Row :=
  ⟨setEntry column operand row.entries, nodup_setEntry column operand row.nodup⟩

/-- The row that sets the columns of a list one after the other. -/
def ofList (entries : List (String × Operand)) : Row :=
  entries.foldl (fun row (column, operand) => row.set column operand) {}

/-- The columns in order. -/
def columns (row : Row) : List String := row.entries.map (·.1)

/-- The operand that is set for a column. -/
def get? (row : Row) (column : String) : Option Operand :=
  (row.entries.find? (·.1 = column)).map (·.2)

/-- The number of columns. -/
def size (row : Row) : Nat := row.entries.length

/-- Whether no column is set. -/
def isEmpty (row : Row) : Bool := row.entries.isEmpty

end Row

end QueryCompiler
