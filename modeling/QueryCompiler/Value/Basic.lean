import QueryCompiler.Calendar.Timestamp
import QueryCompiler.Number.Binary64

/-! # Values

The values that a statement binds to its placeholders, and the types whose members can be bound.
-/

namespace QueryCompiler
set_option autoImplicit false

/-- A value for a placeholder. It never becomes part of the SQL text. -/
inductive Value where
  | null
  | bool (b : Bool)
  | int (n : Int)
  | float (x : Binary64)
  | text (s : String)
  | blob (bytes : List UInt8)
  | date (d : Date)
  | time (t : TimeOfDay)
  | timestamp (t : Timestamp)
  deriving DecidableEq

namespace Value

/-- Whether a value is NULL. -/
def isNull : Value → Bool
  | .null => true
  | _ => false

/-- The text of a text value. -/
def text? : Value → Option String
  | .text s => some s
  | _ => none

end Value

/-- Types whose members can be bound to a placeholder. -/
class ToValue (α : Type) where
  toValue : α → Value

export ToValue (toValue)

instance : ToValue Value := ⟨id⟩
instance : ToValue Bool := ⟨.bool⟩
instance : ToValue Int64 := ⟨fun n => .int n.toInt⟩
instance : ToValue Int32 := ⟨fun n => .int n.toInt⟩
instance : ToValue Int16 := ⟨fun n => .int n.toInt⟩
instance : ToValue UInt32 := ⟨fun n => .int n.toNat⟩
instance : ToValue UInt16 := ⟨fun n => .int n.toNat⟩
instance : ToValue UInt8 := ⟨fun n => .int n.toNat⟩
instance : ToValue Binary64 := ⟨.float⟩
instance : ToValue Binary32 := ⟨fun x => .float x.widen⟩
instance : ToValue String := ⟨.text⟩
instance : ToValue (List UInt8) := ⟨.blob⟩
instance : ToValue Date := ⟨.date⟩
instance : ToValue TimeOfDay := ⟨.time⟩
instance : ToValue Timestamp := ⟨.timestamp⟩

/-- Nothing is NULL. -/
instance {α : Type} [ToValue α] : ToValue (Option α) where
  toValue
    | some a => toValue a
    | none => .null

end QueryCompiler
