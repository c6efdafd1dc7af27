import QueryCompiler.Binding.Basic
import QueryCompiler.Dialect.Basic

/-! # SQL text with bindings

A stretch of SQL text with the bindings of its placeholders. Stretches are put together from left to
right, text and bindings alike, so the bindings stay in the order of the placeholders.
-/

namespace QueryCompiler
set_option autoImplicit false

/-- SQL text and the bindings of its placeholders, in order. -/
structure Sql where
  text : String := ""
  bindings : Bindings := []
  deriving DecidableEq

namespace Sql

/-- Text without placeholders. -/
def ofText (text : String) : Sql := ⟨text, []⟩

instance : Coe String Sql := ⟨ofText⟩

/-- One stretch behind another. -/
def append (first second : Sql) : Sql :=
  ⟨first.text ++ second.text, first.bindings ++ second.bindings⟩

instance : Append Sql := ⟨append⟩

/-- A placeholder and its value. -/
def bound (placeholder : String) (value : Value) (purpose : Purpose) : Sql :=
  ⟨placeholder, [⟨value, purpose⟩]⟩

/-- Text as it is, with values of one purpose. -/
def ofRaw (raw : Raw) (purpose : Purpose) : Sql :=
  ⟨raw.sql, raw.values.map (⟨·, purpose⟩)⟩

/-- The same text, with one purpose for all bindings. -/
def retag (sql : Sql) (purpose : Purpose) : Sql := ⟨sql.text, sql.bindings.retag purpose⟩

/-- A stretch in parentheses. -/
def parens (sql : Sql) : Sql := "(" ++ sql ++ ")"

/-- Another text in place of the text, made by a function of a dialect. -/
def mapText (f : String → String) (sql : Sql) : Sql := ⟨f sql.text, sql.bindings⟩

/-- Stretches with a separator between them. -/
def join (separator : String) : List Sql → Sql
  | [] => {}
  | [sql] => sql
  | sql :: sqls => sql ++ separator ++ join separator sqls

/-- The values of the placeholders, in order. -/
def values (sql : Sql) : List Value := sql.bindings.values

/-! ## Text and bindings of a stretch -/

@[simp] theorem text_ofText (s : String) : (ofText s).text = s := rfl

@[simp] theorem bindings_ofText (s : String) : (ofText s).bindings = [] := rfl

@[simp] theorem text_append (a b : Sql) : (a ++ b).text = a.text ++ b.text := rfl

@[simp] theorem bindings_append (a b : Sql) : (a ++ b).bindings = a.bindings ++ b.bindings := rfl

@[simp] theorem text_retag (sql : Sql) (purpose : Purpose) :
    (sql.retag purpose).text = sql.text := rfl

@[simp] theorem bindings_retag (sql : Sql) (purpose : Purpose) :
    (sql.retag purpose).bindings = sql.bindings.retag purpose := rfl

theorem append_assoc (a b c : Sql) : a ++ b ++ c = a ++ (b ++ c) := by
  show Sql.mk _ _ = Sql.mk _ _
  rw [text_append, bindings_append, String.append_assoc, List.append_assoc]
  rfl

end Sql

end QueryCompiler
