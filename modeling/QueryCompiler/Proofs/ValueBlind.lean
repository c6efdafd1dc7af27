import QueryCompiler.Dialect.Engine
import QueryCompiler.Proofs.LikeStatements

/-! # Values and the text of statements

The text of a statement does not depend on the values that are bound in it. Plans that differ only in
values are compiled to the same text, with as many bindings of the same purposes; or both fail, for the
same reason. Only whether a value is NULL may show, where a filter compares with `=` or `!=`.
-/

namespace QueryCompiler
set_option autoImplicit false

/-- Leaves that agree in all but values. Raw SQL keeps its text and the number of its values. -/
def Likeness.upToValues : Likeness where
  column := Eq
  table := Eq
  source := Eq
  name := Eq
  key := Eq
  value _ _ := True
  raw raw raw' := raw.sql = raw'.sql ∧ raw.values.length = raw'.values.length
  lock _ := True

/-- Stretches with the same text, and bindings that have the same purposes one by one. -/
structure Sql.SameButValues (sql sql' : Sql) : Prop where
  text : sql.text = sql'.text
  purposes : List.Forall₂ (fun b b' => b.purpose = b'.purpose) sql.bindings sql'.bindings

namespace Likeness

/-- Fragments are read the same twice. -/
theorem upToValues_reading (tablePrefix : String) :
    upToValues.Reading Eq tablePrefix tablePrefix where
  blame _ := rfl
  blame_column cause h := congrArg (fun fragment => Error.construction (cause fragment)) h
  name_self _ := rfl
  name_wildcard h := by rw [h]
  column := by
    rintro fragment _ rfl
    refine .refl _ (fun _ => rfl) fun column => ⟨List.forall₂_same.2 fun _ _ => rfl, ?_, ?_⟩
    · exact JsonStep.like_self (fun _ => rfl) column.json
    · exact rel_self (fun _ => rfl) column.label
  plain := by
    rintro fragment _ rfl
    exact .refl _ (fun _ => rfl) fun _ => rfl
  table := by
    rintro fragment _ rfl
    refine .refl _ (fun _ => rfl) fun table => ⟨List.forall₂_same.2 fun _ _ => rfl, ?_⟩
    exact rel_self (fun _ => rfl) table.label
  source h := congrArg (tablePrefix ++ ·) h
  one := ⟨rfl, rfl⟩

/-- Rows that differ in values have the same columns in the same places. -/
theorem upToValues_rows {rows rows' : List Row}
    (h : List.Forall₂ (Row.Like upToValues) rows rows') : Row.ListLike upToValues rows rows' := by
  have hpairs : ∀ pair ∈ Row.columnPairs rows rows', pair.1 = pair.2 := by
    intro pair hpair
    obtain ⟨⟨row, row'⟩, hrow, hpair⟩ := List.mem_flatMap.1 hpair
    exact List.forall₂_zip (Row.Like.columns (List.forall₂_zip h hrow)) hpair
  refine ⟨h, fun pair hpair pair' hpair' => ?_⟩
  rw [hpairs pair hpair, hpairs pair' hpair']

end Likeness

namespace Sql.SameButValues

theorem ofText (text : String) : SameButValues text text := ⟨rfl, .nil⟩

theorem append {a a' b b' : Sql} (ha : SameButValues a a') (hb : SameButValues b b') :
    SameButValues (a ++ b) (a' ++ b') :=
  ⟨congrArg₂ (· ++ ·) ha.text hb.text, List.rel_append ha.purposes hb.purposes⟩

theorem ofRaw {raw raw' : Raw} (h : Likeness.upToValues.raw raw raw') (purpose : Purpose) :
    SameButValues (.ofRaw raw purpose) (.ofRaw raw' purpose) := by
  refine ⟨h.1, ?_⟩
  rw [Sql.ofRaw, Sql.ofRaw, List.forall₂_map_left_iff, List.forall₂_map_right_iff]
  exact List.forall₂_iff_zip.2 ⟨h.2, fun _ => rfl⟩

theorem mapText {a a' : Sql} (h : SameButValues a a') (f : String → String) :
    SameButValues (a.mapText f) (a'.mapText f) := ⟨congrArg f h.text, h.purposes⟩

theorem retag {a a' : Sql} (h : SameButValues a a') (purpose : Purpose) :
    SameButValues (a.retag purpose) (a'.retag purpose) := by
  refine ⟨h.text, ?_⟩
  rw [bindings_retag, bindings_retag, Bindings.retag, Bindings.retag, List.forall₂_map_left_iff,
    List.forall₂_map_right_iff]
  exact h.purposes.imp fun _ _ _ => rfl

end Sql.SameButValues

/-- Texts and purposes stay the same at any place of a statement. -/
def Pairing.upToValues (dialect : Dialect) : Pairing Likeness.upToValues Eq dialect where
  holds _ _ := Sql.SameButValues
  blame _ := rfl
  name_self _ := rfl
  of_any := id
  to_any := id
  append := .append
  empty _ := .ofText ""
  separator _ := .ofText _
  phrase _ := .ofText _
  hook hf h := by
    rw [hf.eq fun _ _ => id]
    exact h.mapText _
  name h := by
    cases h
    exact .ofText _
  bound _ _ := ⟨rfl, .cons rfl .nil⟩
  raw purpose h := .ofRaw h purpose
  retag purpose h := h.retag purpose
  lock _ _ := .ofText _

/-- Values do not influence the text of a statement, the number of its bindings or their purposes, and
neither whether nor why it fails. -/
theorem text_ignores_values (c : Compiler) {plan plan' source source' : Plan}
    {rows rows' : List Row} {row row' : Row} (hplan : Plan.Like .upToValues plan plan')
    (hsource : Plan.Like .upToValues source source')
    (hrows : List.Forall₂ (Row.Like .upToValues) rows rows') (hrow : Row.Like .upToValues row row')
    (columns key update : List String) (id : Option Name) :
    Matched Eq Sql.SameButValues (c.select plan) (c.select plan') ∧
    Matched Eq Sql.SameButValues (c.existence plan) (c.existence plan') ∧
    Matched Eq Sql.SameButValues (c.insert plan rows) (c.insert plan' rows') ∧
    Matched Eq Sql.SameButValues (c.insertOrIgnore plan rows) (c.insertOrIgnore plan' rows') ∧
    Matched Eq Sql.SameButValues (c.insertGetId plan row id) (c.insertGetId plan' row' id) ∧
    Matched Eq Sql.SameButValues (c.insertUsing plan columns source)
      (c.insertUsing plan' columns source') ∧
    Matched Eq Sql.SameButValues (c.upsert plan rows key update)
      (c.upsert plan' rows' key update) ∧
    Matched Eq Sql.SameButValues (c.update plan row) (c.update plan' row') ∧
    Matched Eq Sql.SameButValues (c.delete plan) (c.delete plan') := by
  obtain ⟨dialect, tablePrefix⟩ := c
  have hL := Likeness.upToValues_reading tablePrefix
  have hequal (fragments : List String) :
      List.Forall₂ Likeness.upToValues.column fragments fragments :=
    List.forall₂_same.2 fun _ _ => rfl
  have hid : Option.Rel Likeness.upToValues.name id id := rel_self (fun _ => rfl) id
  have hlist := Likeness.upToValues_rows hrows
  have hsingle := Likeness.upToValues_rows (.cons hrow .nil)
  exact ⟨Compiler.select_like (.upToValues dialect) hL hplan,
    Compiler.existence_like (.upToValues dialect) hL hplan,
    Compiler.insert_like (.upToValues dialect) hL hplan hlist,
    Compiler.insertOrIgnore_like (.upToValues dialect) hL hplan hlist,
    Compiler.insertGetId_like (.upToValues dialect) hL hplan hsingle hid,
    Compiler.insertUsing_like (.upToValues dialect) hL hplan (hequal columns) hsource,
    Compiler.upsert_like (.upToValues dialect) hL hplan hlist (hequal key) (hequal update),
    Compiler.update_like (.upToValues dialect) hL hplan hrow,
    Compiler.delete_like (.upToValues dialect) hL hplan⟩

/-- Users with a post above a score, or with one of two names that a raw condition allows. -/
def Plan.rankedUsers (score name other : Value) : Plan where
  source := some (.table "users")
  filters := [
    ⟨.and, .inSubquery "id"
      { selections := [.column "user_id"], source := some (.table "posts"),
        filters := [⟨.and, .compare "score" .gt (.value score)⟩] } false⟩,
    ⟨.or, .isIn "name" [name, other] false⟩,
    ⟨.and, .raw ⟨"allowed(?, name)", [name]⟩⟩]

/-- A row that names a user. -/
def Row.namedUser (name : Value) : Row := .ofList [("name", .value name)]

theorem Plan.rankedUsers_like (score score' name name' other other' : Value) :
    Plan.Like .upToValues (rankedUsers score name other) (rankedUsers score' name' other') :=
  have hposts : Plan.Like .upToValues
      { selections := [.column "user_id"], source := some (.table "posts"),
        filters := [⟨.and, .compare "score" .gt (.value score)⟩] }
      { selections := [.column "user_id"], source := some (.table "posts"),
        filters := [⟨.and, .compare "score" .gt (.value score')⟩] } :=
    .mk false {} {} none (.cons (.column rfl) .nil) (.some (.table rfl)) .nil
      (.cons (.mk .and (.compare rfl (.value trivial) rfl)) .nil) .nil .nil .nil .nil .nil .none nofun
  .mk false {} {} none .nil (.some (.table rfl)) .nil
    (.cons (.mk .and (.inSubquery false rfl hposts))
      (.cons (.mk .or (.isIn false rfl (.cons trivial (.cons trivial .nil))))
        (.cons (.mk .and (.raw ⟨rfl, rfl⟩)) .nil)))
    .nil .nil .nil .nil .nil .none nofun

/-- Values in a sub-query, in a list and in raw SQL: a number stands in for a text that reads like
SQL. -/
theorem text_ignores_values_nested :
    Plan.Like .upToValues (.rankedUsers (.int 5) (.text "Ada") .null)
        (.rankedUsers (.text "5 OR 1 = 1") .null (.text "?")) ∧
      Row.Like .upToValues (.namedUser (.text "Ada")) (.namedUser .null) ∧
      Matched Eq Sql.SameButValues
        (Compiler.update ⟨Engine.postgres.dialect, "app_"⟩
          (.rankedUsers (.int 5) (.text "Ada") .null) (.namedUser (.text "Ada")))
        (Compiler.update ⟨Engine.postgres.dialect, "app_"⟩
          (.rankedUsers (.text "5 OR 1 = 1") .null (.text "?")) (.namedUser .null)) :=
  have hplan :=
    Plan.rankedUsers_like (.int 5) (.text "5 OR 1 = 1") (.text "Ada") .null .null (.text "?")
  have hrow : Row.Like .upToValues (.namedUser (.text "Ada")) (.namedUser .null) :=
    .cons ⟨rfl, .value trivial⟩ .nil
  ⟨hplan, hrow, (text_ignores_values ⟨Engine.postgres.dialect, "app_"⟩ hplan hplan
    (.cons hrow .nil) hrow [] [] [] none).2.2.2.2.2.2.2.1⟩

end QueryCompiler
