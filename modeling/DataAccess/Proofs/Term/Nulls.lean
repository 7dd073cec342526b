import DataAccess.Magazine
import DataAccess.Proofs.Conversion
import DataAccess.Proofs.Term.Bindings
import Mathlib.Data.List.Forall2

/-!
# Comparisons with null

Whether a comparison is a test for null is asked of the value that it was written with. A blank
text may become null behind that, and then null is bound.
-/

set_option autoImplicit false

namespace DataAccess

def Operator.TestsNull (op : Operator) : Prop :=
  op = .equal ∨ op = .notEqual ∨ op = .equalIgnoreCase

namespace Term

/-- A value that a leaf compares a property with. Membership in a list has no operator. -/
structure Comparand where
  prop : String
  op? : Option Operator
  value : Value

def comparands : Term → List Comparand
  | compare prop op value => if (nullTest? op value).isSome then [] else [⟨prop, some op, value⟩]
  | among prop values => values.map fun v => ⟨prop, none, v⟩
  | join joiner left right =>
    if (join joiner left right).isEmptyQuery then []
    else
      let l := match left with
        | some t => t.comparands
        | none => []
      let r := match right with
        | some t => t.comparands
        | none => []
      l ++ r

def sideComparands : Option Term → List Comparand
  | some t => t.comparands
  | none => []

variable {m : Mapping}

theorem nullTest?_null {op : Operator} (h : op.TestsNull) :
    nullTest? op .null = some (if op = .notEqual then " is not null" else " is null") := by
  rcases h with rfl | rfl | rfl <;> rfl

theorem ne_null_of_nullTest? {op : Operator} {value : Value} (hop : op.TestsNull)
    (h : nullTest? op value = none) : value ≠ .null := by
  rintro rfl
  rw [nullTest?_null hop] at h
  cases h

theorem bound_of_testsNull {op : Operator} (h : op.TestsNull) (column : Column) (value : Value) :
    bound op column value = column.type.convert value := by
  rcases h with rfl | rfl | rfl <;> rfl

def Comparand.Bound (m : Mapping) (c : Comparand) (pair : String × Value) : Prop :=
  pair.1 = c.prop ∧ (∀ op ∈ c.op?, nullTest? op c.value = none) ∧
    ∃ column, m.column? c.prop = some column ∧
      (match c.op? with
        | some op => bound op column c.value
        | none => column.type.convert c.value) = .ok pair.2

theorem sideComparands_of_isEmptyQuery {t : Option Term} (h : ∀ u ∈ t, u.isEmptyQuery = true) :
    sideComparands t = [] := by
  cases t with
  | none => rfl
  | some t =>
    have ht := h t rfl
    rw [sideComparands]
    cases t with
    | compare => cases ht
    | among prop values =>
      rw [isEmptyQuery, List.isEmpty_iff] at ht
      rw [comparands, ht]
      rfl
    | join joiner left right => cases left <;> cases right <;> exact if_pos ht

theorem comparands_join {joiner : Joiner} {left right : Option Term}
    (h : (join joiner left right).isEmptyQuery = false) :
    (join joiner left right).comparands = sideComparands left ++ sideComparands right := by
  have hsome : ¬ (join joiner left right).isEmptyQuery = true := h ▸ Bool.false_ne_true
  cases left <;> cases right <;> exact if_neg hsome

def SideBound (m : Mapping) (side : Option Term) : Prop :=
  ∀ pairs, sideBindings m side = .ok pairs →
    List.Forall₂ (Comparand.Bound m) (sideComparands side) pairs

theorem compare_bound (prop : String) (op : Operator) (value : Value) :
    SideBound m (some (compare prop op value)) := by
  intro pairs h
  rw [sideBindings, bindings] at h
  obtain ⟨column, hcolumn, h⟩ := bind_eq_ok.mp h
  rw [sideComparands, comparands]
  cases htest : nullTest? op value with
  | some test =>
    rw [htest] at h
    cases h
    exact .nil
  | none =>
    rw [htest] at h
    obtain ⟨v, hv, h⟩ := bind_eq_ok.mp h
    cases h
    refine .cons ⟨rfl, ?_, column, Mapping.column?_of_column hcolumn, hv⟩ .nil
    rintro op' ⟨⟩
    exact htest

theorem converted_bound {prop : String} {column : Column} (hcolumn : m.column? prop = some column)
    {values converted : List Value} (h : values.mapM column.type.convert = .ok converted) :
    List.Forall₂ (Comparand.Bound m) (values.map fun v => ⟨prop, none, v⟩)
      (converted.map fun v => (prop, v)) := by
  induction values generalizing converted with
  | nil =>
    cases h
    exact .nil
  | cons v values ih =>
    rw [List.mapM_cons] at h
    obtain ⟨w, hw, h⟩ := bind_eq_ok.mp h
    obtain ⟨rest, hrest, h⟩ := bind_eq_ok.mp h
    cases h
    exact .cons ⟨rfl, nofun, column, hcolumn, hw⟩ (ih hrest)

theorem among_bound (prop : String) (values : List Value) :
    SideBound m (some (among prop values)) := by
  intro pairs h
  rw [sideBindings, bindings] at h
  rw [sideComparands, comparands]
  split at h
  · next hnone =>
    cases h
    rw [List.isEmpty_iff.mp hnone]
    exact .nil
  · obtain ⟨column, hcolumn, h⟩ := bind_eq_ok.mp h
    obtain ⟨converted, hconverted, h⟩ := bind_eq_ok.mp h
    cases h
    exact converted_bound (Mapping.column?_of_column hcolumn) hconverted

theorem none_bound : SideBound m none := by
  rintro pairs ⟨⟩
  exact .nil

theorem join_bound (joiner : Joiner) {left right : Option Term} (hl : SideBound m left)
    (hr : SideBound m right) : SideBound m (some (join joiner left right)) := by
  intro pairs h
  cases he : (join joiner left right).isEmptyQuery with
  | true =>
    have hempty : ∀ u ∈ some (join joiner left right), u.isEmptyQuery = true := by
      rintro u ⟨⟩
      exact he
    rw [sideBindings_of_isEmptyQuery hempty] at h
    cases h
    rw [sideComparands_of_isEmptyQuery hempty]
    exact .nil
  | false =>
    rw [sideBindings, bindings_join he] at h
    obtain ⟨l, hleft, h⟩ := bind_eq_ok.mp h
    obtain ⟨r, hright, h⟩ := bind_eq_ok.mp h
    cases h
    rw [sideComparands, comparands_join he]
    exact List.rel_append (hl l hleft) (hr r hright)

theorem bindings_bound (t : Term) : SideBound m (some t) := by
  induction t using isEmptyQuery.induct with
  | case1 prop op value => exact compare_bound prop op value
  | case2 prop values => exact among_bound prop values
  | case3 joiner => exact join_bound joiner none_bound none_bound
  | case4 joiner l ih => exact join_bound joiner ih none_bound
  | case5 joiner r ih => exact join_bound joiner none_bound ih
  | case6 l r ihl ihr => exact join_bound _ ihl ihr
  | case7 l r ihl ihr => exact join_bound _ ihl ihr

theorem Comparand.Bound.null_iff {c : Comparand} {pair : String × Value} (h : c.Bound m pair)
    {op : Operator} (hc : c.op? = some op) (hop : op.TestsNull) :
    c.value ≠ .null ∧ (pair.2 = .null ↔
      ∃ column, m.column? c.prop = some column ∧ column.type.Clears c.value) := by
  obtain ⟨-, htest, column, hcolumn, hbound⟩ := h
  have hsome := ne_null_of_nullTest? hop (htest op hc)
  simp only [hc, bound_of_testsNull hop] at hbound
  refine ⟨hsome, fun hnull => ⟨column, hcolumn, ?_⟩, ?_⟩
  · rw [hnull] at hbound
    exact (ColumnType.convert_eq_null.mp hbound).resolve_left hsome
  · rintro ⟨column', hcolumn', hclears⟩
    obtain rfl : column = column' := Option.some.inj (hcolumn.symm.trans hcolumn')
    exact Except.ok.inj (hbound.symm.trans (ColumnType.convert_eq_null.mpr (.inr hclears)))

/-- A comparison that is written with null is a test for null and adds no parameter. Every
parameter stands for a value that a leaf was written with, and where the leaf would test for null
that value is not null; the parameter is null if the column's type reads the value so, and only
then. -/
theorem comparison_with_null (m : Mapping) :
    (∀ {prop op column}, m.column? prop = some column → op.TestsNull → ∀ ps,
      ((compare prop op .null).render m).run ps =
        (.ok (column.sqlName ++ if op = .notEqual then " is not null" else " is null"), ps)) ∧
    ∀ {t ps ps' sql}, (render m t).run ps = (.ok sql, ps') →
      ∃ new, ps'.entries = ps.entries ++ new ∧
        List.Forall₂ (fun c e => c.Bound m (e.prop, e.value) ∧
          ∀ op, c.op? = some op → op.TestsNull → c.value ≠ .null ∧ (e.value = .null ↔
            ∃ column, m.column? c.prop = some column ∧ column.type.Clears c.value))
          t.comparands new := by
  constructor
  · intro prop op column hcolumn hop ps
    rw [render, renderCompare, Mapping.column, hcolumn, nullTest?_null hop]
    rfl
  · intro t ps ps' sql h
    obtain ⟨pairs, hpairs, new, hentries, rfl⟩ := render_bindings (t := some t) h
    have hnew := List.forall₂_map_right_iff.mp (bindings_bound t _ hpairs)
    exact ⟨new, hentries, hnew.imp fun c e hbound => ⟨hbound, fun op => hbound.null_iff⟩⟩

/-- A blank key is bound as null, and a blank title as it is. -/
theorem comparison_with_null_article :
    let m := Magazine.article .mySQL
    let key := compare "id" .equal (.text " ")
    let title := compare "title" .notEqual (.text " ")
    let content := compare "content" .equal .null
    ∃ sql idParam titleParam, (render m (join .and (some key) (some title))).run .empty =
        (.ok sql, ⟨[idParam, titleParam]⟩) ∧
      idParam.value = .null ∧ titleParam.value ≠ .null ∧
      (render m content).run ⟨[idParam, titleParam]⟩ =
        (.ok "DESCRIPTION is null", ⟨[idParam, titleParam]⟩) := by
  have hrender : (render (Magazine.article .mySQL) (join .and
      (some (compare "id" .equal (.text " "))) (some (compare "title" .notEqual (.text " "))))).run
        .empty = (.ok (joinSides .and false false "id = :id_0" "NAME <> :title_0"),
          ⟨[⟨"id_0", "id", .null⟩, ⟨"title_0", "title", .text " "⟩]⟩) := rfl
  intro m key title content
  obtain ⟨hnull, hadded⟩ := comparison_with_null m
  have hblank : Text.isBlankText " " = true := by
    rw [Text.isBlankText_eq_allBlank]
    rfl
  obtain ⟨new, hnew, hall⟩ := hadded hrender
  obtain rfl : _ = new := hnew
  obtain _ | ⟨⟨-, hid⟩, _ | ⟨⟨-, htitle⟩, -⟩⟩ := hall
  have hcontent : m.column? "content" =
      some (Magazine.column .mySQL "content" "DESCRIPTION" .string) := rfl
  refine ⟨_, _, _, hrender, (hid .equal rfl (.inl rfl)).2.mpr ?_, ?_, hnull hcontent (.inl rfl) _⟩
  · exact ⟨_, rfl, rfl, " ", rfl, hblank⟩
  · intro h
    obtain ⟨column, hcolumn, htype, -⟩ := (htitle .notEqual rfl (.inr (.inl rfl))).2.mp h
    cases hcolumn
    cases htype

/-- The key is compared with a parameter that is null, as no row's key is. -/
theorem null_bound :
    ((compare "id" .equal (.text " ")).render (Magazine.article .mySQL)).run .empty =
      (.ok "id = :id_0", ⟨[⟨"id_0", "id", .null⟩]⟩) := rfl

end Term

end DataAccess
