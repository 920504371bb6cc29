import Mathlib.Algebra.Order.Ring.Nat
import Mathlib.Data.List.Infix
import Mathlib.Data.List.Forall2
import TmatePlugin.L2Plugin.UpdateLoader

/-!
# What a loaded property holds

A table is an array of rows, a row an object of string-valued columns.

* `loadTable_prefixes`: the loader pushes its row map after every column, so a
  table value has one map for every non-empty prefix of every row.
* `table_rows_iff`: that is one map for every row, with all of its columns,
  exactly when no row has two columns.

The value of a valueFromProperty is an array of items with options and a
default. The loader pushes a property for every item and drops the options.

* `valueFromProperty_iff`: it is loaded completely and once exactly when it has
  one item, without options.
-/
namespace TmatePlugin.L2.Properties

open CString
open TmatePlugin.L1.Json
open TmatePlugin.L2.PluginData
open TmatePlugin.L2.UpdateLoader

/-- A column name and its value. -/
abbrev Row := List (Bytes × Bytes)

def tableJson (rows : List Row) : CJson :=
  .array (rows.map fun row => .object (row.map fun column => (column.1, .string column.2)))

/-- The map has the columns of the row and no others; the first value of a
repeated name counts. -/
def HoldsRow (row : Row) (rowItem : RowMap) : Prop :=
  ∀ key : Bytes, rowItem[key]? = (row.find? fun column => cStr column.1 = key).map fun column =>
    cStr column.2

/-- One map for each row that has a column, in their order. -/
def RowForRow (rows : List Row) (tableValue : List RowMap) : Prop :=
  List.Forall₂ HoldsRow (rows.filter (· ≠ [])) tableValue

theorem holdsRow_empty : HoldsRow [] ∅ := fun key => by simp

/-- `insert` keeps the value that is there. -/
theorem getElem?_insertIfNew {β : Type} (rowItem : Std.TreeMap Bytes β) (key name : Bytes) (value : β) :
    (rowItem.insertIfNew name value)[key]? =
      if name = key then rowItem[key]?.or (some value) else rowItem[key]? := by
  simp only [Std.TreeMap.getElem?_insertIfNew, Std.LawfulEqCmp.compare_eq_iff_eq]
  by_cases hname : name = key
  · subst hname
    cases hget : rowItem[name]? with
    | none => simp [← Std.TreeMap.isSome_getElem?_iff_mem, hget]
    | some v => simp [← Std.TreeMap.isSome_getElem?_iff_mem, hget]
  · rw [if_neg hname, if_neg fun h => hname h.1]

theorem HoldsRow.insertIfNew {row : Row} {rowItem : RowMap} (h : HoldsRow row rowItem)
    (column : Bytes × Bytes) :
    HoldsRow (row ++ [column]) (rowItem.insertIfNew (cStr column.1) (cStr column.2)) := by
  intro key
  rw [getElem?_insertIfNew, h, List.find?_append]
  by_cases hkey : cStr column.1 = key
  · rw [if_pos hkey]
    cases row.find? fun c => cStr c.1 = key <;> simp [hkey]
  · rw [if_neg hkey]
    cases row.find? fun c => cStr c.1 = key <;> simp [hkey]

/-- The non-empty prefixes of a row. -/
theorem tail_inits_cons {α : Type} (a : α) (l : List α) :
    (a :: l).inits.tail = [a] :: l.inits.tail.map (a :: ·) := by
  cases l <;> simp

/-- The map is pushed after every column. -/
theorem loadColumns_prefixes (row before : Row) (rowItem : RowMap) (h : HoldsRow before rowItem) :
    ∃ maps, loadColumns rowItem (row.map fun column => (some (cStr column.1), .string column.2)) =
        .ok maps ∧
      List.Forall₂ HoldsRow (row.inits.tail.map (before ++ ·)) maps := by
  induction row generalizing before rowItem with
  | nil => exact ⟨[], rfl, .nil⟩
  | cons column row ih =>
    obtain ⟨maps, hmaps, hholds⟩ := ih (before ++ [column]) _ (h.insertIfNew column)
    refine ⟨rowItem.insertIfNew (cStr column.1) (cStr column.2) :: maps, ?_, ?_⟩
    · rw [List.map_cons, loadColumns]
      simp only [Outcome.deref, CJson.valuestring, Outcome.bind_ok]
      rw [hmaps]
      rfl
    · rw [tail_inits_cons, List.map_cons, List.map_map]
      refine .cons (h.insertIfNew column) ?_
      simpa only [List.append_assoc, List.singleton_append, Function.comp_def] using hholds

/-- A table value has a map for every non-empty prefix of every row. -/
theorem loadTable_prefixes (rows : List Row) :
    ∃ tableValue, loadTable (some (tableJson rows)) = .ok tableValue ∧
      List.Forall₂ HoldsRow (rows.flatMap fun row => row.inits.tail) tableValue := by
  have hrows : ∃ maps, ((tableJson rows).children.mapM fun row => loadColumns ∅ row.2.children) =
      .ok maps ∧ List.Forall₂ HoldsRow (rows.flatMap fun row => row.inits.tail) maps.flatten := by
    induction rows with
    | nil => exact ⟨[], rfl, .nil⟩
    | cons row rows ih =>
      obtain ⟨maps, hmaps, hholds⟩ := ih
      obtain ⟨own, hown, hrow⟩ := loadColumns_prefixes row [] ∅ holdsRow_empty
      simp only [List.nil_append, List.map_id'] at hrow
      refine ⟨own :: maps, ?_, ?_⟩
      · simp only [Outcome.mapM_eq_ok, tableJson, CJson.children, List.map_cons] at hmaps ⊢
        refine .cons ?_ hmaps
        simpa only [List.map_map, Function.comp_def] using hown
      · rw [List.flatMap_cons, List.flatten_cons]
        exact List.rel_append hrow hholds
  obtain ⟨maps, hmaps, hholds⟩ := hrows
  exact ⟨maps.flatten, Outcome.bind_eq_ok.mpr ⟨maps, hmaps, rfl⟩, hholds⟩

/-- With one column at most the only prefix is the row. -/
theorem prefixes_of_short {rows : List Row} (h : ∀ row ∈ rows, row.length ≤ 1) :
    (rows.flatMap fun row => row.inits.tail) = rows.filter (· ≠ []) := by
  induction rows with
  | nil => rfl
  | cons row rows ih =>
    rw [List.forall_mem_cons] at h
    rw [List.flatMap_cons, ih h.2]
    match row, h.1 with
    | [], _ => rfl
    | [column], _ => rfl
    | _ :: _ :: _, hlength => simp only [List.length_cons] at hlength; omega

/-- There are as many prefixes as columns. -/
theorem prefixes_length (rows : List Row) :
    (rows.flatMap fun row => row.inits.tail).length = (rows.map List.length).sum := by
  simp [List.length_flatMap]

/-- Every row with a column counts at least one. -/
theorem filter_length_le (rows : List Row) :
    (rows.filter (· ≠ [])).length ≤ (rows.map List.length).sum := by
  induction rows with
  | nil => exact Nat.le_refl 0
  | cons row rows ih =>
    rw [List.map_cons, List.sum_cons]
    cases row with
    | nil => simpa using ih
    | cons column row =>
      rw [List.filter_cons_of_pos (by simp), List.length_cons, List.length_cons]
      omega

theorem short_of_length {rows : List Row}
    (h : (rows.map List.length).sum = (rows.filter (· ≠ [])).length) :
    ∀ row ∈ rows, row.length ≤ 1 := by
  induction rows with
  | nil => exact fun row hrow => nomatch hrow
  | cons row rows ih =>
    have hle := filter_length_le rows
    rw [List.map_cons, List.sum_cons] at h
    cases row with
    | nil =>
      rw [List.filter_cons_of_neg (by simp), List.length_nil, Nat.zero_add] at h
      exact List.forall_mem_cons.mpr ⟨Nat.zero_le 1, ih h⟩
    | cons column row =>
      rw [List.filter_cons_of_pos (by simp), List.length_cons, List.length_cons] at h
      exact List.forall_mem_cons.mpr ⟨by rw [List.length_cons]; omega, ih (by omega)⟩

/-- The loader of one item takes the branch of the table. -/
theorem loadProperty_table {sdk : Sdk} {accepts : SdkObject → Bool} {propertyJson : CJson}
    (h : sdk.getJSONStringFieldValue propertyJson JKEY_DISPLAY_TYPE = sdk.displayType .table) :
    loadProperty sdk accepts propertyJson =
      loadTable (propertyJson.getObjectItem JKEY_VALUE) >>= fun tableValue =>
        newProperty accepts (updateProperty sdk propertyJson [] tableValue ∅) >>= fun property =>
          pure [property] := by
  have hne : ∀ t, t ≠ DisplayType.table → sdk.displayType .table ≠ sdk.displayType t :=
    fun t ht heq => ht (sdk.displayType_injective heq.symm)
  unfold loadProperty
  simp only [h, if_true, hne .string (by decide), hne .displayOn (by decide), or_self, if_false]

/-- A table is loaded row for row exactly when no row has two columns. -/
theorem table_rows_iff (sdk : Sdk) (propertyJson : CJson) (rows : List Row)
    (htype : sdk.getJSONStringFieldValue propertyJson JKEY_DISPLAY_TYPE = sdk.displayType .table)
    (hvalue : propertyJson.getObjectItem JKEY_VALUE = some (tableJson rows)) :
    (∃ property, loadProperty sdk (fun _ => true) propertyJson = .ok [property] ∧
      RowForRow rows property.m_tableValue) ↔ ∀ row ∈ rows, row.length ≤ 1 := by
  obtain ⟨tableValue, htable, hholds⟩ := loadTable_prefixes rows
  have hload : loadProperty sdk (fun _ => true) propertyJson =
      .ok [updateProperty sdk propertyJson [] tableValue ∅] := by
    rw [loadProperty_table htype, hvalue, htable]
    rfl
  constructor
  · intro h
    obtain ⟨property, hproperty, hrows⟩ := h
    rw [hload] at hproperty
    cases hproperty
    apply short_of_length
    rw [← prefixes_length, hholds.length_eq]
    exact hrows.length_eq.symm
  · intro hshort
    refine ⟨_, hload, ?_⟩
    rw [prefixes_of_short hshort] at hholds
    exact hholds

/-- Two rows of one column are two maps. -/
theorem table_rows_iff_short :
    let rows : List Row := [[(str "a", str "1")], [(str "a", str "2")]]
    let propertyJson : CJson := .object [(str "displayType", .string (str "table")),
      (str "value", tableJson rows)]
    ∃ property, loadProperty plainSdk (fun _ => true) propertyJson = .ok [property] ∧
      RowForRow rows property.m_tableValue :=
  (table_rows_iff plainSdk _ _ rfl rfl).mpr (by simp)

/-- A row with the columns a and b is loaded as the rows a and a, b. -/
theorem table_row_duplicated :
    ¬ ∀ (sdk : Sdk) (propertyJson : CJson) (rows : List Row),
      sdk.getJSONStringFieldValue propertyJson JKEY_DISPLAY_TYPE = sdk.displayType .table →
      propertyJson.getObjectItem JKEY_VALUE = some (tableJson rows) →
      ∃ property, loadProperty sdk (fun _ => true) propertyJson = .ok [property] ∧
        RowForRow rows property.m_tableValue := by
  intro h
  let rows : List Row := [[(str "a", str "1"), (str "b", str "2")]]
  let propertyJson : CJson := .object [(str "displayType", .string (str "table")),
    (str "value", tableJson rows)]
  obtain ⟨property, hproperty, hrows⟩ := h plainSdk propertyJson rows rfl rfl
  cases hproperty
  cases hrows with
  | cons _ htail => cases htail

/-! ## Values taken from another property -/

/-- The strings of the displayValues array. -/
def displayValuesOf (valueItem : CJson) : List Bytes :=
  match valueItem.getObjectItem JKEY_DISPLAY_VALUES with
  | some (.array options) => options.filterMap CJson.valuestring
  | _ => []

/-- The first of the items' values that is not empty. -/
def firstNonempty {α : Type} [DecidableEq α] (values : List (List α)) : Option (List α) :=
  values.find? (· ≠ [])

/-- One property of this name, with the options of the first item that has
some and the first default. -/
def LoadedOnce (sdk : Sdk) (propertyJson : CJson) (valueItems : List CJson)
    (lProperties : List CUpdateProperty) : Prop :=
  ∃ property, lProperties = [property] ∧
    property.m_name = sdk.getJSONStringFieldValue propertyJson JKEY_NAME ∧
    property.m_valueFromProperty[JKEY_DISPLAY_VALUES]? =
      firstNonempty (valueItems.map displayValuesOf) ∧
    property.m_valueFromProperty[JKEY_DEFAULT_VALUE]? =
      (firstNonempty (valueItems.map fun valueItem =>
        sdk.getJSONStringFieldValue valueItem JKEY_DEFAULT_VALUE)).map ([·])

/-- The loader of one item takes the branch of the items. -/
theorem loadProperty_valueFromProperty {sdk : Sdk} {accepts : SdkObject → Bool}
    {propertyJson : CJson} (h : sdk.getJSONStringFieldValue propertyJson JKEY_DISPLAY_TYPE =
      sdk.displayType .valueFromProperty) :
    loadProperty sdk accepts propertyJson = loadValueItems sdk accepts propertyJson ∅
      ((childrenOf (propertyJson.getObjectItem JKEY_VALUE)).map (·.2)) := by
  have hne : ∀ t, t ≠ DisplayType.valueFromProperty →
      sdk.displayType .valueFromProperty ≠ sdk.displayType t :=
    fun t ht heq => ht (sdk.displayType_injective heq.symm)
  unfold loadProperty
  simp only [h, if_true, hne .string (by decide), hne .displayOn (by decide),
    hne .table (by decide), hne .link (by decide), or_self, if_false]

/-- The map of a single item has its default and nothing else. -/
theorem insertDefaultValue_empty (sdk : Sdk) (valueItem : CJson) :
    (insertDefaultValue sdk valueItem ∅)[JKEY_DISPLAY_VALUES]? = none ∧
      (insertDefaultValue sdk valueItem ∅)[JKEY_DEFAULT_VALUE]? =
        (firstNonempty [sdk.getJSONStringFieldValue valueItem JKEY_DEFAULT_VALUE]).map ([·]) := by
  have hkeys : JKEY_DEFAULT_VALUE ≠ JKEY_DISPLAY_VALUES := by decide
  by_cases hdefault : sdk.getJSONStringFieldValue valueItem JKEY_DEFAULT_VALUE = []
  · simp [insertDefaultValue, hdefault, firstNonempty]
  · simp only [insertDefaultValue, if_neg hdefault, getElem?_insertIfNew, if_neg hkeys]
    simp [hdefault, firstNonempty]

/-- The value is loaded completely and once exactly when it is one item
without options. -/
theorem valueFromProperty_iff (sdk : Sdk) (propertyJson : CJson) (valueItems : List CJson)
    (hne : valueItems ≠ [])
    (htype : sdk.getJSONStringFieldValue propertyJson JKEY_DISPLAY_TYPE =
      sdk.displayType .valueFromProperty)
    (hvalue : propertyJson.getObjectItem JKEY_VALUE = some (.array valueItems)) :
    (∃ lProperties, loadProperty sdk (fun _ => true) propertyJson = .ok lProperties ∧
      LoadedOnce sdk propertyJson valueItems lProperties) ↔
      valueItems.length = 1 ∧ ∀ valueItem ∈ valueItems, displayValuesOf valueItem = [] := by
  have hitems : (CJson.array valueItems).children.map (·.2) = valueItems := by
    rw [CJson.children, List.map_map]
    exact List.map_id valueItems
  have hload : loadProperty sdk (fun _ => true) propertyJson =
      loadValueItems sdk (fun _ => true) propertyJson ∅ valueItems := by
    rw [loadProperty_valueFromProperty htype, hvalue]
    exact congrArg _ hitems
  rw [hload]
  obtain ⟨lProperties, hok, hlength⟩ := loadValueItems_length sdk propertyJson ∅ valueItems
  cases valueItems with
  | nil => exact absurd rfl hne
  | cons valueItem valueItems =>
    cases valueItems with
    | nil =>
      obtain ⟨hoptions, hdefault⟩ := insertDefaultValue_empty sdk valueItem
      have hone : loadValueItems sdk (fun _ => true) propertyJson ∅ [valueItem] =
          .ok [updateProperty sdk propertyJson [] [] (insertDefaultValue sdk valueItem ∅)] :=
        loadValueItems_cons sdk propertyJson ∅ valueItem []
      rw [List.forall_mem_singleton, hone]
      constructor
      · intro h
        obtain ⟨_, hloaded, property, rfl, -, hvalues, -⟩ := h
        cases hloaded
        have hnone := hoptions.symm.trans hvalues
        refine ⟨rfl, ?_⟩
        simpa [firstNonempty] using hnone
      · intro h
        refine ⟨_, rfl, _, rfl, rfl, ?_, hdefault⟩
        have hdropped : firstNonempty ([valueItem].map displayValuesOf) = none := by
          simp [firstNonempty, h.2]
        exact hoptions.trans hdropped.symm
    | cons valueItem' valueItems =>
      -- two items are two properties
      constructor
      · intro h
        obtain ⟨_, hloaded, property, rfl, -⟩ := h
        rw [hok] at hloaded
        cases hloaded
        simp at hlength
      · intro h
        simp at h

/-- One item with a default and no options. -/
theorem valueFromProperty_iff_default :
    let valueItems : List CJson := [.object [(str "defaultValue", .string (str "on"))]]
    let propertyJson : CJson := .object [(str "displayType", .string (str "valueFromProperty")),
      (str "value", .array valueItems)]
    ∃ lProperties, loadProperty plainSdk (fun _ => true) propertyJson = .ok lProperties ∧
      LoadedOnce plainSdk propertyJson valueItems lProperties :=
  (valueFromProperty_iff plainSdk _ _ (by simp) rfl rfl).mpr ⟨rfl, by simp; rfl⟩

/-- The options of a single item are dropped. -/
theorem displayValues_dropped :
    ¬ ∀ (sdk : Sdk) (propertyJson : CJson) (valueItems : List CJson), valueItems ≠ [] →
      sdk.getJSONStringFieldValue propertyJson JKEY_DISPLAY_TYPE =
        sdk.displayType .valueFromProperty →
      propertyJson.getObjectItem JKEY_VALUE = some (.array valueItems) →
      ∃ lProperties, loadProperty sdk (fun _ => true) propertyJson = .ok lProperties ∧
        LoadedOnce sdk propertyJson valueItems lProperties := by
  intro h
  let valueItems : List CJson := [.object [(str "displayValues", .array [.string (str "a")])]]
  let propertyJson : CJson := .object [(str "displayType", .string (str "valueFromProperty")),
    (str "value", .array valueItems)]
  obtain ⟨lProperties, hload, property, rfl, -, hvalues, -⟩ :=
    h plainSdk propertyJson valueItems (by simp [valueItems]) rfl rfl
  cases hload
  cases hvalues

end TmatePlugin.L2.Properties
