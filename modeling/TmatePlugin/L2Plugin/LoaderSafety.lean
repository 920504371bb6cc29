import TmatePlugin.L2Plugin.UpdateLoader

/-!
# When loading an update description faults

The document is read in order, and there are two kinds of places in it that
end the loading (`obstacles`): a pointer that is followed and is NULL, or an
empty row of a flat list (`Exit.fault`), and a value that should be an array
(`Exit.ret`, the checked `return NULL`).

* `update_never_faults_iff`: whatever the SDK throws on, the loading does not
  fault, exactly when the first of these places is not a fault.
* `missing_appGUID_faults`: a document without appGUID is faulted on at once.
-/
namespace TmatePlugin.L2.LoaderSafety

open CString Outcome
open TmatePlugin.L1.Json
open TmatePlugin.L2.PluginData
open TmatePlugin.L2.UpdateLoader

/-! ## The places of a document -/

section
variable (sdk : Sdk)

/-- A value that should be an array, when it is there. -/
def arrayPlace (json : Option CJson) : List Exit :=
  if json.all CJson.isArray then [] else [.ret]

/-- The options of a checkbox, switch or list should be strings. -/
def paramPlaces (paramJson : CJson) : List Exit :=
  if readsDisplayValues sdk paramJson then
    (childrenOf (paramJson.getObjectItem JKEY_DISPLAY_VALUES)).flatMap fun value =>
      nullPlace value.2.valuestring
  else []

/-- A column has a name and a string. -/
def columnPlaces (column : Option Bytes × CJson) : List Exit :=
  nullPlace column.1 ++ nullPlace column.2.valuestring

def tablePlaces (tableJson : Option CJson) : List Exit :=
  (childrenOf tableJson).flatMap fun row => row.2.children.flatMap columnPlaces

def propertyPlaces (propertyJson : CJson) : List Exit :=
  if sdk.getJSONStringFieldValue propertyJson JKEY_DISPLAY_TYPE = sdk.displayType .table then
    tablePlaces (propertyJson.getObjectItem JKEY_VALUE)
  else []

/-- The values are strings, and a value that is not empty has a name to be
kept under. -/
def displayOnPlaces (property : Option Bytes × CJson) : List Exit :=
  if property.2.isArray then
    (property.2.children.flatMap fun propValueJson => nullPlace propValueJson.2.valuestring) ++
      if property.2.children.all fun propValueJson => propValueJson.2.valuestring = some [] then []
      else nullPlace property.1
  else []

def commandPlaces (commandJson : CJson) : List Exit :=
  (childrenOf (commandJson.getObjectItem JKEY_DISPLAY_ON_PROPERTY)).flatMap displayOnPlaces

/-- A flat list takes the first parameter of every row. -/
def choicePlaces (is2DArray : Bool) (elements : List CJson) : List Exit :=
  if is2DArray then [] else elements.flatMap fun paramJson => nullPlace (rowJsons paramJson).head?

/-- The places of the items of one array; `own` are those of the fields that
its kind of item has besides `params`. -/
def itemsPlaces (own : CJson → List Exit) : Bool → List CJson → List Exit
  | _, [] => []
  | is2DArray, itemJson :: items =>
    arrayPlace (itemJson.getObjectItem JKEY_PARAMS) ++
      ((elementsOf itemJson).flatMap fun paramJson => (rowJsons paramJson).flatMap (paramPlaces sdk)) ++
      own itemJson ++
      choicePlaces (flagAfter is2DArray (elementsOf itemJson)) (elementsOf itemJson) ++
      itemsPlaces own (flagAfter is2DArray (elementsOf itemJson)) items

/-- A section of a module, with the places of its items. -/
def sectionPlaces (moduleJson : CJson) (dataType : DataTypes) (places : List CJson → List Exit) :
    List Exit :=
  arrayPlace (moduleJson.getObjectItem (sdk.dataTypes dataType)) ++
    places (itemsOf (moduleJson.getObjectItem (sdk.dataTypes dataType)))

def modulePlaces (moduleJson : CJson) : List Exit :=
  sectionPlaces sdk moduleJson .properties (·.flatMap (propertyPlaces sdk)) ++
    (sectionPlaces sdk moduleJson .states (fun _ => []) ++
    (sectionPlaces sdk moduleJson .metrics (fun _ => []) ++
    (sectionPlaces sdk moduleJson .events (fun _ => []) ++
    (sectionPlaces sdk moduleJson .commands (itemsPlaces sdk commandPlaces false) ++
    (sectionPlaces sdk moduleJson .alarms (itemsPlaces sdk (fun _ => []) false) ++
    sectionPlaces sdk moduleJson .configs (itemsPlaces sdk (fun _ => []) false))))))

/-- An appGUID that is not the configured one is overwritten, so it has to be
there. -/
def appGUIDPlaces (self : CPluginSample) (document : CJson) : List Exit :=
  if sdk.getJSONStringFieldValue document JKEY_APP_GUID = self.appGUID then []
  else nullPlace (document.getObjectItem JKEY_APP_GUID)

/-- The places where reading the document can end, in the order they are
read. -/
def obstacles (self : CPluginSample) : Option CJson → List Exit
  | none => [.ret]
  | some document =>
    appGUIDPlaces sdk self document ++
      ((if (document.getObjectItem JKEY_MODULES).any CJson.isArray then [] else [.ret]) ++
      (itemsOf (document.getObjectItem JKEY_MODULES)).flatMap (modulePlaces sdk))

end

/-! ## The loader passes its places -/

/-- The places of a loader under an SDK that accepts everything. -/
abbrev Loads {α : Type} (load : (SdkObject → Bool) → Outcome α) (places : List Exit) : Prop :=
  Passes (fun _ => true) load places

theorem construct_loads {α : Type} (object : SdkObject) (a : α) :
    Loads (fun accepts => construct accepts object a) [] where
  cutShort accepts := by
    unfold construct
    split
    · exact .refl _
    · exact .inl rfl
  exits := .ok a

/-- A value that is kept after an SDK object is made from it. -/
theorem construct_map {α β : Type} (object : SdkObject) (a : α) (g : α → β) :
    Loads (fun accepts => construct accepts object a >>= fun a => pure (g a)) [] :=
  (construct_loads object a).map g

theorem arrayItems_exits (json : Option CJson) : Exits (arrayItems json) (arrayPlace json) := by
  cases json with
  | none => exact .pure _
  | some json =>
    rw [arrayItems, arrayPlace, Option.all_some]
    by_cases harray : json.isArray = true
    · rw [if_pos harray, if_pos harray]; exact .pure _
    · rw [if_neg harray, if_neg harray]; exact .error .ret []

/-- An array and what is done with its items. -/
theorem arrayItems_loads {β : Type} {f : (SdkObject → Bool) → List CJson → Outcome β}
    {places : List CJson → List Exit} (json : Option CJson)
    (hf : ∀ items, Loads (fun accepts => f accepts items) (places items)) :
    Loads (fun accepts => arrayItems json >>= f accepts) (arrayPlace json ++ places (itemsOf json)) := by
  refine (Passes.const (arrayItems_exits json)).bind fun items hitems => ?_
  rw [← arrayItems_eq_ok hitems]
  exact hf items

/-! ### Parameters -/

section
variable (sdk : Sdk)

theorem paramDisplayValues_exits (paramJson : CJson) :
    Exits (paramDisplayValues sdk paramJson) (paramPlaces sdk paramJson) := by
  unfold paramDisplayValues paramPlaces
  split
  · exact .mapM fun value _ => .deref value.2.valuestring
  · exact .pure []

theorem getUpdateConfigParam_loads (paramJson : CJson) :
    Loads (fun accepts => getUpdateConfigParam sdk accepts paramJson) (paramPlaces sdk paramJson) :=
  (Passes.const (paramDisplayValues_exits sdk paramJson)).andThen fun _ _ => construct_loads _ _

theorem getUpdateAlarmParam_loads (paramJson : CJson) :
    Loads (fun accepts => getUpdateAlarmParam sdk accepts paramJson) (paramPlaces sdk paramJson) :=
  (getUpdateConfigParam_loads sdk paramJson).andThen fun _ _ => construct_loads _ _

theorem getUpdateCommandParam_loads (paramJson : CJson) :
    Loads (fun accepts => getUpdateCommandParam sdk accepts paramJson) (paramPlaces sdk paramJson) :=
  (getUpdateConfigParam_loads sdk paramJson).andThen fun _ _ => construct_loads _ _

/-! ### Properties -/

theorem loadColumns_exits (rowItem : RowMap) (columns : List (Option Bytes × CJson)) :
    Exits (loadColumns rowItem columns) (columns.flatMap columnPlaces) := by
  induction columns generalizing rowItem with
  | nil => exact .pure []
  | cons column columns ih =>
    rw [loadColumns, List.flatMap_cons, columnPlaces, List.append_assoc]
    refine (Exits.deref column.1).bind fun key _ => ?_
    refine (Exits.deref column.2.valuestring).bind fun value _ => ?_
    exact (ih _).andThen fun tableValue _ => .pure _

theorem loadTable_exits (tableJson : Option CJson) :
    Exits (loadTable tableJson) (tablePlaces tableJson) :=
  (Exits.mapM fun row _ => loadColumns_exits ∅ row.2.children).andThen fun _ _ => .pure _

theorem loadValueItems_loads (propertyJson : CJson) (valueFromProperty : ListMap)
    (valueItems : List CJson) :
    Loads (fun accepts => loadValueItems sdk accepts propertyJson valueFromProperty valueItems) [] := by
  induction valueItems generalizing valueFromProperty with
  | nil => exact .pure []
  | cons valueItem valueItems ih =>
    simp only [loadValueItems, insertDisplayValues_eq, pure_bind]
    refine (construct_loads _ _).bind fun property _ => ?_
    exact (ih _).map (property :: ·)

theorem loadProperty_loads (propertyJson : CJson) :
    Loads (fun accepts => loadProperty sdk accepts propertyJson) (propertyPlaces sdk propertyJson) := by
  have htype : ∀ t, t ≠ DisplayType.table →
      sdk.getJSONStringFieldValue propertyJson JKEY_DISPLAY_TYPE = sdk.displayType t →
      sdk.getJSONStringFieldValue propertyJson JKEY_DISPLAY_TYPE ≠ sdk.displayType .table :=
    fun t hne ht htable => hne (sdk.displayType_injective (ht.symm.trans htable))
  unfold loadProperty propertyPlaces
  by_cases hstring : sdk.getJSONStringFieldValue propertyJson JKEY_DISPLAY_TYPE = sdk.displayType .string ∨
      sdk.getJSONStringFieldValue propertyJson JKEY_DISPLAY_TYPE = sdk.displayType .displayOn
  · have hne := hstring.elim (htype .string (by decide)) (htype .displayOn (by decide))
    simp only [if_pos hstring, if_neg hne]
    exact construct_map _ _ _
  simp only [if_neg hstring]
  by_cases htable : sdk.getJSONStringFieldValue propertyJson JKEY_DISPLAY_TYPE = sdk.displayType .table
  · simp only [if_pos htable]
    exact (Passes.const (loadTable_exits _)).andThen fun tableValue _ => construct_map _ _ _
  simp only [if_neg htable]
  by_cases hlink : sdk.getJSONStringFieldValue propertyJson JKEY_DISPLAY_TYPE = sdk.displayType .link
  · simp only [if_pos hlink]
    cases propertyJson.getObjectItem JKEY_VALUE with
    | none => exact .pure []
    | some linkJson => exact construct_map _ _ _
  simp only [if_neg hlink]
  split
  · exact loadValueItems_loads sdk propertyJson ∅ _
  · exact .pure []

/-! ### Items with parameters -/

section
variable {P β : Type}

/-- A loaded row is empty where the row of the document is. -/
theorem row_place {getParam : CJson → Outcome P} {jsons : List CJson} {row : List P}
    (h : jsons.mapM getParam = .ok row) : nullPlace row.head? = nullPlace jsons.head? := by
  cases mapM_eq_ok.mp h with
  | nil => rfl
  | cons _ _ => rfl

theorem rows_places {getParam : CJson → Outcome P} {elements : List CJson} {rows : List (List P)}
    (h : List.Forall₂ (fun paramJson row => (rowJsons paramJson).mapM getParam = .ok row)
      elements rows) :
    (rows.flatMap fun row => nullPlace row.head?) =
      elements.flatMap fun paramJson => nullPlace (rowJsons paramJson).head? := by
  induction h with
  | nil => rfl
  | cons hrow _ ih => rw [List.flatMap_cons, List.flatMap_cons, row_place hrow, ih]

theorem chooseParams_exits (is2DArray : Bool) (rows : List (List P)) :
    Exits (chooseParams is2DArray rows)
      (if is2DArray then [] else rows.flatMap fun row => nullPlace row.head?) := by
  unfold chooseParams
  split
  · exact .pure _
  · exact (Exits.mapM fun row _ => .deref row.head?).andThen fun tmpParams _ => .pure _

/-- The elements of one `params`, and what is done with the rows. -/
theorem loadParams_loads {getParam : (SdkObject → Bool) → CJson → Outcome P}
    {f : (SdkObject → Bool) → List (List P) × Bool → Outcome β} {places : List Exit}
    (is2DArray : Bool) (itemJson : CJson)
    (hget : ∀ paramJson, Loads (fun accepts => getParam accepts paramJson) (paramPlaces sdk paramJson))
    (hf : ∀ rows, List.Forall₂ (fun paramJson row =>
        (rowJsons paramJson).mapM (getParam fun _ => true) = .ok row) (elementsOf itemJson) rows →
      Loads (fun accepts => f accepts (rows, flagAfter is2DArray (elementsOf itemJson))) places) :
    Loads (fun accepts => loadParams (getParam accepts) is2DArray itemJson >>= f accepts)
      (arrayPlace (itemJson.getObjectItem JKEY_PARAMS) ++
        (((elementsOf itemJson).flatMap fun paramJson =>
          (rowJsons paramJson).flatMap (paramPlaces sdk)) ++ places)) := by
  simp only [loadParams, bind_assoc, loadElements_eq, pure_bind]
  refine (Passes.const (arrayItems_exits _)).bind fun items hitems => ?_
  rw [arrayItems_eq_ok hitems]
  refine Passes.bind (Passes.mapM fun paramJson _ => .mapM fun p _ => hget p) fun rows hrows => ?_
  exact hf rows (mapM_eq_ok.mp hrows)

theorem loadItems_loads {getParam : (SdkObject → Bool) → CJson → Outcome P}
    {update : (SdkObject → Bool) → CJson → Bool → List (List P) → Outcome β} {own : CJson → List Exit}
    (hget : ∀ paramJson, Loads (fun accepts => getParam accepts paramJson) (paramPlaces sdk paramJson))
    (hupdate : ∀ itemJson is2DArray rows, Loads (fun accepts => update accepts itemJson is2DArray rows)
      (own itemJson ++ if is2DArray then [] else rows.flatMap fun row => nullPlace row.head?))
    (is2DArray : Bool) (items : List CJson) :
    Loads (fun accepts => loadItems (getParam accepts) (update accepts) is2DArray items)
      (itemsPlaces sdk own is2DArray items) := by
  induction items generalizing is2DArray with
  | nil => exact .pure []
  | cons itemJson items ih =>
    simp only [loadItems, itemsPlaces, List.append_assoc]
    refine loadParams_loads sdk is2DArray itemJson hget fun rows hrows => ?_
    have hobject := hupdate itemJson (flagAfter is2DArray (elementsOf itemJson)) rows
    rw [rows_places hrows] at hobject
    rw [← List.append_assoc (own itemJson)]
    exact hobject.bind fun object _ => (ih _).map (object :: ·)

end

/-! ### Commands, alarms and configs -/

/-- All values are read, so they are all empty when the strings are. -/
theorem values_empty_iff {property : List (Option Bytes × CJson)} {values : List Bytes}
    (h : List.Forall₂ (fun propValueJson value =>
      Outcome.deref propValueJson.2.valuestring = .ok value) property values) :
    values.filter (· ≠ []) = [] ↔
      (property.all fun propValueJson => propValueJson.2.valuestring = some []) = true := by
  rw [List.filter_eq_nil_iff, List.all_eq_true]
  induction h with
  | nil => simp
  | cons hvalue _ ih =>
    rw [List.forall_mem_cons, List.forall_mem_cons, ih, deref_eq_ok.mp hvalue]
    simp

theorem displayOnEntry_exits (property : Option Bytes × CJson) :
    Exits (displayOnEntry property) (displayOnPlaces property) := by
  unfold displayOnEntry displayOnPlaces
  split
  · refine Exits.bind (.mapM fun propValueJson _ => .deref _) fun values hvalues => ?_
    have hempty := values_empty_iff (mapM_eq_ok.mp hvalues)
    by_cases hall : values.filter (· ≠ []) = []
    · rw [if_pos hall, if_pos (hempty.mp hall)]
      exact .pure []
    · rw [if_neg hall, if_neg fun h => hall (hempty.mpr h)]
      exact (Exits.deref property.1).andThen fun propKey _ => .pure _
  · exact .pure []

theorem loadDisplayOnProperty_exits (commandJson : CJson) :
    Exits (loadDisplayOnProperty commandJson) (commandPlaces commandJson) :=
  (Exits.mapM fun property _ => displayOnEntry_exits property).andThen fun _ _ => .pure _

theorem updateCommand_loads (commandJson : CJson) (is2DArray : Bool)
    (rows : List (List CUpdateCommandParam)) :
    Loads (fun accepts => updateCommand sdk accepts commandJson is2DArray rows)
      (commandPlaces commandJson ++
        if is2DArray then [] else rows.flatMap fun row => nullPlace row.head?) := by
  refine (Passes.const (loadDisplayOnProperty_exits commandJson)).bind fun displayOnProperty _ => ?_
  exact (Passes.const (chooseParams_exits is2DArray rows)).andThen fun params _ => construct_loads _ _

theorem updateAlarm_loads (alarmJson : CJson) (is2DArray : Bool)
    (rows : List (List CUpdateAlarmParam)) :
    Loads (fun accepts => updateAlarm sdk accepts alarmJson is2DArray rows)
      ([] ++ if is2DArray then [] else rows.flatMap fun row => nullPlace row.head?) := by
  rw [List.nil_append]
  exact (Passes.const (chooseParams_exits is2DArray rows)).andThen fun params _ => construct_loads _ _

theorem updateConfig_loads (configJson : CJson) (is2DArray : Bool)
    (rows : List (List CUpdateConfigParam)) :
    Loads (fun accepts => updateConfig sdk accepts configJson is2DArray rows)
      ([] ++ if is2DArray then [] else rows.flatMap fun row => nullPlace row.head?) := by
  rw [List.nil_append]
  exact (Passes.const (chooseParams_exits is2DArray rows)).andThen fun params _ => construct_loads _ _

/-! ### Modules and the document -/

theorem loadProperties_loads (moduleJson : CJson) :
    Loads (fun accepts => loadProperties sdk accepts moduleJson)
      (sectionPlaces sdk moduleJson .properties (·.flatMap (propertyPlaces sdk))) :=
  arrayItems_loads _ fun _ => (Passes.mapM fun propertyJson _ => loadProperty_loads sdk propertyJson).map
    List.flatten

/-- States, metrics and events only call a constructor for each item. -/
theorem construct_items {α : Type} (object : α → SdkObject) (make : CJson → α) (items : List CJson) :
    Loads (fun accepts => items.mapM fun json => construct accepts (object (make json)) (make json))
      [] := by
  rw [← List.flatMap_eq_nil_iff.mpr fun json (_ : json ∈ items) => rfl]
  exact Passes.mapM fun json _ => construct_loads _ _

theorem loadModule_loads (moduleJson : CJson) :
    Loads (fun accepts => loadModule sdk accepts moduleJson) (modulePlaces sdk moduleJson) := by
  refine (loadProperties_loads sdk moduleJson).bind fun lProperties _ => ?_
  refine (arrayItems_loads _ fun _ => construct_items .state (updateState sdk) _).bind
    fun lStates _ => ?_
  refine (arrayItems_loads _ fun _ => construct_items .metric (updateMetric sdk) _).bind
    fun lMetrics _ => ?_
  refine (arrayItems_loads _ fun _ => construct_items .event (updateEvent sdk) _).bind
    fun lEvents _ => ?_
  refine (arrayItems_loads _ fun _ => loadItems_loads sdk (getUpdateCommandParam_loads sdk)
    (updateCommand_loads sdk) false _).bind fun lCommands _ => ?_
  refine (arrayItems_loads _ fun _ => loadItems_loads sdk (getUpdateAlarmParam_loads sdk)
    (updateAlarm_loads sdk) false _).bind fun lAlarms _ => ?_
  exact (arrayItems_loads _ fun _ => loadItems_loads sdk (getUpdateConfigParam_loads sdk)
    (updateConfig_loads sdk) false _).andThen fun lConfigs _ => construct_loads _ _

theorem correctAppGUID_exits (self : CPluginSample) (document : CJson) :
    Exits (correctAppGUID sdk self document) (appGUIDPlaces sdk self document) := by
  unfold correctAppGUID appGUIDPlaces
  split
  · exact .pure _
  · have h := Exits.deref (document.setItemValuestring JKEY_APP_GUID self.appGUID)
    unfold nullPlace at h ⊢
    rwa [CJson.setItemValuestring_isSome] at h

/-- Setting the appGUID leaves the modules alone. -/
theorem correctAppGUID_modules {self : CPluginSample} {document updateParam : CJson}
    (h : correctAppGUID sdk self document = .ok updateParam) :
    updateParam.getObjectItem JKEY_MODULES = document.getObjectItem JKEY_MODULES := by
  unfold correctAppGUID at h
  split at h
  · cases h; rfl
  · exact CJson.getObjectItem_setItemValuestring (by decide) (deref_eq_ok.mp h)

theorem modulesOf_exits (updateParam : CJson) :
    Exits (modulesOf updateParam)
      (if (updateParam.getObjectItem JKEY_MODULES).any CJson.isArray then [] else [.ret]) := by
  unfold modulesOf
  cases updateParam.getObjectItem JKEY_MODULES with
  | none => exact .error .ret []
  | some modulesJson => exact arrayItems_exits (some modulesJson)

theorem modulesOf_eq_ok {updateParam : CJson} {modulesJson : List CJson}
    (h : modulesOf updateParam = .ok modulesJson) :
    modulesJson = itemsOf (updateParam.getObjectItem JKEY_MODULES) := by
  unfold modulesOf at h
  split at h
  · cases h
  · rename_i heq
    rw [heq]
    exact arrayItems_eq_ok h

theorem setNotifyPluginUpdateFromFile_loads (self : CPluginSample) (document : Option CJson) :
    Loads (fun accepts => setNotifyPluginUpdateFromFile sdk accepts self document)
      (obstacles sdk self document) := by
  cases document with
  | none => exact .const (.error .ret [])
  | some document =>
    refine (Passes.const (correctAppGUID_exits sdk self document)).bind fun updateParam hdocument => ?_
    rw [← correctAppGUID_modules sdk hdocument]
    refine (Passes.const (modulesOf_exits updateParam)).bind fun modulesJson hmodules => ?_
    rw [← modulesOf_eq_ok hmodules]
    refine (Passes.mapM fun moduleJson _ => loadModule_loads sdk moduleJson).andThen fun lModules _ => ?_
    exact (construct_loads _ _).andThen fun pluginData _ => construct_loads _ _

/-! ## The loader does not fault -/

/-- Whatever the SDK throws on, the loading ends in NULL or in a model exactly
when the first place that ends it, if there is one, is not a fault. -/
theorem update_never_faults_iff (self : CPluginSample) (document : Option CJson) :
    (∀ accepts, setNotifyPluginUpdateFromFile sdk accepts self document ≠ fault) ↔
      (obstacles sdk self document).head? ≠ some .fault :=
  (setNotifyPluginUpdateFromFile_loads sdk self document).ne_fault_iff

end

/-- Without an appGUID in the document there is nothing to write the configured
one to. -/
theorem missing_appGUID_faults :
    ¬ ∀ sdk self document accepts,
      setNotifyPluginUpdateFromFile sdk accepts self document ≠ fault := by
  intro h
  let self : CPluginSample := { apiVersion := str "v3", appGUID := str "a1", accessKey := [] }
  exact h plainSdk self (some (.object [(str "modules", .array [])])) (fun _ => true) rfl

end TmatePlugin.L2.LoaderSafety
