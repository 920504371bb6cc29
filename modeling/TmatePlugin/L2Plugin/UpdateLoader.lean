import TmatePlugin.L2Plugin.PluginData

/-!
# Loading an update description

`SetNotifyPluginUpdateFromFile` section by section, in the order of the source.
The loader follows raw `string`, `valuestring` and list pointers: a NULL or an
empty row on the way is a `fault`, a `return NULL` or an exception of the SDK
is a `ret`.

Commands, alarms and configs are three copies of one loop (`loadItems`): it
keeps one flag, `is2DArray`, over all items of its array.

Logging is left out, also the printing of a node that is NULL.
-/
namespace TmatePlugin.L2.UpdateLoader

open CString
open TmatePlugin.L1.Json
open TmatePlugin.L2.PluginData

/-- What the plugin config gave the sample. -/
structure CPluginSample where
  apiVersion : Bytes
  appGUID : Bytes
  accessKey : Bytes

section
variable (sdk : Sdk) (accepts : SdkObject → Bool)

/-- The fields every item is read for. -/
def updateInfo (json : CJson) : CUpdateInfo where
  m_name := sdk.getJSONStringFieldValue json JKEY_NAME
  m_displayCategory := sdk.getJSONStringFieldValue json JKEY_DISPLAY_CATEGORY
  m_displayName := sdk.getJSONStringFieldValue json JKEY_DISPLAY_NAME
  m_description := sdk.getJSONStringFieldValue json JKEY_DESCRIPTION

/-- An array that may be left out; any other type ends the loading. -/
def arrayItems : Option CJson → Outcome (List CJson)
  | none => pure []
  | some json => if json.isArray then pure (json.children.map (·.2)) else Outcome.ret

def sectionItems (moduleJson : CJson) (dataType : DataTypes) : Outcome (List CJson) :=
  arrayItems (moduleJson.getObjectItem (sdk.dataTypes dataType))

/-! ## Properties -/

/-- The arguments of the constructor, which takes the last two as they are. -/
def updateProperty (propertyJson : CJson) (stringValue : Bytes) (tableValue : List RowMap)
    (valueFromProperty : ListMap) : CUpdateProperty where
  toCUpdateInfo := updateInfo sdk propertyJson
  m_displayType := sdk.getJSONStringFieldValue propertyJson JKEY_DISPLAY_TYPE
  m_stringValue := stringValue
  m_tableValue := tableValue
  m_valueFromProperty := valueFromProperty

def newProperty (property : CUpdateProperty) : Outcome CUpdateProperty :=
  construct accepts (.property property) property

/-- The columns of one row: the map so far is pushed after every column.
mirrors Plugins/PluginSample.cpp:324-331 -/
def loadColumns : RowMap → List (Option Bytes × CJson) → Outcome (List RowMap)
  | _, [] => pure []
  | rowItem, column :: columns => do
    let key ← Outcome.deref column.1
    let value ← Outcome.deref column.2.valuestring
    let tableValue ← loadColumns (rowItem.insertIfNew key value) columns
    pure (rowItem.insertIfNew key value :: tableValue)

/-- mirrors Plugins/PluginSample.cpp:319-332 -/
def loadTable (tableJson : Option CJson) : Outcome (List RowMap) := do
  let rows ← (childrenOf tableJson).mapM fun row => loadColumns ∅ row.2.children
  pure rows.flatten

/-- mirrors Util/include/cJSON.h:88-97 -/
def cJSON_True : Nat := 2

/-- The test compares the result of `cJSON_IsArray`, 0 or 1, with a type.
mirrors Plugins/PluginSample.cpp:359-369 -/
def insertDisplayValues (valueItem : CJson) (valueFromProperty : ListMap) : Outcome ListMap :=
  match valueItem.getObjectItem JKEY_DISPLAY_VALUES with
  | none => pure valueFromProperty
  | some displayValues =>
    if displayValues.isArray.toNat = cJSON_True then do
      let listDisplayValues ← displayValues.children.mapM fun optionValue =>
        Outcome.deref optionValue.2.valuestring
      pure (if listDisplayValues = [] then valueFromProperty
        else valueFromProperty.insertIfNew JKEY_DISPLAY_VALUES listDisplayValues)
    else pure valueFromProperty

/-- mirrors Plugins/PluginSample.cpp:371-377 -/
def insertDefaultValue (valueItem : CJson) (valueFromProperty : ListMap) : ListMap :=
  let defaultValue := sdk.getJSONStringFieldValue valueItem JKEY_DEFAULT_VALUE
  if defaultValue = [] then valueFromProperty
  else valueFromProperty.insertIfNew JKEY_DEFAULT_VALUE [defaultValue]

/-- A property is pushed for every item, with the map so far.
mirrors Plugins/PluginSample.cpp:356-391 -/
def loadValueItems (propertyJson : CJson) : ListMap → List CJson → Outcome (List CUpdateProperty)
  | _, [] => pure []
  | valueFromProperty, valueItem :: valueItems => do
    let values ← insertDisplayValues valueItem valueFromProperty
    let property ← newProperty accepts
      (updateProperty sdk propertyJson [] [] (insertDefaultValue sdk valueItem values))
    let lProperties ← loadValueItems propertyJson (insertDefaultValue sdk valueItem values) valueItems
    pure (property :: lProperties)

/-- The properties one item adds.
mirrors Plugins/PluginSample.cpp:301-393 -/
def loadProperty (propertyJson : CJson) : Outcome (List CUpdateProperty) :=
  let displayType := sdk.getJSONStringFieldValue propertyJson JKEY_DISPLAY_TYPE
  let valueJson := propertyJson.getObjectItem JKEY_VALUE
  if displayType = sdk.displayType .string ∨ displayType = sdk.displayType .displayOn then do
    let property ← newProperty accepts
      (updateProperty sdk propertyJson (sdk.getJSONStringFieldValue propertyJson JKEY_VALUE) [] ∅)
    pure [property]
  else if displayType = sdk.displayType .table then do
    let tableValue ← loadTable valueJson
    let property ← newProperty accepts (updateProperty sdk propertyJson [] tableValue ∅)
    pure [property]
  else if displayType = sdk.displayType .link then
    match valueJson with
    | none => pure []
    | some linkJson => do
      let linkItem : RowMap := (∅ : RowMap).insertIfNew
        (sdk.getJSONStringFieldValue linkJson JKEY_LINK_URL)
        (sdk.getJSONStringFieldValue linkJson JKEY_LINK_ALIAS)
      let property ← newProperty accepts (updateProperty sdk propertyJson [] [linkItem] ∅)
      pure [property]
  else if displayType = sdk.displayType .valueFromProperty then
    loadValueItems sdk accepts propertyJson ∅ ((childrenOf valueJson).map (·.2))
  else pure []

/-- mirrors Plugins/PluginSample.cpp:286-395 -/
def loadProperties (moduleJson : CJson) : Outcome (List CUpdateProperty) := do
  let items ← sectionItems sdk moduleJson .properties
  let lProperties ← items.mapM (loadProperty sdk accepts)
  pure lProperties.flatten

/-! ## States, metrics and events -/

def updateState (stateJson : CJson) : CUpdateState where
  toCUpdateInfo := updateInfo sdk stateJson
  m_displayType := sdk.getJSONStringFieldValue stateJson JKEY_DISPLAY_TYPE

def updateMetric (metricJson : CJson) : CUpdateMetric where
  toCUpdateInfo := updateInfo sdk metricJson
  m_displayType := sdk.getJSONStringFieldValue metricJson JKEY_DISPLAY_TYPE
  m_displayUnit := sdk.getJSONStringFieldValue metricJson JKEY_DISPLAY_UNIT

def updateEvent (eventJson : CJson) : CUpdateEvent where
  toCUpdateInfo := updateInfo sdk eventJson

/-- mirrors Plugins/PluginSample.cpp:397-417 -/
def loadStates (moduleJson : CJson) : Outcome (List CUpdateState) := do
  let items ← sectionItems sdk moduleJson .states
  items.mapM fun stateJson =>
    construct accepts (.state (updateState sdk stateJson)) (updateState sdk stateJson)

/-- mirrors Plugins/PluginSample.cpp:419-440 -/
def loadMetrics (moduleJson : CJson) : Outcome (List CUpdateMetric) := do
  let items ← sectionItems sdk moduleJson .metrics
  items.mapM fun metricJson =>
    construct accepts (.metric (updateMetric sdk metricJson)) (updateMetric sdk metricJson)

/-- mirrors Plugins/PluginSample.cpp:442-461 -/
def loadEvents (moduleJson : CJson) : Outcome (List CUpdateEvent) := do
  let items ← sectionItems sdk moduleJson .events
  items.mapM fun eventJson =>
    construct accepts (.event (updateEvent sdk eventJson)) (updateEvent sdk eventJson)

/-! ## Items with parameters -/

section
variable {P β : Type} (getParam : CJson → Outcome P)

/-- An element of `params` is a row, or a parameter that is a row of its own. -/
def rowJsons (paramJson : CJson) : List CJson :=
  if paramJson.isArray then paramJson.children.map (·.2) else [paramJson]

/-- The rows, and `is2DArray`, which every element overwrites. -/
def loadElements : Bool → List CJson → Outcome (List (List P) × Bool)
  | is2DArray, [] => pure ([], is2DArray)
  | _, paramJson :: paramsJson => do
    let rowParams ← (rowJsons paramJson).mapM getParam
    let loaded ← loadElements paramJson.isArray paramsJson
    pure (rowParams :: loaded.1, loaded.2)

def loadParams (is2DArray : Bool) (itemJson : CJson) : Outcome (List (List P) × Bool) := do
  let paramsJson ← arrayItems (itemJson.getObjectItem JKEY_PARAMS)
  loadElements getParam is2DArray paramsJson

/-- The flat constructor gets the first parameter of each row; the `begin()` of
an empty row is its `end()`. -/
def chooseParams (is2DArray : Bool) (rows : List (List P)) : Outcome (Params P) :=
  if is2DArray then pure (.paramsArray rows)
  else do
    let tmpParams ← rows.mapM fun lRowParams => Outcome.deref lRowParams.head?
    pure (.params tmpParams)

/-- The loop over the items, with the flag declared outside of it. -/
def loadItems (update : CJson → Bool → List (List P) → Outcome β) :
    Bool → List CJson → Outcome (List β)
  | _, [] => pure []
  | is2DArray, itemJson :: items => do
    let loaded ← loadParams getParam is2DArray itemJson
    let object ← update itemJson loaded.2 loaded.1
    let objects ← loadItems update loaded.2 items
    pure (object :: objects)

end

/-- One property of `displayOnProperty`: only an array with a non-empty value
counts.
mirrors Plugins/PluginSample.cpp:521-541 -/
def displayOnEntry (property : Option Bytes × CJson) : Outcome (List (Bytes × List Bytes)) :=
  if property.2.isArray then do
    let values ← property.2.children.mapM fun propValueJson =>
      Outcome.deref propValueJson.2.valuestring
    if values.filter (· ≠ []) = [] then pure []
    else do
      let propKey ← Outcome.deref property.1
      pure [(propKey, values.filter (· ≠ []))]
  else pure []

/-- mirrors Plugins/PluginSample.cpp:514-543 -/
def loadDisplayOnProperty (commandJson : CJson) : Outcome ListMap := do
  let entries ← (childrenOf (commandJson.getObjectItem JKEY_DISPLAY_ON_PROPERTY)).mapM displayOnEntry
  pure (entries.flatten.foldl (fun displayOnProperty entry =>
    displayOnProperty.insertIfNew entry.1 entry.2) ∅)

/-- mirrors Plugins/PluginSample.cpp:508-580 -/
def updateCommand (commandJson : CJson) (is2DArray : Bool)
    (lcmdParams : List (List CUpdateCommandParam)) : Outcome CUpdateCommand := do
  let displayOnProperty ← loadDisplayOnProperty commandJson
  let params ← chooseParams is2DArray lcmdParams
  let command : CUpdateCommand :=
    { updateInfo sdk commandJson with
      m_type := sdk.getJSONStringFieldValue commandJson JKEY_TYPE
      m_params := params
      m_displayOnProperty := displayOnProperty }
  construct accepts (.command command) command

/-- mirrors Plugins/PluginSample.cpp:626-658 -/
def updateAlarm (alarmJson : CJson) (is2DArray : Bool)
    (lalarmParams : List (List CUpdateAlarmParam)) : Outcome CUpdateAlarm := do
  let params ← chooseParams is2DArray lalarmParams
  let alarm : CUpdateAlarm := { updateInfo sdk alarmJson with m_params := params }
  construct accepts (.alarm alarm) alarm

/-- mirrors Plugins/PluginSample.cpp:704-736 -/
def updateConfig (configJson : CJson) (is2DArray : Bool)
    (lconfigParams : List (List CUpdateConfigParam)) : Outcome CUpdateConfig := do
  let params ← chooseParams is2DArray lconfigParams
  let config : CUpdateConfig := { updateInfo sdk configJson with m_params := params }
  construct accepts (.config config) config

/-- mirrors Plugins/PluginSample.cpp:463-582 -/
def loadCommands (moduleJson : CJson) : Outcome (List CUpdateCommand) := do
  let items ← sectionItems sdk moduleJson .commands
  loadItems (getUpdateCommandParam sdk accepts) (updateCommand sdk accepts) false items

/-- mirrors Plugins/PluginSample.cpp:584-660 -/
def loadAlarms (moduleJson : CJson) : Outcome (List CUpdateAlarm) := do
  let items ← sectionItems sdk moduleJson .alarms
  loadItems (getUpdateAlarmParam sdk accepts) (updateAlarm sdk accepts) false items

/-- mirrors Plugins/PluginSample.cpp:662-738 -/
def loadConfigs (moduleJson : CJson) : Outcome (List CUpdateConfig) := do
  let items ← sectionItems sdk moduleJson .configs
  loadItems (getUpdateConfigParam sdk accepts) (updateConfig sdk accepts) false items

/-! ## The document -/

/-- mirrors Plugins/PluginSample.cpp:283-743 -/
def loadModule (moduleJson : CJson) : Outcome CUpdateModule := do
  let lProperties ← loadProperties sdk accepts moduleJson
  let lStates ← loadStates sdk accepts moduleJson
  let lMetrics ← loadMetrics sdk accepts moduleJson
  let lEvents ← loadEvents sdk accepts moduleJson
  let lCommands ← loadCommands sdk accepts moduleJson
  let lAlarms ← loadAlarms sdk accepts moduleJson
  let lConfigs ← loadConfigs sdk accepts moduleJson
  let module : CUpdateModule :=
    { m_moduleName := sdk.getJSONStringFieldValue moduleJson JKEY_MODULE_NAME
      m_displayName := sdk.getJSONStringFieldValue moduleJson JKEY_DISPLAY_NAME
      m_description := sdk.getJSONStringFieldValue moduleJson JKEY_DESCRIPTION
      m_properties := lProperties
      m_states := lStates
      m_metrics := lMetrics
      m_events := lEvents
      m_commands := lCommands
      m_alarms := lAlarms
      m_configs := lConfigs }
  construct accepts (.module module) module

/-- `cJSON_SetValuestring` writes through the item it is given.
mirrors Plugins/PluginSample.cpp:267-274 -/
def correctAppGUID (self : CPluginSample) (updateParam : CJson) : Outcome CJson :=
  if sdk.getJSONStringFieldValue updateParam JKEY_APP_GUID = self.appGUID then pure updateParam
  else Outcome.deref (updateParam.setItemValuestring JKEY_APP_GUID self.appGUID)

/-- Unlike a section, `modules` may not be left out.
mirrors Plugins/PluginSample.cpp:275-285 -/
def modulesOf (updateParam : CJson) : Outcome (List CJson) :=
  match updateParam.getObjectItem JKEY_MODULES with
  | none => Outcome.ret
  | some modulesJson => arrayItems (some modulesJson)

/-- The data kept in `pluginData`; `updateParam` is NULL when the file cannot be
parsed.
mirrors Plugins/PluginSample.cpp:259-764 -/
def setNotifyPluginUpdateFromFile (self : CPluginSample) :
    Option CJson → Outcome CUpdateParams
  | none => Outcome.ret
  | some document => do
    let updateParam ← correctAppGUID sdk self document
    let modulesJson ← modulesOf updateParam
    let lModules ← modulesJson.mapM (loadModule sdk accepts)
    let pluginData : CUpdateParams :=
      { m_appGUID := self.appGUID
        m_appName := sdk.getJSONStringFieldValue updateParam JKEY_APP_NAME
        m_displayName := sdk.getJSONStringFieldValue updateParam JKEY_DISPLAY_NAME
        m_type := sdk.getJSONStringFieldValue updateParam JKEY_TYPE
        m_version := sdk.getJSONStringFieldValue updateParam JKEY_VERSION
        m_startCommand := sdk.getJSONStringFieldValue updateParam JKEY_START_COMMAND
        m_stopCommand := sdk.getJSONStringFieldValue updateParam JKEY_STOP_COMMAND
        m_modules := lModules }
    let pluginData ← construct accepts (.updateParams pluginData) pluginData
    construct accepts (.notifyPluginUpdate pluginData self.apiVersion self.accessKey) pluginData

/-! ## The flag after an array -/

/-- `is2DArray` after the elements of a `params`: the last one wins. -/
def flagAfter (is2DArray : Bool) (elements : List CJson) : Bool :=
  elements.foldl (fun _ paramJson => paramJson.isArray) is2DArray

/-- The elements that `cJSON_ArrayForEach` visits. -/
def itemsOf (json : Option CJson) : List CJson := (childrenOf json).map (·.2)

/-- The elements of an item's own `params`. -/
def elementsOf (itemJson : CJson) : List CJson := itemsOf (itemJson.getObjectItem JKEY_PARAMS)

theorem arrayItems_eq_ok {json : Option CJson} {items : List CJson} (h : arrayItems json = .ok items) :
    items = itemsOf json := by
  cases json with
  | none => cases h; rfl
  | some json =>
    rw [arrayItems] at h
    by_cases harray : json.isArray = true
    · rw [if_pos harray] at h; cases h; rfl
    · rw [if_neg harray] at h; cases h

/-- The rows and the flag do not depend on each other. -/
theorem loadElements_eq {P : Type} (getParam : CJson → Outcome P) (is2DArray : Bool)
    (elements : List CJson) :
    loadElements getParam is2DArray elements =
      (elements.mapM fun paramJson => (rowJsons paramJson).mapM getParam) >>= fun rows =>
        pure (rows, flagAfter is2DArray elements) := by
  induction elements generalizing is2DArray with
  | nil => rfl
  | cons paramJson elements ih =>
    rw [loadElements, List.mapM_cons, ih paramJson.isArray]
    simp only [bind_assoc, pure_bind]
    rfl

end

/-! ## The values of a property taken from another one -/

/-- No array passes the test of its type: `cJSON_IsArray` returns 0 or 1. -/
theorem insertDisplayValues_eq (valueItem : CJson) (valueFromProperty : ListMap) :
    insertDisplayValues valueItem valueFromProperty = pure valueFromProperty := by
  unfold insertDisplayValues
  split
  · rfl
  · rename_i displayValues _
    rw [if_neg]
    have := Bool.toNat_le displayValues.isArray
    unfold cJSON_True
    omega

/-- One item. -/
theorem loadValueItems_cons (sdk : Sdk) (propertyJson : CJson) (valueFromProperty : ListMap)
    (valueItem : CJson) (valueItems : List CJson) :
    loadValueItems sdk (fun _ => true) propertyJson valueFromProperty (valueItem :: valueItems) =
      let values := insertDefaultValue sdk valueItem valueFromProperty
      loadValueItems sdk (fun _ => true) propertyJson values valueItems >>= fun lProperties =>
        pure (updateProperty sdk propertyJson [] [] values :: lProperties) := by
  rw [loadValueItems, insertDisplayValues_eq, pure_bind]
  rfl

/-- Every item pushes a property, whatever is in the map. -/
theorem loadValueItems_length (sdk : Sdk) (propertyJson : CJson) (valueFromProperty : ListMap)
    (valueItems : List CJson) :
    ∃ lProperties, loadValueItems sdk (fun _ => true) propertyJson valueFromProperty valueItems =
        .ok lProperties ∧ lProperties.length = valueItems.length := by
  induction valueItems generalizing valueFromProperty with
  | nil => exact ⟨[], rfl, rfl⟩
  | cons valueItem valueItems ih =>
    let values := insertDefaultValue sdk valueItem valueFromProperty
    obtain ⟨lProperties, hload, hlength⟩ := ih values
    refine ⟨updateProperty sdk propertyJson [] [] values :: lProperties, ?_,
      congrArg (· + 1) hlength⟩
    rw [loadValueItems_cons]
    simp only [values, hload]
    rfl

end TmatePlugin.L2.UpdateLoader
