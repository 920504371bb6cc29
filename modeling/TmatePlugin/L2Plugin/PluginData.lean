import Std.Data.TreeMap
import TmatePlugin.Lib.Outcome
import TmatePlugin.L1Base.CJson

/-!
# The update model and the parameter loaders

The classes of PluginSDK/PluginData.h that an update description is loaded
into, and the three functions that load one parameter of a config, an alarm or
a command.

The SDK, a library without source here, is a parameter (`Sdk`): how a field is
read, and the texts of its constants. Its constructors store their arguments,
or throw a CPluginException, which every loader passes on to the `return NULL`
of its caller: `accepts` tells whether the constructor of an object returns.

* `param_loaders_agree_iff`: the three loaders agree on their common fields
  exactly when the parameter cannot be read or has no mask and no encoding.
  GetUpdateCommandParam drops both.
-/
namespace TmatePlugin.L2.PluginData

open CString
open TmatePlugin.L1.Json

/-- The display types the loaders compare with.
mirrors PluginSDK/UpdatePluginJson.h:59-101 -/
inductive DisplayType where
  | string
  | table
  | link
  | datetime
  | iswitch
  | icheckbox
  | ilist
  | displayOn
  | valueFromProperty
  deriving DecidableEq, Repr

/-- The sections of a module.
mirrors PluginSDK/UpdatePluginJson.h:28-44 -/
inductive DataTypes where
  | properties
  | states
  | events
  | metrics
  | commands
  | alarms
  | configs
  deriving DecidableEq, Repr

/-- `CPluginUtil` and the constants of the SDK; different display types have
different texts. -/
structure Sdk where
  getJSONStringFieldValue : CJson → Bytes → Bytes
  getJSONBooleanFieldValue : CJson → Bytes → Bool
  displayType : DisplayType → Bytes
  displayType_injective : Function.Injective displayType
  dataTypes : DataTypes → Bytes
  valueEncodingNone : Bytes

/-! ## The classes -/

/-- mirrors PluginSDK/PluginData.h:111-147 -/
structure CUpdateConfigParam where
  m_name : Bytes
  m_displayName : Bytes
  m_description : Bytes
  m_displayType : Bytes
  m_required : Bool
  m_requiredOn : Bytes
  m_displayFormat : Bytes
  m_displayValues : List Bytes
  m_defaultValue : Bytes
  m_displayMask : Bool
  m_valueEncoding : Bytes
  deriving DecidableEq, Repr

/-- mirrors PluginSDK/PluginData.h:171-181 -/
structure CUpdateAlarmParam extends CUpdateConfigParam
  deriving DecidableEq, Repr

/-- mirrors PluginSDK/PluginData.h:153-165 -/
structure CUpdateCommandParam extends CUpdateConfigParam where
  m_valueFromProperty : Bytes
  deriving DecidableEq, Repr

/-- Which of the two constructors of a command, alarm or config was called,
with its parameters. -/
inductive Params (P : Type) where
  | params (ps : List P)
  | paramsArray (rows : List (List P))
  deriving DecidableEq, Repr

/-- mirrors PluginSDK/PluginData.h:17-33 -/
structure CUpdateInfo where
  m_name : Bytes
  m_displayCategory : Bytes
  m_displayName : Bytes
  m_description : Bytes
  deriving DecidableEq, Repr

/-- `std::map<string, list<string>>`. -/
abbrev ListMap := Std.TreeMap Bytes (List Bytes)

/-- `std::map<string, string>`. -/
abbrev RowMap := Std.TreeMap Bytes Bytes

/-- mirrors PluginSDK/PluginData.h:38-61 -/
structure CUpdateProperty extends CUpdateInfo where
  m_displayType : Bytes
  m_stringValue : Bytes
  m_tableValue : List RowMap
  m_valueFromProperty : ListMap

/-- mirrors PluginSDK/PluginData.h:67-76 -/
structure CUpdateState extends CUpdateInfo where
  m_displayType : Bytes

/-- mirrors PluginSDK/PluginData.h:82-93 -/
structure CUpdateMetric extends CUpdateInfo where
  m_displayType : Bytes
  m_displayUnit : Bytes

/-- mirrors PluginSDK/PluginData.h:99-104 -/
structure CUpdateEvent extends CUpdateInfo

/-- mirrors PluginSDK/PluginData.h:187-211 -/
structure CUpdateCommand extends CUpdateInfo where
  m_type : Bytes
  m_params : Params CUpdateCommandParam
  m_displayOnProperty : ListMap

/-- mirrors PluginSDK/PluginData.h:217-230 -/
structure CUpdateAlarm extends CUpdateInfo where
  m_params : Params CUpdateAlarmParam

/-- mirrors PluginSDK/PluginData.h:236-249 -/
structure CUpdateConfig extends CUpdateInfo where
  m_params : Params CUpdateConfigParam

/-- mirrors PluginSDK/PluginData.h:255-292 -/
structure CUpdateModule where
  m_moduleName : Bytes
  m_displayName : Bytes
  m_description : Bytes
  m_properties : List CUpdateProperty
  m_states : List CUpdateState
  m_metrics : List CUpdateMetric
  m_events : List CUpdateEvent
  m_commands : List CUpdateCommand
  m_alarms : List CUpdateAlarm
  m_configs : List CUpdateConfig

/-- mirrors PluginSDK/PluginData.h:298-334 -/
structure CUpdateParams where
  m_appGUID : Bytes
  m_appName : Bytes
  m_displayName : Bytes
  m_type : Bytes
  m_version : Bytes
  m_startCommand : Bytes
  m_stopCommand : Bytes
  m_modules : List CUpdateModule

/-- What the SDK is asked to build. -/
inductive SdkObject where
  | configParam (p : CUpdateConfigParam)
  | alarmParam (p : CUpdateAlarmParam)
  | commandParam (p : CUpdateCommandParam)
  | property (p : CUpdateProperty)
  | state (s : CUpdateState)
  | metric (m : CUpdateMetric)
  | event (e : CUpdateEvent)
  | command (c : CUpdateCommand)
  | alarm (a : CUpdateAlarm)
  | config (c : CUpdateConfig)
  | module (m : CUpdateModule)
  | updateParams (p : CUpdateParams)
  | notifyPluginUpdate (p : CUpdateParams) (apiVersion accessKey : Bytes)

/-- `new` on an SDK class: its constructor returns, or throws the exception
that ends the loading. -/
def construct {α : Type} (accepts : SdkObject → Bool) (object : SdkObject) (a : α) : Outcome α :=
  if accepts object then .ok a else Outcome.ret

/-! ## One parameter -/

section
variable (sdk : Sdk) (accepts : SdkObject → Bool)

/-- `displayType.compare(DisplayType::…) == 0` for a checkbox, switch or list. -/
def hasOptions (displayType : Bytes) : Bool :=
  displayType = sdk.displayType .icheckbox || displayType = sdk.displayType .iswitch ||
    displayType = sdk.displayType .ilist

/-- The children of a node that may be NULL. -/
def childrenOf (json : Option CJson) : List (Option Bytes × CJson) :=
  (json.map CJson.children).getD []

/-- `displayValues.push_back(value->valuestring)` for each option.
mirrors Plugins/PluginSample.cpp:162-167 -/
def readDisplayValues (paramJson : CJson) : Outcome (List Bytes) :=
  (childrenOf (paramJson.getObjectItem JKEY_DISPLAY_VALUES)).mapM fun value =>
    Outcome.deref value.2.valuestring

/-- `displayMask` is read for a string only, else it is false. -/
def displayMask (paramJson : CJson) : Bool :=
  sdk.getJSONStringFieldValue paramJson JKEY_DISPLAY_TYPE = sdk.displayType .string &&
    sdk.getJSONBooleanFieldValue paramJson JKEY_DISPLAY_MASK

/-- `valueEncoding` is read for a string only, else it is empty. -/
def valueEncoding (paramJson : CJson) : Bytes :=
  if sdk.getJSONStringFieldValue paramJson JKEY_DISPLAY_TYPE = sdk.displayType .string then
    sdk.getJSONStringFieldValue paramJson JKEY_VALUE_ENCODING
  else []

/-- The arguments of the constructor.
mirrors Plugins/PluginSample.cpp:142-158 -/
def configParam (paramJson : CJson) (displayValues : List Bytes) : CUpdateConfigParam :=
  let displayType := sdk.getJSONStringFieldValue paramJson JKEY_DISPLAY_TYPE
  { m_name := sdk.getJSONStringFieldValue paramJson JKEY_NAME
    m_displayName := sdk.getJSONStringFieldValue paramJson JKEY_DISPLAY_NAME
    m_description := sdk.getJSONStringFieldValue paramJson JKEY_DESCRIPTION
    m_displayType := displayType
    m_required := sdk.getJSONBooleanFieldValue paramJson JKEY_REQUIRED
    m_requiredOn := sdk.getJSONStringFieldValue paramJson JKEY_REQUIRED_ON
    m_displayFormat :=
      if displayType ≠ sdk.displayType .string ∧ displayType = sdk.displayType .datetime then
        sdk.getJSONStringFieldValue paramJson JKEY_DISPLAY_FORMAT
      else []
    m_displayValues := displayValues
    m_defaultValue := sdk.getJSONStringFieldValue paramJson JKEY_DEFAULT_VALUE
    m_displayMask := displayMask sdk paramJson
    m_valueEncoding := valueEncoding sdk paramJson }

/-- The branch of the checkbox, switch and list, which comes after those of
string and datetime. -/
def readsDisplayValues (paramJson : CJson) : Bool :=
  let displayType := sdk.getJSONStringFieldValue paramJson JKEY_DISPLAY_TYPE
  displayType ≠ sdk.displayType .string && displayType ≠ sdk.displayType .datetime &&
    hasOptions sdk displayType

def paramDisplayValues (paramJson : CJson) : Outcome (List Bytes) :=
  if readsDisplayValues sdk paramJson then readDisplayValues paramJson else pure []

/-- mirrors Plugins/PluginSample.cpp:140-173 -/
def getUpdateConfigParam (paramJson : CJson) : Outcome CUpdateConfigParam := do
  let displayValues ← paramDisplayValues sdk paramJson
  construct accepts (.configParam (configParam sdk paramJson displayValues))
    (configParam sdk paramJson displayValues)

/-- mirrors Plugins/PluginSample.cpp:175-182 -/
def getUpdateAlarmParam (paramJson : CJson) : Outcome CUpdateAlarmParam := do
  let cfgParam ← getUpdateConfigParam sdk accepts paramJson
  construct accepts (.alarmParam { cfgParam with }) { cfgParam with }

/-- The constructor leaves its last two arguments to their defaults.
mirrors Plugins/PluginSample.cpp:184-199 and PluginSDK/PluginData.h:156-158 -/
def commandParam (paramJson : CJson) (cfgParam : CUpdateConfigParam) : CUpdateCommandParam :=
  { cfgParam with
    m_valueFromProperty :=
      if hasOptions sdk cfgParam.m_displayType then
        sdk.getJSONStringFieldValue paramJson (sdk.displayType .valueFromProperty)
      else []
    m_displayMask := false
    m_valueEncoding := sdk.valueEncodingNone }

/-- mirrors Plugins/PluginSample.cpp:184-199 -/
def getUpdateCommandParam (paramJson : CJson) : Outcome CUpdateCommandParam := do
  let cfgParam ← getUpdateConfigParam sdk accepts paramJson
  construct accepts (.commandParam (commandParam sdk paramJson cfgParam))
    (commandParam sdk paramJson cfgParam)

/-! ## What can be read -/

/-- An option of `displayValues` is not a string: its `valuestring` is NULL. -/
def Unreadable (paramJson : CJson) : Prop :=
  readsDisplayValues sdk paramJson = true ∧
    ∃ value ∈ childrenOf (paramJson.getObjectItem JKEY_DISPLAY_VALUES), value.2.valuestring = none

theorem construct_eq_ok {α : Type} {object : SdkObject} {a b : α} :
    construct accepts object a = .ok b ↔ accepts object = true ∧ a = b := by
  unfold construct
  split
  · rename_i h; simp [h]
  · rename_i h; simp [h, Outcome.ret]

theorem paramDisplayValues_isOk_iff (paramJson : CJson) :
    (∃ values, paramDisplayValues sdk paramJson = .ok values) ↔ ¬ Unreadable sdk paramJson := by
  unfold paramDisplayValues Unreadable
  split
  · rename_i hreads
    rw [readDisplayValues, Outcome.mapM_isOk_iff]
    simp only [Outcome.deref_eq_ok, ← Option.ne_none_iff_exists', hreads, true_and, not_exists,
      not_and, ne_eq]
  · rename_i hreads
    exact ⟨fun _ h => hreads h.1, fun _ => ⟨[], rfl⟩⟩

/-- What a loaded config parameter holds. -/
theorem getUpdateConfigParam_eq_ok {paramJson : CJson} {c : CUpdateConfigParam}
    (h : getUpdateConfigParam sdk accepts paramJson = .ok c) :
    ∃ values, c = configParam sdk paramJson values ∧ ¬ Unreadable sdk paramJson := by
  obtain ⟨values, hvalues, h⟩ := Outcome.bind_eq_ok.mp h
  obtain ⟨-, rfl⟩ := (construct_eq_ok accepts).mp h
  exact ⟨values, rfl, (paramDisplayValues_isOk_iff sdk paramJson).mp ⟨values, hvalues⟩⟩

/-- A readable parameter is loaded when the SDK accepts everything. -/
theorem getUpdateConfigParam_of_readable {paramJson : CJson} (h : ¬ Unreadable sdk paramJson) :
    ∃ values, getUpdateConfigParam sdk (fun _ => true) paramJson =
      .ok (configParam sdk paramJson values) := by
  obtain ⟨values, hvalues⟩ := (paramDisplayValues_isOk_iff sdk paramJson).mpr h
  exact ⟨values, Outcome.bind_eq_ok.mpr ⟨values, hvalues, rfl⟩⟩

/-! ## The loaders agree -/

/-- The common fields are those of `CUpdateConfigParam`, whatever the SDK
throws on. -/
def LoadersAgree (paramJson : CJson) : Prop :=
  ∀ accepts config alarm command, getUpdateConfigParam sdk accepts paramJson = .ok config →
    getUpdateAlarmParam sdk accepts paramJson = .ok alarm →
    getUpdateCommandParam sdk accepts paramJson = .ok command →
    alarm.toCUpdateConfigParam = config ∧ command.toCUpdateConfigParam = config

/-- Mask and encoding are what the constructor of a command parameter takes
when they are left out. -/
def NothingDropped (paramJson : CJson) : Prop :=
  displayMask sdk paramJson = false ∧ valueEncoding sdk paramJson = sdk.valueEncodingNone

/-- The three loaders agree on a parameter exactly when it cannot be read, or
has no mask and no encoding. -/
theorem param_loaders_agree_iff (paramJson : CJson) :
    LoadersAgree sdk paramJson ↔ Unreadable sdk paramJson ∨ NothingDropped sdk paramJson := by
  constructor
  · intro h
    by_cases hun : Unreadable sdk paramJson
    · exact .inl hun
    obtain ⟨values, hconfig⟩ := getUpdateConfigParam_of_readable sdk hun
    have hagree := (h (fun _ => true) _ { configParam sdk paramJson values with }
      (commandParam sdk paramJson (configParam sdk paramJson values)) hconfig
      (Outcome.bind_eq_ok.mpr ⟨_, hconfig, rfl⟩) (Outcome.bind_eq_ok.mpr ⟨_, hconfig, rfl⟩)).2
    refine .inr ⟨?_, ?_⟩
    · exact (congrArg CUpdateConfigParam.m_displayMask hagree).symm
    · exact (congrArg CUpdateConfigParam.m_valueEncoding hagree).symm
  · intro h accepts config alarm command hconfig halarm hcommand
    obtain ⟨values, hvalues, hreadable⟩ := getUpdateConfigParam_eq_ok sdk accepts hconfig
    obtain ⟨hmask, hencoding⟩ := h.resolve_left hreadable
    obtain ⟨c, hc, halarm⟩ := Outcome.bind_eq_ok.mp halarm
    obtain ⟨k, hk, hcommand⟩ := Outcome.bind_eq_ok.mp hcommand
    rw [hconfig] at hc hk
    cases hc
    cases hk
    obtain ⟨-, rfl⟩ := (construct_eq_ok accepts).mp halarm
    obtain ⟨-, rfl⟩ := (construct_eq_ok accepts).mp hcommand
    refine ⟨rfl, ?_⟩
    rw [hvalues]
    simp only [commandParam, configParam, hmask, hencoding]

end

/-! ## An SDK that reads the members -/

def displayTypeText : DisplayType → Bytes
  | .string => str "string"
  | .table => str "table"
  | .link => str "link"
  | .datetime => str "datetime"
  | .iswitch => str "switch"
  | .icheckbox => str "checkbox"
  | .ilist => str "list"
  | .displayOn => str "displayOn"
  | .valueFromProperty => str "valueFromProperty"

theorem displayTypeText_injective : Function.Injective displayTypeText := by
  intro a b h
  cases a <;> cases b <;> first | rfl | exact absurd h (by decide)

/-- A missing or ill-typed field reads as an empty string or false. -/
def plainSdk : Sdk where
  getJSONStringFieldValue json key := ((json.getObjectItem key).bind CJson.valuestring).getD []
  getJSONBooleanFieldValue json key :=
    match json.getObjectItem key with
    | some (.bool b) => b
    | _ => false
  displayType := displayTypeText
  displayType_injective := displayTypeText_injective
  dataTypes
    | .properties => str "properties"
    | .states => str "states"
    | .events => str "events"
    | .metrics => str "metrics"
    | .commands => str "commands"
    | .alarms => str "alarms"
    | .configs => str "configs"
  valueEncodingNone := []

/-- A masked string parameter is not masked as the parameter of a command. -/
theorem command_param_unmasked : ¬ ∀ sdk paramJson, LoadersAgree sdk paramJson := by
  intro h
  let masked : CJson := .object [(str "name", .string (str "password")),
    (str "displayType", .string (str "string")), (str "displayMask", .bool true)]
  have hconfig : getUpdateConfigParam plainSdk (fun _ => true) masked =
      .ok (configParam plainSdk masked []) := by decide
  have hagree := (h plainSdk masked (fun _ => true) _ { configParam plainSdk masked [] with }
    (commandParam plainSdk masked (configParam plainSdk masked [])) hconfig
    (by unfold getUpdateAlarmParam; rw [hconfig]; rfl)
    (by unfold getUpdateCommandParam; rw [hconfig]; rfl)).2
  have hmask := congrArg CUpdateConfigParam.m_displayMask hagree
  exact absurd hmask (by decide)

end TmatePlugin.L2.PluginData
