import Mathlib.Data.List.Forall2
import TmatePlugin.Lib.History
import TmatePlugin.L2Plugin.LoaderSafety

/-!
# What the parameter lists of an item become

The elements of `params` are parameters or rows of parameters. One flag, kept
over all items of an array and overwritten by every element, chooses between
the flat constructor, which gets the first parameter of each row, and the one
that gets the rows.

* `chooseParams_keeps_iff`: a choice keeps every parameter when it is that of
  the rows, or each row has one.
* `params_survive_iff`: the parameters of every item survive, and the choice is
  the item's own, exactly under `Keeps` for each item after those before it.
-/
namespace TmatePlugin.L2.ParamLists

open CString Outcome History
open TmatePlugin.L1.Json
open TmatePlugin.L2.PluginData
open TmatePlugin.L2.UpdateLoader
open TmatePlugin.L2.LoaderSafety

/-! ## An item's own parameters -/

/-- The parameters of an item in document order, those of its rows as well. -/
def ownJsons (itemJson : CJson) : List CJson := (elementsOf itemJson).flatMap rowJsons

/-- The last element is a row. An item that comes first in its array gets the
rows when this is so. -/
def lastIsRow (elements : List CJson) : Bool := elements.getLast?.any CJson.isArray

section
variable {P : Type}

/-- The parameters an object was built with, in order. -/
def toList : Params P → List P
  | .params ps => ps
  | .paramsArray rows => rows.flatten

def is2D : Params P → Bool
  | .params _ => false
  | .paramsArray _ => true

/-- The object got every parameter of the item once and in order, and the
choice of its constructor is the item's own. -/
def Survived (getParam : CJson → Outcome P) (itemJson : CJson) (params : Params P) : Prop :=
  (ownJsons itemJson).mapM getParam = .ok (toList params) ∧
    is2D params = lastIsRow (elementsOf itemJson)

end

theorem flagAfter_eq (is2DArray : Bool) (elements : List CJson) :
    flagAfter is2DArray elements = if elements = [] then is2DArray else lastIsRow elements := by
  rcases List.eq_nil_or_concat elements with rfl | ⟨init, last, rfl⟩
  · rfl
  · simp [flagAfter, lastIsRow]

/-- The choice is the item's own, unless it has no parameter and the flag is
still set. -/
theorem flagAfter_own_iff (is2DArray : Bool) (elements : List CJson) :
    flagAfter is2DArray elements = lastIsRow elements ↔ (elements = [] → is2DArray = false) := by
  rw [flagAfter_eq]
  by_cases h : elements = []
  · rw [if_pos h, h]
    exact ⟨fun hflag _ => hflag, fun hflag => hflag rfl⟩
  · rw [if_neg h]
    exact ⟨fun _ hnil => absurd hnil h, fun _ => rfl⟩

/-! ## Choosing a constructor -/

section
variable {P : Type}

/-- Every row gives its first parameter, so none is empty. -/
theorem length_le_flatten {rows : List (List P)} {firsts : List P}
    (h : List.Forall₂ (fun row first => deref row.head? = .ok first) rows firsts) :
    rows.length ≤ rows.flatten.length := by
  induction h with
  | nil => exact Nat.le_refl 0
  | @cons row first rows firsts hrow _ ih =>
    obtain ⟨tail, rfl⟩ := List.head?_eq_some_iff.mp (deref_eq_ok.mp hrow)
    rw [List.length_cons, List.flatten_cons, List.length_append, List.length_cons]
    omega

/-- The first parameters are all of them exactly when each row has one. -/
theorem firsts_iff (rows : List (List P)) :
    rows.mapM (fun row => deref row.head?) = .ok rows.flatten ↔ ∀ row ∈ rows, row.length = 1 := by
  rw [mapM_eq_ok]
  constructor
  · intro h
    induction rows with
    | nil => exact fun row hrow => nomatch hrow
    | cons row rows ih =>
      cases row with
      | nil =>
        obtain ⟨first, firsts, hrow, -, -⟩ := List.forall₂_cons_left_iff.mp h
        cases hrow
      | cons first tail =>
        cases h with
        | cons _ hrows =>
          have hle := length_le_flatten hrows
          have hlength := hrows.length_eq
          rw [List.append_eq, List.length_append] at hlength
          obtain rfl : tail = [] := List.eq_nil_iff_length_eq_zero.mpr (by omega)
          exact List.forall_mem_cons.mpr ⟨rfl, ih hrows⟩
  · intro h
    induction rows with
    | nil => exact .nil
    | cons row rows ih =>
      rw [List.forall_mem_cons] at h
      obtain ⟨first, rfl⟩ := List.length_eq_one_iff.mp h.1
      exact .cons rfl (ih h.2)

/-- A choice keeps every parameter when it is the one wanted, and is that of
the rows or has rows of one parameter. -/
theorem chooseParams_keeps_iff (is2DArray own : Bool) (rows : List (List P)) :
    (∃ params, chooseParams is2DArray rows = .ok params ∧ toList params = rows.flatten ∧
      is2D params = own) ↔
      is2DArray = own ∧ (own = false → ∀ row ∈ rows, row.length = 1) := by
  unfold chooseParams
  cases is2DArray with
  | true =>
    rw [if_pos rfl]
    constructor
    · intro h
      obtain ⟨params, hparams, -, rfl⟩ := h
      cases hparams
      exact ⟨rfl, fun h => nomatch h⟩
    · intro h
      exact ⟨.paramsArray rows, rfl, rfl, h.1⟩
  | false =>
    rw [if_neg Bool.false_ne_true, ← firsts_iff]
    constructor
    · intro h
      obtain ⟨params, hparams, hlist, rfl⟩ := h
      obtain ⟨tmpParams, htmp, hparams⟩ := bind_eq_ok.mp hparams
      cases hparams
      exact ⟨rfl, fun _ => by rw [htmp, ← hlist]; rfl⟩
    · intro h
      obtain ⟨rfl, hfirsts⟩ := h
      exact ⟨.params rows.flatten, bind_eq_ok.mpr ⟨_, hfirsts rfl, rfl⟩, rfl, rfl⟩

end

/-! ## One item -/

/-- `params` is left out or an array. -/
def ParamsArray (itemJson : CJson) : Prop :=
  (itemJson.getObjectItem JKEY_PARAMS).all CJson.isArray = true

/-- The parameters of an item can be read, an item without any does not find
the flag set, and rows of a flat item have one parameter. -/
def Keeps (sdk : Sdk) (is2DArray : Bool) (itemJson : CJson) : Prop :=
  (∀ paramJson ∈ ownJsons itemJson, ¬ Unreadable sdk paramJson) ∧
    (elementsOf itemJson = [] → is2DArray = false) ∧
    (lastIsRow (elementsOf itemJson) = false →
      ∀ paramJson ∈ elementsOf itemJson, (rowJsons paramJson).length = 1)

theorem loadParams_eq {P : Type} {getParam : CJson → Outcome P} {is2DArray : Bool} {itemJson : CJson}
    (h : ParamsArray itemJson) :
    loadParams getParam is2DArray itemJson =
      ((elementsOf itemJson).mapM fun paramJson => (rowJsons paramJson).mapM getParam) >>= fun rows =>
        pure (rows, flagAfter is2DArray (elementsOf itemJson)) := by
  have hitems : arrayItems (itemJson.getObjectItem JKEY_PARAMS) = .ok (elementsOf itemJson) := by
    unfold ParamsArray at h
    unfold elementsOf
    cases hparams : itemJson.getObjectItem JKEY_PARAMS with
    | none => rfl
    | some json =>
      rw [hparams, Option.all_some] at h
      rw [arrayItems, if_pos h]
      rfl
  rw [loadParams, hitems, bind_ok, loadElements_eq]

section
variable {P : Type} {getParam : CJson → Outcome P}

/-- The rows hold the item's own parameters. -/
theorem rows_flatten {elements : List CJson} {rows : List (List P)}
    (h : (elements.mapM fun paramJson => (rowJsons paramJson).mapM getParam) = .ok rows) :
    (elements.flatMap rowJsons).mapM getParam = .ok rows.flatten := by
  rw [mapM_eq_ok] at h ⊢
  induction h with
  | nil => exact .nil
  | cons hrow _ ih =>
    rw [List.flatMap_cons, List.flatten_cons]
    exact List.rel_append (mapM_eq_ok.mp hrow) ih

/-- A row is as long as it is in the document. -/
theorem rows_length_one_iff {elements : List CJson} {rows : List (List P)}
    (h : List.Forall₂ (fun paramJson row => (rowJsons paramJson).mapM getParam = .ok row)
      elements rows) :
    (∀ row ∈ rows, row.length = 1) ↔ ∀ paramJson ∈ elements, (rowJsons paramJson).length = 1 := by
  induction h with
  | nil => simp
  | cons hrow _ ih =>
    rw [List.forall_mem_cons, List.forall_mem_cons, ih, (mapM_eq_ok.mp hrow).length_eq]

variable {sdk : Sdk}

/-- The rows of an item are loaded when its parameters can be read. -/
theorem rows_isOk_iff (hget : ∀ paramJson, (∃ p, getParam paramJson = .ok p) ↔ ¬ Unreadable sdk paramJson)
    (itemJson : CJson) :
    (∃ rows, ((elementsOf itemJson).mapM fun paramJson => (rowJsons paramJson).mapM getParam) =
      .ok rows) ↔ ∀ paramJson ∈ ownJsons itemJson, ¬ Unreadable sdk paramJson := by
  simp only [mapM_isOk_iff, hget, ownJsons, List.mem_flatMap]
  constructor
  · intro h paramJson hmem
    obtain ⟨element, helement, hparam⟩ := hmem
    exact h element helement paramJson hparam
  · intro h element helement paramJson hparam
    exact h paramJson ⟨element, helement, hparam⟩

theorem item_survives_iff
    (hget : ∀ paramJson, (∃ p, getParam paramJson = .ok p) ↔ ¬ Unreadable sdk paramJson)
    (is2DArray : Bool) (itemJson : CJson) :
    (∃ rows, ((elementsOf itemJson).mapM fun paramJson => (rowJsons paramJson).mapM getParam) =
        .ok rows ∧ ∃ params, chooseParams (flagAfter is2DArray (elementsOf itemJson)) rows = .ok params ∧
          Survived getParam itemJson params) ↔ Keeps sdk is2DArray itemJson := by
  have hsurvived : ∀ rows, ((elementsOf itemJson).mapM fun paramJson =>
      (rowJsons paramJson).mapM getParam) = .ok rows →
      ((∃ params, chooseParams (flagAfter is2DArray (elementsOf itemJson)) rows = .ok params ∧
          Survived getParam itemJson params) ↔
        (elementsOf itemJson = [] → is2DArray = false) ∧
          (lastIsRow (elementsOf itemJson) = false →
            ∀ paramJson ∈ elementsOf itemJson, (rowJsons paramJson).length = 1)) := by
    intro rows hrows
    rw [← flagAfter_own_iff, ← rows_length_one_iff (mapM_eq_ok.mp hrows), ← chooseParams_keeps_iff]
    unfold Survived ownJsons
    rw [rows_flatten hrows]
    simp only [Except.ok.injEq, eq_comm]
  unfold Keeps
  rw [← rows_isOk_iff hget itemJson]
  constructor
  · intro h
    obtain ⟨rows, hrows, hparams⟩ := h
    exact ⟨⟨rows, hrows⟩, (hsurvived rows hrows).mp hparams⟩
  · intro h
    obtain ⟨⟨rows, hrows⟩, hkeeps⟩ := h
    exact ⟨rows, hrows, (hsurvived rows hrows).mpr hkeeps⟩

/-! ## All items -/

theorem flagAfter_append (is2DArray : Bool) (elements elements' : List CJson) :
    flagAfter is2DArray (elements ++ elements') = flagAfter (flagAfter is2DArray elements) elements' :=
  List.foldl_append

/-- The loop finds for every item the flag that those before it leave. -/
theorem items_survive_iff {β : Type} {update : CJson → Bool → List (List P) → Outcome β}
    {paramsOf : β → Params P} {Own : CJson → Prop}
    (hget : ∀ paramJson, (∃ p, getParam paramJson = .ok p) ↔ ¬ Unreadable sdk paramJson)
    (hupdate : ∀ itemJson is2DArray rows params,
      (∃ object, update itemJson is2DArray rows = .ok object ∧ paramsOf object = params) ↔
        Own itemJson ∧ chooseParams is2DArray rows = .ok params)
    (is2DArray : Bool) (items : List CJson) (hparams : ∀ itemJson ∈ items, ParamsArray itemJson) :
    (∃ objects, loadItems getParam update is2DArray items = .ok objects ∧
      List.Forall₂ (fun itemJson object => Survived getParam itemJson (paramsOf object)) items objects) ↔
      Each (fun before itemJson => Own itemJson ∧
        Keeps sdk (flagAfter is2DArray (before.flatMap elementsOf)) itemJson) items := by
  induction items generalizing is2DArray with
  | nil => exact ⟨fun _ => each_nil _, fun _ => ⟨[], rfl, .nil⟩⟩
  | cons itemJson items ih =>
    rw [List.forall_mem_cons] at hparams
    rw [each_cons_iff]
    simp only [List.flatMap_nil, List.flatMap_cons, flagAfter_append]
    rw [← ih (flagAfter is2DArray (elementsOf itemJson)) hparams.2]
    show _ ↔ (Own itemJson ∧ Keeps sdk is2DArray itemJson) ∧ _
    rw [← item_survives_iff hget, loadItems, loadParams_eq hparams.1]
    constructor
    · intro h
      obtain ⟨objects, hload, hsurvived⟩ := h
      obtain ⟨loaded, hloaded, hload⟩ := bind_eq_ok.mp hload
      obtain ⟨rows, hrows, hloaded⟩ := bind_eq_ok.mp hloaded
      cases hloaded
      obtain ⟨object, hobject, hload⟩ := bind_eq_ok.mp hload
      obtain ⟨rest, hrest, hload⟩ := bind_eq_ok.mp hload
      cases hload
      cases hsurvived with
      | cons hitem hitems =>
        obtain ⟨hown, hchoose⟩ := (hupdate _ _ _ _).mp ⟨object, hobject, rfl⟩
        exact ⟨⟨hown, rows, hrows, _, hchoose, hitem⟩, rest, hrest, hitems⟩
    · intro h
      obtain ⟨⟨hown, rows, hrows, params, hchoose, hitem⟩, rest, hrest, hitems⟩ := h
      obtain ⟨object, hobject, rfl⟩ := (hupdate _ _ _ _).mpr ⟨hown, hchoose⟩
      refine ⟨object :: rest, ?_, .cons hitem hitems⟩
      rw [hrows, bind_ok]
      show (update itemJson _ rows >>= _) = _
      rw [hobject, bind_ok, hrest]
      rfl

end

/-! ## Commands, alarms and configs -/

section
variable (sdk : Sdk)

theorem getUpdateConfigParam_isOk_iff (paramJson : CJson) :
    (∃ p, getUpdateConfigParam sdk (fun _ => true) paramJson = .ok p) ↔ ¬ Unreadable sdk paramJson := by
  constructor
  · intro h
    obtain ⟨p, hp⟩ := h
    obtain ⟨-, -, hreadable⟩ := getUpdateConfigParam_eq_ok sdk _ hp
    exact hreadable
  · intro h
    obtain ⟨values, hvalues⟩ := getUpdateConfigParam_of_readable sdk h
    exact ⟨_, hvalues⟩

/-- The parameter of an alarm or a command is made from that of a config. -/
theorem bind_isOk_iff {α β : Type} {x : Outcome α} (g : α → β) :
    (∃ b, (x >>= fun a => .ok (g a)) = .ok b) ↔ ∃ a, x = .ok a := by
  cases x with
  | ok a => exact ⟨fun _ => ⟨a, rfl⟩, fun _ => ⟨g a, rfl⟩⟩
  | error e => simp [bind_error]

theorem getUpdateAlarmParam_isOk_iff (paramJson : CJson) :
    (∃ p, getUpdateAlarmParam sdk (fun _ => true) paramJson = .ok p) ↔ ¬ Unreadable sdk paramJson := by
  rw [← getUpdateConfigParam_isOk_iff]
  exact bind_isOk_iff fun cfgParam : CUpdateConfigParam => ({ cfgParam with } : CUpdateAlarmParam)

theorem getUpdateCommandParam_isOk_iff (paramJson : CJson) :
    (∃ p, getUpdateCommandParam sdk (fun _ => true) paramJson = .ok p) ↔
      ¬ Unreadable sdk paramJson := by
  rw [← getUpdateConfigParam_isOk_iff]
  exact bind_isOk_iff (commandParam sdk paramJson)

/-- Nothing in `displayOnProperty` ends the loading of a command. -/
def DisplayOnReadable (commandJson : CJson) : Prop := commandPlaces commandJson = []

/-- What the constructor of an item stores. -/
theorem build_iff {P β : Type} (paramsOf : β → Params P) (make : Params P → β)
    (hmake : ∀ params, paramsOf (make params) = params) (is2DArray : Bool) (rows : List (List P))
    (params : Params P) :
    (∃ object, (chooseParams is2DArray rows >>= fun ps => .ok (make ps)) = .ok object ∧
      paramsOf object = params) ↔ chooseParams is2DArray rows = .ok params := by
  constructor
  · intro h
    obtain ⟨object, hobject, rfl⟩ := h
    obtain ⟨ps, hps, hobject⟩ := bind_eq_ok.mp hobject
    cases hobject
    rw [hmake, hps]
  · intro h
    exact ⟨make params, bind_eq_ok.mpr ⟨params, h, rfl⟩, hmake params⟩

theorem updateCommand_iff (commandJson : CJson) (is2DArray : Bool)
    (rows : List (List CUpdateCommandParam)) (params : Params CUpdateCommandParam) :
    (∃ command, updateCommand sdk (fun _ => true) commandJson is2DArray rows = .ok command ∧
      command.m_params = params) ↔
      DisplayOnReadable commandJson ∧ chooseParams is2DArray rows = .ok params := by
  unfold DisplayOnReadable
  rw [← (loadDisplayOnProperty_exits commandJson).isOk_iff]
  unfold updateCommand
  cases loadDisplayOnProperty commandJson with
  | ok displayOnProperty =>
    have hbuild := build_iff CUpdateCommand.m_params
      (fun ps => { updateInfo sdk commandJson with
        m_type := sdk.getJSONStringFieldValue commandJson JKEY_TYPE
        m_params := ps
        m_displayOnProperty := displayOnProperty }) (fun _ => rfl) is2DArray rows params
    exact hbuild.trans ⟨fun h => ⟨⟨_, rfl⟩, h⟩, fun h => h.2⟩
  | error e => simp [bind_error]

theorem updateAlarm_iff (alarmJson : CJson) (is2DArray : Bool)
    (rows : List (List CUpdateAlarmParam)) (params : Params CUpdateAlarmParam) :
    (∃ alarm, updateAlarm sdk (fun _ => true) alarmJson is2DArray rows = .ok alarm ∧
      alarm.m_params = params) ↔ True ∧ chooseParams is2DArray rows = .ok params := by
  rw [true_and]
  exact build_iff CUpdateAlarm.m_params (fun ps => { updateInfo sdk alarmJson with m_params := ps })
    (fun _ => rfl) is2DArray rows params

theorem updateConfig_iff (configJson : CJson) (is2DArray : Bool)
    (rows : List (List CUpdateConfigParam)) (params : Params CUpdateConfigParam) :
    (∃ config, updateConfig sdk (fun _ => true) configJson is2DArray rows = .ok config ∧
      config.m_params = params) ↔ True ∧ chooseParams is2DArray rows = .ok params := by
  rw [true_and]
  exact build_iff CUpdateConfig.m_params (fun ps => { updateInfo sdk configJson with m_params := ps })
    (fun _ => rfl) is2DArray rows params

/-- The commands of a module are loaded, each with its own parameters. -/
def CommandsSurvive (moduleJson : CJson) (items : List CJson) : Prop :=
  ∃ lCommands, loadCommands sdk (fun _ => true) moduleJson = .ok lCommands ∧
    List.Forall₂ (fun commandJson command =>
      Survived (getUpdateCommandParam sdk fun _ => true) commandJson command.m_params) items lCommands

def AlarmsSurvive (moduleJson : CJson) (items : List CJson) : Prop :=
  ∃ lAlarms, loadAlarms sdk (fun _ => true) moduleJson = .ok lAlarms ∧
    List.Forall₂ (fun alarmJson alarm =>
      Survived (getUpdateAlarmParam sdk fun _ => true) alarmJson alarm.m_params) items lAlarms

def ConfigsSurvive (moduleJson : CJson) (items : List CJson) : Prop :=
  ∃ lConfigs, loadConfigs sdk (fun _ => true) moduleJson = .ok lConfigs ∧
    List.Forall₂ (fun configJson config =>
      Survived (getUpdateConfigParam sdk fun _ => true) configJson config.m_params) items lConfigs

/-- The last element before an item, in whichever `params` it stands, is a row. -/
def rowBefore (before : List CJson) : Bool := lastIsRow (before.flatMap elementsOf)

theorem flagAfter_false (elements : List CJson) : flagAfter false elements = lastIsRow elements :=
  (flagAfter_own_iff false elements).mpr fun _ => rfl

/-- A section that is an array. -/
theorem sectionItems_eq {moduleJson : CJson} {dataType : DataTypes} {items : List CJson}
    (h : moduleJson.getObjectItem (sdk.dataTypes dataType) = some (.array items)) :
    sectionItems sdk moduleJson dataType = .ok items := by
  have hitems : (CJson.array items).children.map (·.2) = items := by
    simp [CJson.children, Function.comp_def]
  rw [sectionItems, h]
  show Except.ok ((CJson.array items).children.map (·.2)) = Except.ok items
  rw [hitems]

/-- The parameters of the commands, alarms and configs of a module survive, and
with them each item's own choice of a constructor, exactly when every item
keeps its parameters after those before it. -/
theorem params_survive_iff (moduleJson : CJson) (items : List CJson)
    (hparams : ∀ itemJson ∈ items, ParamsArray itemJson) :
    (moduleJson.getObjectItem (sdk.dataTypes .commands) = some (.array items) →
      (CommandsSurvive sdk moduleJson items ↔ Each (fun before itemJson =>
        DisplayOnReadable itemJson ∧ Keeps sdk (rowBefore before) itemJson) items)) ∧
    (moduleJson.getObjectItem (sdk.dataTypes .alarms) = some (.array items) →
      (AlarmsSurvive sdk moduleJson items ↔
        Each (fun before itemJson => Keeps sdk (rowBefore before) itemJson) items)) ∧
    (moduleJson.getObjectItem (sdk.dataTypes .configs) = some (.array items) →
      (ConfigsSurvive sdk moduleJson items ↔
        Each (fun before itemJson => Keeps sdk (rowBefore before) itemJson) items)) := by
  refine ⟨?_, ?_, ?_⟩
  · intro hsection
    unfold CommandsSurvive loadCommands
    rw [sectionItems_eq sdk hsection, bind_ok]
    have h := items_survive_iff (getUpdateCommandParam_isOk_iff sdk) (updateCommand_iff sdk) false items
      hparams
    simp only [flagAfter_false] at h
    exact h
  · intro hsection
    unfold AlarmsSurvive loadAlarms
    rw [sectionItems_eq sdk hsection, bind_ok]
    have h := items_survive_iff (getUpdateAlarmParam_isOk_iff sdk) (updateAlarm_iff sdk) false items
      hparams
    simp only [true_and, flagAfter_false] at h
    exact h
  · intro hsection
    unfold ConfigsSurvive loadConfigs
    rw [sectionItems_eq sdk hsection, bind_ok]
    have h := items_survive_iff (getUpdateConfigParam_isOk_iff sdk) (updateConfig_iff sdk) false items
      hparams
    simp only [true_and, flagAfter_false] at h
    exact h

end

/-! ## Two modules -/

def param (name : String) : CJson := .object [(str "name", .string (str name))]

def item (elements : List CJson) : CJson := .object [(str "params", .array elements)]

/-- The same items as commands, alarms and configs. -/
def moduleOf (items : List CJson) : CJson := .object [(str "commands", .array items),
  (str "alarms", .array items), (str "configs", .array items)]

theorem param_readable (name : String) : ¬ Unreadable plainSdk (param name) :=
  fun h => nomatch (h.1 : false = true)

/-- A flat item, and one with a row after it. -/
theorem params_survive_iff_flat_row :
    let items := [item [param "p"], item [.array [param "q", param "r"]]]
    CommandsSurvive plainSdk (moduleOf items) items ∧ AlarmsSurvive plainSdk (moduleOf items) items ∧
      ConfigsSurvive plainSdk (moduleOf items) items := by
  intro items
  have hflat : Keeps plainSdk false (item [param "p"]) := by
    refine ⟨?_, fun _ => rfl, fun _ => ?_⟩
    · show ∀ paramJson ∈ [param "p"], _
      simp only [List.mem_singleton, forall_eq]
      exact param_readable "p"
    · show ∀ paramJson ∈ [param "p"], _
      simp only [List.mem_singleton, forall_eq]
      rfl
  have hrow : Keeps plainSdk false (item [.array [param "q", param "r"]]) := by
    refine ⟨?_, fun _ => rfl, fun h => nomatch (h : true = false)⟩
    show ∀ paramJson ∈ [param "q", param "r"], _
    simp only [List.forall_mem_cons]
    exact ⟨param_readable "q", param_readable "r", fun _ h => nomatch h⟩
  have hkeeps : Each (fun before itemJson => Keeps plainSdk (rowBefore before) itemJson) items :=
    each_cons_iff.mpr ⟨hflat, each_cons_iff.mpr ⟨hrow, each_nil _⟩⟩
  have h := params_survive_iff plainSdk (moduleOf items) items (by
    simp only [items, List.forall_mem_cons]
    exact ⟨rfl, rfl, fun _ h => nomatch h⟩)
  exact ⟨(h.1 rfl).mpr (each_cons_iff.mpr ⟨⟨rfl, hflat⟩, each_cons_iff.mpr ⟨⟨rfl, hrow⟩, each_nil _⟩⟩),
    (h.2.1 rfl).mpr hkeeps, (h.2.2 rfl).mpr hkeeps⟩

/-- In `[[p, q], r]` the flag of r makes the list flat, and q is dropped. -/
theorem mixed_params_dropped :
    ¬ ∀ (sdk : Sdk) (moduleJson : CJson) (items : List CJson),
      (∀ itemJson ∈ items, ParamsArray itemJson) →
      moduleJson.getObjectItem (sdk.dataTypes .configs) = some (.array items) →
      ConfigsSurvive sdk moduleJson items := by
  intro h
  let mixed := item [.array [param "p", param "q"], param "r"]
  obtain ⟨lConfigs, hload, hsurvived⟩ := h plainSdk (moduleOf [mixed]) [mixed]
    (fun _ hmem => by rw [List.mem_singleton.mp hmem]; rfl) rfl
  cases hload
  cases hsurvived with
  | cons hmixed _ =>
    have hlength : 3 = 2 := (mapM_eq_ok.mp hmixed.1).length_eq
    omega

end TmatePlugin.L2.ParamLists
