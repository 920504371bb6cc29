import TmatePlugin.Lib.CInt
import TmatePlugin.L1Base.CJson
import TmatePlugin.L3Machine.Handlers

/-!
# On_message

The message handler on the text it receives. It runs in the websocket's run
loop and catches nothing: what it throws ends the worker (`Handlers`).

The SDK and cJSON's parser are parameters (`Sdk`). Constructors of the SDK may
throw. The plugin is set by main only when its update description was loaded,
so `GetUpdateData()` is not NULL. An object made from a message is named by the
number of its allocation.

* `onMessage_machine`: on the machine's fields the handler is
  `Handlers.onMessage` of the message as it is classified, or leaves them to
  the catch block.
* `returns_iff`: it returns exactly when the code of an error message is a
  number between -2^31 and 2^31 (both excluded) and the SDK does not throw.
* `unsigned_unchanged_iff`: an unsigned message leaves the plugin as it was
  exactly when it is a command, or there is no plugin.
-/
namespace TmatePlugin.L3.OnMessage

open CString
open TmatePlugin.L1.Json
open TmatePlugin.L3.States
open TmatePlugin.L3.Handlers (Connectivity AgentMessage CWebSocketClient onAgentEvent onClose)

/-- The constants of the class of this name.
mirrors PluginSDK/BasePluginObject.h:117-128 -/
inductive MessageType where
  | apiNotifyPluginCommand
  | apiNotifyPluginAlarmUpdate
  | apiNotifyAgentEvent
  | error
  | others
  deriving DecidableEq, Repr

/-- What the handler calls; a constructor gives the object or the text of its
exception. `C` and `A` are `CCommandPluginJson` and `CAlarmUpdatePluginJson`. -/
structure Sdk (C A : Type) where
  getMessageType : Bytes → Bytes × Option Bytes
  messageType : MessageType → Bytes
  messageType_injective : Function.Injective messageType
  agentEventServerConnectivity : Bytes
  offline : Bytes
  online : Bytes
  cJSON_Parse : Bytes → Option CJson
  getJSONStringFieldValue : CJson → Bytes → Bytes
  commandPluginJson : Bytes → Bytes → Except Bytes C
  commandValidSignature : C → Bool
  alarmUpdatePluginJson : Bytes → Bytes → Except Bytes A
  alarmValidSignature : A → Bool
  getAlarms : A → Bytes → Except Bytes (List CJson)

/-- mirrors Plugins/TmatePlugin.h:25-33 -/
def AlertStatus.none : BitVec 1 := 0#1

/-- mirrors Plugins/TmatePlugin.cpp:31 -/
def moduleTmate : Bytes := str "tmateWebConsole"

/-- The fields of the plugin that a message may change.
mirrors Plugins/TmatePlugin.h:96-97 -/
structure CTmatePlugin (A : Type) where
  accessKey : Bytes
  m_alertsStatus : BitVec 1
  m_alarmUpdateObj : Option (Nat × A)

/-- The client, its plugin and the globals; `isUpdated` is the flag of the
plugin's `CUpdatePluginJson`. Allocations are numbered from 0. -/
structure State (C A : Type) where
  connection : CConnection
  isUpdated : Bool
  m_plugin : Option (CTmatePlugin A)
  m_receivedCommand : Option (Nat × C)
  needSendCmdAcks : Bool
  allocated : Nat
  alarmUpdate_allocated : ∀ plugin ∈ m_plugin, ∀ o ∈ plugin.m_alarmUpdateObj, o.1 < allocated
  receivedCommand_allocated : ∀ o ∈ m_receivedCommand, o.1 < allocated

/-- How the handler ends; `overflow` is undefined behaviour. -/
inductive Ending where
  | returned
  | thrown (what : Bytes)
  | overflow
  deriving DecidableEq, Repr

section
variable {C A : Type} (sdk : Sdk C A)

/-! ## The branches -/

/-- The branch of error code 32000.
mirrors MainSrc/WebSocketClient.cpp:217-230 -/
def deviceOffline (s : State C A) : State C A :=
  { s with
    connection :=
      if s.connection.mCurrentState = .pluginRegistered then s.connection.raise .deviceOffline
      else s.connection
    isUpdated := s.m_plugin.isNone && s.isUpdated }

/-- mirrors MainSrc/WebSocketClient.cpp:207-239 -/
def onError (error : Option Bytes) (s : State C A) : State C A × Ending :=
  match error.bind sdk.cJSON_Parse with
  | none => (s, .returned)
  | some errorJson =>
    match CInt.stoi (sdk.getJSONStringFieldValue errorJson (str "code")) with
    | .error e => (s, .thrown e.what)
    | .ok code =>
      match CInt.abs? code with
      | none => (s, .overflow)
      | some errCodeInt => (if errCodeInt = 32000 then deviceOffline s else s, .returned)

/-- mirrors MainSrc/WebSocketClient.h:71 -/
def setReceivedCommand (receivedCommand : C) (s : State C A) : State C A :=
  { s with
    m_receivedCommand := some (s.allocated, receivedCommand)
    needSendCmdAcks := true
    allocated := s.allocated + 1
    alarmUpdate_allocated := fun plugin hplugin o ho =>
      Nat.lt_succ_of_lt (s.alarmUpdate_allocated plugin hplugin o ho)
    receivedCommand_allocated := fun o ho => by cases ho; exact Nat.lt_succ_self _ }

/-- The object of an invalid command is deleted again.
mirrors MainSrc/WebSocketClient.cpp:241-259 -/
def onCommand (payload : Bytes) (s : State C A) : State C A × Ending :=
  match s.m_plugin with
  | none => (s, .returned)
  | some plugin =>
    match sdk.commandPluginJson payload plugin.accessKey with
    | .error what => (s, .thrown what)
    | .ok receivedCommand =>
      if sdk.commandValidSignature receivedCommand then
        (setReceivedCommand receivedCommand s, .returned)
      else (s, .returned)

/-- The plugin without alarms, before the new object is made.
mirrors Plugins/TmatePlugin.cpp:276-283 -/
def clearAlarms (plugin : CTmatePlugin A) (s : State C A) : State C A :=
  { s with
    m_plugin := some { plugin with m_alertsStatus := AlertStatus.none, m_alarmUpdateObj := none }
    alarmUpdate_allocated := fun p hp o ho => by cases hp; cases ho }

/-- mirrors Plugins/TmatePlugin.cpp:284 -/
def setAlarms (plugin : CTmatePlugin A) (alarmUpdateObj : A) (s : State C A) : State C A :=
  { s with
    m_plugin := some { plugin with
      m_alertsStatus := AlertStatus.none
      m_alarmUpdateObj := some (s.allocated, alarmUpdateObj) }
    allocated := s.allocated + 1
    alarmUpdate_allocated := fun p hp o ho => by cases hp; cases ho; exact Nat.lt_succ_self _
    receivedCommand_allocated := fun o ho => Nat.lt_succ_of_lt (s.receivedCommand_allocated o ho) }

/-- The loop over the alarms only reads and logs them.
mirrors Plugins/TmatePlugin.cpp:271-303 -/
def updateAlarmsData (payload : Bytes) (plugin : CTmatePlugin A) (s : State C A) :
    State C A × Ending :=
  match sdk.alarmUpdatePluginJson payload plugin.accessKey with
  | .error what => (clearAlarms plugin s, .thrown what)
  | .ok alarmUpdateObj =>
    match sdk.getAlarms alarmUpdateObj moduleTmate with
    | .error what => (setAlarms plugin alarmUpdateObj s, .thrown what)
    | .ok _ => (setAlarms plugin alarmUpdateObj s, .returned)

/-- mirrors MainSrc/WebSocketClient.cpp:260-267 -/
def onAlarmUpdate (payload : Bytes) (s : State C A) : State C A × Ending :=
  match s.m_plugin with
  | none => (s, .returned)
  | some plugin => updateAlarmsData sdk payload plugin s

/-- `offline` is compared first. -/
def connectivity (serverConnectivity : CJson) : Connectivity :=
  let value := sdk.getJSONStringFieldValue serverConnectivity sdk.agentEventServerConnectivity
  if value = sdk.offline then .offline else if value = sdk.online then .online else .other

/-- mirrors MainSrc/WebSocketClient.cpp:269-320 -/
def onAgentEventText (error : Option Bytes) (s : State C A) : State C A × Ending :=
  match error.bind sdk.cJSON_Parse with
  | none => (s, .returned)
  | some serverConnectivity =>
    ({ s with connection := onAgentEvent (connectivity sdk serverConnectivity) s.connection }, .returned)

/-- `payload` is what `c_str()` gives of the message.
mirrors MainSrc/WebSocketClient.cpp:199-326 -/
def onMessage (payload : Bytes) (s : State C A) : State C A × Ending :=
  if (sdk.getMessageType payload).1 = sdk.messageType .error then
    onError sdk (sdk.getMessageType payload).2 s
  else if (sdk.getMessageType payload).1 = sdk.messageType .apiNotifyPluginCommand then
    onCommand sdk payload s
  else if (sdk.getMessageType payload).1 = sdk.messageType .apiNotifyPluginAlarmUpdate then
    onAlarmUpdate sdk payload s
  else if (sdk.getMessageType payload).1 = sdk.messageType .apiNotifyAgentEvent then
    onAgentEventText sdk (sdk.getMessageType payload).2 s
  else (s, .returned)

/-! ## One branch for each type -/

/-- The type `GetMessageType` gives a message. -/
def HasType (payload : Bytes) (t : MessageType) : Prop :=
  (sdk.getMessageType payload).1 = sdk.messageType t

variable {sdk}

theorem HasType.unique {payload : Bytes} {t t' : MessageType} (h : HasType sdk payload t)
    (h' : HasType sdk payload t') : t = t' :=
  sdk.messageType_injective (h.symm.trans h')

/-- The type of a message decides its branch. -/
theorem onMessage_cases (payload : Bytes) (s : State C A) (p : State C A × Ending → Prop)
    (herror : HasType sdk payload .error → p (onError sdk (sdk.getMessageType payload).2 s))
    (hcommand : HasType sdk payload .apiNotifyPluginCommand → p (onCommand sdk payload s))
    (halarm : HasType sdk payload .apiNotifyPluginAlarmUpdate → p (onAlarmUpdate sdk payload s))
    (hevent : HasType sdk payload .apiNotifyAgentEvent →
      p (onAgentEventText sdk (sdk.getMessageType payload).2 s))
    (hothers : (∀ t, HasType sdk payload t → t = .others) → p (s, .returned)) :
    p (onMessage sdk payload s) := by
  unfold onMessage
  split
  · exact herror ‹_›
  split
  · exact hcommand ‹_›
  split
  · exact halarm ‹_›
  split
  · exact hevent ‹_›
  · apply hothers
    intro t ht
    cases t <;> first | rfl | exact absurd ht ‹_›

theorem onMessage_command {payload : Bytes} (s : State C A)
    (h : HasType sdk payload .apiNotifyPluginCommand) :
    onMessage sdk payload s = onCommand sdk payload s :=
  onMessage_cases payload s (· = onCommand sdk payload s) (fun h' => (nomatch h.unique h'))
    (fun _ => rfl) (fun h' => (nomatch h.unique h')) (fun h' => (nomatch h.unique h'))
    (fun hothers => (nomatch hothers _ h))

theorem onMessage_alarmUpdate {payload : Bytes} (s : State C A)
    (h : HasType sdk payload .apiNotifyPluginAlarmUpdate) :
    onMessage sdk payload s = onAlarmUpdate sdk payload s :=
  onMessage_cases payload s (· = onAlarmUpdate sdk payload s) (fun h' => (nomatch h.unique h'))
    (fun h' => (nomatch h.unique h')) (fun _ => rfl) (fun h' => (nomatch h.unique h'))
    (fun hothers => (nomatch hothers _ h))

/-! ## The machine's handler -/

/-- The client of the machine, which has a plugin, shows the connection and the
flag. -/
def Shows (s : State C A) (k : CConnection) (c : CWebSocketClient) : Prop :=
  s.connection = k ∧ s.isUpdated = c.isUpdated ∧ s.m_plugin.isSome = true

/-- A handled message is one of the machine's messages, and one that throws
leaves the connection to the catch block. -/
def Follows (k : CConnection) (c : CWebSocketClient) (r : State C A × Ending) : Prop :=
  (r.2 = .returned → ∃ m, Shows r.1 (Handlers.onMessage m k c).1 (Handlers.onMessage m k c).2) ∧
    ∀ what, r.2 = .thrown what → r.1.connection = (onClose (some what) k c).1

/-- What does not touch the machine's fields is another message to it. -/
theorem follows_others {s : State C A} {k : CConnection} {c : CWebSocketClient} (ending : Ending)
    (h : Shows s k c) : Follows k c (s, ending) :=
  ⟨fun _ => ⟨.others, h⟩, fun _ _ => h.1⟩

theorem follows_error {s : State C A} {k : CConnection} {c : CWebSocketClient}
    (error : Option Bytes) (h : Shows s k c) : Follows k c (onError sdk error s) := by
  unfold onError
  split
  · exact follows_others _ h
  split
  · exact follows_others _ h
  split
  · exact follows_others _ h
  · rename_i code _ _ errCodeInt habs
    obtain ⟨-, habs⟩ := CInt.abs?_eq_some_iff.mp habs
    obtain ⟨rfl, hupdated, hplugin⟩ := h
    refine ⟨fun _ => ⟨.error code, ?_⟩, fun _ h => nomatch h⟩
    unfold Handlers.onMessage
    by_cases hcode : errCodeInt = 32000
    · simp only [habs, hcode, if_true]
      refine ⟨rfl, ?_, hplugin⟩
      show (s.m_plugin.isNone && s.isUpdated) = false
      rw [Option.isNone_eq_false_iff.mpr hplugin, Bool.false_and]
    · simp only [habs, hcode, if_false]
      exact ⟨rfl, hupdated, hplugin⟩

theorem follows_command {s : State C A} {k : CConnection} {c : CWebSocketClient} (payload : Bytes)
    (h : Shows s k c) : Follows k c (onCommand sdk payload s) := by
  unfold onCommand
  split
  · exact follows_others _ h
  split
  · exact follows_others _ h
  split
  · exact follows_others _ (s := setReceivedCommand _ s) h
  · exact follows_others _ h

theorem follows_alarmUpdate {s : State C A} {k : CConnection} {c : CWebSocketClient}
    (payload : Bytes) (h : Shows s k c) : Follows k c (onAlarmUpdate sdk payload s) := by
  unfold onAlarmUpdate
  split
  · exact follows_others _ h
  rename_i plugin _
  have hclear : Shows (clearAlarms plugin s) k c := ⟨h.1, h.2.1, rfl⟩
  have hset : ∀ a, Shows (setAlarms plugin a s) k c := fun a => ⟨h.1, h.2.1, rfl⟩
  unfold updateAlarmsData
  split
  · exact follows_others _ hclear
  split
  · exact follows_others _ (hset _)
  · exact follows_others _ (hset _)

theorem follows_agentEvent {s : State C A} {k : CConnection} {c : CWebSocketClient}
    (error : Option Bytes) (h : Shows s k c) : Follows k c (onAgentEventText sdk error s) := by
  unfold onAgentEventText
  split
  · exact follows_others _ h
  · rename_i serverConnectivity _
    obtain ⟨rfl, hupdated, hplugin⟩ := h
    exact ⟨fun _ => ⟨.notifyAgentEvent (connectivity sdk serverConnectivity), rfl, hupdated, hplugin⟩,
      fun _ h => nomatch h⟩

/-- On the fields of the machine the handler is the machine's. -/
theorem onMessage_machine (payload : Bytes) {s : State C A} {k : CConnection} {c : CWebSocketClient}
    (h : Shows s k c) : Follows k c (onMessage sdk payload s) :=
  onMessage_cases payload s (Follows k c) (fun _ => follows_error _ h)
    (fun _ => follows_command payload h) (fun _ => follows_alarmUpdate payload h)
    (fun _ => follows_agentEvent _ h) (fun _ => follows_others _ h)

/-! ## When the handler returns -/

variable (sdk)

/-- The code of an error message is a number, and neither it nor its negative
is too large for an int. -/
def ErrorCodeFits (payload : Bytes) : Prop :=
  HasType sdk payload .error → ∀ errorJson,
    (sdk.getMessageType payload).2.bind sdk.cJSON_Parse = some errorJson →
      ∃ code, CInt.Reads (sdk.getJSONStringFieldValue errorJson (str "code")) code ∧
        -2 ^ 31 < code ∧ code < 2 ^ 31

/-- The constructors of the SDK that the message leads to do not throw. -/
def SdkReturns (payload : Bytes) (s : State C A) : Prop :=
  ∀ plugin ∈ s.m_plugin,
    (HasType sdk payload .apiNotifyPluginCommand →
      ∃ c, sdk.commandPluginJson payload plugin.accessKey = .ok c) ∧
    (HasType sdk payload .apiNotifyPluginAlarmUpdate →
      ∃ a alarms, sdk.alarmUpdatePluginJson payload plugin.accessKey = .ok a ∧
        sdk.getAlarms a moduleTmate = .ok alarms)

theorem onError_returns_iff (error : Option Bytes) (s : State C A) :
    (onError sdk error s).2 = .returned ↔ ∀ errorJson, error.bind sdk.cJSON_Parse = some errorJson →
      ∃ code, CInt.Reads (sdk.getJSONStringFieldValue errorJson (str "code")) code ∧
        -2 ^ 31 < code ∧ code < 2 ^ 31 := by
  unfold onError
  cases error.bind sdk.cJSON_Parse with
  | none => exact ⟨fun _ _ h => (nomatch h), fun _ => rfl⟩
  | some errorJson =>
    simp only [Option.some.injEq, forall_eq']
    constructor
    · intro h
      split at h
      · cases h
      · rename_i code hcode
        obtain ⟨hreads, hmin, hmax⟩ := CInt.stoi_eq_ok_iff.mp hcode
        split at h
        · cases h
        · rename_i n habs
          have hne := (CInt.abs?_eq_some_iff.mp habs).1
          refine ⟨code, hreads, ?_⟩
          unfold CInt.intMin at hmin hne
          unfold CInt.intMax at hmax
          omega
    · intro h
      obtain ⟨code, hreads, hmin, hmax⟩ := h
      have hcode : CInt.stoi (sdk.getJSONStringFieldValue errorJson (str "code")) = .ok code := by
        rw [CInt.stoi_eq_ok_iff]
        unfold CInt.intMin CInt.intMax
        exact ⟨hreads, by omega, by omega⟩
      have habs : CInt.abs? code = some code.natAbs := by
        rw [CInt.abs?_eq_some_iff]
        unfold CInt.intMin
        exact ⟨by omega, rfl⟩
      rw [hcode]
      simp only [habs]

theorem onCommand_returns_iff (payload : Bytes) (s : State C A) :
    (onCommand sdk payload s).2 = .returned ↔
      ∀ plugin ∈ s.m_plugin, ∃ c, sdk.commandPluginJson payload plugin.accessKey = .ok c := by
  unfold onCommand
  cases s.m_plugin with
  | none => simp
  | some plugin =>
    simp only [Option.mem_some_iff, forall_eq']
    cases sdk.commandPluginJson payload plugin.accessKey with
    | error what => simp
    | ok receivedCommand =>
      simp only [Except.ok.injEq, exists_eq']
      split <;> simp

theorem onAlarmUpdate_returns_iff (payload : Bytes) (s : State C A) :
    (onAlarmUpdate sdk payload s).2 = .returned ↔
      ∀ plugin ∈ s.m_plugin, ∃ a alarms, sdk.alarmUpdatePluginJson payload plugin.accessKey = .ok a ∧
        sdk.getAlarms a moduleTmate = .ok alarms := by
  unfold onAlarmUpdate updateAlarmsData
  cases s.m_plugin with
  | none => simp
  | some plugin =>
    simp only [Option.mem_some_iff, forall_eq']
    cases sdk.alarmUpdatePluginJson payload plugin.accessKey with
    | error what => simp
    | ok alarmUpdateObj =>
      simp only [Except.ok.injEq]
      cases hget : sdk.getAlarms alarmUpdateObj moduleTmate with
      | error what => simp [hget]
      | ok alarms => simp [hget]

/-- Nothing leaves the handler exactly when an error message has a code that
fits and the SDK does not throw. -/
theorem returns_iff (payload : Bytes) (s : State C A) :
    (onMessage sdk payload s).2 = .returned ↔ ErrorCodeFits sdk payload ∧ SdkReturns sdk payload s := by
  have hcode : ∀ t, t ≠ .error → HasType sdk payload t → ErrorCodeFits sdk payload :=
    fun t hne ht herror => absurd (ht.unique herror) hne
  refine onMessage_cases payload s
    (fun r => r.2 = .returned ↔ ErrorCodeFits sdk payload ∧ SdkReturns sdk payload s) ?_ ?_ ?_ ?_ ?_
  · intro herror
    rw [onError_returns_iff]
    have hsdk : SdkReturns sdk payload s := fun plugin _ =>
      ⟨fun h => (nomatch herror.unique h), fun h => (nomatch herror.unique h)⟩
    exact ⟨fun h => ⟨fun _ => h, hsdk⟩, fun h => h.1 herror⟩
  · intro hcommand
    rw [onCommand_returns_iff]
    exact ⟨fun h => ⟨hcode _ (by decide) hcommand, fun plugin hplugin =>
        ⟨fun _ => h plugin hplugin, fun h => (nomatch hcommand.unique h)⟩⟩,
      fun h plugin hplugin => (h.2 plugin hplugin).1 hcommand⟩
  · intro halarm
    rw [onAlarmUpdate_returns_iff]
    exact ⟨fun h => ⟨hcode _ (by decide) halarm, fun plugin hplugin =>
        ⟨fun h => (nomatch halarm.unique h), fun _ => h plugin hplugin⟩⟩,
      fun h plugin hplugin => (h.2 plugin hplugin).2 halarm⟩
  · intro hevent
    have hsdk : SdkReturns sdk payload s := fun plugin _ =>
      ⟨fun h => (nomatch hevent.unique h), fun h => (nomatch hevent.unique h)⟩
    refine ⟨fun _ => ⟨hcode _ (by decide) hevent, hsdk⟩, fun _ => ?_⟩
    unfold onAgentEventText
    split <;> rfl
  · intro hothers
    refine ⟨fun _ => ⟨fun h => (nomatch hothers _ h), fun plugin _ => ?_⟩, fun _ => rfl⟩
    exact ⟨fun h => (nomatch hothers _ h), fun h => (nomatch hothers _ h)⟩

/-! ## Unsigned messages -/

/-- The message is parsed and its signature is not valid. -/
inductive Unsigned (payload : Bytes) (s : State C A) : Prop where
  | command (htype : HasType sdk payload .apiNotifyPluginCommand)
      (hinvalid : ∀ plugin ∈ s.m_plugin, ∃ c, sdk.commandPluginJson payload plugin.accessKey = .ok c ∧
        sdk.commandValidSignature c = false)
  | alarmUpdate (htype : HasType sdk payload .apiNotifyPluginAlarmUpdate)
      (hinvalid : ∀ plugin ∈ s.m_plugin, ∃ a,
        sdk.alarmUpdatePluginJson payload plugin.accessKey = .ok a ∧ sdk.alarmValidSignature a = false)

/-- The received command, its flag, the alarms and their status are as they
were. -/
def PluginUnchanged (s s' : State C A) : Prop :=
  s'.m_receivedCommand = s.m_receivedCommand ∧ s'.needSendCmdAcks = s.needSendCmdAcks ∧
    s'.m_plugin.map CTmatePlugin.m_alarmUpdateObj = s.m_plugin.map CTmatePlugin.m_alarmUpdateObj ∧
    s'.m_plugin.map CTmatePlugin.m_alertsStatus = s.m_plugin.map CTmatePlugin.m_alertsStatus

theorem PluginUnchanged.refl (s : State C A) : PluginUnchanged s s := ⟨rfl, rfl, rfl, rfl⟩

variable {sdk}

theorem onCommand_unsigned {payload : Bytes} {s : State C A}
    (h : ∀ plugin ∈ s.m_plugin, ∃ c, sdk.commandPluginJson payload plugin.accessKey = .ok c ∧
      sdk.commandValidSignature c = false) : onCommand sdk payload s = (s, .returned) := by
  unfold onCommand
  split
  · rfl
  · rename_i plugin hplugin
    obtain ⟨c, hc, hinvalid⟩ := h plugin hplugin
    rw [hc]
    simp only [hinvalid, Bool.false_eq_true, if_false]

/-- The alarms that were there are gone, signed or not. -/
theorem onAlarmUpdate_changes {payload : Bytes} {s : State C A} {plugin : CTmatePlugin A} {a : A}
    (hplugin : s.m_plugin = some plugin)
    (ha : sdk.alarmUpdatePluginJson payload plugin.accessKey = .ok a) :
    (onAlarmUpdate sdk payload s).1 = setAlarms plugin a s := by
  unfold onAlarmUpdate updateAlarmsData
  simp only [hplugin, ha]
  split <;> rfl

/-- The object that is made from a message was not there before. -/
theorem setAlarms_changed {s : State C A} {plugin : CTmatePlugin A} (hplugin : s.m_plugin = some plugin)
    (a : A) : ¬ PluginUnchanged s (setAlarms plugin a s) := by
  intro h
  have halarm := h.2.2.1
  rw [hplugin] at halarm
  have hobject : some (s.allocated, a) = plugin.m_alarmUpdateObj := Option.some.inj halarm
  have hlt := s.alarmUpdate_allocated plugin hplugin _ hobject.symm
  exact absurd hlt (Nat.lt_irrefl _)

variable (sdk)

/-- An unsigned message leaves the plugin as it was exactly when it is a
command, or there is no plugin: `UpdateAlarmsData` does not look at the
signature. -/
theorem unsigned_unchanged_iff (payload : Bytes) (s : State C A) (h : Unsigned sdk payload s) :
    PluginUnchanged s (onMessage sdk payload s).1 ↔
      HasType sdk payload .apiNotifyPluginCommand ∨ s.m_plugin = none := by
  cases h with
  | command htype hinvalid =>
    rw [onMessage_command s htype, onCommand_unsigned hinvalid]
    exact ⟨fun _ => .inl htype, fun _ => .refl s⟩
  | alarmUpdate htype hinvalid =>
    rw [onMessage_alarmUpdate s htype]
    cases hplugin : s.m_plugin with
    | none =>
      have hnone : onAlarmUpdate sdk payload s = (s, .returned) := by
        unfold onAlarmUpdate
        rw [hplugin]
      rw [hnone]
      exact ⟨fun _ => .inr rfl, fun _ => .refl s⟩
    | some plugin =>
      obtain ⟨a, ha, -⟩ := hinvalid plugin hplugin
      rw [onAlarmUpdate_changes hplugin ha]
      constructor
      · intro h
        exact absurd h (setAlarms_changed hplugin a)
      · intro h
        rcases h with h | h
        · exact (nomatch htype.unique h)
        · cases h

end

/-! ## An agent's messages -/

def messageTypeText : MessageType → Bytes
  | .apiNotifyPluginCommand => str "notifyPluginCommand"
  | .apiNotifyPluginAlarmUpdate => str "notifyPluginAlarmUpdate"
  | .apiNotifyAgentEvent => str "notifyAgentEvent"
  | .error => str "error"
  | .others => str "others"

theorem messageTypeText_injective : Function.Injective messageTypeText := by
  intro a b h
  cases a <;> cases b <;> first | rfl | exact absurd h (by decide)

/-- Messages named by their type: no signature is valid, and an error has no
code. -/
def unsignedSdk : Sdk Unit Unit where
  getMessageType payload :=
    if payload = messageTypeText .error then (payload, some (str "error")) else (payload, none)
  messageType := messageTypeText
  messageType_injective := messageTypeText_injective
  agentEventServerConnectivity := str "serverConnectivity"
  offline := str "offline"
  online := str "online"
  cJSON_Parse _ := some (.object [])
  getJSONStringFieldValue json key := ((json.getObjectItem key).bind CJson.valuestring).getD []
  commandPluginJson _ _ := .ok ()
  commandValidSignature _ := false
  alarmUpdatePluginJson _ _ := .ok ()
  alarmValidSignature _ := false
  getAlarms _ _ := .ok []

/-- A plugin that has set alarms. -/
def alarmedState : State Unit Unit where
  connection := .new
  isUpdated := true
  m_plugin := some ⟨str "k", AlertStatus.none, some (0, ())⟩
  m_receivedCommand := none
  needSendCmdAcks := false
  allocated := 1
  alarmUpdate_allocated := fun p hp o ho => by cases hp; cases ho; exact Nat.zero_lt_one
  receivedCommand_allocated := fun o ho => nomatch ho

/-- The exception of `stoi` for an error without a code leaves the handler. -/
theorem error_code_throws :
    ¬ ∀ (sdk : Sdk Unit Unit) (payload : Bytes) (s : State Unit Unit),
      (onMessage sdk payload s).2 = .returned := by
  intro h
  have hthrown : (onMessage unsignedSdk (str "error") alarmedState).2 = .thrown (str "stoi") := by
    decide
  rw [h] at hthrown
  cases hthrown

theorem unsigned_command_unchanged :
    PluginUnchanged alarmedState
      (onMessage unsignedSdk (str "notifyPluginCommand") alarmedState).1 :=
  (unsigned_unchanged_iff unsignedSdk (str "notifyPluginCommand") alarmedState
    (.command rfl fun _ _ => ⟨(), rfl, rfl⟩)).mpr (.inl rfl)

/-- An unsigned alarm update replaces the alarms. -/
theorem unsigned_alarms_taken :
    ¬ ∀ (sdk : Sdk Unit Unit) (payload : Bytes) (s : State Unit Unit),
      Unsigned sdk payload s → PluginUnchanged s (onMessage sdk payload s).1 := by
  intro h
  have htype : HasType unsignedSdk (str "notifyPluginAlarmUpdate") .apiNotifyPluginAlarmUpdate := rfl
  have hunchanged := h unsignedSdk (str "notifyPluginAlarmUpdate") alarmedState
    (.alarmUpdate htype fun _ _ => ⟨(), rfl, rfl⟩)
  rw [onMessage_alarmUpdate _ htype, onAlarmUpdate_changes rfl rfl] at hunchanged
  exact setAlarms_changed rfl () hunchanged

end TmatePlugin.L3.OnMessage
