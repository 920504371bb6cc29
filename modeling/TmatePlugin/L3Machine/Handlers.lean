import TmatePlugin.Lib.Transition
import TmatePlugin.Lib.CString
import TmatePlugin.L3Machine.States

/-!
# The connection machine: handlers, main's reconnect loop, NotifyUpdateThread

The handlers of MainSrc/WebSocketClient.cpp and the supervise loop of
MainSrc/plugin_main.cpp act on the process-wide `CConnection` and on one
`CWebSocketClient` at a time. `Machine` is their common state:

* `connection`: the state machine of `States`;
* `client`: the current client object, `none` between main's `delete` and its
  next `new`. The plugin object is taken to be present (`GetSamplePlugin()`
  is not NULL), `isUpdated` is its `CUpdatePluginJson::IsUpdated()`;
* `stale`: update threads of deleted clients that still have a
  `connection->toggle()` ahead of them: a thread asleep in the `DeviceOffline`
  branch, or one past the send of `SendNotifyPluginUpdate`. Deleting the
  client does not stop them, and the toggle does not use the client.

Every step below is one handler or one piece of a thread taken without
interruption; `SendNotifyPluginUpdate` cut into its pieces is in
`Interleaved`. Guards:

* the websocket callbacks run while the worker is inside `run()`
  (`threadstart`): the open and fail handlers before the connection is open,
  the message and close handlers after it (websocketpp);
* a handler cut short by an exception of `m_client.close` leaves `run()`, so
  the same step performs `ClientWorkThread`'s catch block;
* `NotifyUpdateThread` tests `IsWebClientWorking()` and `IsConnectionOpened()`
  before it looks at the state. The connection may have closed in between,
  so its steps only need a client whose connection is or was open.

Left out: the retry counters, pauses and logging, `m_pwebclient`, and the parts
of `On_message` that do not touch these fields (`others` stands for every such
message). How a text becomes a message, and when it throws, is in `OnMessage`.
-/
namespace TmatePlugin.L3.Handlers

open Transition CString
open TmatePlugin.L3.States

/-- Where `NotifyUpdateThread` of a client is: in its loop, inside
`SendNotifyPluginUpdate` (state check passed, send done, `SetUpdated` done),
or asleep in the `DeviceOffline` branch.
mirrors MainSrc/WebSocketClient.cpp:389-424,458-487 -/
inductive UpdatePc where
  | loop
  | checked
  | sent (ok : Bool)
  | toggling
  | asleep
  deriving DecidableEq, Repr

/-- The fields of a client that the connection machine reads or writes.
mirrors MainSrc/WebSocketClient.h:94-110 and PluginSDK/UpdatePluginJson.h:128-138 -/
structure CWebSocketClient where
  threadstart : Bool
  wsConnectionOpened : Bool
  exception : Bytes
  isUpdated : Bool
  update : UpdatePc
  deriving DecidableEq, Repr

/-- A new client after `StartWebClient`.
mirrors MainSrc/WebSocketClient.cpp:569-595,633-638 -/
def CWebSocketClient.new : CWebSocketClient := ⟨true, false, [], false, .loop⟩

structure Machine where
  connection : CConnection
  client : Option CWebSocketClient
  stale : Nat

/-- `connection = new CConnection()`, no client yet.
mirrors MainSrc/plugin_main.cpp:83 -/
def Machine.initial : Machine := ⟨.new, none, 0⟩

/-- The value of `serverConnectivity` in a notifyAgentEvent. -/
inductive Connectivity where
  | offline
  | online
  | other
  deriving DecidableEq, Repr

/-- A message as `On_message` classifies it; `error` carries `stoi(errCode)`. -/
inductive AgentMessage where
  | error (code : Int)
  | notifyAgentEvent (connectivity : Connectivity)
  | others
  deriving DecidableEq, Repr

/-! ## The handlers -/

/-- main's CONNECT_WEBSOCKET step up to the new client.
mirrors MainSrc/plugin_main.cpp:120-155 -/
def connectWebsocket (k : CConnection) : CConnection × CWebSocketClient :=
  (k.raise .agentAlive, .new)

/-- mirrors MainSrc/WebSocketClient.cpp:156-172 -/
def onOpen (k : CConnection) (c : CWebSocketClient) : CConnection × CWebSocketClient :=
  (if k.mCurrentState = .agentAlive then k.raise .websocketConnected else k,
    { c with wsConnectionOpened := true })

/-- The `catch(const exception & e)` block of `ClientWorkThread`.
mirrors MainSrc/WebSocketClient.cpp:138-142 -/
def clientWorkThreadCatch (what : Bytes) (c : CWebSocketClient) : CWebSocketClient :=
  { c with threadstart := false, exception := what, isUpdated := false }

/-- The common body of `On_fail` and `On_close`, which differ in the state
they switch away from. `thrown = some what`: `m_client.close` threw, the rest
of the handler is skipped and the worker's catch block runs. -/
def onDisconnect (source : StateId) (thrown : Option Bytes) (k : CConnection)
    (c : CWebSocketClient) : CConnection × CWebSocketClient :=
  match thrown with
  | some what => (k, clientWorkThreadCatch what c)
  | none =>
    (if k.mCurrentState = source then k.raise .websocketDisconnected else k,
      { c with threadstart := false, wsConnectionOpened := false, exception := [],
               isUpdated := false })

/-- mirrors MainSrc/WebSocketClient.cpp:174-197 -/
def onFail : Option Bytes → CConnection → CWebSocketClient → CConnection × CWebSocketClient :=
  onDisconnect .agentAlive

/-- mirrors MainSrc/WebSocketClient.cpp:328-352 -/
def onClose : Option Bytes → CConnection → CWebSocketClient → CConnection × CWebSocketClient :=
  onDisconnect .pluginRegistered

/-- The offline branch for the state `source`: raise SERVER_OFFLINE and, when
that led to `CServerOffline`, remember where it came from.
mirrors MainSrc/WebSocketClient.cpp:283-304 -/
def serverOfflineFrom (source : StateId) (k : CConnection) : CConnection :=
  if (k.raise .serverOffline).mCurrentState = .serverOffline then
    (k.raise .serverOffline).setLastState source
  else k.raise .serverOffline

/-- mirrors MainSrc/WebSocketClient.cpp:269-320 -/
def onAgentEvent (connectivity : Connectivity) (k : CConnection) : CConnection :=
  match connectivity with
  | .offline =>
    if k.mCurrentState = .pluginRegistered then serverOfflineFrom .pluginRegistered k
    else if k.mCurrentState = .websocketConnected then serverOfflineFrom .websocketConnected k
    else k
  | .online => if k.mCurrentState = .serverOffline then k.toggle else k
  | .other => k

/-- mirrors MainSrc/WebSocketClient.cpp:199-326 -/
def onMessage (m : AgentMessage) (k : CConnection) (c : CWebSocketClient) :
    CConnection × CWebSocketClient :=
  match m with
  | .error code =>
    if code.natAbs = 32000 then
      (if k.mCurrentState = .pluginRegistered then k.raise .deviceOffline else k,
        { c with isUpdated := false })
    else (k, c)
  | .notifyAgentEvent connectivity => (onAgentEvent connectivity k, c)
  | .others => (k, c)

/-- The states in which `SendNotifyPluginUpdate` sends.
mirrors MainSrc/WebSocketClient.cpp:469-471 -/
def passesCheck (k : CConnection) : Bool :=
  k.mCurrentState = .websocketConnected || k.mCurrentState = .resendPlugin

/-- `SendNotifyPluginUpdate` without interruption; `ok` is what
`SendPluginNotify` returns. The toggle does not depend on it.
mirrors MainSrc/WebSocketClient.cpp:458-487 -/
def sendNotifyPluginUpdate (ok : Bool) (k : CConnection) (c : CWebSocketClient) :
    CConnection × CWebSocketClient :=
  if passesCheck k then (k.toggle, { c with isUpdated := ok || c.isUpdated }) else (k, c)

/-- The update thread found `CDeviceOffline` and starts its pause.
mirrors MainSrc/WebSocketClient.cpp:407-411 -/
def deviceOfflineCheck (k : CConnection) (c : CWebSocketClient) : CConnection × CWebSocketClient :=
  (k, { c with update := .asleep })

/-- The toggle after the pause, whatever the state is by then.
mirrors MainSrc/WebSocketClient.cpp:412 -/
def deviceOfflineToggle (k : CConnection) (c : CWebSocketClient) : CConnection × CWebSocketClient :=
  (k.toggle, { c with update := .loop })

/-- main's broken-connection branch up to the `delete`.
mirrors MainSrc/plugin_main.cpp:182-199 -/
def brokenConnection (k : CConnection) : CConnection :=
  if k.mCurrentState = .pluginRegistered then k.raise .websocketDisconnected else k

/-- Whether a thread at this point still toggles after its client is deleted. -/
def UpdatePc.pendingToggle : UpdatePc → Nat
  | .sent _ | .toggling | .asleep => 1
  | .loop | .checked => 0

/-! ## Steps -/

inductive Label where
  | connectWebsocket
  | onOpen
  | onFail (thrown : Option Bytes)
  | onClose (thrown : Option Bytes)
  | onMessage (m : AgentMessage)
  | sendNotifyPluginUpdate (ok : Bool)
  | deviceOfflineCheck
  | deviceOfflineToggle
  | staleToggle
  | brokenConnection
  deriving DecidableEq, Repr

/-- A step of the current client, enabled when `p` holds. -/
def Machine.onClient (s : Machine) (p : CWebSocketClient → Bool)
    (f : CConnection → CWebSocketClient → CConnection × CWebSocketClient) : Option Machine :=
  match s.client with
  | none => none
  | some c =>
    if p c then some { s with connection := (f s.connection c).1, client := some (f s.connection c).2 }
    else none

/-- The update thread is in its loop, past the two tests it starts with. -/
def CWebSocketClient.ranLoopTests (c : CWebSocketClient) : Bool :=
  c.update = .loop && (c.wsConnectionOpened || !c.threadstart)

def step (s : Machine) : Label → Option Machine
  | .connectWebsocket =>
    match s.client with
    | some _ => none
    | none =>
      some { s with connection := (connectWebsocket s.connection).1,
                    client := some (connectWebsocket s.connection).2 }
  | .onOpen => s.onClient (fun c => c.threadstart && !c.wsConnectionOpened) onOpen
  | .onFail thrown => s.onClient (fun c => c.threadstart && !c.wsConnectionOpened) (onFail thrown)
  | .onClose thrown => s.onClient (fun c => c.threadstart && c.wsConnectionOpened) (onClose thrown)
  | .onMessage m => s.onClient (fun c => c.threadstart && c.wsConnectionOpened) (onMessage m)
  | .sendNotifyPluginUpdate ok => s.onClient (·.ranLoopTests) (sendNotifyPluginUpdate ok)
  | .deviceOfflineCheck =>
    s.onClient (fun c => c.ranLoopTests && s.connection.mCurrentState = .deviceOffline)
      deviceOfflineCheck
  | .deviceOfflineToggle => s.onClient (·.update = .asleep) deviceOfflineToggle
  | .staleToggle =>
    if 0 < s.stale then some { s with connection := s.connection.toggle, stale := s.stale - 1 }
    else none
  | .brokenConnection =>
    match s.client with
    | none => none
    | some c =>
      if c.threadstart then none
      else some ⟨brokenConnection s.connection, none, s.stale + c.update.pendingToggle⟩

/-- The runs of the machine, every step without interruption. -/
def machine : System Machine Label := System.ofFn (· = .initial) step

/-- A concrete run of the machine. -/
theorem machine_run (ls : List Label) (p : Machine → Bool)
    (h : (exec step .initial ls).any p = true) : ∃ s, machine.Reachable s ∧ p s = true :=
  exists_reachable_of_exec ls p rfl h

/-- A concrete run of the machine whose steps meet `C`. -/
theorem machine_run_guard (C : Machine → Label → Prop) [∀ s l, Decidable (C s l)]
    (ls : List Label) (p : Machine → Bool)
    (h : (exec (guardFn C step) .initial ls).any p = true) :
    ∃ s, (machine.guard C).Reachable s ∧ p s = true :=
  exists_reachable_guard_of_exec ls p rfl h

end TmatePlugin.L3.Handlers
