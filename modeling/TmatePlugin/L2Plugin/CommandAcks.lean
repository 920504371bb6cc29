import TmatePlugin.L2Plugin.Commands
import TmatePlugin.L2Plugin.StateValues

/-!
# SendNotifyPluginCommandAcks

The command thread answers every command of a received message: one ack with
the verdict of `AcceptReceivedCommand`, and for an accepted command, after its
script ran, a second one with the verdict of `ExecuteReceivedCommand`. The
function's effects are returned as a list of events in their order, next to the
state of the file system.

The plugin SDK, a library without source here, is a parameter (`Env`): reading
a string field, and building and printing a commandAcks request, which gives
nothing when the SDK throws (`SetNotifyCommandAcks` then returns NULL).

The states of a second ack are built by `GetStatesOutput`, which hands the text of
the web and ssh files to the log as a format. With a conversion specification in
it the behaviour of the process is undefined from there: `undefined` is the last
event then.

* `ackLoop_clears`: whatever happens on the way, the received command is
  cleared once, as the last effect, unless the behaviour has become undefined.
* `ack_protocol_iff`: when every ack is built, the states sent follow the protocol
  (for each command REJECTED, or ACCEPTED and then ACKED or ERRORED) exactly when
  every command name is empty or known and the links can be logged each time the
  states are read. A command with another name is accepted and then rejected
  (`accepted_then_rejected`).
-/
namespace TmatePlugin.L2.CommandAcks

open CString
open TmatePlugin.L1.Json
open TmatePlugin.L2.StateFiles TmatePlugin.L2.Scripts TmatePlugin.L2.Commands
open TmatePlugin.L2.StateValues

/-- The members that go into a request.
mirrors Plugins/PluginSample.h:80-120 -/
structure CTmatePlugin where
  apiVersion : Bytes
  minify : Bool
  appGUID : Bytes
  accessKey : Bytes

/-- mirrors PluginSDK/CommandAcksPluginJson.h:34-100 -/
structure CCommandPluginJson where
  commandId : Bytes
  commandSource : Bytes
  moduleName : Bytes
  commands : List CJson

/-- What `SetNotifyCommandAcks` hands to the SDK. -/
structure AckRequest where
  apiVersion : Bytes
  appGUID : Bytes
  accessKey : Option Bytes
  minify : Bool
  receivedCommand : CCommandPluginJson
  moduleName : Bytes
  cmdState : AckState
  cmdAcks : CJson
  states : Option CJson

/-- The operating system, cJSON_Parse, and the SDK: `ApiVersion::v2`,
`GetJSONStringFieldValue`, and the printed request, `none` when the SDK throws
a CPluginException. -/
structure Env (σ : Type) where
  os : Os σ
  parse : Bytes → Option CJson
  v2 : Bytes
  getJSONStringFieldValue : CJson → Bytes → Bytes
  commandAcks : AckRequest → Option Bytes

/-- The effects of `SendNotifyPluginCommandAcks`: an ack handed to
`SendPluginNotify`, a run of `ExecuteReceivedCommand`, `needSendStates = true`,
`ClearReceivedCommand`, and whatever undefined behaviour brings. -/
inductive Event where
  | notify (request : AckRequest) (ack : Bytes)
  | execute (cmdName : Bytes)
  | needSendStates
  | clearReceivedCommand
  | undefined

section
variable {σ : Type} (env : Env σ) (plugin : CTmatePlugin)

/-- The states are used by an ACKED request only.
mirrors Plugins/PluginSample.cpp:765-782 -/
def ackRequest (receivedCmds : CCommandPluginJson) (moduleName : Bytes) (cmdState : AckState)
    (cmdAcks : CJson) (states : Option CJson) : AckRequest where
  apiVersion := plugin.apiVersion
  appGUID := plugin.appGUID
  accessKey := if plugin.apiVersion = env.v2 then some plugin.accessKey else none
  minify := plugin.minify
  receivedCommand := receivedCmds
  moduleName := moduleName
  cmdState := cmdState
  cmdAcks := cmdAcks
  states := if cmdState = .ACKED then states else none

/-- The first of several values for one name is kept.
mirrors MainSrc/WebSocketClient.cpp:63-73 -/
def commandParams (command : CJson) : Params :=
  match command.getObjectItem JKEY_PARAMS with
  | some (.array items) =>
    items.foldl (fun params param =>
      params.insertIfNew (env.getJSONStringFieldValue param JKEY_NAME)
        (env.getJSONStringFieldValue param JKEY_VALUE)) ∅
  | _ => ∅

/-- The `cmdAcks` array of the first ack.
mirrors MainSrc/WebSocketClient.cpp:77-81 -/
def firstAck (cmdName reason : Bytes) : CJson :=
  .array [((CJson.object []).addStringToObject JKEY_NAME cmdName).addStringToObject JKEY_RESULT
    reason]

/-- `bitset<5> updateMask; updateMask.set();` -/
def fullMask : BitVec 5 := 0b11111#5

/-- The second ack of an accepted command, with its states. The flag tells whether the
loop goes on; without the ack the function returns, and when the states could not be
logged nothing that follows is defined.
mirrors MainSrc/WebSocketClient.cpp:105-118 -/
def sendExecAck (received : CCommandPluginJson) (cmdName : Bytes) (execState : AckState)
    (execAck : CJson) : Outcome CJson → List Event × Bool
  | .error _ => ([.execute cmdName, .undefined], false)
  | .ok states =>
    let request := ackRequest env plugin received received.moduleName execState (.array [execAck])
      (some states)
    match env.commandAcks request with
    | none => ([.execute cmdName, .clearReceivedCommand], false)
    | some ack => ([.execute cmdName, .notify request ack, .needSendStates], true)

/-- The file system after the scripts of an accepted command: its own, and those of
the states. -/
def scriptsRun (cmdName : Bytes) (params : Params) (s : σ) : σ :=
  let path := pluginPath plugin.appGUID
  updateStates env.os path fullMask
    (executeReceivedCommand env.os path cmdName params (.object []) s).2

/-- The second half of the loop body, for an accepted command.
mirrors MainSrc/WebSocketClient.cpp:88-119 -/
def executeCommand (received : CCommandPluginJson) (cmdName : Bytes) (params : Params) (s : σ) :
    List Event × σ × Bool :=
  let path := pluginPath plugin.appGUID
  let executed := executeReceivedCommand env.os path cmdName params (.object []) s
  let s' := scriptsRun env plugin cmdName params s
  let r := sendExecAck env plugin received cmdName executed.1.1 executed.1.2
    (allStates env.os env.parse path s')
  (r.1, s', r.2)

/-- The body of the loop.
mirrors MainSrc/WebSocketClient.cpp:61-119 -/
def handleCommand (received : CCommandPluginJson) (command : CJson) (s : σ) :
    List Event × σ × Bool :=
  let cmdName := env.getJSONStringFieldValue command JKEY_NAME
  let (accepted, reason) := acceptReceivedCommand cmdName []
  let request := ackRequest env plugin received received.moduleName
    (if accepted then .ACCEPTED else .REJECTED) (firstAck cmdName reason) none
  match env.commandAcks request with
  | none => ([], s, true)
  | some ack =>
    if accepted then
      let r := executeCommand env plugin received cmdName (commandParams env command) s
      (.notify request ack :: r.1, r.2)
    else ([.notify request ack], s, true)

/-- mirrors MainSrc/WebSocketClient.cpp:57-121 -/
def ackLoop (received : CCommandPluginJson) : List CJson → σ → List Event × σ
  | [], s => ([.clearReceivedCommand], s)
  | command :: commands, s =>
    match handleCommand env plugin received command s with
    | (events, s', true) =>
      let r := ackLoop received commands s'
      (events ++ r.1, r.2)
    | (events, s', false) => (events, s')

/-- mirrors MainSrc/WebSocketClient.cpp:41-122 -/
def sendNotifyPluginCommandAcks (receivedCommand : Option CCommandPluginJson) (s : σ) :
    List Event × σ :=
  match receivedCommand with
  | none => ([], s)
  | some received => ackLoop env plugin received received.commands s

/-! ## One command -/

/-- The verdict of `ExecuteReceivedCommand`. -/
def execState (cmdName : Bytes) (params : Params) (s : σ) : AckState :=
  (executeReceivedCommand env.os (pluginPath plugin.appGUID) cmdName params (.object []) s).1.1

/-- The states are read from `s`, and the links in them can be logged. -/
def statesLogged (s : σ) : Bool := linksPlain env.os (pluginPath plugin.appGUID) s

/-- Either the states cannot be logged, or the second ack has the verdict; without it
the function returns. -/
theorem executeCommand_cases (received : CCommandPluginJson) (cmdName : Bytes) (params : Params)
    (s : σ) :
    let s' := scriptsRun env plugin cmdName params s
    let r := executeCommand env plugin received cmdName params s
    (statesLogged env plugin s' = false ∧ r = ([.execute cmdName, .undefined], s', false)) ∨
    (statesLogged env plugin s' = true ∧
      ∃ request : AckRequest, request.cmdState = execState env plugin cmdName params s ∧
        ((env.commandAcks request = none ∧
            r = ([.execute cmdName, .clearReceivedCommand], s', false)) ∨
          ∃ ack, env.commandAcks request = some ack ∧
            r = ([.execute cmdName, .notify request ack, .needSendStates], s', true))) := by
  intro s' r
  let execAck := (executeReceivedCommand env.os (pluginPath plugin.appGUID) cmdName params
    (.object []) s).1.2
  have hr : ∀ events goesOn, sendExecAck env plugin received cmdName
      (execState env plugin cmdName params s) execAck
      (allStates env.os env.parse (pluginPath plugin.appGUID) s') = (events, goesOn) →
      r = (events, s', goesOn) := fun events goesOn h =>
    congrArg (fun x : List Event × Bool => (x.1, s', x.2)) h
  have hstates := allStates_isOk_iff env.os env.parse (pluginPath plugin.appGUID) s'
  cases hall : allStates env.os env.parse (pluginPath plugin.appGUID) s' with
  | error e =>
    rw [hall] at hr hstates
    refine .inl ⟨Bool.eq_false_iff.mpr fun h => ?_, hr _ _ rfl⟩
    obtain ⟨states, hok⟩ := hstates.mpr h
    cases hok
  | ok states =>
    rw [hall] at hr
    let request := ackRequest env plugin received received.moduleName
      (execState env plugin cmdName params s) (.array [execAck]) (some states)
    refine .inr ⟨hstates.mp ⟨states, hall⟩, request, rfl, ?_⟩
    cases hack : env.commandAcks request with
    | none => exact .inl ⟨rfl, hr _ _ (by simp only [sendExecAck, request] at hack ⊢; rw [hack])⟩
    | some ack => exact .inr ⟨ack, rfl, hr _ _ (by simp only [sendExecAck, request] at hack ⊢; rw [hack])⟩

/-! ## The end of the loop -/

/-- After this event nothing of the message is looked at. -/
def Event.isEnd : Event → Bool
  | .clearReceivedCommand | .undefined => true
  | _ => false

/-- The events contain `clearReceivedCommand` or `undefined` at the end when the
function returns there, and nowhere else. -/
def EndsOnReturn (r : List Event × σ × Bool) : Prop :=
  ∃ events : List Event, (∀ e ∈ events, e.isEnd = false) ∧
    if r.2.2 then r.1 = events else ∃ last, last.isEnd = true ∧ r.1 = events ++ [last]

theorem executeCommand_ends (received : CCommandPluginJson) (cmdName : Bytes) (params : Params)
    (s : σ) : EndsOnReturn (executeCommand env plugin received cmdName params s) := by
  have hexecute : ∀ e ∈ [Event.execute cmdName], e.isEnd = false := List.forall_mem_singleton.mpr rfl
  rcases executeCommand_cases env plugin received cmdName params s with
    ⟨-, hr⟩ | ⟨-, request, -, ⟨-, hr⟩ | ⟨ack, -, hr⟩⟩
  · rw [hr]; exact ⟨_, hexecute, .undefined, rfl, rfl⟩
  · rw [hr]; exact ⟨_, hexecute, .clearReceivedCommand, rfl, rfl⟩
  · rw [hr]
    refine ⟨_, ?_, rfl⟩
    simp [Event.isEnd]

theorem endsOnReturn_cons {e : Event} {r : List Event × σ × Bool} (he : e.isEnd = false)
    (h : EndsOnReturn r) : EndsOnReturn (e :: r.1, r.2) := by
  obtain ⟨events, hevents, heq⟩ := h
  refine ⟨e :: events, List.forall_mem_cons.mpr ⟨he, hevents⟩, ?_⟩
  by_cases hon : r.2.2 = true
  · rw [if_pos hon] at heq ⊢
    rw [heq]
  · rw [if_neg hon] at heq ⊢
    obtain ⟨last, hlast, heq⟩ := heq
    exact ⟨last, hlast, by rw [heq]; rfl⟩

theorem handleCommand_ends (received : CCommandPluginJson) (command : CJson) (s : σ) :
    EndsOnReturn (handleCommand env plugin received command s) := by
  simp only [handleCommand]
  split
  · exact ⟨[], by simp, rfl⟩
  · split
    · exact endsOnReturn_cons rfl (executeCommand_ends env plugin received _ _ s)
    · exact ⟨[.notify _ _], List.forall_mem_singleton.mpr rfl, rfl⟩

/-- Whatever the SDK builds, the received command is cleared once, at the very
end, unless the run ends in undefined behaviour. -/
theorem ackLoop_clears (received : CCommandPluginJson) (commands : List CJson) (s : σ) :
    ∃ (events : List Event) (last : Event), (∀ e ∈ events, e.isEnd = false) ∧ last.isEnd = true ∧
      (ackLoop env plugin received commands s).1 = events ++ [last] := by
  induction commands generalizing s with
  | nil => exact ⟨[], .clearReceivedCommand, by simp, rfl, rfl⟩
  | cons command commands ih =>
    obtain ⟨events, hevents, heq⟩ := handleCommand_ends env plugin received command s
    rw [ackLoop]
    split
    · rename_i evs s' hhandle
      rw [hhandle, if_pos rfl] at heq
      obtain ⟨events', last, hevents', hlast, heq'⟩ := ih s'
      have hfirst : evs = events := heq
      refine ⟨events ++ events', last, List.forall_mem_append.mpr ⟨hevents, hevents'⟩, hlast, ?_⟩
      rw [List.append_assoc, ← heq', ← hfirst]
    · rename_i evs s' hhandle
      rw [hhandle, if_neg (by simp)] at heq
      obtain ⟨last, hlast, heq⟩ := heq
      exact ⟨events, last, hevents, hlast, heq⟩

/-! ## The states sent -/

def Event.cmdState : Event → Option AckState
  | .notify request _ => some request.cmdState
  | _ => none

/-- The commandState values handed to `SendPluginNotify`, in order. -/
def commandStates (events : List Event) : List AckState := events.filterMap Event.cmdState

theorem commandStates_append (events events' : List Event) :
    commandStates (events ++ events') = commandStates events ++ commandStates events' :=
  List.filterMap_append

/-- The acks of one command under the protocol. -/
def AckWord (w : List AckState) : Prop :=
  w = [.REJECTED] ∨ w = [.ACCEPTED, .ACKED] ∨ w = [.ACCEPTED, .ERRORED]

/-- One word for each of `n` commands, in their order. -/
def AckProtocol (n : Nat) (states : List AckState) : Prop :=
  ∃ words : List (List AckState), words.length = n ∧ (∀ w ∈ words, AckWord w) ∧
    states = words.flatten

/-- The two verdicts agree on the name: it is empty or known. -/
def Agreed (cmdName : Bytes) : Prop := cmdName = [] ∨ isTmateCommand cmdName = true

/-- The file systems in which the states are read for the second acks of the
commands. -/
def statesReadIn : List CJson → σ → List σ
  | [], _ => []
  | command :: commands, s =>
    let cmdName := env.getJSONStringFieldValue command JKEY_NAME
    if cmdName = [] then statesReadIn commands s
    else
      let s' := scriptsRun env plugin cmdName (commandParams env command) s
      s' :: statesReadIn commands s'

variable {env}

/-- A command without a name is rejected. -/
theorem handleCommand_rejects (hbuilt : ∀ request, env.commandAcks request ≠ none)
    (received : CCommandPluginJson) {command : CJson} (s : σ)
    (hname : env.getJSONStringFieldValue command JKEY_NAME = []) :
    ∃ events, handleCommand env plugin received command s = (events, s, true) ∧
      commandStates events = [.REJECTED] := by
  have haccept : (acceptReceivedCommand (env.getJSONStringFieldValue command JKEY_NAME) []).1 = false :=
    Bool.eq_false_iff.mpr fun h => (accept_iff _ _).mp h hname
  simp only [handleCommand, haccept]
  split
  · rename_i hnone
    exact absurd hnone (hbuilt _)
  · exact ⟨_, rfl, rfl⟩

/-- A command with a name is accepted, and gets its verdict when the states can be
logged. -/
theorem handleCommand_accepts (hbuilt : ∀ request, env.commandAcks request ≠ none)
    (received : CCommandPluginJson) {command : CJson} (s : σ)
    (hname : env.getJSONStringFieldValue command JKEY_NAME ≠ []) :
    let cmdName := env.getJSONStringFieldValue command JKEY_NAME
    let s' := scriptsRun env plugin cmdName (commandParams env command) s
    ∃ events, handleCommand env plugin received command s =
        (events, s', statesLogged env plugin s') ∧
      commandStates events = .ACCEPTED :: if statesLogged env plugin s' then
        [execState env plugin cmdName (commandParams env command) s] else [] := by
  intro cmdName s'
  have haccept : (acceptReceivedCommand (env.getJSONStringFieldValue command JKEY_NAME) []).1 = true :=
    (accept_iff _ _).mpr hname
  simp only [handleCommand, haccept]
  split
  · rename_i hnone
    exact absurd hnone (hbuilt _)
  · simp only [if_true]
    rcases executeCommand_cases env plugin received cmdName (commandParams env command) s with
      ⟨hlogged, hr⟩ | ⟨hlogged, request, hstate, ⟨hnone, -⟩ | ⟨ack, -, hr⟩⟩
    · rw [hr, hlogged]
      exact ⟨_, rfl, rfl⟩
    · exact absurd hnone (hbuilt _)
    · rw [hr, hlogged, ← hstate]
      exact ⟨_, rfl, rfl⟩

/-! ## The protocol -/

/-- A word is determined by its first two states, so a stream that begins with a
protocol word begins with no other one. -/
theorem ackWord_of_append {w w' rest rest' : List AckState}
    (hw : AckWord w ∨ w = [.ACCEPTED, .REJECTED]) (hw' : AckWord w')
    (h : w ++ rest = w' ++ rest') : AckWord w ∧ rest = rest' := by
  rcases hw with (rfl | rfl | rfl) | rfl <;> rcases hw' with rfl | rfl | rfl <;> cases h <;>
    exact ⟨by simp only [AckWord, true_or, or_true], rfl⟩

theorem not_ackWord_accepted_rejected : ¬ AckWord [.ACCEPTED, .REJECTED] := by
  simp [AckWord]

/-- The words that can be read off a stream begin with its first one. -/
theorem ackProtocol_append_iff {w rest : List AckState} {n : Nat}
    (hw : AckWord w ∨ w = [.ACCEPTED, .REJECTED]) :
    AckProtocol (n + 1) (w ++ rest) ↔ AckWord w ∧ AckProtocol n rest := by
  constructor
  · rintro ⟨words, hlen, hwords, hflat⟩
    obtain ⟨w', words, rfl⟩ := List.exists_cons_of_length_eq_add_one hlen
    obtain ⟨hw', hwords⟩ := List.forall_mem_cons.mp hwords
    rw [List.flatten_cons] at hflat
    obtain ⟨hword, hrest⟩ := ackWord_of_append hw hw' hflat
    exact ⟨hword, words, Nat.succ.inj hlen, hwords, hrest⟩
  · rintro ⟨hword, words, hlen, hwords, hflat⟩
    exact ⟨w :: words, by rw [List.length_cons, hlen], List.forall_mem_cons.mpr ⟨hword, hwords⟩,
      by rw [List.flatten_cons, hflat]⟩

/-- No word is an ACCEPTED alone. -/
theorem not_ackProtocol_accepted (n : Nat) : ¬ AckProtocol (n + 1) [.ACCEPTED] := by
  rintro ⟨words, hlen, hwords, hflat⟩
  obtain ⟨w, words, rfl⟩ := List.exists_cons_of_length_eq_add_one hlen
  rw [List.flatten_cons] at hflat
  rcases hwords w List.mem_cons_self with rfl | rfl | rfl <;> cases hflat

/-- The word of an accepted command. -/
theorem ackWord_execState_iff {cmdName : Bytes} (hname : cmdName ≠ []) (params : Params) (s : σ) :
    (AckWord [.ACCEPTED, execState env plugin cmdName params s] ↔ Agreed cmdName) ∧
      (AckWord [.ACCEPTED, execState env plugin cmdName params s] ∨
        [AckState.ACCEPTED, execState env plugin cmdName params s] = [.ACCEPTED, .REJECTED]) := by
  have hstate := execute_state env.os (pluginPath plugin.appGUID) cmdName params (.object []) s
  unfold execState Agreed
  by_cases hknown : isTmateCommand cmdName = true
  · rw [if_pos hknown] at hstate
    have hword : AckWord [.ACCEPTED, (executeReceivedCommand env.os (pluginPath plugin.appGUID) cmdName
        params (.object []) s).1.1] := by
      rcases hstate with h | h
      · rw [h]; exact .inr (.inl rfl)
      · rw [h]; exact .inr (.inr rfl)
    exact ⟨iff_of_true hword (.inr hknown), .inl hword⟩
  · rw [if_neg hknown] at hstate
    rw [hstate]
    exact ⟨iff_of_false not_ackWord_accepted_rejected (not_or.mpr ⟨hname, hknown⟩), .inr rfl⟩

/-- One command after the other: its name, and the states read for it. -/
theorem ackLoop_protocol_iff (hbuilt : ∀ request, env.commandAcks request ≠ none)
    (received : CCommandPluginJson) (commands : List CJson) (s : σ) :
    AckProtocol commands.length (commandStates (ackLoop env plugin received commands s).1) ↔
      (∀ command ∈ commands, Agreed (env.getJSONStringFieldValue command JKEY_NAME)) ∧
        ∀ s' ∈ statesReadIn env plugin commands s, statesLogged env plugin s' = true := by
  induction commands generalizing s with
  | nil => exact iff_of_true ⟨[], rfl, by simp, rfl⟩ ⟨by simp, by simp [statesReadIn]⟩
  | cons command commands ih =>
    rw [List.forall_mem_cons, List.length_cons, statesReadIn]
    by_cases hname : env.getJSONStringFieldValue command JKEY_NAME = []
    · obtain ⟨events, hhandle, hstates⟩ := handleCommand_rejects plugin hbuilt received s hname
      have hword : AckWord [.REJECTED] := .inl rfl
      simp only [ackLoop, hhandle]
      rw [commandStates_append, hstates, ackProtocol_append_iff (.inl hword), ih, if_pos hname,
        and_iff_right hword, and_iff_right (a := Agreed _) (.inl hname)]
    · obtain ⟨events, hhandle, hstates⟩ := handleCommand_accepts plugin hbuilt received s hname
      simp only [if_neg hname, List.forall_mem_cons]
      generalize hs' : scriptsRun env plugin (env.getJSONStringFieldValue command JKEY_NAME)
        (commandParams env command) s = s' at hhandle hstates
      cases hlogged : statesLogged env plugin s' with
      | true =>
        have hexec := @ackWord_execState_iff σ env plugin _ hname (commandParams env command) s
        obtain ⟨hagreed, hword⟩ := hexec
        rw [hlogged] at hhandle hstates
        simp only [ackLoop, hhandle]
        rw [commandStates_append, hstates, if_pos rfl, ackProtocol_append_iff hword, ih, hagreed,
          and_iff_right (a := True) trivial, and_assoc]
      | false =>
        -- the stream ends with the first ack
        rw [hlogged] at hhandle hstates
        simp only [ackLoop, hhandle, hstates]
        refine iff_of_false (not_ackProtocol_accepted _) ?_
        rintro ⟨-, hfalse, -⟩
        cases hfalse

end

/-- When every ack is built, the states sent for a message follow the protocol
exactly when each of its command names is empty or known, and the links can be
logged in every file system that the states are read from. -/
theorem ack_protocol_iff {σ : Type} (env : Env σ) (plugin : CTmatePlugin)
    (received : CCommandPluginJson) (s : σ) (hbuilt : ∀ request, env.commandAcks request ≠ none) :
    AckProtocol received.commands.length
        (commandStates (sendNotifyPluginCommandAcks env plugin (some received) s).1) ↔
      (∀ command ∈ received.commands, Agreed (env.getJSONStringFieldValue command JKEY_NAME)) ∧
        ∀ s' ∈ statesReadIn env plugin received.commands s, statesLogged env plugin s' = true :=
  ackLoop_protocol_iff plugin hbuilt received received.commands s

/-! ## Two messages -/

/-- An SDK that reads a string member and prints every ack, and a system whose
scripts succeed without output. -/
def exampleEnv : Env Unit where
  os := ⟨fun _ s => (.exited 0, s), fun _ _ => none⟩
  parse _ := none
  v2 := str "v2"
  getJSONStringFieldValue json field :=
    match json.getObjectItem field with
    | some (.string value) => value
    | _ => []
  commandAcks _ := some (str "ack")

def examplePlugin : CTmatePlugin := ⟨str "v2", true, str "GUID", str "key"⟩

/-- A message with one command for each name. -/
def exampleMessage (names : List Bytes) : CCommandPluginJson where
  commandId := str "1"
  commandSource := str "remote"
  moduleName := str "tmateWebConsole"
  commands := names.map fun name => .object [(JKEY_NAME, .string name)]

theorem ack_protocol_start_stop :
    AckProtocol 3 (commandStates (sendNotifyPluginCommandAcks exampleEnv examplePlugin
      (some (exampleMessage [str "start", [], str "stop"])) ()).1) := by
  refine (ack_protocol_iff exampleEnv examplePlugin (exampleMessage [str "start", [], str "stop"]) ()
    (fun _ => by simp [exampleEnv])).mpr ⟨?_, fun s' _ => by cases s'; decide⟩
  simp only [exampleMessage, List.map_cons, List.map_nil, List.forall_mem_cons]
  refine ⟨.inr (by decide), .inl (by decide), .inr (by decide), by simp⟩

theorem accepted_then_rejected :
    ¬ ∀ (env : Env Unit) (plugin : CTmatePlugin) (received : CCommandPluginJson) (s : Unit),
      (∀ request, env.commandAcks request ≠ none) →
      AckProtocol received.commands.length
        (commandStates (sendNotifyPluginCommandAcks env plugin (some received) s).1) := by
  intro h
  obtain ⟨words, hlen, hwords, hflat⟩ := h exampleEnv examplePlugin (exampleMessage [str "reboot"]) ()
    (fun _ => by simp [exampleEnv])
  have hstates : commandStates (sendNotifyPluginCommandAcks exampleEnv examplePlugin
      (some (exampleMessage [str "reboot"])) ()).1 = [.ACCEPTED, .REJECTED] := by decide
  rw [hstates] at hflat
  obtain ⟨w, rfl⟩ := List.length_eq_one_iff.mp hlen
  rw [List.flatten_cons, List.flatten_nil, List.append_nil] at hflat
  exact not_ackWord_accepted_rejected (hflat ▸ hwords w List.mem_cons_self)

end TmatePlugin.L2.CommandAcks
