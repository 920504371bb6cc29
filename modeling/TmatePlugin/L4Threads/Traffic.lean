import TmatePlugin.Lib.History
import TmatePlugin.L3Machine.Interleaved
import TmatePlugin.L4Threads.Mailbox
import TmatePlugin.L4Threads.DataThread

/-!
# The traffic of one client

All threads of one client together: the handlers and the update thread of
`Interleaved`, the command thread of `Mailbox` and the data thread of
`DataThread`, which so far were taken to be registered. Here both pass the
`while` condition and the test of `IsUpdated()` first, each a step of its own,
and any other thread may run between a test and what it guards. One client
has one websocket connection, so a run from `Initial` is the history of one
connection; the machine it starts from is arbitrary
(`initial_connectWebsocket`).

`notified` is history: what was handed to `SendPluginNotify`, with its result.
The runs are more than the program has where it does not matter: the ack loop
sends any number of acks, and a handler may run between the two statements
that hand over a command.

* `traffic_gated`: every notifyPluginState and notifyPluginCommandAck comes
  after a notifyPluginUpdate whose send succeeded.
-/
namespace TmatePlugin.L4.Traffic

open Transition History CString
open TmatePlugin.L1.Json (CJson)
open TmatePlugin.L3.States (CConnection StateId)
open TmatePlugin.L3.Handlers TmatePlugin.L3.Registration TmatePlugin.L3.Interleaved

variable {M : Type}

/-- The loop of NotifyCommandThread or NotifyDataThread: before the `while`
condition, before `IsUpdated()`, in the guarded block, past the loop.
mirrors MainSrc/WebSocketClient.cpp:441-450,519-562 -/
inductive Gate where
  | loop
  | working
  | registered
  | ended
  deriving DecidableEq, Repr

/-- A request handed to `SendPluginNotify` and what that returned. -/
inductive Notify where
  | pluginUpdate (ok : Bool)
  | pluginState (ok : Bool)
  | pluginCommandAck (ok : Bool)
  deriving DecidableEq, Repr

structure State (M : Type) where
  machine : Machine
  mailbox : Mailbox.State M
  command : Gate
  data : DataThread.State
  dataGate : Gate
  notified : List Notify

inductive Label (M : Type) where
  | handler (l : Step)
  | onMessage (l : Mailbox.Label M)
  | commandWhile
  | commandIsUpdated
  | command (l : Mailbox.Label M)
  | sendAck (ok : Bool)
  | dataWhile
  | dataIsUpdated
  | data (l : DataThread.Label)
  | environment (l : DataThread.Label)

/-- What the current client has handed to `SendPluginNotify` in a step of the
update thread. -/
def notifiedBy : Step → List Notify
  | .updateSend ok => [.pluginUpdate ok]
  | _ => []

/-- The steps of one client: main's `new` and `delete` are not among them, and
`SendNotifyPluginUpdate` is taken in its pieces. -/
def ofClient : Step → Bool
  | .whole .connectWebsocket | .whole .brokenConnection | .whole (.sendNotifyPluginUpdate _) => false
  | _ => true

/-- The two steps of `On_message` on a notifyPluginCommand. -/
def isOnMessage : Mailbox.Label M → Bool
  | .setReceivedCommand _ | .setNeedSendCmdAcks => true
  | _ => false

/-- The steps of the data thread itself. -/
def isDataThread : DataThread.Label → Bool
  | .beginIteration | .check | .decide | .read | .send _ | .endIteration => true
  | _ => false

/-- What the data thread hands to `SendPluginNotify`. -/
def notifiedByData : DataThread.Label → List Notify
  | .send ok => [.pluginState ok]
  | _ => []

def working (s : State M) : Bool := s.machine.client.any (·.threadstart)

def isUpdated (s : State M) : Bool := s.machine.client.any (·.isUpdated)

def opened (s : State M) : Bool :=
  s.machine.client.any fun c => c.threadstart && c.wsConnectionOpened

/-- `sleep(3); stateCount++` after an iteration without the guarded block.
mirrors MainSrc/WebSocketClient.cpp:553-560 -/
def skipIteration (s : DataThread.State) : DataThread.State :=
  { s with stateCount := DataThread.nextCount s.stateCount }

section
variable (parse : Bytes → Option CJson)

def step (s : State M) : Label M → Option (State M)
  | .handler l =>
    if ofClient l then
      (fineStep s.machine l).map fun machine =>
        { s with machine := machine, notified := s.notified ++ notifiedBy l }
    else none
  | .onMessage l =>
    if opened s && isOnMessage l then
      (Mailbox.step s.mailbox l).map fun mailbox => { s with mailbox := mailbox }
    else none
  | .commandWhile =>
    match s.command with
    | .loop => some { s with command := if working s then .working else .ended }
    | _ => none
  | .commandIsUpdated =>
    match s.command with
    | .working => some { s with command := if isUpdated s then .registered else .loop }
    | _ => none
  | .command l =>
    match s.command with
    | .registered =>
      if isOnMessage l then none
      else
        (Mailbox.step s.mailbox l).map fun mailbox =>
          { s with mailbox := mailbox,
                   command := if mailbox.cmd matches .poll then .loop else .registered }
    | _ => none
  | .sendAck ok =>
    match s.command, s.mailbox.cmd with
    | .registered, .loop _ => some { s with notified := s.notified ++ [.pluginCommandAck ok] }
    | _, _ => none
  | .dataWhile =>
    match s.dataGate with
    | .loop => some { s with dataGate := if working s then .working else .ended }
    | _ => none
  | .dataIsUpdated =>
    match s.dataGate with
    | .working =>
      if isUpdated s then some { s with dataGate := .registered }
      else some { s with dataGate := .loop, data := skipIteration s.data }
    | _ => none
  | .data l =>
    match s.dataGate with
    | .registered =>
      if isDataThread l then
        (DataThread.step parse s.data l).map fun data =>
          { s with data := data, dataGate := if data.pc = .idle then .loop else .registered,
                   notified := s.notified ++ notifiedByData l }
      else none
    | _ => none
  | .environment l =>
    if isDataThread l then none
    else (DataThread.step parse s.data l).map fun data => { s with data := data }

/-- A client that main has just built and started, with its own plugin. -/
structure Initial (s : State M) : Prop where
  client : s.machine.client = some .new
  mailbox : s.mailbox = .initial
  command : s.command = .loop
  data : DataThread.Initial s.data
  dataGate : s.dataGate = .loop
  notified : s.notified = []

variable (M) in
def traffic : System (State M) (Label M) := System.ofFn Initial (step parse)

/-- A concrete run of one client. -/
theorem traffic_run {s₀ : State M} (ls : List (Label M)) (p : State M → Bool) (hi : Initial s₀)
    (h : (exec (step parse) s₀ ls).any p = true) : ∃ s, (traffic M parse).Reachable s ∧ p s = true :=
  exists_reachable_of_exec ls p hi h

end

/-- main's CONNECT_WEBSOCKET step, wherever it comes, starts such a client. -/
theorem initial_connectWebsocket {m m' : Machine}
    (h : L3.Handlers.step m .connectWebsocket = some m') {data : DataThread.State} (hdata : DataThread.Initial data) :
    Initial (⟨m', .initial, .loop, data, .loop, []⟩ : State M) where
  client := by obtain ⟨-, rfl⟩ := connectWebsocket_some h; rfl
  mailbox := rfl
  command := rfl
  data := hdata
  dataGate := rfl
  notified := rfl

/-! ## Gated histories -/

/-- The requests that only a registered plugin may send. -/
def Notify.needsRegistration : Notify → Bool
  | .pluginUpdate _ => false
  | .pluginState _ | .pluginCommandAck _ => true

/-- Whatever needs a registration comes after a successful one. -/
def Gated (notified : List Notify) : Prop :=
  Each (fun earlier n => n.needsRegistration = true → .pluginUpdate true ∈ earlier) notified

/-! ## The invariant -/

/-- The client is registered, or its update thread is about to note that. -/
def marked (c : CWebSocketClient) : Bool := c.isUpdated || c.update = .sent true

/-- Whoever has seen `IsUpdated()` true, and the flag itself, came after a
successful notifyPluginUpdate. -/
structure Inv (s : State M) : Prop where
  client : ∀ c, s.machine.client = some c → marked c = true → .pluginUpdate true ∈ s.notified
  command : s.command = .registered → .pluginUpdate true ∈ s.notified
  data : s.dataGate = .registered → .pluginUpdate true ∈ s.notified
  gated : Gated s.notified

theorem marked_onClient {m m' : Machine} {p : CWebSocketClient → Bool}
    {f : CConnection → CWebSocketClient → CConnection × CWebSocketClient} {c' : CWebSocketClient}
    (h : m.onClient p f = some m') (hc' : m'.client = some c') (hmarked : marked c' = true)
    (hf : ∀ c, marked (f m.connection c).2 = true → marked c = true) :
    ∃ c, m.client = some c ∧ marked c = true := by
  obtain ⟨c, hc, -, rfl⟩ := onClient_some h
  simp only [Option.some.injEq] at hc'
  subst hc'
  exact ⟨c, hc, hf c hmarked⟩

theorem marked_onDisconnect {source : StateId} {thrown} {k : CConnection} {c : CWebSocketClient}
    (h : marked (onDisconnect source thrown k c).2 = true) : marked c = true := by
  have hu : c.update = .sent true := by
    unfold onDisconnect at h
    cases thrown <;> exact of_decide_eq_true h
  simp [marked, hu]

theorem marked_onMessage {m : AgentMessage} {k : CConnection} {c : CWebSocketClient}
    (h : marked (L3.Handlers.onMessage m k c).2 = true) : marked c = true := by
  cases m with
  | error code =>
    simp only [L3.Handlers.onMessage] at h
    split at h
    · simp_all [marked]
    · exact h
  | notifyAgentEvent connectivity => exact h
  | others => exact h

/-- No step of a client marks it but a send that succeeds. -/
theorem marked_step {m m' : Machine} {l : Step} {c' : CWebSocketClient} (hl : ofClient l = true)
    (h : fineStep m l = some m') (hc' : m'.client = some c') (hmarked : marked c' = true) :
    (∃ c, m.client = some c ∧ marked c = true) ∨ l = .updateSend true := by
  cases l with
  | updateCheck =>
    exact .inl (marked_onClient h hc' hmarked fun c hm => by simp_all [marked, updateCheck])
  | updateSend ok =>
    cases ok with
    | true => exact .inr rfl
    | false =>
      exact .inl (marked_onClient h hc' hmarked fun c hm => by simp_all [marked, updateSend])
  | updateSetUpdated =>
    exact .inl (marked_onClient h hc' hmarked fun c hm => by
      simpa [marked, updateSetUpdated, or_comm] using hm)
  | updateToggle =>
    exact .inl (marked_onClient h hc' hmarked fun c hm => by simp_all [marked, updateToggle])
  | whole l =>
    left
    cases l with
    | connectWebsocket | brokenConnection | sendNotifyPluginUpdate _ => cases hl
    | onOpen => exact marked_onClient h hc' hmarked fun c hm => hm
    | onFail thrown | onClose thrown =>
      exact marked_onClient h hc' hmarked fun c hm => marked_onDisconnect hm
    | onMessage msg => exact marked_onClient h hc' hmarked fun c hm => marked_onMessage hm
    | deviceOfflineCheck =>
      exact marked_onClient h hc' hmarked fun c hm => by simp_all [marked, deviceOfflineCheck]
    | deviceOfflineToggle =>
      exact marked_onClient h hc' hmarked fun c hm => by simp_all [marked, deviceOfflineToggle]
    | staleToggle =>
      obtain ⟨-, rfl⟩ := staleToggle_some h
      exact ⟨c', hc', hmarked⟩

/-! ## Every step keeps the invariant -/

theorem isUpdated_marked {s : State M} (h : isUpdated s = true) :
    ∃ c, s.machine.client = some c ∧ marked c = true := by
  simp only [isUpdated, Option.any_eq_true] at h
  obtain ⟨c, hc, hu⟩ := h
  exact ⟨c, hc, by simp [marked, hu]⟩

/-- A test of `IsUpdated()` that succeeds. -/
theorem Inv.registered {s : State M} (hI : Inv s) (h : isUpdated s = true) :
    .pluginUpdate true ∈ s.notified := by
  obtain ⟨c, hc, hm⟩ := isUpdated_marked h
  exact hI.client c hc hm

theorem gated_notifiedBy {notified : List Notify} (h : Gated notified) (l : Step) :
    Gated (notified ++ notifiedBy l) := by
  unfold notifiedBy
  split
  · exact h.append fun hn => by cases hn
  · rw [List.append_nil]; exact h

theorem gated_notifiedByData {notified : List Notify} (h : Gated notified)
    (hr : .pluginUpdate true ∈ notified) (l : DataThread.Label) :
    Gated (notified ++ notifiedByData l) := by
  unfold notifiedByData
  split
  · exact h.append fun _ => hr
  · rw [List.append_nil]; exact h

theorem inv_handler {s : State M} {l : Step} {machine : Machine} (hI : Inv s)
    (hl : ofClient l = true) (h : fineStep s.machine l = some machine) :
    Inv { s with machine := machine, notified := s.notified ++ notifiedBy l } where
  client c' hc' hm := by
    rcases marked_step hl h hc' hm with ⟨c, hc, hmc⟩ | rfl
    · exact List.mem_append_left _ (hI.client c hc hmc)
    · exact List.mem_append_right _ (List.mem_singleton.mpr rfl)
  command hs := List.mem_append_left _ (hI.command hs)
  data hs := List.mem_append_left _ (hI.data hs)
  gated := gated_notifiedBy hI.gated l

/-- A thread that has passed its gate sends `more`. -/
theorem Inv.notify {s s' : State M} {more : List Notify} (hI : Inv s) (hclient : s'.machine = s.machine)
    (hcommand : s'.command = .registered → s.command = .registered)
    (hdata : s'.dataGate = .registered → s.dataGate = .registered)
    (hsent : s'.notified = s.notified ++ more) (hgated : Gated (s.notified ++ more)) : Inv s' := by
  refine ⟨fun c hc hm => ?_, fun hs => ?_, fun hs => ?_, ?_⟩
  · rw [hsent]
    exact List.mem_append_left _ (hI.client c (hclient ▸ hc) hm)
  · rw [hsent]
    exact List.mem_append_left _ (hI.command (hcommand hs))
  · rw [hsent]
    exact List.mem_append_left _ (hI.data (hdata hs))
  · rw [hsent]
    exact hgated

theorem inv_step {parse : Bytes → Option CJson} {s s' : State M} {l : Label M} (hI : Inv s)
    (h : step parse s l = some s') : Inv s' := by
  cases l with
  | handler l =>
    simp only [step, Option.ite_none_right_eq_some, Option.map_eq_some_iff] at h
    obtain ⟨hl, machine, hm, rfl⟩ := h
    exact inv_handler hI hl hm
  | onMessage l =>
    simp only [step, Option.ite_none_right_eq_some, Option.map_eq_some_iff] at h
    obtain ⟨-, mailbox, -, rfl⟩ := h
    exact ⟨hI.client, hI.command, hI.data, hI.gated⟩
  | commandWhile =>
    simp only [step] at h
    split at h
    · cases h
      refine ⟨hI.client, fun hs => ?_, hI.data, hI.gated⟩
      simp only at hs
      split at hs <;> cases hs
    · cases h
  | commandIsUpdated =>
    simp only [step] at h
    split at h
    · cases h
      refine ⟨hI.client, fun hs => ?_, hI.data, hI.gated⟩
      simp only at hs
      split at hs
      · rename_i hu; exact hI.registered hu
      · cases hs
    · cases h
  | command l =>
    simp only [step] at h
    split at h
    · rename_i hc
      simp only [Option.ite_none_left_eq_some, Option.map_eq_some_iff] at h
      obtain ⟨-, mailbox, -, rfl⟩ := h
      exact ⟨hI.client, fun _ => hI.command hc, hI.data, hI.gated⟩
    · cases h
  | sendAck ok =>
    simp only [step] at h
    split at h
    · rename_i hc _
      cases h
      exact hI.notify rfl (fun _ => hc) id rfl (hI.gated.append fun _ => hI.command hc)
    · cases h
  | dataWhile =>
    simp only [step] at h
    split at h
    · cases h
      refine ⟨hI.client, hI.command, fun hs => ?_, hI.gated⟩
      simp only at hs
      split at hs <;> cases hs
    · cases h
  | dataIsUpdated =>
    simp only [step] at h
    split at h
    · split at h
      · rename_i hu
        cases h
        exact ⟨hI.client, hI.command, fun _ => hI.registered hu, hI.gated⟩
      · cases h
        exact ⟨hI.client, hI.command, fun hs => (by cases hs), hI.gated⟩
    · cases h
  | data l =>
    simp only [step] at h
    split at h
    · rename_i hd
      simp only [Option.ite_none_right_eq_some, Option.map_eq_some_iff] at h
      obtain ⟨-, data, -, rfl⟩ := h
      exact hI.notify rfl id (fun _ => hd) rfl (gated_notifiedByData hI.gated (hI.data hd) l)
    · cases h
  | environment l =>
    simp only [step, Option.ite_none_left_eq_some, Option.map_eq_some_iff] at h
    obtain ⟨-, data, -, rfl⟩ := h
    exact ⟨hI.client, hI.command, hI.data, hI.gated⟩

theorem inv_inductive (parse : Bytes → Option CJson) : (traffic M parse).Inductive Inv where
  init := by
    intro s hs
    refine ⟨fun c hc hm => ?_, fun h => ?_, fun h => ?_, ?_⟩
    · rw [hs.client] at hc
      cases hc
      simp [marked, CWebSocketClient.new] at hm
    · rw [hs.command] at h; cases h
    · rw [hs.dataGate] at h; cases h
    · rw [hs.notified]; exact each_nil _
  step := fun _ _ _ hI h => inv_step hI h

/-- In every run of one client, every notifyPluginState and every
notifyPluginCommandAck handed to `SendPluginNotify` comes after a
notifyPluginUpdate whose send succeeded. -/
theorem traffic_gated (parse : Bytes → Option CJson) (s : State M) (h : (traffic M parse).Reachable s) :
    Gated s.notified :=
  ((inv_inductive parse).reachable h).gated

/-- A registration, then one command acknowledged and one state sent. -/
theorem traffic_gated_once :
    ∃ s : State Unit, (traffic Unit fun _ => none).Reachable s ∧
      s.notified = [.pluginUpdate true, .pluginCommandAck true, .pluginState true] ∧
      Gated s.notified := by
  have hinit : Initial (⟨⟨CConnection.new.raise .agentAlive, some .new, 0⟩, .initial, .loop,
      DataThread.exampleState, .loop, []⟩ : State Unit) :=
    initial_connectWebsocket (m := .initial) rfl DataThread.exampleState_initial
  obtain ⟨s, hr, hp⟩ := traffic_run (fun _ => none)
    [.handler (.whole .onOpen), .handler .updateCheck, .handler (.updateSend true),
      .handler .updateSetUpdated, .handler .updateToggle, .onMessage (.setReceivedCommand ()),
      .onMessage .setNeedSendCmdAcks, .commandWhile, .commandIsUpdated, .command .test,
      .command .getReceivedCommand, .sendAck true, .environment .setNeedCheckStates, .dataWhile,
      .dataIsUpdated, .data .beginIteration, .data .check, .data .check, .data .check,
      .data .check, .data .check, .data .check, .data .decide, .data .read, .data .read,
      .data .read, .data .read, .data .read, .data (.send true)]
    (fun s => s.notified = [.pluginUpdate true, .pluginCommandAck true, .pluginState true])
    hinit (by decide)
  have hs : s.notified = [.pluginUpdate true, .pluginCommandAck true, .pluginState true] := by
    simpa using hp
  exact ⟨s, hr, hs, traffic_gated _ s hr⟩

end TmatePlugin.L4.Traffic
