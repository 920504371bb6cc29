import TmatePlugin.L3Machine.Registration

/-!
# CServerOffline and the way out of it

`CServerOffline::toggle` only leaves the state when `mLastState` points to
`CPluginRegistered` or `CWebsocketConnected`. The offline branch of
`On_message` stores that pointer after its toggle, but a SERVER_OFFLINE that
`CWebsocketConnected` still stores can enter the state again from any later
toggle, without storing anything.

Here the handlers run in any order and on any client, also where `Handlers`
would not enable them: the machine of `Handlers` is one way to order them
(`machine_handlers`). An `On_message` cut short by `stoi` leaves the
connection alone, as `.onClose (some what)` does.

* `Escapable`: every stored SERVER_OFFLINE goes with a known `mLastState`.
* `serverOffline_escapes`: no run enters `CResendPlugin`, `CAgentDisabled` or
  `CExit`, and in `CServerOffline` the online event leads to
  `CWebsocketConnected`.
-/
namespace TmatePlugin.L3.ServerOffline

open Transition
open TmatePlugin.L3.States TmatePlugin.L3.Handlers TmatePlugin.L3.Registration

/-- What the handler behind a label does to the connection, called for `c`. -/
def handle (c : CWebSocketClient) (k : CConnection) : Label → CConnection
  | .connectWebsocket => (connectWebsocket k).1
  | .onOpen => (onOpen k c).1
  | .onFail thrown => (onFail thrown k c).1
  | .onClose thrown => (onClose thrown k c).1
  | .onMessage m => (onMessage m k c).1
  | .sendNotifyPluginUpdate ok => (sendNotifyPluginUpdate ok k c).1
  | .deviceOfflineCheck => (deviceOfflineCheck k c).1
  | .deviceOfflineToggle => (deviceOfflineToggle k c).1
  | .staleToggle => k.toggle
  | .brokenConnection => brokenConnection k

/-- The handlers in any order. -/
def handlers : System CConnection (CWebSocketClient × Label) where
  init := (· = .new)
  step k l k' := k' = handle l.1 k l.2

theorem handle_of_onClient {s s' : Machine} {p : CWebSocketClient → Bool}
    {f : CConnection → CWebSocketClient → CConnection × CWebSocketClient} {l : Label}
    (h : s.onClient p f = some s') (hl : ∀ c, handle c s.connection l = (f s.connection c).1) :
    ∃ c, s'.connection = handle c s.connection l := by
  obtain ⟨c, -, -, rfl⟩ := onClient_some h
  exact ⟨c, (hl c).symm⟩

/-- A step of the machine is a handler of its client. -/
theorem step_handle {s s' : Machine} {l : Label} (h : step s l = some s') :
    ∃ c, s'.connection = handle c s.connection l := by
  cases l with
  | connectWebsocket =>
    obtain ⟨-, rfl⟩ := connectWebsocket_some h
    exact ⟨.new, rfl⟩
  | staleToggle =>
    obtain ⟨-, rfl⟩ := staleToggle_some h
    exact ⟨.new, rfl⟩
  | brokenConnection =>
    obtain ⟨c, -, -, rfl⟩ := brokenConnection_some h
    exact ⟨c, rfl⟩
  | onOpen | onFail _ | onClose _ | onMessage _ | sendNotifyPluginUpdate _ | deviceOfflineCheck
  | deviceOfflineToggle => exact handle_of_onClient h fun _ => rfl

theorem machine_handlers :
    System.Simulation machine handlers (fun s k => s.connection = k) where
  init := by
    intro s hs
    subst hs
    exact ⟨.new, rfl, rfl⟩
  step := by
    intro s l s' k hk hs
    subst hk
    obtain ⟨c, hc⟩ := step_handle hs
    exact ⟨[(c, l)], s'.connection, .cons hc (.nil _), rfl⟩

/-! ## The invariant -/

/-- The states `CServerOffline::toggle` knows the way back from. -/
def LastStateKnown (k : CConnection) : Prop :=
  k.mLastState = some .pluginRegistered ∨ k.mLastState = some .websocketConnected

/-- Every SERVER_OFFLINE that is stored or current came with a `mLastState`. -/
structure Escapable (k : CConnection) : Prop where
  wf : Wf k
  current : k.mCurrentState = .serverOffline → LastStateKnown k
  stored : k.mReason .websocketConnected = .serverOffline → LastStateKnown k

theorem escapable_new : Escapable .new where
  wf := wf_new
  current := by intro h; cases h
  stored := by intro h; cases h

/-- A stored reason leads to `CServerOffline` only from there, or as the
SERVER_OFFLINE that `CWebsocketConnected` stores. -/
theorem toggleTo_serverOffline {last : Option StateId} {s : StateId} {r : Reason}
    (hr : r ∈ storedReasons s) (h : toggleTo last s r = .serverOffline) :
    s = .serverOffline ∨ s = .websocketConnected ∧ r = .serverOffline := by
  cases s
  case serverOffline => exact .inl rfl
  all_goals cases r <;> simp_all [toggleTo, storedReasons]

theorem toggle_serverOffline {k : CConnection} (h : Wf k)
    (hs : k.toggle.mCurrentState = .serverOffline) :
    k.mCurrentState = .serverOffline ∨ k.mReason .websocketConnected = .serverOffline := by
  rw [toggle_mCurrentState] at hs
  rcases toggleTo_serverOffline (h.stored _) hs with hc | ⟨hc, hr⟩
  · exact .inl hc
  · rw [hc] at hr; exact .inr hr

theorem escapable_toggle {k : CConnection} (h : Escapable k) : Escapable k.toggle where
  wf := wf_toggle h.wf
  current := by
    intro hs
    show k.toggle.mLastState = _ ∨ k.toggle.mLastState = _
    rw [toggle_mLastState]
    rcases toggle_serverOffline h.wf hs with hc | hr
    · exact h.current hc
    · exact h.stored hr
  stored := by
    intro hr
    show k.toggle.mLastState = _ ∨ k.toggle.mLastState = _
    rw [toggle_mLastState]
    rw [toggle_mReason] at hr
    split at hr <;> exact h.stored hr

/-- Only the offline branch raises SERVER_OFFLINE. -/
theorem escapable_raise {k : CConnection} (h : Escapable k) {r : Reason}
    (hr : r ∈ raisedReasons k.mCurrentState) (hne : r ≠ .serverOffline) : Escapable (k.raise r) where
  wf := wf_raise h.wf hr
  current := by
    intro hs
    show (k.raise r).mLastState = _ ∨ (k.raise r).mLastState = _
    rw [raise_mLastState]
    rw [raise_mCurrentState] at hs
    refine h.current ?_
    cases hc : k.mCurrentState <;> rw [hc] at hs <;> cases r <;> simp_all [toggleTo]
  stored := by
    intro hw
    show (k.raise r).mLastState = _ ∨ (k.raise r).mLastState = _
    rw [raise_mLastState]
    rw [raise_mReason] at hw
    split at hw
    · exact absurd hw hne
    · exact h.stored hw

/-- The offline branch enters `CServerOffline` and then stores where it was. -/
theorem escapable_serverOfflineFrom {k : CConnection} (h : Escapable k) {source : StateId}
    (hsource : source = .pluginRegistered ∨ source = .websocketConnected)
    (hs : k.mCurrentState = source) : Escapable (serverOfflineFrom source k) := by
  have hto : (k.raise .serverOffline).mCurrentState = .serverOffline := by
    rw [raise_mCurrentState, hs]
    rcases hsource with rfl | rfl <;> rfl
  have hr : Reason.serverOffline ∈ raisedReasons k.mCurrentState := by
    rw [hs]
    rcases hsource with rfl | rfl <;> decide
  have hknown : LastStateKnown ((k.raise .serverOffline).setLastState source) :=
    hsource.imp (congrArg some) (congrArg some)
  rw [serverOfflineFrom, if_pos hto]
  exact ⟨wf_setLastState (wf_raise h.wf hr) source, fun _ => hknown, fun _ => hknown⟩

theorem escapable_onDisconnect {k : CConnection} (h : Escapable k) {source : StateId}
    (hr : .websocketDisconnected ∈ raisedReasons source) (thrown) (c : CWebSocketClient) :
    Escapable (onDisconnect source thrown k c).1 := by
  unfold onDisconnect
  cases thrown with
  | some what => exact h
  | none =>
    simp only
    split
    · rename_i hs; exact escapable_raise h (by rw [hs]; exact hr) (by decide)
    · exact h

theorem escapable_onMessage {k : CConnection} (h : Escapable k) (m : AgentMessage)
    (c : CWebSocketClient) : Escapable (onMessage m k c).1 := by
  cases m with
  | error code =>
    simp only [onMessage]
    split
    · split
      · rename_i hs; exact escapable_raise h (by rw [hs]; decide) (by decide)
      · exact h
    · exact h
  | notifyAgentEvent connectivity =>
    cases connectivity with
    | offline =>
      simp only [onMessage, onAgentEvent]
      split
      · rename_i hs; exact escapable_serverOfflineFrom h (.inl rfl) hs
      · split
        · rename_i hs; exact escapable_serverOfflineFrom h (.inr rfl) hs
        · exact h
    | online =>
      simp only [onMessage, onAgentEvent]
      split
      · exact escapable_toggle h
      · exact h
    | other => exact h
  | others => exact h

theorem escapable_handle {k : CConnection} (h : Escapable k) (c : CWebSocketClient) (l : Label) :
    Escapable (handle c k l) := by
  cases l with
  | connectWebsocket =>
    exact escapable_raise h (by cases k.mCurrentState <;> decide) (by decide)
  | onOpen =>
    simp only [handle, onOpen]
    split
    · rename_i hs; exact escapable_raise h (by rw [hs]; decide) (by decide)
    · exact h
  | onFail thrown => exact escapable_onDisconnect h (by decide) thrown c
  | onClose thrown => exact escapable_onDisconnect h (by decide) thrown c
  | onMessage m => exact escapable_onMessage h m c
  | sendNotifyPluginUpdate ok =>
    simp only [handle, sendNotifyPluginUpdate]
    split
    · exact escapable_toggle h
    · exact h
  | deviceOfflineCheck => exact h
  | deviceOfflineToggle => exact escapable_toggle h
  | staleToggle => exact escapable_toggle h
  | brokenConnection =>
    simp only [handle, brokenConnection]
    split
    · rename_i hs; exact escapable_raise h (by rw [hs]; decide) (by decide)
    · exact h

theorem escapable_inductive : handlers.Inductive Escapable where
  init := by intro k hk; subst hk; exact escapable_new
  step := by intro k l k' h hs; subst hs; exact escapable_handle h l.1 l.2

/-! ## The way out -/

/-- The online event, for whichever client. -/
theorem online_leaves {k : CConnection} (h : Escapable k) (hs : k.mCurrentState = .serverOffline)
    (c : CWebSocketClient) :
    (handle c k (.onMessage (.notifyAgentEvent .online))).mCurrentState = .websocketConnected := by
  have hknown := h.current hs
  show (onAgentEvent .online k).mCurrentState = _
  rw [onAgentEvent, if_pos hs, toggle_mCurrentState, hs, toggleTo]
  exact if_pos hknown

/-- In every run of the handlers, in any order: the state is never
`CResendPlugin`, `CAgentDisabled` or `CExit`, and in `CServerOffline` the
`mLastState` is known and the next online event enters `CWebsocketConnected`. -/
theorem serverOffline_escapes (k : CConnection) (h : handlers.Reachable k) :
    k.mCurrentState ∉ [.resendPlugin, .agentDisabled, .exit] ∧
      (k.mCurrentState = .serverOffline →
        (k.mLastState = some .pluginRegistered ∨ k.mLastState = some .websocketConnected) ∧
          ∀ c, (handle c k (.onMessage (.notifyAgentEvent .online))).mCurrentState =
            .websocketConnected) := by
  have hE := escapable_inductive.reachable h
  refine ⟨fun hmem => ?_, fun hs => ⟨hE.current hs, fun c => online_leaves hE hs c⟩⟩
  have hv := hE.wf.visited
  simp only [List.mem_cons, List.not_mem_nil, or_false] at hmem
  rcases hmem with hs | hs | hs <;> rw [hs] at hv <;> simp [visited] at hv

/-- The second visit to `CServerOffline`, by the stale reason: offline, online,
and a registration. -/
theorem serverOffline_escapes_stale :
    ∃ k, handlers.Reachable k ∧ k.mCurrentState = .serverOffline ∧
      (handle .new k (.onMessage (.notifyAgentEvent .online))).mCurrentState =
        .websocketConnected := by
  obtain ⟨s, hr, hp⟩ := machine_run
    [.connectWebsocket, .onOpen, .onMessage (.notifyAgentEvent .offline),
      .onMessage (.notifyAgentEvent .online), .sendNotifyPluginUpdate true]
    (fun s => s.connection.mCurrentState = .serverOffline) (by decide)
  have hs : s.connection.mCurrentState = .serverOffline := by simpa using hp
  obtain ⟨k, hk, rfl⟩ := machine_handlers.reachable hr
  exact ⟨s.connection, hk, hs, ((serverOffline_escapes s.connection hk).2 hs).2 .new⟩

end TmatePlugin.L3.ServerOffline
