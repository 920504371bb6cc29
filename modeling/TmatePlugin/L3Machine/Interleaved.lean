import TmatePlugin.L3Machine.Registration

/-!
# SendNotifyPluginUpdate step by step

`NotifyUpdateThread` runs beside the websocket thread and main, without a
lock. Here `SendNotifyPluginUpdate` is four steps (state check, send,
`SetUpdated(true)`, toggle) that any handler may separate; a `whole` step is
one step of `Handlers.machine`.

* `machine_simulated`: the uninterrupted runs are among the interleaved ones,
  and `update_whole`: the four steps in a row are the uninterrupted call.
* `offline_gates`: after an offline event, as long as no delayed toggle fires
  in a state it takes to `CWebsocketConnected`, no registration passes the
  state check until the next online event or reconnect. Without the
  condition one does (`offline_registration`).
* `rejection_kept_iff`: exactly which interleavings of one call with the
  messages of the websocket thread keep a device-offline rejection.
-/
namespace TmatePlugin.L3.Interleaved

open Transition
open TmatePlugin.L3.States TmatePlugin.L3.Handlers TmatePlugin.L3.Registration

/-! ## The pieces of SendNotifyPluginUpdate -/

/-- mirrors MainSrc/WebSocketClient.cpp:469-472 -/
def updateCheck (k : CConnection) (c : CWebSocketClient) : CConnection × CWebSocketClient :=
  (k, { c with update := .checked })

/-- mirrors MainSrc/WebSocketClient.cpp:472-475 -/
def updateSend (ok : Bool) (k : CConnection) (c : CWebSocketClient) :
    CConnection × CWebSocketClient :=
  (k, { c with update := .sent ok })

/-- mirrors MainSrc/WebSocketClient.cpp:475 -/
def updateSetUpdated (k : CConnection) (c : CWebSocketClient) : CConnection × CWebSocketClient :=
  (k, { c with isUpdated := c.update = .sent true || c.isUpdated, update := .toggling })

/-- mirrors MainSrc/WebSocketClient.cpp:479 -/
def updateToggle (k : CConnection) (c : CWebSocketClient) : CConnection × CWebSocketClient :=
  (k.toggle, { c with update := .loop })

inductive Step where
  | whole (l : Label)
  | updateCheck
  | updateSend (ok : Bool)
  | updateSetUpdated
  | updateToggle
  deriving DecidableEq, Repr

def CWebSocketClient.isSent (c : CWebSocketClient) : Bool :=
  c.update = .sent true || c.update = .sent false

def fineStep (s : Machine) : Step → Option Machine
  | .whole l => step s l
  | .updateCheck => s.onClient (fun c => c.ranLoopTests && passesCheck s.connection) updateCheck
  | .updateSend ok => s.onClient (·.update = .checked) (updateSend ok)
  | .updateSetUpdated => s.onClient CWebSocketClient.isSent updateSetUpdated
  | .updateToggle => s.onClient (·.update = .toggling) updateToggle

/-- The runs in which SendNotifyPluginUpdate may be interrupted. -/
def interleaved : System Machine Step := System.ofFn (· = .initial) fineStep

/-- Every uninterrupted run is an interleaved run. -/
theorem machine_simulated : System.Simulation machine interleaved Eq where
  init s hs := ⟨s, hs, rfl⟩
  step := by
    intro s l s' t ht hs
    subst ht
    exact ⟨[.whole l], s', .cons hs (.nil _), rfl⟩

/-- The four pieces in a row are the uninterrupted call. -/
theorem update_whole {s : Machine} (ok : Bool) (h : passesCheck s.connection = true) :
    exec fineStep s [.updateCheck, .updateSend ok, .updateSetUpdated, .updateToggle] =
      step s (.sendNotifyPluginUpdate ok) := by
  cases hc : s.client with
  | none => simp [exec, fineStep, step, Machine.onClient, hc]
  | some c =>
    by_cases hp : c.ranLoopTests = true
    · have hu : c.update = .loop := by
        simp only [CWebSocketClient.ranLoopTests, Bool.and_eq_true, decide_eq_true_eq] at hp
        exact hp.1
      cases ok <;>
        simp [exec, fineStep, step, Machine.onClient, hc, hp, h, updateCheck, updateSend,
          updateSetUpdated, updateToggle, sendNotifyPluginUpdate, CWebSocketClient.isSent, ← hu]
    · simp [exec, fineStep, step, Machine.onClient, hc, hp]

theorem fineStep_connection {s s' : Machine} {l : Step} (h : fineStep s l = some s') :
    Change s.connection s'.connection := by
  cases l with
  | whole l => exact step_connection h
  | updateCheck | updateSend ok | updateSetUpdated =>
    obtain ⟨c, -, -, rfl⟩ := onClient_some h
    exact .keep
  | updateToggle =>
    obtain ⟨c, -, -, rfl⟩ := onClient_some h
    exact .toggle

theorem wf_inductive_fine : interleaved.Inductive (fun s => Wf s.connection) where
  init := by intro s hs; subst hs; exact wf_new
  step := fun _ _ _ h hs => (fineStep_connection hs).wf h

theorem passesCheck_iff {k : CConnection} (h : Wf k) :
    passesCheck k = true ↔ k.mCurrentState = .websocketConnected := by
  have hv := h.visited
  cases hs : k.mCurrentState <;> simp_all [passesCheck, visited]

/-! ## After an offline event -/

def offlineEvent : Step := .whole (.onMessage (.notifyAgentEvent .offline))

/-- The labels that end the window of an offline event: the next online event
and main's reconnect, which starts another websocket connection. -/
def endsWindow : Step → Bool
  | .whole (.onMessage (.notifyAgentEvent .online)) | .whole .connectWebsocket => true
  | _ => false

/-- No delayed toggle (of a registration after its send, of the DeviceOffline
branch after its pause, or of a deleted client's thread) fires in a state that
it takes to `CWebsocketConnected`. -/
def NoReconnect (s : Machine) : Step → Prop
  | .updateToggle | .whole .deviceOfflineToggle | .whole .staleToggle => ¬ Reconnects s.connection
  | _ => True

instance (s : Machine) : (l : Step) → Decidable (NoReconnect s l)
  | .updateToggle | .whole .deviceOfflineToggle | .whole .staleToggle => by
    unfold NoReconnect; exact inferInstance
  | .updateCheck | .updateSend _ | .updateSetUpdated | .whole .connectWebsocket | .whole .onOpen
  | .whole (.onFail _) | .whole (.onClose _) | .whole (.onMessage _)
  | .whole (.sendNotifyPluginUpdate _) | .whole .deviceOfflineCheck | .whole .brokenConnection =>
    .isTrue trivial

/-- The invariant of the window: the machine is not in `CWebsocketConnected`,
and a working client is past its On_open. -/
structure Gated (s : Machine) : Prop where
  wf : Wf s.connection
  state : s.connection.mCurrentState ≠ .websocketConnected
  opened : ∀ c, s.client = some c → c.threadstart = true → c.wsConnectionOpened = true

theorem Gated.passesCheck {s : Machine} (h : Gated s) : passesCheck s.connection = false := by
  rw [Bool.eq_false_iff]
  intro hp
  exact h.state ((passesCheck_iff h.wf).mp hp)

theorem serverOfflineFrom_mCurrentState (source : StateId) (k : CConnection) :
    (serverOfflineFrom source k).mCurrentState = (k.raise .serverOffline).mCurrentState := by
  unfold serverOfflineFrom; split <;> rfl

/-- Whatever the state, an offline event does not leave the machine in
`CWebsocketConnected`. -/
theorem onAgentEvent_offline_state (k : CConnection) :
    (onAgentEvent .offline k).mCurrentState ≠ .websocketConnected := by
  simp only [onAgentEvent]
  split
  · rename_i hs
    rw [serverOfflineFrom_mCurrentState, raise_mCurrentState, hs]; simp [toggleTo]
  · split
    · rename_i hs
      rw [serverOfflineFrom_mCurrentState, raise_mCurrentState, hs]; simp [toggleTo]
    · rename_i hs; exact hs

/-- No message but an online event moves the machine to `CWebsocketConnected`. -/
theorem onMessage_state {m : AgentMessage} {k : CConnection} (c : CWebSocketClient)
    (hm : m ≠ .notifyAgentEvent .online) (hk : k.mCurrentState ≠ .websocketConnected) :
    (onMessage m k c).1.mCurrentState ≠ .websocketConnected := by
  cases m with
  | error code =>
    simp only [onMessage]
    split
    · split
      · rename_i hs; rw [raise_mCurrentState, hs]; simp [toggleTo]
      · exact hk
    · exact hk
  | notifyAgentEvent connectivity =>
    cases connectivity with
    | offline => exact onAgentEvent_offline_state k
    | online => exact absurd rfl hm
    | other => exact hk
  | others => exact hk

theorem onMessage_client (m : AgentMessage) (k : CConnection) (c : CWebSocketClient) :
    (onMessage m k c).2.threadstart = c.threadstart ∧
      (onMessage m k c).2.wsConnectionOpened = c.wsConnectionOpened := by
  cases m with
  | error code => simp only [onMessage]; split <;> exact ⟨rfl, rfl⟩
  | notifyAgentEvent connectivity => exact ⟨rfl, rfl⟩
  | others => exact ⟨rfl, rfl⟩

/-- The offline event opens the window. -/
theorem offline_gated {s t : Machine} (hw : Wf s.connection)
    (h : fineStep s offlineEvent = some t) : Gated t := by
  have hwt := (fineStep_connection h).wf hw
  obtain ⟨c, -, hp, rfl⟩ := onClient_some h
  simp only [Bool.and_eq_true] at hp
  refine ⟨hwt, onAgentEvent_offline_state _, fun c' hc' _ => ?_⟩
  simp only [Option.some.injEq] at hc'
  subst hc'
  rw [(onMessage_client _ _ _).2]; exact hp.2

/-- A step of the client that keeps the state out of `CWebsocketConnected` and
does not make a closed client a working one keeps the window. -/
theorem Gated.onClient {s s' : Machine} {p : CWebSocketClient → Bool}
    {f : CConnection → CWebSocketClient → CConnection × CWebSocketClient} (hG : Gated s)
    (hw : Wf s'.connection) (h : s.onClient p f = some s')
    (hf : ∀ c, s.client = some c → p c = true →
      (f s.connection c).1.mCurrentState ≠ .websocketConnected ∧
      ((f s.connection c).2.threadstart = true →
        c.threadstart = true ∧ (f s.connection c).2.wsConnectionOpened = c.wsConnectionOpened)) :
    Gated s' := by
  obtain ⟨c, hc, hp, rfl⟩ := onClient_some h
  obtain ⟨hs, ho⟩ := hf c hc hp
  refine ⟨hw, hs, fun c' hc' ht => ?_⟩
  simp only [Option.some.injEq] at hc'
  subst hc'
  obtain ⟨ht, heq⟩ := ho ht
  rw [heq]; exact hG.opened c hc ht

theorem onDisconnect_state {source : StateId} {thrown} {k : CConnection} (c : CWebSocketClient)
    (hsource : source = .agentAlive ∨ source = .pluginRegistered)
    (hk : k.mCurrentState ≠ .websocketConnected) :
    (onDisconnect source thrown k c).1.mCurrentState ≠ .websocketConnected := by
  unfold onDisconnect
  cases thrown with
  | some what => exact hk
  | none =>
    simp only
    split
    · rename_i hs
      rw [raise_mCurrentState, hs]
      rcases hsource with rfl | rfl <;> simp [toggleTo]
    · exact hk

theorem gated_step {s s' : Machine} {l : Step} (hl : endsWindow l = false) (hG : Gated s)
    (hg : NoReconnect s l) (h : fineStep s l = some s') : Gated s' := by
  have hw := (fineStep_connection h).wf hG.wf
  have hnot : passesCheck s.connection = false := hG.passesCheck
  -- a toggle under the guard, by whichever thread
  have toggled : ¬ Reconnects s.connection →
      s.connection.toggle.mCurrentState ≠ .websocketConnected :=
    fun hR he => hR ((toggle_reconnects_iff _).mp he)
  cases l with
  | updateCheck => exact hG.onClient hw h fun c _ _ => ⟨hG.state, fun ht => ⟨ht, rfl⟩⟩
  | updateSend ok => exact hG.onClient hw h fun c _ _ => ⟨hG.state, fun ht => ⟨ht, rfl⟩⟩
  | updateSetUpdated => exact hG.onClient hw h fun c _ _ => ⟨hG.state, fun ht => ⟨ht, rfl⟩⟩
  | updateToggle => exact hG.onClient hw h fun c _ _ => ⟨toggled hg, fun ht => ⟨ht, rfl⟩⟩
  | whole l =>
    cases l with
    | connectWebsocket => cases hl
    | onOpen =>
      -- a working client is past its On_open
      obtain ⟨c, hc, hp, -⟩ := onClient_some h
      simp only [Bool.and_eq_true, Bool.not_eq_true'] at hp
      have := hG.opened c hc hp.1
      rw [hp.2] at this; cases this
    | onFail thrown =>
      refine hG.onClient hw h fun c _ _ => ⟨onDisconnect_state c (.inl rfl) hG.state, fun ht => ?_⟩
      rw [onFail, onDisconnect_threadstart] at ht; cases ht
    | onClose thrown =>
      refine hG.onClient hw h fun c _ _ => ⟨onDisconnect_state c (.inr rfl) hG.state, fun ht => ?_⟩
      rw [onClose, onDisconnect_threadstart] at ht; cases ht
    | onMessage m =>
      have hm : m ≠ .notifyAgentEvent .online := by intro he; subst he; cases hl
      refine hG.onClient hw h fun c _ _ => ⟨onMessage_state c hm hG.state, fun ht => ?_⟩
      obtain ⟨h₁, h₂⟩ := onMessage_client m s.connection c
      rw [h₁] at ht; exact ⟨ht, h₂⟩
    | sendNotifyPluginUpdate ok =>
      refine hG.onClient hw h fun c _ _ => ?_
      simp only [sendNotifyPluginUpdate, hnot, Bool.false_eq_true, if_false]
      exact ⟨hG.state, fun ht => ⟨ht, trivial⟩⟩
    | deviceOfflineCheck => exact hG.onClient hw h fun c _ _ => ⟨hG.state, fun ht => ⟨ht, rfl⟩⟩
    | deviceOfflineToggle =>
      exact hG.onClient hw h fun c _ _ => ⟨toggled hg, fun ht => ⟨ht, rfl⟩⟩
    | staleToggle =>
      obtain ⟨-, rfl⟩ := staleToggle_some h
      exact ⟨hw, toggled hg, hG.opened⟩
    | brokenConnection =>
      obtain ⟨c, -, -, rfl⟩ := brokenConnection_some h
      refine ⟨hw, ?_, fun c' hc' => by cases hc'⟩
      simp only [Handlers.brokenConnection]
      split
      · rename_i hs; rw [raise_mCurrentState, hs]; simp [toggleTo]
      · exact hG.state

/-- From an offline event on, in every run without an online event or a
reconnect whose steps all meet `NoReconnect`, SendNotifyPluginUpdate does not
pass its state check. -/
theorem offline_gates (s t s' : Machine) (ls : List Step) (h : interleaved.Reachable s)
    (ht : fineStep s offlineEvent = some t) (hrun : (interleaved.guard NoReconnect).Run t ls s')
    (hls : ∀ l ∈ ls, endsWindow l = false) : passesCheck s'.connection = false := by
  have hG : Gated t := offline_gated (wf_inductive_fine.reachable h) ht
  have hG' : Gated s' :=
    hrun.preserves hls (fun _ _ _ hl hG hs => gated_step hl hG hs.1 hs.2) hG
  exact hG'.passesCheck

/-- An offline event in `CPluginRegistered`, followed by an error answer. -/
theorem offline_gates_registered :
    ∃ s t s', interleaved.Reachable s ∧ s.connection.mCurrentState = .pluginRegistered ∧
      fineStep s offlineEvent = some t ∧ t.connection.mCurrentState = .serverOffline ∧
      (interleaved.guard NoReconnect).Run t [.whole (.onMessage (.error (-32000)))] s' ∧
      passesCheck s'.connection = false := by
  have hp : ((exec fineStep .initial
      [.whole .connectWebsocket, .whole .onOpen, .whole (.sendNotifyPluginUpdate true)]).any fun s =>
      s.connection.mCurrentState = .pluginRegistered && (fineStep s offlineEvent).any fun t =>
        t.connection.mCurrentState = .serverOffline &&
          (exec (guardFn NoReconnect fineStep) t [.whole (.onMessage (.error (-32000)))]).isSome) =
      true := by decide
  simp only [Option.any_eq_true, Bool.and_eq_true, decide_eq_true_eq, Option.isSome_iff_exists] at hp
  obtain ⟨s, hs, hs₁, t, ht, ht₁, s', hs'⟩ := hp
  have hr : interleaved.Reachable s := reachable_of_exec rfl hs
  have hrun : (interleaved.guard NoReconnect).Run t _ s' := run_guard_of_exec hs'
  exact ⟨s, t, s', hr, hs₁, ht, ht₁, hrun, offline_gates s t s' _ hr ht hrun (by decide)⟩

/-- The offline event comes between the send of a registration and its toggle,
which takes the machine from `CServerOffline` back to `CWebsocketConnected`. -/
theorem offline_registration :
    ¬ ∀ s t s' ls, interleaved.Reachable s → fineStep s offlineEvent = some t →
      interleaved.Run t ls s' → (∀ l ∈ ls, endsWindow l = false) →
      passesCheck s'.connection = false := by
  intro h
  have hp : ((exec fineStep .initial
      [.whole .connectWebsocket, .whole .onOpen, .updateCheck, .updateSend true]).any fun s =>
      (fineStep s offlineEvent).any fun t =>
        (exec fineStep t [.updateSetUpdated, .updateToggle]).any fun s' =>
          passesCheck s'.connection) = true := by decide
  simp only [Option.any_eq_true] at hp
  obtain ⟨s, hs, t, ht, s', hs', hpass⟩ := hp
  have := h s t s' [.updateSetUpdated, .updateToggle] (reachable_of_exec rfl hs) ht
    (run_of_exec hs') (by decide)
  rw [hpass] at this; cases this

/-- The guard is exact: a step that violates it passes the check at once. -/
theorem noReconnect_exact {s s' : Machine} {l : Step} (h : fineStep s l = some s')
    (hg : ¬ NoReconnect s l) : passesCheck s'.connection = true := by
  have key : ∀ k : CConnection, k = s.connection.toggle → Reconnects s.connection →
      passesCheck k = true := by
    intro k hk hR
    subst hk
    have := (toggle_reconnects_iff _).mpr hR
    simp [passesCheck, this]
  unfold NoReconnect at hg
  split at hg
  · obtain ⟨c, -, -, rfl⟩ := onClient_some h
    exact key _ rfl (not_not.mp hg)
  · obtain ⟨c, -, -, rfl⟩ := onClient_some h
    exact key _ rfl (not_not.mp hg)
  · obtain ⟨-, rfl⟩ := staleToggle_some h
    exact key _ rfl (not_not.mp hg)
  · exact absurd trivial hg

/-! ## A rejection during a registration -/

/-- The device-offline answer. -/
def AgentMessage.rejects : AgentMessage → Bool
  | .error code => code.natAbs = 32000
  | _ => false

/-- The messages after which a registered machine is still registered. -/
def AgentMessage.keepsRegistered (m : AgentMessage) : Bool :=
  !AgentMessage.rejects m && m ≠ .notifyAgentEvent .offline

/-- Handling a list of messages, one after the other. -/
def onMessages : List AgentMessage → CConnection → CWebSocketClient → CConnection × CWebSocketClient
  | [], k, c => (k, c)
  | m :: ms, k, c => onMessages ms (onMessage m k c).1 (onMessage m k c).2

def messages (ms : List AgentMessage) : List Step := ms.map fun m => .whole (.onMessage m)

/-- One SendNotifyPluginUpdate with the messages handled between its steps and
after it. -/
def registration (ok : Bool) (ms₀ ms₁ ms₂ ms₃ : List AgentMessage) : List Step :=
  .updateCheck :: (messages ms₀ ++ .updateSend ok :: (messages ms₁ ++
    .updateSetUpdated :: (messages ms₂ ++ .updateToggle :: messages ms₃)))

theorem messages_run {s s' : Machine} {c : CWebSocketClient} {ms : List AgentMessage}
    (h : interleaved.Run s (messages ms) s') (hc : s.client = some c) :
    s'.connection = (onMessages ms s.connection c).1 ∧
      s'.client = some (onMessages ms s.connection c).2 := by
  induction ms generalizing s c with
  | nil =>
    rw [messages, List.map_nil, System.run_nil_iff] at h
    subst h
    exact ⟨rfl, hc⟩
  | cons m ms ih =>
    rw [messages, List.map_cons, System.run_cons_iff] at h
    obtain ⟨t, ht, hrun⟩ := h
    obtain ⟨c', hc', -, rfl⟩ := onClient_some ht
    rw [hc, Option.some.injEq] at hc'
    subst hc'
    exact ih hrun rfl

/-- A rejection clears the updated flag, no message sets it or moves the
update thread. -/
theorem onMessage_isUpdated (m : AgentMessage) (k : CConnection) (c : CWebSocketClient) :
    (onMessage m k c).2.isUpdated = (c.isUpdated && !AgentMessage.rejects m) ∧
      (onMessage m k c).2.update = c.update := by
  cases m with
  | error code =>
    by_cases hcode : code.natAbs = 32000 <;> simp [onMessage, AgentMessage.rejects, hcode]
  | notifyAgentEvent connectivity => simp [onMessage, AgentMessage.rejects]
  | others => simp [onMessage, AgentMessage.rejects]

theorem onMessages_isUpdated (ms : List AgentMessage) (k : CConnection) (c : CWebSocketClient) :
    (onMessages ms k c).2.isUpdated = (c.isUpdated && !ms.any AgentMessage.rejects) ∧
      (onMessages ms k c).2.update = c.update := by
  induction ms generalizing k c with
  | nil => simp [onMessages]
  | cons m ms ih =>
    obtain ⟨hu, hp⟩ := onMessage_isUpdated m k c
    obtain ⟨ihu, ihp⟩ := ih (onMessage m k c).1 (onMessage m k c).2
    refine ⟨?_, ihp.trans hp⟩
    rw [onMessages, ihu, hu, List.any_cons, Bool.not_or, Bool.and_assoc]

theorem onMessage_keepsRegistered {m : AgentMessage} {k : CConnection} {c : CWebSocketClient}
    (hk : k.mCurrentState = .pluginRegistered) :
    (onMessage m k c).1.mCurrentState = .pluginRegistered ↔
      AgentMessage.keepsRegistered m = true := by
  cases m with
  | error code =>
    by_cases hcode : code.natAbs = 32000 <;>
      simp [onMessage, AgentMessage.keepsRegistered, AgentMessage.rejects, hcode, hk,
        raise_mCurrentState, toggleTo]
  | notifyAgentEvent connectivity =>
    cases connectivity <;>
      simp [onMessage, onAgentEvent, AgentMessage.keepsRegistered, AgentMessage.rejects, hk,
        serverOfflineFrom_mCurrentState, raise_mCurrentState, toggleTo]
  | others => simp [onMessage, AgentMessage.keepsRegistered, AgentMessage.rejects, hk]

/-- Messages never enter `CPluginRegistered`; they leave it exactly when one
of them is a rejection or an offline event. -/
theorem onMessages_registered_iff (ms : List AgentMessage) (k : CConnection)
    (c : CWebSocketClient) :
    (onMessages ms k c).1.mCurrentState = .pluginRegistered ↔
      k.mCurrentState = .pluginRegistered ∧ ms.all AgentMessage.keepsRegistered = true := by
  induction ms generalizing k c with
  | nil => simp [onMessages]
  | cons m ms ih =>
    rw [onMessages, ih, List.all_cons, Bool.and_eq_true]
    constructor
    · intro h
      obtain ⟨hm, hms⟩ := h
      have hk := (onMessage_registered hm).1
      exact ⟨hk, (onMessage_keepsRegistered hk).mp hm, hms⟩
    · intro h
      obtain ⟨hk, hm, hms⟩ := h
      exact ⟨(onMessage_keepsRegistered hk).mpr hm, hms⟩

/-- `CWebsocketConnected` stores SERVER_OFFLINE: its toggle will not register. -/
def StoresOffline (k : CConnection) : Prop := k.mReason .websocketConnected = .serverOffline

instance (k : CConnection) : Decidable (StoresOffline k) := by
  unfold StoresOffline; exact inferInstance

theorem registers_or_storesOffline {k : CConnection} (h : Wf k)
    (hs : k.mCurrentState = .websocketConnected) : Registers k ∨ StoresOffline k := by
  have hst := h.stored .websocketConnected
  unfold Registers StoresOffline
  simp only [storedReasons, List.mem_cons, List.not_mem_nil, or_false] at hst
  rcases hst with hr | hr | hr <;> simp [hs, hr]

theorem serverOfflineFrom_mReason (source : StateId) (k : CConnection) :
    (serverOfflineFrom source k).mReason = (k.raise .serverOffline).mReason := by
  unfold serverOfflineFrom; split <;> rfl

/-- The stored SERVER_OFFLINE survives every message. -/
theorem onMessage_storesOffline {m : AgentMessage} {k : CConnection} {c : CWebSocketClient}
    (h : StoresOffline k) : StoresOffline (onMessage m k c).1 := by
  unfold StoresOffline at h ⊢
  cases m with
  | error code =>
    simp only [onMessage]
    split
    · split
      · rename_i hs; simp [raise_mReason, hs, h]
      · exact h
    · exact h
  | notifyAgentEvent connectivity =>
    cases connectivity with
    | offline =>
      simp only [onMessage, onAgentEvent]
      split
      · rename_i hs; simp [serverOfflineFrom_mReason, raise_mReason, hs, h]
      · split
        · rename_i hs; simp [serverOfflineFrom_mReason, raise_mReason, hs, reasonAfter]
        · exact h
    | online =>
      simp only [onMessage, onAgentEvent]
      split
      · rename_i hs; simp [toggle_mReason, hs, h]
      · exact h
    | other => exact h
  | others => exact h

/-- In `CWebsocketConnected` the offline event stores SERVER_OFFLINE, every
other message leaves the connection alone. -/
theorem onMessage_of_registers {m : AgentMessage} {k : CConnection} {c : CWebSocketClient}
    (h : Registers k) :
    if m = .notifyAgentEvent .offline then StoresOffline (onMessage m k c).1
    else (onMessage m k c).1 = k := by
  have hs := h.1
  cases m with
  | error code =>
    have : ¬ k.mCurrentState = .pluginRegistered := by simp [hs]
    simp only [onMessage, this, reduceCtorEq, if_false]
    split <;> rfl
  | notifyAgentEvent connectivity =>
    cases connectivity <;>
      simp [onMessage, onAgentEvent, hs, StoresOffline, serverOfflineFrom_mReason, raise_mReason,
        reasonAfter]
  | others => simp [onMessage]

theorem onMessages_storesOffline {ms : List AgentMessage} {k : CConnection} {c : CWebSocketClient}
    (h : StoresOffline k) : StoresOffline (onMessages ms k c).1 := by
  induction ms generalizing k c with
  | nil => exact h
  | cons m ms ih => exact ih (onMessage_storesOffline h)

/-- What is known of the connection during the call: SERVER_OFFLINE is stored
if an offline event came (`off`), otherwise the toggle would register. -/
def RegistersUnless (off : Bool) (k : CConnection) : Prop :=
  if off then StoresOffline k else Registers k

theorem RegistersUnless.iff {off : Bool} {k : CConnection} (h : RegistersUnless off k) :
    Registers k ↔ off = false := by
  cases off with
  | true =>
    have hk : StoresOffline k := h
    exact ⟨fun hR => absurd hk hR.2.1, fun hoff => by cases hoff⟩
  | false => exact ⟨fun _ => rfl, fun _ => h⟩

theorem RegistersUnless.onMessages {off : Bool} {ms : List AgentMessage} {k : CConnection}
    {c : CWebSocketClient} (h : RegistersUnless off k) :
    RegistersUnless (off || ms.contains (.notifyAgentEvent .offline)) (onMessages ms k c).1 := by
  cases off with
  | true => exact onMessages_storesOffline (k := k) h
  | false =>
    rw [Bool.false_or]
    induction ms generalizing k c with
    | nil => exact h
    | cons m ms ih =>
      have hm := onMessage_of_registers (m := m) (c := c) h
      rw [Interleaved.onMessages, List.contains_cons]
      by_cases hoff : m = .notifyAgentEvent .offline
      · rw [if_pos hoff] at hm
        simp only [hoff, beq_self_eq_true, Bool.true_or] at hm ⊢
        exact onMessages_storesOffline hm
      · rw [if_neg hoff] at hm
        have hbeq : ((AgentMessage.notifyAgentEvent .offline) == m) = false := by
          simpa using Ne.symm hoff
        rw [hbeq, Bool.false_or, hm]
        exact ih h

/-- The update is not marked as sent and the machine not in
`CPluginRegistered`. -/
def RejectionKept (s : Machine) : Prop :=
  (∀ c, s.client = some c → c.isUpdated = false) ∧ s.connection.mCurrentState ≠ .pluginRegistered

/-- One SendNotifyPluginUpdate from the state `s`: the connection `g` before
the toggle, and the flag at the end. -/
theorem registration_run {s s' : Machine} {ok : Bool} {ms₀ ms₁ ms₂ ms₃ : List AgentMessage}
    (hw : Wf s.connection) (hrun : interleaved.Run s (registration ok ms₀ ms₁ ms₂ ms₃) s') :
    ∃ (c c' cg : CWebSocketClient) (g : CConnection), s'.client = some c' ∧
      c'.isUpdated = (((ok || c.isUpdated && !ms₀.any AgentMessage.rejects &&
        !ms₁.any AgentMessage.rejects) && !ms₂.any AgentMessage.rejects) &&
        !ms₃.any AgentMessage.rejects) ∧
      Wf g ∧ g.mCurrentState ≠ .pluginRegistered ∧
      RegistersUnless (decide (StoresOffline s.connection) ||
        ms₀.contains (.notifyAgentEvent .offline) || ms₁.contains (.notifyAgentEvent .offline) ||
        ms₂.contains (.notifyAgentEvent .offline)) g ∧
      s'.connection = (onMessages ms₃ g.toggle cg).1 := by
  obtain ⟨a, ha, hrun⟩ := System.run_cons_iff.mp hrun
  obtain ⟨b, hb, hrun⟩ := System.run_append_iff.mp hrun
  obtain ⟨d, hd, hrun⟩ := System.run_cons_iff.mp hrun
  obtain ⟨e, he, hrun⟩ := System.run_append_iff.mp hrun
  obtain ⟨f, hf, hrun⟩ := System.run_cons_iff.mp hrun
  obtain ⟨g, hg, hrun⟩ := System.run_append_iff.mp hrun
  obtain ⟨t, ht, hrun⟩ := System.run_cons_iff.mp hrun
  have hwg : Wf g.connection := by
    have step {x y : Machine} {l : Step} (h : fineStep x l = some y) (hx : Wf x.connection) :
        Wf y.connection := (fineStep_connection h).wf hx
    exact wf_inductive_fine.run hg (step hf (wf_inductive_fine.run he
      (step hd (wf_inductive_fine.run hb (step ha hw)))))
  -- the check passes in CWebsocketConnected only
  obtain ⟨c, -, hp, rfl⟩ := onClient_some ha
  rw [Bool.and_eq_true] at hp
  have hs : s.connection.mCurrentState = .websocketConnected := (passesCheck_iff hw).mp hp.2
  have h₀ : RegistersUnless (decide (StoresOffline s.connection)) s.connection := by
    by_cases hoff : StoresOffline s.connection
    · simp [RegistersUnless, hoff]
    · simpa [RegistersUnless, hoff] using (registers_or_storesOffline hw hs).resolve_right hoff
  -- the sender's steps before the toggle leave the connection alone
  obtain ⟨hbk, hbc⟩ := messages_run hb rfl
  obtain ⟨cb, hcb, -, rfl⟩ := onClient_some hd
  obtain ⟨hek, hec⟩ := messages_run he rfl
  obtain ⟨ce, hce, -, rfl⟩ := onClient_some hf
  obtain ⟨hgk, hgc⟩ := messages_run hg rfl
  obtain ⟨cg, hcg, -, rfl⟩ := onClient_some ht
  obtain ⟨hsk, hsc⟩ := messages_run hrun rfl
  simp only [updateSetUpdated, hek, updateSend, hbk, updateCheck] at hgk
  have hne : g.connection.mCurrentState ≠ .pluginRegistered := by
    simp [hgk, onMessages_registered_iff, hs]
  refine ⟨c, _, _, g.connection, hsc, ?_, hwg, hne, ?_, hsk⟩
  case refine_2 => rw [hgk]; exact h₀.onMessages.onMessages.onMessages
  rw [hbc, Option.some.injEq] at hcb
  rw [hec, Option.some.injEq] at hce
  rw [hgc, Option.some.injEq] at hcg
  subst hcb hce hcg
  simp only [onMessages_isUpdated, updateToggle, updateSetUpdated, updateSend, updateCheck]
  simp

theorem all_keepsRegistered_iff (ms : List AgentMessage) :
    ms.all AgentMessage.keepsRegistered = true ↔
      ¬ ms.any AgentMessage.rejects = true ∧ .notifyAgentEvent .offline ∉ ms := by
  simp only [List.all_eq_true, List.any_eq_true, AgentMessage.keepsRegistered, Bool.and_eq_true,
    Bool.not_eq_true', decide_eq_true_eq]
  constructor
  · intro h
    refine ⟨?_, fun hoff => (h _ hoff).2 rfl⟩
    intro hany
    obtain ⟨m, hm, hr⟩ := hany
    rw [(h m hm).1] at hr; cases hr
  · intro h m hm
    obtain ⟨hr, hoff⟩ := h
    exact ⟨Bool.eq_false_iff.mpr fun h => hr ⟨m, hm, h⟩, fun h => hoff (h ▸ hm)⟩

/-- The flag at the end of a call during which some rejection came after the
send. -/
theorem flag_false_iff : ∀ ok u r₀ r₁ r₂ r₃ : Bool, (r₁ = true ∨ r₂ = true) ∨ r₃ = true →
    ((((ok || u && !r₀ && !r₁) && !r₂) && !r₃) = false ↔
      r₃ = true ∨ ok = false ∨ r₂ = true) := by
  decide

/-- A rejection handled after the send is kept exactly when it is handled
after the toggle, or after `SetUpdated` (anywhere, if the send failed) while
the toggle does not register or an offline event undoes it. -/
theorem rejection_kept_iff (s s' : Machine) (ok : Bool) (ms₀ ms₁ ms₂ ms₃ : List AgentMessage)
    (h : interleaved.Reachable s)
    (hrun : interleaved.Run s (registration ok ms₀ ms₁ ms₂ ms₃) s')
    (hrej : (ms₁ ++ ms₂ ++ ms₃).any AgentMessage.rejects = true) :
    RejectionKept s' ↔
      ms₃.any AgentMessage.rejects = true ∨
        ((ok = false ∨ ms₂.any AgentMessage.rejects = true) ∧
          (StoresOffline s.connection ∨
            .notifyAgentEvent .offline ∈ ms₀ ++ ms₁ ++ ms₂ ++ ms₃)) := by
  have hw := wf_inductive_fine.reachable h
  obtain ⟨c, c', cg, g, hc', hu, hwg, hne, hreg, hk⟩ := registration_run hw hrun
  simp only [List.any_append, Bool.or_eq_true] at hrej
  have hflag : (∀ c, s'.client = some c → c.isUpdated = false) ↔
      ms₃.any AgentMessage.rejects = true ∨ ok = false ∨
        ms₂.any AgentMessage.rejects = true := by
    simp only [hc', Option.some.injEq, forall_eq', hu]
    exact flag_false_iff _ _ _ _ _ _ hrej
  have hstate : s'.connection.mCurrentState = .pluginRegistered ↔
      (¬ StoresOffline s.connection ∧ .notifyAgentEvent .offline ∉ ms₀ ++ ms₁ ++ ms₂) ∧
        ¬ ms₃.any AgentMessage.rejects = true ∧ .notifyAgentEvent .offline ∉ ms₃ := by
    rw [hk, onMessages_registered_iff, toggle_registered_iff hwg, or_iff_right hne, hreg.iff,
      all_keepsRegistered_iff]
    simp [and_assoc]
  have hoff : .notifyAgentEvent .offline ∈ ms₀ ++ ms₁ ++ ms₂ ++ ms₃ ↔
      .notifyAgentEvent .offline ∈ ms₀ ++ ms₁ ++ ms₂ ∨ .notifyAgentEvent .offline ∈ ms₃ :=
    List.mem_append
  rw [RejectionKept, hflag, ne_eq, hstate, hoff]
  clear * -
  tauto

/-- The rejection comes after the toggle. -/
theorem rejection_kept_after_toggle :
    ∃ s s', interleaved.Reachable s ∧
      interleaved.Run s (registration true [] [] [] [.error (-32000)]) s' ∧ RejectionKept s' := by
  have hp : ((exec fineStep .initial [.whole .connectWebsocket, .whole .onOpen]).any fun s =>
      (exec fineStep s (registration true [] [] [] [.error (-32000)])).isSome) = true := by decide
  simp only [Option.any_eq_true, Option.isSome_iff_exists] at hp
  obtain ⟨s, hs, s', hs'⟩ := hp
  have hr : interleaved.Reachable s := reachable_of_exec rfl hs
  have hrun : interleaved.Run s _ s' := run_of_exec hs'
  exact ⟨s, s', hr, hrun,
    (rejection_kept_iff s s' true [] [] [] _ hr hrun (by decide)).mpr (.inl (by decide))⟩

/-- The rejection comes between the send and `SetUpdated`, which overwrites
it. -/
theorem rejection_overwritten :
    ¬ ∀ s s' ok ms₀ ms₁ ms₂ ms₃, interleaved.Reachable s →
      interleaved.Run s (registration ok ms₀ ms₁ ms₂ ms₃) s' →
      (ms₁ ++ ms₂ ++ ms₃).any AgentMessage.rejects = true → RejectionKept s' := by
  intro h
  have hp : ((exec fineStep .initial [.whole .connectWebsocket, .whole .onOpen]).any fun s =>
      (exec fineStep s (registration true [] [.error (-32000)] [] [])).any fun s' =>
        s'.connection.mCurrentState = .pluginRegistered) = true := by decide
  simp only [Option.any_eq_true, decide_eq_true_eq] at hp
  obtain ⟨s, hs, s', hs', hreg⟩ := hp
  exact (h s s' true [] [.error (-32000)] [] [] (reachable_of_exec rfl hs) (run_of_exec hs')
    (by decide)).2 hreg

end TmatePlugin.L3.Interleaved
