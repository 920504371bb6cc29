import TmatePlugin.L3Machine.Handlers

/-!
# Registration over whole runs of the connection machine

Every handler leaves the connection alone, toggles it, or raises one of the
reasons of `raisedReasons` (`step_connection`), so `Wf` holds in every
reachable state (`wf_reachable`).

* `registration_sound`: in a run whose steps all satisfy `RegistersAfterSend`
  (the default branch of `CWebsocketConnected::toggle` is only taken by a
  SendNotifyPluginUpdate that succeeded, or where no working client is left
  unregistered by it), an open, working client in `CPluginRegistered` is
  registered. The unguarded machine breaks this (`registration_unsound`).
* `restart_iff`: the reconnect step restarts from `CAgentAlive` exactly from
  `CInit`, `CAgentAlive` and `CWebsocketDisconnected`.
* `registers_iff`: a successful SendNotifyPluginUpdate lands in
  `CPluginRegistered` exactly when `CWebsocketConnected` does not still store
  SERVER_OFFLINE.
-/
namespace TmatePlugin.L3.Registration

open Transition CString
open TmatePlugin.L3.States TmatePlugin.L3.Handlers

/-! ## What a step does -/

theorem onClient_some {s s' : Machine} {p : CWebSocketClient → Bool}
    {f : CConnection → CWebSocketClient → CConnection × CWebSocketClient}
    (h : s.onClient p f = some s') :
    ∃ c, s.client = some c ∧ p c = true ∧
      s' = { s with connection := (f s.connection c).1, client := some (f s.connection c).2 } := by
  unfold Machine.onClient at h
  split at h
  · cases h
  · rename_i c hc
    split at h
    · rename_i hp
      simp only [Option.some.injEq] at h
      exact ⟨c, hc, hp, h.symm⟩
    · cases h

theorem connectWebsocket_some {s s' : Machine} (h : step s .connectWebsocket = some s') :
    s.client = none ∧
      s' = { s with connection := s.connection.raise .agentAlive, client := some .new } := by
  simp only [step] at h
  split at h
  · cases h
  · rename_i hc
    simp only [connectWebsocket, Option.some.injEq] at h
    exact ⟨hc, h.symm⟩

theorem brokenConnection_some {s s' : Machine} (h : step s .brokenConnection = some s') :
    ∃ c, s.client = some c ∧ c.threadstart = false ∧
      s' = ⟨brokenConnection s.connection, none, s.stale + c.update.pendingToggle⟩ := by
  simp only [step] at h
  split at h
  · cases h
  · rename_i c hc
    split at h
    · cases h
    · rename_i ht
      simp only [Option.some.injEq] at h
      exact ⟨c, hc, by simpa using ht, h.symm⟩

theorem staleToggle_some {s s' : Machine} (h : step s .staleToggle = some s') :
    0 < s.stale ∧ s' = { s with connection := s.connection.toggle, stale := s.stale - 1 } := by
  simp only [step] at h
  split at h
  · rename_i hs
    simp only [Option.some.injEq] at h
    exact ⟨hs, h.symm⟩
  · cases h

/-- The change a handler makes to the connection. -/
inductive Change (k : CConnection) : CConnection → Prop
  | keep : Change k k
  | toggle : Change k k.toggle
  | raise (r : Reason) (hr : r ∈ raisedReasons k.mCurrentState) : Change k (k.raise r)
  | offline (last : StateId) (hr : .serverOffline ∈ raisedReasons k.mCurrentState) :
      Change k ((k.raise .serverOffline).setLastState last)

theorem Change.wf {k k' : CConnection} (hc : Change k k') (h : Wf k) : Wf k' := by
  cases hc with
  | keep => exact h
  | toggle => exact wf_toggle h
  | raise r hr => exact wf_raise h hr
  | offline last hr => exact wf_setLastState (wf_raise h hr) last

theorem change_serverOfflineFrom {k : CConnection} (source : StateId)
    (hr : .serverOffline ∈ raisedReasons k.mCurrentState) :
    Change k (serverOfflineFrom source k) := by
  unfold serverOfflineFrom
  split
  · exact .offline source hr
  · exact .raise _ hr

theorem change_onDisconnect (source : StateId) (thrown) (k : CConnection) (c : CWebSocketClient)
    (hr : .websocketDisconnected ∈ raisedReasons source) :
    Change k (onDisconnect source thrown k c).1 := by
  unfold onDisconnect
  cases thrown with
  | some what => exact .keep
  | none =>
    simp only
    split
    · rename_i hs; exact .raise _ (by rw [hs]; exact hr)
    · exact .keep

theorem change_onMessage (m : AgentMessage) (k : CConnection) (c : CWebSocketClient) :
    Change k (onMessage m k c).1 := by
  cases m with
  | error code =>
    simp only [onMessage]
    split
    · split
      · rename_i hs; exact .raise _ (by rw [hs]; decide)
      · exact .keep
    · exact .keep
  | notifyAgentEvent connectivity =>
    cases connectivity with
    | offline =>
      simp only [onMessage, onAgentEvent]
      split
      · rename_i hs; exact change_serverOfflineFrom _ (by rw [hs]; decide)
      · split
        · rename_i hs; exact change_serverOfflineFrom _ (by rw [hs]; decide)
        · exact .keep
    | online =>
      simp only [onMessage, onAgentEvent]
      split
      · exact .toggle
      · exact .keep
    | other => exact .keep
  | others => exact .keep

theorem step_connection {s s' : Machine} {l : Label} (h : step s l = some s') :
    Change s.connection s'.connection := by
  cases l with
  | connectWebsocket =>
    obtain ⟨-, rfl⟩ := connectWebsocket_some h
    exact .raise _ (by cases s.connection.mCurrentState <;> decide)
  | onOpen =>
    obtain ⟨c, -, -, rfl⟩ := onClient_some h
    simp only [onOpen]
    split
    · rename_i hs; exact .raise _ (by rw [hs]; decide)
    · exact .keep
  | onFail thrown =>
    obtain ⟨c, -, -, rfl⟩ := onClient_some h
    exact change_onDisconnect _ _ _ _ (by decide)
  | onClose thrown =>
    obtain ⟨c, -, -, rfl⟩ := onClient_some h
    exact change_onDisconnect _ _ _ _ (by decide)
  | onMessage m =>
    obtain ⟨c, -, -, rfl⟩ := onClient_some h
    exact change_onMessage m _ _
  | sendNotifyPluginUpdate ok =>
    obtain ⟨c, -, -, rfl⟩ := onClient_some h
    simp only [sendNotifyPluginUpdate]
    split
    · exact .toggle
    · exact .keep
  | deviceOfflineCheck =>
    obtain ⟨c, -, -, rfl⟩ := onClient_some h
    exact .keep
  | deviceOfflineToggle =>
    obtain ⟨c, -, -, rfl⟩ := onClient_some h
    exact .toggle
  | staleToggle =>
    obtain ⟨-, rfl⟩ := staleToggle_some h
    exact .toggle
  | brokenConnection =>
    obtain ⟨c, -, -, rfl⟩ := brokenConnection_some h
    simp only [brokenConnection]
    split
    · rename_i hs; exact .raise _ (by rw [hs]; decide)
    · exact .keep

theorem wf_inductive : machine.Inductive (fun s => Wf s.connection) where
  init := by intro s hs; subst hs; exact wf_new
  step := fun _ _ _ h hs => (step_connection hs).wf h

theorem wf_reachable {s : Machine} (h : machine.Reachable s) : Wf s.connection :=
  wf_inductive.reachable h

/-! ## CPluginRegistered means registered -/

/-- `On_message` never enters `CPluginRegistered`, and stays there only when
it leaves the client alone. -/
theorem onMessage_registered {m : AgentMessage} {k : CConnection} {c : CWebSocketClient}
    (h : (onMessage m k c).1.mCurrentState = .pluginRegistered) :
    k.mCurrentState = .pluginRegistered ∧ (onMessage m k c).2 = c := by
  cases m with
  | error code =>
    simp only [onMessage] at h ⊢
    split at h
    · simp only at h
      split at h
      · rename_i hs; rw [raise_mCurrentState, hs] at h; cases h
      · rename_i hs; exact absurd h hs
    · rename_i hc; exact ⟨h, by rw [if_neg hc]⟩
  | notifyAgentEvent connectivity =>
    refine ⟨?_, rfl⟩
    cases connectivity with
    | offline =>
      simp only [onMessage, onAgentEvent] at h
      split at h
      · rename_i hs; exact hs
      · split at h
        · rename_i hs
          have hto : (k.raise .serverOffline).mCurrentState = .serverOffline := by
            rw [raise_mCurrentState, hs]; rfl
          simp [serverOfflineFrom, hto] at h
        · exact h
    | online =>
      simp only [onMessage, onAgentEvent] at h
      split at h
      · rename_i hs
        rw [toggle_mCurrentState, hs] at h
        simp only [toggleTo] at h
        split at h <;> cases h
      · exact h
    | other => exact h
  | others => exact ⟨h, rfl⟩

/-- An open, working client in `CPluginRegistered` has sent its
notifyPluginUpdate. -/
def RegistrationSound (s : Machine) : Prop :=
  ∀ c, s.client = some c → c.threadstart = true → c.wsConnectionOpened = true →
    s.connection.mCurrentState = .pluginRegistered → c.isUpdated = true

/-- There is a client, and it is registered unless its worker has stopped. -/
def covered (s : Machine) : Bool := s.client.any fun c => !c.threadstart || c.isUpdated

/-- The default branch of `CWebsocketConnected::toggle` is not taken by main's
reconnect, and by an unsuccessful send or a delayed toggle only where no
working client is left unregistered by it. -/
def RegistersAfterSend (s : Machine) : Label → Prop
  | .connectWebsocket => s.connection.mCurrentState ≠ .websocketConnected
  | .sendNotifyPluginUpdate ok => Registers s.connection → ok = true ∨ covered s = true
  | .deviceOfflineToggle | .staleToggle => Registers s.connection → covered s = true
  | _ => True

instance (s : Machine) : (l : Label) → Decidable (RegistersAfterSend s l)
  | .connectWebsocket | .sendNotifyPluginUpdate _ | .deviceOfflineToggle | .staleToggle => by
    unfold RegistersAfterSend; exact inferInstance
  | .onOpen | .onFail _ | .onClose _ | .onMessage _ | .deviceOfflineCheck | .brokenConnection =>
    .isTrue trivial

/-- The invariant: in `CPluginRegistered` a client is covered, open or not. -/
def RegInv (s : Machine) : Prop :=
  s.connection.mCurrentState = .pluginRegistered → covered s = true

theorem covered_some {s : Machine} {c : CWebSocketClient} (hc : s.client = some c) :
    covered s = (!c.threadstart || c.isUpdated) := by
  simp [covered, hc]

theorem onDisconnect_threadstart (source : StateId) (thrown) (k : CConnection)
    (c : CWebSocketClient) : (onDisconnect source thrown k c).2.threadstart = false := by
  unfold onDisconnect
  cases thrown <;> rfl

/-- A toggle into `CPluginRegistered` needs the invariant or the guard. -/
theorem toggle_covered {s : Machine} (hw : Wf s.connection) (hI : RegInv s)
    (hg : Registers s.connection → covered s = true)
    (hr : s.connection.toggle.mCurrentState = .pluginRegistered) : covered s = true := by
  rcases (toggle_registered_iff hw).mp hr with h | h
  · exact hI h
  · exact hg h

theorem regInv_step {s s' : Machine} {l : Label} (hw : Wf s.connection) (hI : RegInv s)
    (hg : RegistersAfterSend s l) (h : step s l = some s') : RegInv s' := by
  intro hr
  cases l with
  | connectWebsocket =>
    obtain ⟨hc, rfl⟩ := connectWebsocket_some h
    exfalso
    have hn : s.connection.mCurrentState ≠ .pluginRegistered := by
      intro hs
      have := hI hs
      simp [covered, hc] at this
    simp only [RegistersAfterSend] at hg
    rw [raise_mCurrentState] at hr
    have hv := hw.visited
    cases hs : s.connection.mCurrentState <;> simp_all [toggleTo, visited]
    split at hr <;> cases hr
  | onOpen =>
    obtain ⟨c, hc, -, rfl⟩ := onClient_some h
    simp only [onOpen] at hr
    split at hr
    · rename_i hs; rw [raise_mCurrentState, hs] at hr; cases hr
    · rw [covered_some rfl]
      have := hI hr
      rwa [covered_some hc] at this
  | onFail thrown =>
    obtain ⟨c, -, -, rfl⟩ := onClient_some h
    rw [covered_some rfl]; simp [onFail, onDisconnect_threadstart]
  | onClose thrown =>
    obtain ⟨c, -, -, rfl⟩ := onClient_some h
    rw [covered_some rfl]; simp [onClose, onDisconnect_threadstart]
  | onMessage m =>
    obtain ⟨c, hc, -, rfl⟩ := onClient_some h
    obtain ⟨hs, he⟩ := onMessage_registered hr
    rw [covered_some rfl, he, ← covered_some hc]
    exact hI hs
  | sendNotifyPluginUpdate ok =>
    obtain ⟨c, hc, -, rfl⟩ := onClient_some h
    rw [covered_some rfl]
    simp only [sendNotifyPluginUpdate] at hr ⊢
    split at hr
    · rename_i hp
      rw [if_pos hp]
      cases ok with
      | true => simp
      | false =>
        have := toggle_covered hw hI (fun hR => (hg hR).resolve_left (by decide)) hr
        simpa [covered_some hc] using this
    · rename_i hp
      rw [if_neg hp, ← covered_some hc]
      exact hI hr
  | deviceOfflineCheck =>
    obtain ⟨c, hc, -, rfl⟩ := onClient_some h
    have := hI hr
    rwa [covered_some hc] at this
  | deviceOfflineToggle =>
    obtain ⟨c, hc, -, rfl⟩ := onClient_some h
    have := toggle_covered hw hI hg hr
    rwa [covered_some hc] at this
  | staleToggle =>
    obtain ⟨-, rfl⟩ := staleToggle_some h
    have := toggle_covered (s := s) hw hI hg hr
    exact this
  | brokenConnection =>
    obtain ⟨c, -, -, rfl⟩ := brokenConnection_some h
    simp only [Handlers.brokenConnection] at hr
    split at hr
    · rename_i hs; rw [raise_mCurrentState, hs] at hr; cases hr
    · rename_i hs; exact absurd hr hs

theorem regInv_inductive :
    (machine.guard RegistersAfterSend).Inductive (fun s => Wf s.connection ∧ RegInv s) :=
  wf_inductive.guarded (by rintro s rfl hs; cases hs) fun _ _ _ hw hI hg h => regInv_step hw hI hg h

/-- In every run whose steps all satisfy `RegistersAfterSend`, an open, working
client in `CPluginRegistered` is registered on its connection. -/
theorem registration_sound (s : Machine) (h : (machine.guard RegistersAfterSend).Reachable s) :
    RegistrationSound s := by
  intro c hc ht _ hs
  have := (regInv_inductive.reachable h).2 hs
  rw [covered_some hc, ht] at this
  simpa using this

theorem registration_sound_run :
    ∃ s, (machine.guard RegistersAfterSend).Reachable s ∧
      s.connection.mCurrentState = .pluginRegistered ∧ RegistrationSound s := by
  obtain ⟨s, hr, hp⟩ := machine_run_guard RegistersAfterSend
    [.connectWebsocket, .onOpen, .sendNotifyPluginUpdate true]
    (fun s => s.connection.mCurrentState = .pluginRegistered) (by decide)
  exact ⟨s, hr, by simpa using hp, registration_sound s hr⟩

/-- The send fails, the toggle registers all the same. -/
theorem registration_unsound : ¬ ∀ s, machine.Reachable s → RegistrationSound s := by
  intro h
  obtain ⟨s, hr, hp⟩ := machine_run
    [.connectWebsocket, .onOpen, .sendNotifyPluginUpdate false]
    (fun s => s.connection.mCurrentState = .pluginRegistered &&
      s.client.any (fun c => c.threadstart && c.wsConnectionOpened && !c.isUpdated)) (by decide)
  simp only [Bool.and_eq_true, decide_eq_true_eq, Option.any_eq_true, Bool.not_eq_true'] at hp
  obtain ⟨hs, c, hc, ⟨ht, ho⟩, hu⟩ := hp
  rw [h s hr c hc ht ho hs] at hu
  cases hu

/-- A working, unregistered client in `CPluginRegistered` is unsound once its
connection is open. -/
theorem unsound_of_open {s : Machine} {c : CWebSocketClient} (hc : s.client = some c)
    (hs : s.connection.mCurrentState = .pluginRegistered) (ht : c.threadstart = true)
    (hu : c.isUpdated = false) : ∃ ls s', machine.Run s ls s' ∧ ¬ RegistrationSound s' := by
  cases ho : c.wsConnectionOpened with
  | true =>
    refine ⟨[], s, .nil s, fun h => ?_⟩
    have := h c hc ht ho hs
    rw [hu] at this; cases this
  | false =>
    have hstep : step s .onOpen =
        some { s with client := some { c with wsConnectionOpened := true } } := by
      simp [step, Machine.onClient, hc, ht, ho, onOpen, hs]
    refine ⟨[.onOpen], _, .cons hstep (.nil _), fun h => ?_⟩
    have := h _ rfl ht rfl hs
    simp only [hu] at this; cases this

/-- The guard is exact: a step that violates it leads to an unsound state, at
once, after the next On_open, or after main's reconnect and the next On_open. -/
theorem registersAfterSend_exact {s s' : Machine} {l : Label} (h : step s l = some s')
    (hg : ¬ RegistersAfterSend s l) : ∃ ls t, machine.Run s' ls t ∧ ¬ RegistrationSound t := by
  cases l with
  | connectWebsocket =>
    obtain ⟨-, rfl⟩ := connectWebsocket_some h
    simp only [RegistersAfterSend, not_not] at hg
    exact unsound_of_open rfl (by rw [raise_mCurrentState, hg]; rfl) rfl rfl
  | sendNotifyPluginUpdate ok =>
    obtain ⟨c, hc, hp, rfl⟩ := onClient_some h
    simp only [RegistersAfterSend, Classical.not_imp, not_or, covered_some hc] at hg
    obtain ⟨hR, hok, hcov⟩ := hg
    simp only [Bool.or_eq_true, Bool.not_eq_true', not_or, Bool.not_eq_false,
      Bool.not_eq_true] at hok hcov
    have hcheck : passesCheck s.connection = true := by simp [passesCheck, hR.1]
    refine unsound_of_open rfl ?_ ?_ ?_ <;>
      simp only [sendNotifyPluginUpdate, hcheck, if_true, hok, Bool.false_or]
    · exact toggle_of_registers hR
    · exact hcov.1
    · exact hcov.2
  | deviceOfflineToggle =>
    obtain ⟨c, hc, -, rfl⟩ := onClient_some h
    simp only [RegistersAfterSend, Classical.not_imp, covered_some hc, Bool.or_eq_true,
      Bool.not_eq_true', not_or, Bool.not_eq_false, Bool.not_eq_true] at hg
    exact unsound_of_open rfl (toggle_of_registers hg.1) hg.2.1 hg.2.2
  | staleToggle =>
    obtain ⟨-, rfl⟩ := staleToggle_some h
    simp only [RegistersAfterSend, Classical.not_imp] at hg
    obtain ⟨hR, hcov⟩ := hg
    have hto := toggle_of_registers hR
    cases hc : s.client with
    | some c =>
      simp only [covered_some hc, Bool.or_eq_true, Bool.not_eq_true', not_or, Bool.not_eq_false,
        Bool.not_eq_true] at hcov
      exact unsound_of_open rfl hto hcov.1 hcov.2
    | none =>
      -- the reconnect keeps CPluginRegistered: it has no case for AGENT_ALIVE
      obtain ⟨ls, t, hrun, ht⟩ := unsound_of_open
        (s := { s with connection := s.connection.toggle.raise .agentAlive,
                       client := some .new, stale := s.stale - 1 })
        rfl (by rw [raise_mCurrentState, hto]; rfl) rfl rfl
      exact ⟨.connectWebsocket :: ls, t, .cons rfl hrun, ht⟩
  | _ => exact absurd trivial hg

/-! ## Reconnecting -/

/-- From here the reconnect step enters `CAgentAlive`, the next On_open enters
`CWebsocketConnected`, and a successful SendNotifyPluginUpdate then registers
the plugin on the new connection. -/
def RestartsFromAgentAlive (s : Machine) : Prop :=
  ∃ s₁ s₂ s₃, step s .connectWebsocket = some s₁ ∧ s₁.connection.mCurrentState = .agentAlive ∧
    step s₁ .onOpen = some s₂ ∧ s₂.connection.mCurrentState = .websocketConnected ∧
    step s₂ (.sendNotifyPluginUpdate true) = some s₃ ∧
    ∃ c, s₃.client = some c ∧ c.wsConnectionOpened = true ∧ c.isUpdated = true

theorem restarts_of_agentAlive {s : Machine} (hc : s.client = none)
    (h : toggleTo s.connection.mLastState s.connection.mCurrentState .agentAlive = .agentAlive) :
    RestartsFromAgentAlive s := by
  have h₁ : (s.connection.raise .agentAlive).mCurrentState = .agentAlive := by
    rw [raise_mCurrentState, h]
  have h₂ : ((s.connection.raise .agentAlive).raise .websocketConnected).mCurrentState =
      .websocketConnected := by
    rw [raise_mCurrentState, h₁]; rfl
  refine ⟨⟨s.connection.raise .agentAlive, some .new, s.stale⟩,
    ⟨(s.connection.raise .agentAlive).raise .websocketConnected,
      some ⟨true, true, [], false, .loop⟩, s.stale⟩,
    ⟨((s.connection.raise .agentAlive).raise .websocketConnected).toggle,
      some ⟨true, true, [], true, .loop⟩, s.stale⟩, ?_, h₁, ?_, h₂, ?_, _, rfl, rfl, rfl⟩
  · simp only [step, hc, connectWebsocket]
  · simp [step, Machine.onClient, CWebSocketClient.new, onOpen, h₁]
  · simp only [step, Machine.onClient, CWebSocketClient.ranLoopTests, sendNotifyPluginUpdate,
      passesCheck, h₂]
    rfl

/-- Wherever main reconnects, the machine restarts from `CAgentAlive` exactly
when the current state is `CInit`, `CAgentAlive` or `CWebsocketDisconnected`. -/
theorem restart_iff (s : Machine) (h : machine.Reachable s) (hc : s.client = none) :
    RestartsFromAgentAlive s ↔
      s.connection.mCurrentState ∈ [.init, .agentAlive, .websocketDisconnected] := by
  have hv := (wf_reachable h).visited
  constructor
  · intro hr
    obtain ⟨s₁, -, -, h₁, hs₁, -⟩ := hr
    obtain ⟨-, rfl⟩ := connectWebsocket_some h₁
    simp only [raise_mCurrentState] at hs₁
    cases hs : s.connection.mCurrentState <;> simp_all [toggleTo, visited]
    split at hs₁ <;> cases hs₁
  · intro hs
    refine restarts_of_agentAlive hc ?_
    simp only [List.mem_cons, List.not_mem_nil, or_false] at hs
    rcases hs with hs | hs | hs <;> rw [hs] <;> rfl

/-- A connection that fails before it opens restarts from `CAgentAlive`; its
`On_fail` is cut short, `m_client.close` refuses a connection that is not open. -/
theorem restart_after_fail :
    ∃ s, machine.Reachable s ∧ s.connection.mCurrentState = .agentAlive ∧
      RestartsFromAgentAlive s := by
  obtain ⟨s, hr, hp⟩ := machine_run
    [.connectWebsocket, .onFail (some (str "invalid state")), .brokenConnection]
    (fun s => s.client.isNone && s.connection.mCurrentState = .agentAlive) (by decide)
  simp only [Bool.and_eq_true, Option.isNone_iff_eq_none, decide_eq_true_eq] at hp
  exact ⟨s, hr, hp.2, (restart_iff s hr hp.1).mpr (by simp [hp.2])⟩

/-- A connection that closes before the plugin registered does not: the
reconnect registers the machine at once. -/
theorem restart_from_websocketConnected :
    ¬ ∀ s, machine.Reachable s → s.client = none → RestartsFromAgentAlive s := by
  intro h
  obtain ⟨s, hr, hp⟩ := machine_run
    [.connectWebsocket, .onOpen, .onClose (some (str "invalid state")), .brokenConnection]
    (fun s => s.client.isNone && s.connection.mCurrentState = .websocketConnected) (by decide)
  simp only [Bool.and_eq_true, Option.isNone_iff_eq_none, decide_eq_true_eq] at hp
  obtain ⟨s₁, -, -, h₁, hs₁, -⟩ := h s hr hp.1
  obtain ⟨-, rfl⟩ := connectWebsocket_some h₁
  simp only [raise_mCurrentState, hp.2] at hs₁
  cases hs₁

/-! ## A successful SendNotifyPluginUpdate -/

/-- The state after a successful SendNotifyPluginUpdate from
`CWebsocketConnected` is `CPluginRegistered` exactly when the stored reason is
not SERVER_OFFLINE. -/
theorem registers_iff (s s' : Machine) (h : machine.Reachable s)
    (hs : s.connection.mCurrentState = .websocketConnected)
    (hstep : step s (.sendNotifyPluginUpdate true) = some s') :
    s'.connection.mCurrentState = .pluginRegistered ↔
      s.connection.mReason .websocketConnected ≠ .serverOffline := by
  have hst := (wf_reachable h).stored .websocketConnected
  obtain ⟨c, -, -, rfl⟩ := onClient_some hstep
  have hcheck : passesCheck s.connection = true := by simp [passesCheck, hs]
  simp only [sendNotifyPluginUpdate, hcheck, if_true, toggle_mCurrentState, hs]
  simp only [storedReasons, List.mem_cons, List.not_mem_nil, or_false] at hst
  rcases hst with hr | hr | hr <;> simp [hr, toggleTo]

theorem registers_first_time :
    ∃ s s', machine.Reachable s ∧ step s (.sendNotifyPluginUpdate true) = some s' ∧
      s'.connection.mCurrentState = .pluginRegistered := by
  obtain ⟨s, hr, hp⟩ := machine_run [.connectWebsocket, .onOpen]
    (fun s => s.connection.mCurrentState = .websocketConnected &&
      s.connection.mReason .websocketConnected = .none &&
      (step s (.sendNotifyPluginUpdate true)).isSome) (by decide)
  simp only [Bool.and_eq_true, decide_eq_true_eq, Option.isSome_iff_exists] at hp
  obtain ⟨⟨hs, hn⟩, s', hstep⟩ := hp
  exact ⟨s, s', hr, hstep, (registers_iff s s' hr hs hstep).mpr (by simp [hn])⟩

/-- After an offline and an online event the stored SERVER_OFFLINE sends the
registered machine to `CServerOffline`. -/
theorem registers_into_serverOffline :
    ¬ ∀ s s', machine.Reachable s → s.connection.mCurrentState = .websocketConnected →
      step s (.sendNotifyPluginUpdate true) = some s' →
      s'.connection.mCurrentState = .pluginRegistered := by
  intro h
  obtain ⟨s, hr, hp⟩ := machine_run
    [.connectWebsocket, .onOpen, .onMessage (.notifyAgentEvent .offline),
      .onMessage (.notifyAgentEvent .online)]
    (fun s => s.connection.mCurrentState = .websocketConnected &&
      (step s (.sendNotifyPluginUpdate true)).any
        (fun s' => s'.connection.mCurrentState = .serverOffline)) (by decide)
  simp only [Bool.and_eq_true, decide_eq_true_eq, Option.any_eq_true] at hp
  obtain ⟨hs, s', hstep, hs'⟩ := hp
  rw [h s s' hr hs hstep] at hs'
  cases hs'

end TmatePlugin.L3.Registration
