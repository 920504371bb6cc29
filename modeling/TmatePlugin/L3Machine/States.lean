import Mathlib.Tactic.Common

/-!
# The connection states and their toggles

`CConnection` (MainSrc/Connection.cpp) holds a pointer to one of ten state
singletons (MainSrc/ConcreteStates.cpp). Each singleton stores the reason
last written into it (`setNewStateReason`); `toggle()` of the current state
reads its own stored reason and may switch to another state. The stored
reasons survive leaving and re-entering a state, except that
`CPluginRegistered::toggle` and `CResendPlugin::toggle` reset theirs.

* `toggleTo` is the successor state of a toggle as a function of the current
  state, its stored reason and `CServerOffline`'s `mLastState`
  (`toggle_mCurrentState`).
* `Registers`: the toggle takes the default branch of
  `CWebsocketConnected::toggle`, which enters `CPluginRegistered`.
* `Reconnects`: the toggle enters `CWebsocketConnected`.
* `Wf`: the reasons and states that the program's handlers ever produce;
  `wf_raise` and `wf_toggle` are what every handler needs to keep it.

The log calls of `enter`, `exit` and `toggle` are not modelled.
-/
namespace TmatePlugin.L3.States

/-- mirrors MainSrc/ConnectionState.h:10-23 -/
inductive Reason where
  | pluginRegistered
  | deviceOffline
  | serverOffline
  | serverOnline
  | websocketDisconnected
  | agentDisabled
  | agentAlive
  | websocketConnected
  | resendPlugin
  | error
  | none
  deriving DecidableEq, Repr

/-- The state singletons, one for each class.
mirrors MainSrc/ConcreteStates.h:8-153 -/
inductive StateId where
  | init
  | agentAlive
  | agentDisabled
  | websocketConnected
  | deviceOffline
  | websocketDisconnected
  | pluginRegistered
  | resendPlugin
  | serverOffline
  | exit
  deriving DecidableEq, Repr

/-- The connection with the data of the singletons: `mReason s` is the reason
stored in singleton `s`, `mLastState` the pointer stored in `CServerOffline`.
mirrors MainSrc/Connection.h:6-16 and MainSrc/ConcreteStates.h:124-138 -/
structure CConnection where
  mCurrentState : StateId
  mReason : StateId → Reason
  mLastState : Option StateId

namespace CConnection

/-- mirrors MainSrc/Connection.cpp:6-9 and the constructors of MainSrc/ConcreteStates.h -/
def new : CConnection := ⟨.init, fun _ => .none, none⟩

/-- mirrors MainSrc/Connection.cpp:11-17 -/
def setState (c : CConnection) (newState : StateId) : CConnection :=
  { c with mCurrentState := newState }

/-- Stores a reason in singleton `s`. -/
def storeReason (c : CConnection) (s : StateId) (reason : Reason) : CConnection :=
  { c with mReason := fun s' => if s' = s then reason else c.mReason s' }

/-- The handlers call it on the current state.
mirrors MainSrc/ConnectionState.h:25 -/
def setNewStateReason (c : CConnection) (reason : Reason) : CConnection :=
  c.storeReason c.mCurrentState reason

/-- mirrors MainSrc/ConcreteStates.h:131 -/
def setLastState (c : CConnection) (lastState : StateId) : CConnection :=
  { c with mLastState := some lastState }

@[simp] theorem setState_mCurrentState (c : CConnection) (s : StateId) :
    (c.setState s).mCurrentState = s := rfl
@[simp] theorem setState_mReason (c : CConnection) (s : StateId) :
    (c.setState s).mReason = c.mReason := rfl
@[simp] theorem setState_mLastState (c : CConnection) (s : StateId) :
    (c.setState s).mLastState = c.mLastState := rfl
@[simp] theorem storeReason_mCurrentState (c : CConnection) (s : StateId) (r : Reason) :
    (c.storeReason s r).mCurrentState = c.mCurrentState := rfl
@[simp] theorem storeReason_mReason (c : CConnection) (s s' : StateId) (r : Reason) :
    (c.storeReason s r).mReason s' = if s' = s then r else c.mReason s' := rfl
@[simp] theorem storeReason_mLastState (c : CConnection) (s : StateId) (r : Reason) :
    (c.storeReason s r).mLastState = c.mLastState := rfl
@[simp] theorem setLastState_mCurrentState (c : CConnection) (s : StateId) :
    (c.setLastState s).mCurrentState = c.mCurrentState := rfl
@[simp] theorem setLastState_mReason (c : CConnection) (s : StateId) :
    (c.setLastState s).mReason = c.mReason := rfl
@[simp] theorem setLastState_mLastState (c : CConnection) (s : StateId) :
    (c.setLastState s).mLastState = some s := rfl

end CConnection

/-! ## One toggle for each class -/

/-- mirrors MainSrc/ConcreteStates.cpp:12-25 -/
def CInit.toggle (c : CConnection) : CConnection :=
  match c.mReason .init with
  | .agentAlive => c.setState .agentAlive
  | .agentDisabled => c.setState .agentDisabled
  | _ => c

/-- mirrors MainSrc/ConcreteStates.cpp:47-60 -/
def CAgentAlive.toggle (c : CConnection) : CConnection :=
  match c.mReason .agentAlive with
  | .websocketConnected => c.setState .websocketConnected
  | .websocketDisconnected => c.setState .websocketDisconnected
  | _ => c

/-- mirrors MainSrc/ConcreteStates.cpp:82-94 -/
def CAgentDisabled.toggle (c : CConnection) : CConnection :=
  match c.mReason .agentDisabled with
  | .error => c.setState .exit
  | .agentAlive => c.setState .agentAlive
  | _ => c

/-- mirrors MainSrc/ConcreteStates.cpp:116-132 -/
def CWebsocketConnected.toggle (c : CConnection) : CConnection :=
  match c.mReason .websocketConnected with
  | .serverOffline => c.setState .serverOffline
  | .websocketDisconnected => c.setState .websocketDisconnected
  | _ => c.setState .pluginRegistered

/-- mirrors MainSrc/ConcreteStates.cpp:154-166 -/
def CDeviceOffline.toggle (c : CConnection) : CConnection :=
  match c.mReason .deviceOffline with
  | .websocketDisconnected => c.setState .websocketDisconnected
  | _ => c.setState .websocketConnected

/-- mirrors MainSrc/ConcreteStates.cpp:188-200 -/
def CWebsocketDisconnected.toggle (c : CConnection) : CConnection :=
  match c.mReason .websocketDisconnected with
  | .agentDisabled => c.setState .agentDisabled
  | _ => c.setState .agentAlive

/-- `RESEND_PLUGIN` falls through to `ERROR`, which only breaks; every branch
ends by resetting the stored reason.
mirrors MainSrc/ConcreteStates.cpp:222-250 -/
def CPluginRegistered.toggle (c : CConnection) : CConnection :=
  (match c.mReason .pluginRegistered with
    | .deviceOffline => c.setState .deviceOffline
    | .serverOffline => c.setState .serverOffline
    | .websocketDisconnected => c.setState .websocketDisconnected
    | .agentDisabled => c.setState .agentDisabled
    | .resendPlugin => c.setState .websocketConnected
    | _ => c).storeReason .pluginRegistered .pluginRegistered

/-- mirrors MainSrc/ConcreteStates.cpp:272-285 -/
def CResendPlugin.toggle (c : CConnection) : CConnection :=
  (match c.mReason .resendPlugin with
    | .pluginRegistered => c.setState .pluginRegistered
    | _ => c).storeReason .resendPlugin .resendPlugin

/-- mirrors MainSrc/ConcreteStates.cpp:307-318 -/
def CServerOffline.toggle (c : CConnection) : CConnection :=
  if c.mLastState = some .pluginRegistered then c.setState .websocketConnected
  else if c.mLastState = some .websocketConnected then c.setState .websocketConnected
  else c

/-- mirrors MainSrc/ConcreteStates.cpp:340-344 -/
def CExit.toggle (c : CConnection) : CConnection := c

/-- The virtual call `mCurrentState->toggle(this)`.
mirrors MainSrc/Connection.cpp:19-22 -/
def CConnection.toggle (c : CConnection) : CConnection :=
  match c.mCurrentState with
  | .init => CInit.toggle c
  | .agentAlive => CAgentAlive.toggle c
  | .agentDisabled => CAgentDisabled.toggle c
  | .websocketConnected => CWebsocketConnected.toggle c
  | .deviceOffline => CDeviceOffline.toggle c
  | .websocketDisconnected => CWebsocketDisconnected.toggle c
  | .pluginRegistered => CPluginRegistered.toggle c
  | .resendPlugin => CResendPlugin.toggle c
  | .serverOffline => CServerOffline.toggle c
  | .exit => CExit.toggle c

/-- `setNewStateReason(reason); connection->toggle();`, the pair every
handler that knows the current state performs. -/
def CConnection.raise (c : CConnection) (reason : Reason) : CConnection :=
  (c.setNewStateReason reason).toggle

/-! ## What a toggle does -/

/-- The state after a toggle, from the current state, the reason stored in it
and `mLastState`. -/
def toggleTo (last : Option StateId) : StateId → Reason → StateId
  | .init, .agentAlive => .agentAlive
  | .init, .agentDisabled => .agentDisabled
  | .agentAlive, .websocketConnected => .websocketConnected
  | .agentAlive, .websocketDisconnected => .websocketDisconnected
  | .agentDisabled, .error => .exit
  | .agentDisabled, .agentAlive => .agentAlive
  | .websocketConnected, .serverOffline => .serverOffline
  | .websocketConnected, .websocketDisconnected => .websocketDisconnected
  | .websocketConnected, _ => .pluginRegistered
  | .deviceOffline, .websocketDisconnected => .websocketDisconnected
  | .deviceOffline, _ => .websocketConnected
  | .websocketDisconnected, .agentDisabled => .agentDisabled
  | .websocketDisconnected, _ => .agentAlive
  | .pluginRegistered, .deviceOffline => .deviceOffline
  | .pluginRegistered, .serverOffline => .serverOffline
  | .pluginRegistered, .websocketDisconnected => .websocketDisconnected
  | .pluginRegistered, .agentDisabled => .agentDisabled
  | .pluginRegistered, .resendPlugin => .websocketConnected
  | .resendPlugin, .pluginRegistered => .pluginRegistered
  | .serverOffline, _ =>
    if last = some .pluginRegistered ∨ last = some .websocketConnected then .websocketConnected
    else .serverOffline
  | s, _ => s

/-- The reason a toggle of `s` leaves in `s`: two classes reset it. -/
def reasonAfter : StateId → Reason → Reason
  | .pluginRegistered, _ => .pluginRegistered
  | .resendPlugin, _ => .resendPlugin
  | _, r => r

section
variable (c : CConnection)

theorem toggle_mCurrentState :
    c.toggle.mCurrentState = toggleTo c.mLastState c.mCurrentState (c.mReason c.mCurrentState) := by
  unfold CConnection.toggle
  cases hs : c.mCurrentState with
  | serverOffline =>
    unfold CServerOffline.toggle toggleTo
    by_cases h₁ : c.mLastState = some .pluginRegistered
    · simp [h₁]
    · by_cases h₂ : c.mLastState = some .websocketConnected <;> simp [h₁, h₂, hs]
  | exit => simp [CExit.toggle, toggleTo, hs]
  | init => unfold CInit.toggle; cases c.mReason .init <;> simp [toggleTo, hs]
  | agentAlive => unfold CAgentAlive.toggle; cases c.mReason .agentAlive <;> simp [toggleTo, hs]
  | agentDisabled =>
    unfold CAgentDisabled.toggle; cases c.mReason .agentDisabled <;> simp [toggleTo, hs]
  | websocketConnected =>
    unfold CWebsocketConnected.toggle; cases c.mReason .websocketConnected <;> simp [toggleTo]
  | deviceOffline =>
    unfold CDeviceOffline.toggle; cases c.mReason .deviceOffline <;> simp [toggleTo]
  | websocketDisconnected =>
    unfold CWebsocketDisconnected.toggle
    cases c.mReason .websocketDisconnected <;> simp [toggleTo]
  | pluginRegistered =>
    unfold CPluginRegistered.toggle; cases c.mReason .pluginRegistered <;> simp [toggleTo, hs]
  | resendPlugin =>
    unfold CResendPlugin.toggle; cases c.mReason .resendPlugin <;> simp [toggleTo, hs]

theorem toggle_mReason_keep (h₁ : c.mCurrentState ≠ .pluginRegistered)
    (h₂ : c.mCurrentState ≠ .resendPlugin) : c.toggle.mReason = c.mReason := by
  unfold CConnection.toggle
  cases hs : c.mCurrentState
  case pluginRegistered => exact absurd hs h₁
  case resendPlugin => exact absurd hs h₂
  all_goals
    simp only [CInit.toggle, CAgentAlive.toggle, CAgentDisabled.toggle, CWebsocketConnected.toggle,
      CDeviceOffline.toggle, CWebsocketDisconnected.toggle, CServerOffline.toggle, CExit.toggle]
    repeat' split
    all_goals rfl

theorem toggle_mReason (s : StateId) :
    c.toggle.mReason s =
      if s = c.mCurrentState then reasonAfter s (c.mReason s) else c.mReason s := by
  by_cases h₁ : c.mCurrentState = .pluginRegistered
  · simp only [CConnection.toggle, h₁, CPluginRegistered.toggle, CConnection.storeReason_mReason]
    split
    · rename_i h; rw [h]; rfl
    · split <;> rfl
  by_cases h₂ : c.mCurrentState = .resendPlugin
  · simp only [CConnection.toggle, h₂, CResendPlugin.toggle, CConnection.storeReason_mReason]
    split
    · rename_i h; rw [h]; rfl
    · split <;> rfl
  rw [toggle_mReason_keep c h₁ h₂]
  split
  · rename_i h; subst h
    cases hs : c.mCurrentState <;> simp_all [reasonAfter]
  · rfl

@[simp] theorem toggle_mLastState : c.toggle.mLastState = c.mLastState := by
  unfold CConnection.toggle
  cases c.mCurrentState
  all_goals
    simp only [CInit.toggle, CAgentAlive.toggle, CAgentDisabled.toggle, CWebsocketConnected.toggle,
      CDeviceOffline.toggle, CWebsocketDisconnected.toggle, CPluginRegistered.toggle,
      CResendPlugin.toggle, CServerOffline.toggle, CExit.toggle]
    repeat' split
    all_goals rfl

theorem raise_mCurrentState (r : Reason) :
    (c.raise r).mCurrentState = toggleTo c.mLastState c.mCurrentState r := by
  simp [CConnection.raise, CConnection.setNewStateReason, toggle_mCurrentState]

theorem raise_mReason (r : Reason) (s : StateId) :
    (c.raise r).mReason s = if s = c.mCurrentState then reasonAfter s r else c.mReason s := by
  simp only [CConnection.raise, CConnection.setNewStateReason, toggle_mReason,
    CConnection.storeReason_mCurrentState, CConnection.storeReason_mReason]
  split <;> rfl

@[simp] theorem raise_mLastState (r : Reason) : (c.raise r).mLastState = c.mLastState := by
  simp [CConnection.raise, CConnection.setNewStateReason]

end

/-! ## The branches the properties speak about -/

/-- The toggle takes the default branch of `CWebsocketConnected::toggle`. -/
def Registers (c : CConnection) : Prop :=
  c.mCurrentState = .websocketConnected ∧ c.mReason .websocketConnected ≠ .serverOffline ∧
    c.mReason .websocketConnected ≠ .websocketDisconnected

/-- The toggle enters `CWebsocketConnected`. -/
def Reconnects (c : CConnection) : Prop :=
  (c.mCurrentState = .deviceOffline ∧ c.mReason .deviceOffline ≠ .websocketDisconnected) ∨
  (c.mCurrentState = .serverOffline ∧
    (c.mLastState = some .pluginRegistered ∨ c.mLastState = some .websocketConnected)) ∨
  (c.mCurrentState = .agentAlive ∧ c.mReason .agentAlive = .websocketConnected) ∨
  (c.mCurrentState = .pluginRegistered ∧ c.mReason .pluginRegistered = .resendPlugin)

instance (c : CConnection) : Decidable (Registers c) := by unfold Registers; exact inferInstance

instance (c : CConnection) : Decidable (Reconnects c) := by unfold Reconnects; exact inferInstance

theorem toggle_of_registers {c : CConnection} (h : Registers c) :
    c.toggle.mCurrentState = .pluginRegistered := by
  obtain ⟨hs, h₁, h₂⟩ := h
  rw [toggle_mCurrentState, hs]
  cases hr : c.mReason .websocketConnected <;> simp_all [toggleTo]

theorem toggle_reconnects_iff (c : CConnection) :
    c.toggle.mCurrentState = .websocketConnected ↔ Reconnects c := by
  rw [toggle_mCurrentState]
  unfold Reconnects
  cases hs : c.mCurrentState
  case serverOffline =>
    simp only [toggleTo, reduceCtorEq, false_and, true_and, false_or, or_false]
    split <;> simp_all
  all_goals cases c.mReason _ <;> simp [toggleTo]

/-! ## The reasons and states the program produces -/

/-- The states the handlers ever enter. -/
def visited : List StateId :=
  [.init, .agentAlive, .websocketConnected, .deviceOffline, .websocketDisconnected,
    .pluginRegistered, .serverOffline]

/-- The reasons the handlers ever leave in a singleton. -/
def storedReasons : StateId → List Reason
  | .agentAlive => [.none, .agentAlive, .websocketConnected, .websocketDisconnected]
  | .websocketConnected => [.none, .agentAlive, .serverOffline]
  | .pluginRegistered => [.none, .pluginRegistered]
  | .init | .deviceOffline | .websocketDisconnected | .serverOffline => [.none, .agentAlive]
  | .agentDisabled | .resendPlugin | .exit => [.none]

/-- The reasons the handlers ever raise in a state. -/
def raisedReasons : StateId → List Reason
  | .agentAlive => [.agentAlive, .websocketConnected, .websocketDisconnected]
  | .websocketConnected => [.agentAlive, .serverOffline]
  | .pluginRegistered => [.agentAlive, .deviceOffline, .serverOffline, .websocketDisconnected]
  | _ => [.agentAlive]

structure Wf (c : CConnection) : Prop where
  visited : c.mCurrentState ∈ visited
  stored : ∀ s, c.mReason s ∈ storedReasons s

theorem wf_new : Wf .new :=
  ⟨by simp [CConnection.new, visited], fun s => by cases s <;> simp [CConnection.new, storedReasons]⟩

theorem wf_setLastState {c : CConnection} (h : Wf c) (s : StateId) : Wf (c.setLastState s) :=
  ⟨h.visited, h.stored⟩

/-- From a visited state, a stored or raised reason leads to a visited state. -/
theorem toggleTo_visited (last : Option StateId) {s : StateId} {r : Reason} (hs : s ∈ visited)
    (hr : r ∈ storedReasons s ∨ r ∈ raisedReasons s) : toggleTo last s r ∈ visited := by
  cases s
  case serverOffline => simp only [toggleTo]; split <;> simp [visited]
  all_goals
    cases r <;>
      simp_all [visited, storedReasons, raisedReasons, toggleTo]

theorem reasonAfter_stored {s : StateId} {r : Reason} (hs : s ∈ visited)
    (hr : r ∈ storedReasons s ∨ r ∈ raisedReasons s) : reasonAfter s r ∈ storedReasons s := by
  cases s <;> simp_all [visited, storedReasons, raisedReasons, reasonAfter]

theorem wf_toggle {c : CConnection} (h : Wf c) : Wf c.toggle where
  visited := by
    rw [toggle_mCurrentState]; exact toggleTo_visited _ h.visited (.inl (h.stored _))
  stored s := by
    rw [toggle_mReason]; split
    · rename_i hs; subst hs; exact reasonAfter_stored h.visited (.inl (h.stored _))
    · exact h.stored s

theorem wf_raise {c : CConnection} (h : Wf c) {r : Reason} (hr : r ∈ raisedReasons c.mCurrentState) :
    Wf (c.raise r) where
  visited := by rw [raise_mCurrentState]; exact toggleTo_visited _ h.visited (.inr hr)
  stored s := by
    rw [raise_mReason]; split
    · rename_i hs; subst hs; exact reasonAfter_stored h.visited (.inr hr)
    · exact h.stored s

/-- Under `Wf`, a toggle ends in `CPluginRegistered` only by staying there or
by the default branch of `CWebsocketConnected::toggle`. -/
theorem toggle_registered_iff {c : CConnection} (h : Wf c) :
    c.toggle.mCurrentState = .pluginRegistered ↔
      c.mCurrentState = .pluginRegistered ∨ Registers c := by
  have hv := h.visited
  have hst := h.stored c.mCurrentState
  rw [toggle_mCurrentState]
  unfold Registers
  cases hs : c.mCurrentState
  case serverOffline => simp only [toggleTo]; split <;> simp
  all_goals
    rw [hs] at hv hst
    cases hr : c.mReason _ <;> simp_all [toggleTo, visited, storedReasons]

end TmatePlugin.L3.States
