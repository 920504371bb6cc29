import TmatePlugin.L4Threads.DataThread

/-!
# Requests to send the states

The iterations of `NotifyDataThread` (`DataThread.step`) with the registration
of the plugin, which another thread changes, and the end of the client. An
iteration of a plugin that is not registered only counts, and ends the client
on a signal.

`SendNotifyPluginStates` sends what the check of the same iteration has found;
an iteration without a check, or whose check has found nothing, sends nothing
and still clears `needSendStates` or ends the client.

What the current iteration did is kept as history: `foundChange`, a check saw a
file newer than its recorded time; `requested`, the states had to be sent when
the flags were tested; `notified`, the notifyPluginState handed to
`SendPluginNotify`; `notBuilt`, `SetNotifyStates` returned NULL.

* `requests_honoured_iff`: an iteration that had to send the states has sent
  some exactly when its check found a change and the request was built.
* `request_dropped`: the states asked for after a command are not sent in an
  iteration without a check.
-/
namespace TmatePlugin.L4.StatesRequest

open Transition CString
open TmatePlugin.L1.Json
open TmatePlugin.L2.StateFiles
open TmatePlugin.L4

/-- mirrors MainSrc/WebSocketClient.cpp:17-19,510-566 -/
structure State where
  thread : DataThread.State
  isUpdated : Bool
  endWebSocket : Bool
  foundChange : Bool
  requested : Bool
  notified : Nat
  notBuilt : Bool

/-- `send built ok`: `SetNotifyStates` returned a text, and it was sent. -/
inductive Label where
  | thread (l : DataThread.Label)
  | send (built ok : Bool)
  | setUpdated (isUpdated : Bool)
  | unregisteredIteration
  deriving DecidableEq, Repr

/-- The next block of `IsStateFilesChanged` will find its file changed. -/
def seesChange (t : DataThread.State) : Bool :=
  match t.pc with
  | .checking (f :: _) _ => t.times f < (t.file f).mtime
  | _ => false

/-- The states are to be sent: after a command or a change, and before the plugin
stops, whether they have been sent before or not. -/
def needsStates (t : DataThread.State) : Bool := t.needSendStates || t.gotSigInt

/-- A step of the data thread or of another one; `beginIteration` is past the
test of `IsUpdated`. -/
def threadStep (s : State) (l : DataThread.Label) (t : DataThread.State) : Option State :=
  match l with
  | .beginIteration =>
    if s.isUpdated then
      some { s with thread := t, foundChange := false, requested := false, notified := 0,
                    notBuilt := false }
    else none
  | .check => some { s with thread := t, foundChange := s.foundChange || seesChange s.thread }
  | .decide => some { s with thread := t, requested := needsStates s.thread }
  | .send _ => none
  | .endIteration => some { s with thread := t, endWebSocket := s.endWebSocket || s.thread.gotSigInt }
  | .tick _ | .rewrite _ _ | .setNeedCheckStates | .setNeedSendStates | .sigInt | .read =>
    some { s with thread := t }

section
variable (parse : Bytes → Option CJson)

def step (s : State) : Label → Option State
  | .thread l => (DataThread.step parse s.thread l).bind (threadStep s l)
  | .send built ok =>
    (DataThread.step parse s.thread (.send (built && ok))).map fun t =>
      { s with thread := t, notified := s.notified + built.toNat, notBuilt := !built }
  | .setUpdated isUpdated => some { s with isUpdated := isUpdated }
  | .unregisteredIteration =>
    if s.thread.pc = .idle ∧ s.isUpdated = false then
      some { s with thread := { s.thread with stateCount := DataThread.nextCount s.thread.stateCount },
                    endWebSocket := s.endWebSocket || s.thread.gotSigInt }
    else none

/-- A new plugin, registered or not. -/
structure Initial (s : State) : Prop where
  thread : DataThread.Initial s.thread
  endWebSocket : s.endWebSocket = false

def statesRequest : System State Label := System.ofFn Initial (step parse)

end

/-! ## The mask of an iteration -/

/-- A block adds its file to the mask when it is newer. -/
theorem checkOutput_eq_none_iff {mtime : Int} {f : TmateState} {times times' : Times}
    {result result' : BitVec 5} (h : checkOutput (some mtime) f times result = some (times', result')) :
    result' = StateUpdated.none ↔ result = StateUpdated.none ∧ ¬ times f < mtime := by
  obtain ⟨_, hmtime, -, hown, hother⟩ := checkOutput_some h
  cases hmtime
  rw [eq_none_iff, eq_none_iff]
  constructor
  · intro hnone
    have hf := hnone f
    rw [hown, Bool.or_eq_false_iff, decide_eq_false_iff_not] at hf
    refine ⟨fun g => ?_, hf.2⟩
    by_cases hgf : g = f
    · rw [hgf]; exact hf.1
    · rw [← (hother g hgf).2]; exact hnone g
  · intro hnone g
    by_cases hgf : g = f
    · rw [hgf, hown, hnone.1 f, decide_eq_false hnone.2]; rfl
    · rw [(hother g hgf).2]; exact hnone.1 g

/-! ## The history of an iteration -/

/-- The mask is not empty when a change was found; what was found is on its way
until it is sent; the iteration has sent what it had to, unless it found
nothing or could not build the request. -/
def RecordedAt (s : State) : DataThread.DataPc → Prop
  | .idle | .undefined => True
  | .checking _ ch | .deciding ch =>
    (s.foundChange = true ↔ ch ≠ StateUpdated.none) ∧ s.notified = 0 ∧ s.notBuilt = false
  | .reading _ _ _ => s.foundChange = true ∧ s.notified = 0 ∧ s.notBuilt = false
  | .sentStates _ =>
    s.requested = true → (0 < s.notified ↔ s.foundChange = true ∧ s.notBuilt = false)

def Recorded (s : State) : Prop := RecordedAt s s.thread.pc

section
variable {parse : Bytes → Option CJson}

theorem recorded_begin {s : State} {t : DataThread.State}
    (h : DataThread.step parse s.thread .beginIteration = some t) :
    Recorded { s with thread := t, foundChange := false, requested := false, notified := 0,
                      notBuilt := false } := by
  have hnone : (false = true ↔ StateUpdated.none ≠ StateUpdated.none) := by simp
  simp only [DataThread.step] at h
  split at h
  · cases h
    unfold Recorded
    simp only
    split
    · exact ⟨hnone, rfl, rfl⟩
    · exact ⟨hnone, rfl, rfl⟩
  · cases h

theorem recorded_check {s : State} {t : DataThread.State} (hR : Recorded s)
    (h : DataThread.step parse s.thread .check = some t) :
    Recorded { s with thread := t, foundChange := s.foundChange || seesChange s.thread } := by
  unfold Recorded at hR ⊢
  simp only [DataThread.step] at h
  split at h
  · rename_i ch hpc
    cases h
    rw [hpc] at hR
    simpa [RecordedAt, DataThread.checked, seesChange, hpc] using hR
  · rename_i f rest ch hpc
    obtain ⟨⟨times', ch'⟩, hblock, rfl⟩ := Option.map_eq_some_iff.mp h
    rw [hpc] at hR
    obtain ⟨hfound, hrest⟩ := hR
    refine ⟨?_, hrest⟩
    have hsees : seesChange s.thread = decide (s.thread.times f < (s.thread.file f).mtime) := by
      simp only [seesChange, hpc]
    rw [ne_eq, checkOutput_eq_none_iff hblock, hsees, Bool.or_eq_true, hfound, decide_eq_true_eq,
      Classical.not_and_iff_not_or_not, not_not]
  · cases h

/-- A requested iteration goes to the send exactly when it has found a change. -/
theorem recorded_decide {s : State} {t : DataThread.State} (hR : Recorded s)
    (h : DataThread.step parse s.thread .decide = some t) :
    Recorded { s with thread := t, requested := needsStates s.thread } := by
  unfold Recorded at hR ⊢
  simp only [DataThread.step] at h
  split at h
  · rename_i ch hpc
    cases h
    rw [hpc] at hR
    obtain ⟨hfound, hnotified, hbuilt⟩ := hR
    let s' : State :=
      { s with thread := DataThread.decided s.thread ch, requested := needsStates s.thread }
    have hsend : ∀ reset, RecordedAt s' (DataThread.sendNotifyPluginStates ch reset) := by
      intro reset
      unfold DataThread.sendNotifyPluginStates
      split
      · rename_i hnone
        intro _
        simp [s', hfound, hnone, hnotified]
      · rename_i hne
        exact ⟨hfound.mpr hne, hnotified, hbuilt⟩
    show RecordedAt s' (DataThread.decided s.thread ch).pc
    simp only [DataThread.decided]
    split
    · exact hsend false
    · rename_i hsig
      split
      · exact hsend true
      · rename_i hneed
        -- nothing was asked for
        intro hrequested
        simp [s', needsStates, hsig, hneed] at hrequested
  · cases h

theorem recorded_read {s : State} {t : DataThread.State} (hR : Recorded s)
    (h : DataThread.step parse s.thread .read = some t) : Recorded { s with thread := t } := by
  unfold Recorded at hR ⊢
  simp only [DataThread.step] at h
  split at h
  · rename_i hpc
    rw [hpc] at hR
    split at h
    · cases h
      exact hR
    · cases h
      exact trivial
  · cases h

theorem recorded_send {s : State} {t : DataThread.State} {built ok : Bool} (hR : Recorded s)
    (h : DataThread.step parse s.thread (.send ok) = some t) :
    Recorded { s with thread := t, notified := s.notified + built.toNat, notBuilt := !built } := by
  unfold Recorded at hR ⊢
  simp only [DataThread.step] at h
  split at h
  · rename_i hpc
    cases h
    rw [hpc] at hR
    obtain ⟨hfound, hnotified, -⟩ := hR
    intro _
    cases built <;> simp [hfound, hnotified]
  · cases h

/-- The steps that are neither part of an iteration nor of the history. -/
theorem recorded_other {s : State} {t : DataThread.State} (hR : Recorded s)
    (hpc : t.pc = s.thread.pc) : Recorded { s with thread := t } := by
  unfold Recorded at hR ⊢
  rw [← hpc] at hR
  exact hR

theorem recorded_thread {s s' : State} {l : DataThread.Label} (hR : Recorded s)
    (h : step parse s (.thread l) = some s') : Recorded s' := by
  obtain ⟨t, ht, hs'⟩ := Option.bind_eq_some_iff.mp h
  cases l with
  | beginIteration =>
    simp only [threadStep] at hs'
    split at hs'
    · cases hs'; exact recorded_begin ht
    · cases hs'
  | check => cases hs'; exact recorded_check hR ht
  | decide => cases hs'; exact recorded_decide hR ht
  | read => cases hs'; exact recorded_read hR ht
  | send ok => cases hs'
  | endIteration =>
    simp only [DataThread.step] at ht
    split at ht
    · cases ht; cases hs'; exact trivial
    · cases ht
  | tick seconds => cases ht; cases hs'; exact recorded_other hR rfl
  | rewrite f content => cases ht; cases hs'; exact recorded_other hR rfl
  | setNeedCheckStates => cases ht; cases hs'; exact recorded_other hR rfl
  | setNeedSendStates => cases ht; cases hs'; exact recorded_other hR rfl
  | sigInt => cases ht; cases hs'; exact recorded_other hR rfl

theorem recorded_step {s s' : State} {l : Label} (hR : Recorded s) (h : step parse s l = some s') :
    Recorded s' := by
  cases l with
  | thread l => exact recorded_thread hR h
  | send built ok =>
    obtain ⟨t, ht, rfl⟩ := Option.map_eq_some_iff.mp h
    exact recorded_send hR ht
  | setUpdated isUpdated => cases h; exact hR
  | unregisteredIteration =>
    simp only [step] at h
    split at h
    · rename_i hidle
      cases h
      unfold Recorded
      simp only [hidle.1]
      exact trivial
    · cases h

end

theorem recorded_inductive (parse : Bytes → Option CJson) : (statesRequest parse).Inductive Recorded where
  init s hs := by
    unfold Recorded
    rw [hs.thread.pc]
    exact trivial
  step _ _ _ hR h := recorded_step hR h

/-- In every run, when an iteration of a registered plugin that had to send the
states is about to clear `needSendStates` or end the client, it has handed
`SendPluginNotify` a notifyPluginState exactly when its check found a changed
file and `SetNotifyStates` built the request. -/
theorem requests_honoured_iff (parse : Bytes → Option CJson) (s₀ s : State) (ls : List Label)
    (hinit : Initial s₀) (hrun : (statesRequest parse).Run s₀ ls s) (reset : Bool)
    (hpc : s.thread.pc = .sentStates reset) (hrequested : s.requested = true) :
    0 < s.notified ↔ s.foundChange = true ∧ s.notBuilt = false := by
  have hR : Recorded s := (recorded_inductive parse).run hrun ((recorded_inductive parse).init s₀ hinit)
  unfold Recorded at hR
  rw [hpc] at hR
  exact hR hrequested

/-- The example of the data thread, registered. -/
def exampleState : State where
  thread := DataThread.exampleState
  isUpdated := true
  endWebSocket := false
  foundChange := false
  requested := false
  notified := 0
  notBuilt := false

theorem exampleState_initial : Initial exampleState := ⟨DataThread.exampleState_initial, rfl⟩

/-- An iteration that checks the files, and finds all five changed. -/
def checkedIteration : List Label :=
  [.thread .setNeedCheckStates, .thread .beginIteration, .thread .check, .thread .check,
    .thread .check, .thread .check, .thread .check, .thread .check, .thread .decide, .thread .read,
    .thread .read, .thread .read, .thread .read, .thread .read, .send true true]

theorem requests_honoured_checked :
    ∃ s, (statesRequest fun _ => none).Run exampleState checkedIteration s ∧ s.requested = true ∧
      0 < s.notified := by
  have hp : ((exec (step fun _ => none) exampleState checkedIteration).any fun s =>
      s.thread.pc = .sentStates true && s.requested && s.foundChange && !s.notBuilt) = true := by
    decide
  simp only [Option.any_eq_true, Bool.and_eq_true, decide_eq_true_eq, Bool.not_eq_true'] at hp
  obtain ⟨s, hs, ⟨⟨hpc, hrequested⟩, hfound⟩, hbuilt⟩ := hp
  have hrun : (statesRequest fun _ => none).Run exampleState checkedIteration s := run_of_exec hs
  exact ⟨s, hrun, hrequested, (requests_honoured_iff _ exampleState s _ exampleState_initial hrun true
    hpc hrequested).mpr ⟨hfound, hbuilt⟩⟩

/-- The command thread asks for the states, and the first iteration, which does
not check the files, forgets it. -/
theorem request_dropped :
    ¬ ∀ (parse : Bytes → Option CJson) s₀ s ls, Initial s₀ → (statesRequest parse).Run s₀ ls s →
      ∀ reset, s.thread.pc = .sentStates reset → s.thread.gotSigInt = false → s.requested = true →
      0 < s.notified := by
  intro h
  have hp : ((exec (step fun _ => none) exampleState [.thread .setNeedSendStates,
      .thread .beginIteration, .thread .decide]).any fun s =>
        s.thread.pc = .sentStates true && !s.thread.gotSigInt && s.requested && s.notified = 0) =
      true := by decide
  simp only [Option.any_eq_true, Bool.and_eq_true, decide_eq_true_eq, Bool.not_eq_true'] at hp
  obtain ⟨s, hs, ⟨⟨hpc, hsig⟩, hrequested⟩, hnotified⟩ := hp
  have hpos := h _ exampleState s _ exampleState_initial (run_of_exec hs) true hpc hsig hrequested
  omega

end TmatePlugin.L4.StatesRequest
