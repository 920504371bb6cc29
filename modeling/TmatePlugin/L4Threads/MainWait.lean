import TmatePlugin.Lib.Transition
import TmatePlugin.Lib.CString

/-!
# main's wait for a client and the ways its worker stops

One `CWebSocketClient` from its construction to main's `delete`: main runs
`StartWebClient`, then the do-while wait, then the supervise loop, while
`ClientWorkThread` runs `connect` and `run`. They share `m_threadstart` and
`m_exception`, which every exit of the worker writes in its own order, one
field at a time.

`StartWebClient`'s result is ignored by main. `On_fail` and `On_close` write
the same two fields and are one step here (`handlerStop`, `handlerClear`); if
their `m_client.close` throws they write nothing and the exception leaves
`run()`.

* `wait_leaves_iff`: once the client has stopped, the next evaluation of the
  wait condition ends the wait exactly when the worker's catch block has
  stored "invalid state" (`wait_never_ends` for the other ways).
* `wait_hangs`: a failed `StartWebClient` leaves main in the wait.
-/
namespace TmatePlugin.L4.MainWait

open Transition CString

/-- How the try block of `ClientWorkThread` was left.
mirrors MainSrc/WebSocketClient.cpp:128-150 -/
inductive Stop where
  | returned
  | exception (what : Bytes)
  | errorCode
  | other
  deriving DecidableEq, Repr

/-- `ClientWorkThread`: not created, in the try block, in it with the handler
past `m_threadstart = false`, past the try block, past `SetWebClientWork` in
the first catch clause, at its end.
mirrors MainSrc/WebSocketClient.cpp:124-154,181-183,336-338 -/
inductive WorkerPc where
  | none
  | run
  | handler
  | left (stop : Stop)
  | storing (what : Bytes)
  | ended (stop : Stop)
  deriving DecidableEq, Repr

/-- The fallible calls of `StartWebClient` in their order.
mirrors MainSrc/WebSocketClient.cpp:638-678 -/
inductive StartCall where
  | attrInit
  | attrSetStackSize
  | createWork
  | createUpdate
  | createCommand
  | createData
  deriving DecidableEq, Repr

def StartCall.next : StartCall → Option StartCall
  | .attrInit => some .attrSetStackSize
  | .attrSetStackSize => some .createWork
  | .createWork => some .createUpdate
  | .createUpdate => some .createCommand
  | .createCommand => some .createData
  | .createData => Option.none

/-- mirrors MainSrc/plugin_main.cpp:129-203 -/
inductive MainPc where
  | created
  | starting (call : StartCall)
  | wait
  | supervise
  | reconnect
  | exit
  deriving DecidableEq, Repr

/-- mirrors MainSrc/WebSocketClient.h:93-100 and MainSrc/WebSocketClient.cpp:19 -/
structure State where
  threadstart : Bool
  exception : Bytes
  endWebSocket : Bool
  gotSigInt : Bool
  main : MainPc
  worker : WorkerPc
  deriving DecidableEq, Repr

/-- The constructor; a SIGINT may have come before.
mirrors MainSrc/WebSocketClient.cpp:569-595 -/
def State.new (gotSigInt : Bool) : State := ⟨false, [], false, gotSigInt, .created, .none⟩

def invalidState : Bytes := str "invalid state"

/-- The condition of main's do-while.
mirrors MainSrc/plugin_main.cpp:160 -/
def waitCondition (s : State) : Bool := !s.threadstart && s.exception ≠ invalidState

inductive Label where
  | startWebClient
  | startCall (ok : Bool)
  | evaluateWait
  | superviseRound
  | handlerStop
  | handlerClear
  | leaveTry (stop : Stop)
  | setWebClientWork
  | setException
  | sigInt
  | setEndWebSocket
  deriving DecidableEq, Repr

/-- The first statement of each catch clause, nothing without an exception.
mirrors MainSrc/WebSocketClient.cpp:138-150 -/
def setWebClientWork (s : State) : Stop → State
  | .returned => { s with worker := .ended .returned }
  | .exception what => { s with threadstart := false, worker := .storing what }
  | .errorCode => { s with threadstart := false, worker := .ended .errorCode }
  | .other => { s with threadstart := false, worker := .ended .other }

def step (s : State) : Label → Option State
  -- mirrors MainSrc/WebSocketClient.cpp:630-683
  | .startWebClient =>
    if s.main = .created then some { s with threadstart := true, main := .starting .attrInit }
    else none
  | .startCall ok =>
    match s.main with
    | .starting call =>
      if ok then
        some { s with main := (call.next.map .starting).getD .wait,
                      worker := if call = .createWork then .run else s.worker }
      else some { s with threadstart := false, main := .wait }
    | _ => none
  -- mirrors MainSrc/plugin_main.cpp:156-160
  | .evaluateWait =>
    if s.main = .wait then some { s with main := if waitCondition s then .wait else .supervise }
    else none
  -- mirrors MainSrc/plugin_main.cpp:167-203
  | .superviseRound =>
    if s.main = .supervise then
      some (if s.endWebSocket then { s with main := .exit }
        else { s with endWebSocket := s.gotSigInt,
                      main := if s.threadstart then .supervise else .reconnect })
    else none
  | .handlerStop =>
    if s.worker = .run then some { s with threadstart := false, worker := .handler } else none
  | .handlerClear =>
    if s.worker = .handler then some { s with exception := [], worker := .run } else none
  | .leaveTry stop => if s.worker = .run then some { s with worker := .left stop } else none
  | .setWebClientWork =>
    match s.worker with
    | .left stop => some (setWebClientWork s stop)
    | _ => none
  | .setException =>
    match s.worker with
    | .storing what => some { s with exception := what, worker := .ended (.exception what) }
    | _ => none
  -- mirrors MainSrc/WebSocketClient.cpp:704
  | .sigInt => some { s with gotSigInt := true }
  -- by the data thread, which may have tested `IsWebClientWorking` long before
  -- mirrors MainSrc/WebSocketClient.cpp:553-557
  | .setEndWebSocket => if s.gotSigInt then some { s with endWebSocket := true } else none

def client : System State Label := System.ofFn (fun s => ∃ b, s = .new b) step

/-! ## The exception text -/

/-- Before this point of `StartWebClient` there is no worker. -/
def beforeWorker : MainPc → Bool
  | .created | .starting .attrInit | .starting .attrSetStackSize | .starting .createWork => true
  | _ => false

/-- The text is empty until the catch block of a std::exception has stored
its `what()`, which then stays, next to a stopped client. -/
structure ExceptionText (s : State) : Prop where
  noWorker : beforeWorker s.main = true → s.worker = .none
  storing : ∀ what, s.worker = .storing what → s.threadstart = false
  stored : ∀ what, s.worker = .ended (.exception what) → s.exception = what ∧ s.threadstart = false
  empty : (∀ what, s.worker ≠ .ended (.exception what)) → s.exception = []

/-- A step of the worker that does not end in the catch block of a
std::exception. -/
theorem ExceptionText.worker_step {s s' : State} (hI : ExceptionText s) (hmain : s'.main = s.main)
    (hn : s.worker ≠ .none) (hw : ∀ what, s.worker ≠ .ended (.exception what))
    (hw' : ∀ what, s'.worker ≠ .ended (.exception what))
    (hs : ∀ what, s'.worker = .storing what → s'.threadstart = false)
    (he : s'.exception = s.exception ∨ s'.exception = []) : ExceptionText s' where
  noWorker h := absurd (hI.noWorker (hmain ▸ h)) hn
  storing := hs
  stored what h := absurd h (hw' what)
  empty _ := by
    rcases he with he | he
    · rw [he]; exact hI.empty hw
    · exact he

/-- A step of another thread, which does not go back before the worker is created. -/
theorem ExceptionText.main_step {s s' : State} (hI : ExceptionText s) (hw : s'.worker = s.worker)
    (he : s'.exception = s.exception) (ht : s'.threadstart = s.threadstart ∨ s'.threadstart = false)
    (hmain : beforeWorker s'.main = true → beforeWorker s.main = true) : ExceptionText s' := by
  have hstopped : s.threadstart = false → s'.threadstart = false := by
    intro hfalse
    rcases ht with ht | ht
    · rw [ht]
      exact hfalse
    · exact ht
  refine ⟨fun h => ?_, fun what h => ?_, fun what h => ?_, fun h => ?_⟩
  · rw [hw]
    exact hI.noWorker (hmain h)
  · exact hstopped (hI.storing what (hw ▸ h))
  · obtain ⟨htext, hfalse⟩ := hI.stored what (hw ▸ h)
    exact ⟨he.trans htext, hstopped hfalse⟩
  · rw [he]
    exact hI.empty (hw ▸ h)

theorem exceptionText_step {s s' : State} {l : Label} (hI : ExceptionText s)
    (h : step s l = some s') : ExceptionText s' := by
  cases l with
  | startWebClient =>
    simp only [step] at h
    split at h
    · rename_i hm
      cases h
      have hn : s.worker = .none := hI.noWorker (by rw [hm]; rfl)
      refine ⟨fun _ => hn, fun what hw => ?_, fun what hw => ?_, hI.empty⟩ <;>
        (rw [hn] at hw; cases hw)
    · cases h
  | startCall ok =>
    simp only [step] at h
    split at h
    · rename_i call hm
      cases ok with
      | false =>
        cases h
        exact hI.main_step rfl rfl (.inr rfl) fun h => by cases h
      | true =>
        cases h
        cases call with
        | createWork =>
          have hn : s.worker = .none := hI.noWorker (by rw [hm]; rfl)
          refine ⟨fun h => by (cases h), fun what hw => by (cases hw), fun what hw => by (cases hw),
            fun _ => hI.empty ?_⟩
          intro what hw; rw [hn] at hw; cases hw
        | attrInit | attrSetStackSize =>
          exact hI.main_step rfl rfl (.inl rfl) fun _ => by rw [hm]; rfl
        | createUpdate | createCommand | createData =>
          exact hI.main_step rfl rfl (.inl rfl) fun h => by cases h
    · cases h
  | evaluateWait =>
    simp only [step] at h
    split at h
    · cases h
      refine hI.main_step rfl rfl (.inl rfl) fun h => ?_
      simp only at h
      split at h <;> cases h
    · cases h
  | superviseRound =>
    simp only [step] at h
    split at h
    · cases h
      split
      · exact hI.main_step rfl rfl (.inl rfl) fun h => by cases h
      · refine hI.main_step rfl rfl (.inl rfl) fun h => ?_
        simp only at h
        split at h <;> cases h
    · cases h
  | handlerStop =>
    simp only [step] at h
    split at h
    · rename_i hw; cases h
      exact hI.worker_step rfl (by simp [hw]) (by simp [hw]) (by simp) (by simp) (.inl rfl)
    · cases h
  | handlerClear =>
    simp only [step] at h
    split at h
    · rename_i hw; cases h
      exact hI.worker_step rfl (by simp [hw]) (by simp [hw]) (by simp) (by simp) (.inr rfl)
    · cases h
  | leaveTry stop =>
    simp only [step] at h
    split at h
    · rename_i hw; cases h
      exact hI.worker_step rfl (by simp [hw]) (by simp [hw]) (by simp) (by simp) (.inl rfl)
    · cases h
  | setWebClientWork =>
    simp only [step] at h
    split at h
    · rename_i stop hw; cases h
      cases stop <;>
        exact hI.worker_step rfl (by simp [hw]) (by simp [hw]) (by simp [MainWait.setWebClientWork])
          (by simp [MainWait.setWebClientWork]) (.inl rfl)
    · cases h
  | setException =>
    simp only [step] at h
    split at h
    · rename_i what hw; cases h
      refine ⟨fun hm => ?_, fun _ h => by (cases h), fun what' h => ?_, fun h => absurd rfl (h what)⟩
      · have := hI.noWorker hm
        rw [hw] at this; cases this
      · cases h; exact ⟨rfl, hI.storing what hw⟩
    · cases h
  | sigInt =>
    cases h
    exact hI.main_step rfl rfl (.inl rfl) id
  | setEndWebSocket =>
    simp only [step] at h
    split at h
    · cases h
      exact hI.main_step rfl rfl (.inl rfl) id
    · cases h

theorem exceptionText_inductive : client.Inductive ExceptionText where
  init := by
    intro s hs
    obtain ⟨b, rfl⟩ := hs
    exact ⟨fun _ => rfl, fun _ h => by (cases h), fun _ h => by (cases h), fun _ => rfl⟩
  step := fun _ _ _ hI h => exceptionText_step hI h

/-- The text of a client is "invalid state" exactly when the catch block has
stored it. -/
theorem ExceptionText.invalidState_iff {s : State} (hI : ExceptionText s) :
    s.exception = invalidState ↔ s.worker = .ended (.exception invalidState) := by
  constructor
  · intro he
    by_contra hw
    by_cases hany : ∃ what, s.worker = .ended (.exception what)
    · obtain ⟨what, hwhat⟩ := hany
      have := (hI.stored what hwhat).1
      rw [he] at this
      exact hw (this ▸ hwhat)
    · have := hI.empty (fun what h => hany ⟨what, h⟩)
      rw [he] at this; cases this
  · intro hw
    exact (hI.stored _ hw).1

/-! ## The wait -/

/-- The next evaluation ends the wait, and the supervise loop reconnects or
ends at its next round. -/
def LeavesWait (s : State) : Prop :=
  ∃ s₁ s₂, step s .evaluateWait = some s₁ ∧ step s₁ .superviseRound = some s₂ ∧
    (s₂.main = .reconnect ∨ s₂.main = .exit)

/-- Of a stopped client, the next evaluation leaves the wait exactly when its
worker has stored the text "invalid state". -/
theorem wait_leaves_iff (s : State) (h : client.Reachable s) (hm : s.main = .wait)
    (ht : s.threadstart = false) :
    LeavesWait s ↔ s.worker = .ended (.exception invalidState) := by
  rw [← (exceptionText_inductive.reachable h).invalidState_iff]
  constructor
  · intro hl
    obtain ⟨s₁, s₂, h₁, h₂, -⟩ := hl
    by_contra he
    simp only [step, hm, if_true, waitCondition, ht, Bool.not_false, Bool.true_and, he, ne_eq,
      not_false_eq_true, decide_true, Option.some.injEq] at h₁
    subst h₁
    cases h₂
  · intro he
    refine ⟨{ s with main := .supervise }, _, ?_, rfl, ?_⟩
    · simp [step, hm, waitCondition, he]
    · cases s.endWebSocket <;> simp [ht]

/-- main waits for a stopped client whose worker is gone and left another text. -/
structure Stuck (s : State) : Prop where
  main : s.main = .wait
  threadstart : s.threadstart = false
  exception : s.exception ≠ invalidState
  worker : s.worker = .none ∨ ∃ stop, s.worker = .ended stop

theorem stuck_step {s s' : State} {l : Label} (h : Stuck s) (hstep : step s l = some s') :
    Stuck s' := by
  have hcond : waitCondition s = true := by simp [waitCondition, h.threadstart, h.exception]
  cases l with
  | startWebClient => simp [step, h.main] at hstep
  | startCall ok => simp [step, h.main] at hstep
  | evaluateWait =>
    simp only [step, h.main, if_true, hcond, Option.some.injEq] at hstep
    subst hstep
    exact ⟨rfl, h.threadstart, h.exception, h.worker⟩
  | superviseRound => simp [step, h.main] at hstep
  | handlerStop | handlerClear | leaveTry stop | setWebClientWork | setException =>
    rcases h.worker with hw | ⟨stop, hw⟩ <;> simp [step, hw] at hstep
  | sigInt =>
    cases hstep
    exact ⟨h.main, h.threadstart, h.exception, h.worker⟩
  | setEndWebSocket =>
    simp only [step] at hstep
    split at hstep
    · cases hstep
      exact ⟨h.main, h.threadstart, h.exception, h.worker⟩
    · cases hstep

/-- A stopped client whose worker is gone without having stored the text keeps
main in the wait for ever. -/
theorem wait_never_ends {s s' : State} {ls : List Label} (h : client.Reachable s)
    (hm : s.main = .wait) (ht : s.threadstart = false)
    (hw : s.worker = .none ∨ ∃ stop, s.worker = .ended stop)
    (hn : s.worker ≠ .ended (.exception invalidState)) (hrun : client.Run s ls s') :
    s'.main = .wait := by
  have hstuck : Stuck s :=
    ⟨hm, ht, fun he => hn ((exceptionText_inductive.reachable h).invalidState_iff.mp he), hw⟩
  have hstuck' : Stuck s' :=
    hrun.preserves (P := fun _ => True) (fun _ _ => trivial)
      (fun _ _ _ _ hs hstep => stuck_step hs hstep) hstuck
  exact hstuck'.main

theorem client_run (ls : List Label) (p : State → Bool)
    (h : (exec step (.new false) ls).any p = true) : ∃ s, client.Reachable s ∧ p s = true :=
  exists_reachable_of_exec ls p ⟨false, rfl⟩ h

/-- `m_client.close` throws in On_fail of a refused connection. -/
theorem wait_leaves_invalidState :
    ∃ s, client.Reachable s ∧ s.main = .wait ∧ s.threadstart = false ∧ LeavesWait s := by
  obtain ⟨s, hr, hp⟩ := client_run
    [.startWebClient, .startCall true, .startCall true, .startCall true, .startCall true,
      .startCall true, .startCall true, .leaveTry (.exception invalidState), .setWebClientWork,
      .setException]
    (fun s => s.main = .wait && !s.threadstart &&
      s.worker = .ended (.exception invalidState)) (by decide)
  simp only [Bool.and_eq_true, decide_eq_true_eq, Bool.not_eq_true'] at hp
  obtain ⟨⟨hm, ht⟩, hw⟩ := hp
  exact ⟨s, hr, hm, ht, (wait_leaves_iff s hr hm ht).mpr hw⟩

/-- `UTLDetachableThread_Create` fails for the worker. -/
theorem wait_hangs :
    ¬ ∀ s, client.Reachable s → s.main = .wait → s.threadstart = false → LeavesWait s := by
  intro h
  obtain ⟨s, hr, hp⟩ := client_run
    [.startWebClient, .startCall true, .startCall true, .startCall false]
    (fun s => s.main = .wait && !s.threadstart && s.worker = .none) (by decide)
  simp only [Bool.and_eq_true, decide_eq_true_eq, Bool.not_eq_true'] at hp
  obtain ⟨⟨hm, ht⟩, hw⟩ := hp
  obtain ⟨s₁, s₂, h₁, h₂, hs₂⟩ := h s hr hm ht
  have hmain : s₁.main = .wait :=
    wait_never_ends hr hm ht (.inl hw) (by simp [hw]) (.cons h₁ (.nil _))
  simp [step, hmain] at h₂

end TmatePlugin.L4.MainWait
