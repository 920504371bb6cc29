import TmatePlugin.Lib.Transition
import TmatePlugin.L2Plugin.StateValues

/-!
# NotifyDataThread and the files it reports

The state scripts rewrite the output files at any moment (`rewrite`), run by
`UpdateStates` on the data thread itself or, after a command, on the command
thread; a rewrite stamps the file with the clock, in whole seconds. The data
thread checks the five files one after the other, reads those reported as
changed into the objects of `GetStatesOutput`, and sends them in one
notifyPluginState, whose success nobody looks at. The plugin stays registered and
the client working.

`sent f` is history: the objects of `f` in the notifyPluginState sent
successfully, the last one at the end. What the file holds is reported by the last
one, or is still to be.

* `check_whole`: the five check steps in a row are `isStateFilesChanged`.
* `changes_reported`: when every send of changes succeeds, no file is rewritten
  within the second already recorded for it (unless the thread is still to read
  it), and no file is read while its object cannot carry what it holds, then
  between two iterations every file has been reported or will be. The first
  failing send breaks it (`change_lost`).
-/
namespace TmatePlugin.L4.DataThread

open Transition CString
open TmatePlugin.L1.Json
open TmatePlugin.L2.StateFiles TmatePlugin.L2.Scripts
open TmatePlugin.L2.ReadOutput TmatePlugin.L2.StateValues

structure StateFile where
  content : Bytes
  mtime : Int
  deriving DecidableEq, Repr

/-- The data thread: between iterations, in `IsStateFilesChanged` before the
blocks `rest`, past it, in `SendNotifyPluginStates` before the files `rest` are
read, past the send. `reset`: the branch that clears `needSendStates` is taken.
`undefined`: the log was given a conversion specification.
mirrors MainSrc/WebSocketClient.cpp:21-38,510-566 -/
inductive DataPc where
  | idle
  | checking (rest : List TmateState) (fileChanges : BitVec 5)
  | deciding (fileChanges : BitVec 5)
  | reading (rest : List TmateState) (states : List (TmateState × CJson)) (reset : Bool)
  | sentStates (reset : Bool)
  | undefined

def DataPc.isIdle : DataPc → Bool
  | .idle => true
  | _ => false

instance (pc : DataPc) : Decidable (pc = .idle) :=
  decidable_of_iff (pc.isIdle = true) (by cases pc <;> simp [DataPc.isIdle])

/-- Past the send, with this `reset`. -/
def DataPc.isSentStates (pc : DataPc) (reset : Bool) : Bool :=
  match pc with
  | .sentStates reset' => reset' == reset
  | _ => false

instance (pc : DataPc) (reset : Bool) : Decidable (pc = .sentStates reset) :=
  decidable_of_iff (pc.isSentStates reset = true) (by cases pc <;> simp [DataPc.isSentStates])

/-- mirrors MainSrc/WebSocketClient.cpp:17-19,518 -/
structure State where
  now : Int
  file : TmateState → StateFile
  times : Times
  stateCount : Nat
  needCheckStates : Bool
  needSendStates : Bool
  gotSigInt : Bool
  pc : DataPc
  sent : TmateState → List CJson

def INT32_MAX : Nat := 2147483647

/-- `stateCount++; if (stateCount == INT32_MAX) stateCount = 0;`
mirrors MainSrc/WebSocketClient.cpp:559-560 -/
def nextCount (stateCount : Nat) : Nat := if stateCount + 1 = INT32_MAX then 0 else stateCount + 1

inductive Label where
  | tick (seconds : Nat)
  | rewrite (f : TmateState) (content : Bytes)
  | setNeedCheckStates
  | setNeedSendStates
  | sigInt
  | beginIteration
  | check
  | decide
  | read
  | send (ok : Bool)
  | endIteration
  deriving DecidableEq, Repr

/-- After the five blocks.
mirrors MainSrc/WebSocketClient.cpp:533-538 -/
def checked (s : State) (fileChanges : BitVec 5) : State :=
  { s with needSendStates := fileChanges ≠ StateUpdated.none || s.needSendStates,
           needCheckStates := false, pc := .deciding fileChanges }

/-- `SendNotifyPluginStates` up to the first file it reads.
mirrors MainSrc/WebSocketClient.cpp:21-29 -/
def sendNotifyPluginStates (fileChanges : BitVec 5) (reset : Bool) : DataPc :=
  if fileChanges = StateUpdated.none then .sentStates reset
  else .reading (sendOrder.filter (hasState fileChanges)) [] reset

/-- mirrors MainSrc/WebSocketClient.cpp:541-549 -/
def decided (s : State) (fileChanges : BitVec 5) : State :=
  { s with pc :=
      if s.gotSigInt then sendNotifyPluginStates fileChanges false
      else if s.needSendStates then sendNotifyPluginStates fileChanges true
      else .sentStates false }

/-- The objects of `f` among the states of one notification. -/
def objectsOf (f : TmateState) (states : List (TmateState × CJson)) : List CJson :=
  (states.filter (·.1 = f)).map (·.2)

section
variable (parse : Bytes → Option CJson)

/-- `parse` is `cJSON_Parse`; `read` is one `GetStatesOutput`, with `ReadOutput` on the
file as it is then. -/
def step (s : State) : Label → Option State
  | .tick seconds => some { s with now := s.now + seconds }
  | .rewrite f content => some { s with file := Function.update s.file f ⟨content, s.now⟩ }
  | .setNeedCheckStates => some { s with needCheckStates := true }
  | .setNeedSendStates => some { s with needSendStates := true }
  | .sigInt => some { s with gotSigInt := true }
  | .beginIteration =>
    match s.pc with
    | .idle =>
      some { s with pc := if s.stateCount % 20 = 1 ∨ s.needCheckStates
                          then .checking checkOrder StateUpdated.none
                          else .deciding StateUpdated.none }
    | _ => none
  | .check =>
    match s.pc with
    | .checking [] fileChanges => some (checked s fileChanges)
    | .checking (f :: rest) fileChanges =>
      (checkOutput (some (s.file f).mtime) f s.times fileChanges).map fun r =>
        { s with times := r.1, pc := .checking rest r.2 }
    | _ => none
  | .decide =>
    match s.pc with
    | .deciding fileChanges => some (decided s fileChanges)
    | _ => none
  | .read =>
    match s.pc with
    | .reading (f :: rest) states reset =>
      match testState parse f (truncateOutput (joinLines (getlines (s.file f).content))) with
      | .ok object => some { s with pc := .reading rest (states ++ [(f, object)]) reset }
      | .error _ => some { s with pc := .undefined }
    | _ => none
  | .send ok =>
    match s.pc with
    | .reading [] states reset =>
      some { s with pc := .sentStates reset,
                    sent := fun f => if ok then s.sent f ++ objectsOf f states else s.sent f }
    | _ => none
  | .endIteration =>
    match s.pc with
    | .sentStates reset =>
      some { s with pc := .idle, stateCount := nextCount s.stateCount,
                    needSendStates := !reset && s.needSendStates }
    | _ => none

/-- A plugin after `Init`, the files written no later than now.
mirrors Plugins/TmatePlugin.cpp:308-312 -/
structure Initial (s : State) : Prop where
  times : ∀ f, s.times f = 0
  stateCount : s.stateCount = 0
  pc : s.pc = .idle
  sent : ∀ f, s.sent f = []
  past : ∀ f, (s.file f).mtime ≤ s.now

def dataThread : System State Label := System.ofFn Initial (step parse)

/-! ## The checks of one iteration -/

theorem checks_run {s : State} {rest : List TmateState} {fileChanges fileChanges' : BitVec 5}
    {times' : Times} (hpc : s.pc = .checking rest fileChanges)
    (h : checkOutputs (fun f => some (s.file f).mtime) rest s.times fileChanges =
      some (times', fileChanges')) :
    exec (step parse) s (List.replicate (rest.length + 1) .check) =
      some (checked { s with times := times' } fileChanges') := by
  induction rest generalizing s fileChanges with
  | nil =>
    simp only [checkOutputs, Option.some.injEq, Prod.mk.injEq] at h
    obtain ⟨rfl, rfl⟩ := h
    simp [exec, step, hpc, checked]
  | cons f rest ih =>
    simp only [checkOutputs, Option.bind_eq_some_iff] at h
    obtain ⟨r, hr, h⟩ := h
    have hstep : step parse s .check = some { s with times := r.1, pc := .checking rest r.2 } := by
      simp [step, hpc, hr]
    rw [List.length_cons, List.replicate_succ, exec, hstep]
    exact ih (s := { s with times := r.1, pc := .checking rest r.2 }) rfl h

/-- The check steps of one iteration without interruption are
`IsStateFilesChanged` on the files as they are. -/
theorem check_whole {s : State} {fileChanges : BitVec 5} {times' : Times}
    (hpc : s.pc = .checking checkOrder StateUpdated.none)
    (h : isStateFilesChanged (fun f => some (s.file f).mtime) s.times =
      some (times', fileChanges)) :
    exec (step parse) s (List.replicate 6 .check) =
      some (checked { s with times := times' } fileChanges) :=
  checks_run parse hpc h

end

/-! ## The condition -/

section
variable (strtod : Strtod)

/-- The last object that was sent for the file carries what it holds, or the next
check reports it. -/
def Reported (s : State) (f : TmateState) : Prop :=
  (∃ object, (s.sent f).getLast? = some object ∧ Carries strtod f (s.file f).content object) ∨
    s.times f < (s.file f).mtime

/-- The thread has found the file changed and not read it yet. -/
def unread : DataPc → TmateState → Bool
  | .checking _ fileChanges, f | .deciding fileChanges, f => hasState fileChanges f
  | .reading rest _ _, f => f ∈ rest
  | .idle, _ | .sentStates _, _ | .undefined, _ => false

/-- The file that is read next. -/
def nextRead : DataPc → Option TmateState
  | .reading (f :: _) _ _ => some f
  | _ => none

/-- Sends of changes succeed, a file is not rewritten within the second recorded for
it, unless the thread is still to read it, and what it holds when it is read can be
sent. -/
def SentAndSpaced (s : State) : Label → Prop
  | .rewrite f _ => s.times f < s.now ∨ unread s.pc f = true
  | .read => ∀ f ∈ nextRead s.pc, Sendable strtod f (s.file f).content
  | .send ok => ok = true
  | _ => True

instance (s : State) : (l : Label) → Decidable (SentAndSpaced strtod s l)
  | .rewrite _ _ | .read | .send _ => by unfold SentAndSpaced; exact inferInstance
  | .tick _ | .setNeedCheckStates | .setNeedSendStates | .sigInt | .beginIteration | .check
  | .decide | .endIteration => .isTrue trivial

/-! ## The invariant -/

/-- The objects of `f` in the notification being built. -/
def pending : DataPc → TmateState → List CJson
  | .reading _ states _, f => objectsOf f states
  | _, _ => []

/-- The last object that has been read for `f`, sent or about to be, carries what the
file holds. -/
def LatestCarries (s : State) (f : TmateState) : Prop :=
  ∃ object, (s.sent f ++ pending s.pc f).getLast? = some object ∧
    Carries strtod f (s.file f).content object

/-- Every file is still to be read, was read as it is now, or is newer than its
recorded time; the thread will send the changes it found. -/
structure Kept (s : State) : Prop where
  file : ∀ f, unread s.pc f = true ∨ LatestCarries strtod s f ∨ s.times f < (s.file f).mtime
  sends : ∀ fileChanges, s.pc = .deciding fileChanges → fileChanges ≠ StateUpdated.none →
    s.needSendStates = true

variable {strtod}

/-- A step of another thread that does not touch the files. -/
theorem Kept.of_eq {s s' : State} (hK : Kept strtod s) (hpc : s'.pc = s.pc) (hfile : s'.file = s.file)
    (htimes : s'.times = s.times) (hsent : s'.sent = s.sent)
    (hsend : s.needSendStates = true → s'.needSendStates = true) : Kept strtod s' where
  file f := by
    have := hK.file f
    unfold LatestCarries at this ⊢
    rwa [hpc, hfile, htimes, hsent]
  sends ch h hne := hsend (hK.sends ch (hpc ▸ h) hne)

/-- A rewrite makes the file newer than its recorded time, or the thread still
has to read it. -/
theorem Kept.rewrite {s : State} {f : TmateState} {content : Bytes} (hK : Kept strtod s)
    (hg : s.times f < s.now ∨ unread s.pc f = true) :
    Kept strtod { s with file := Function.update s.file f ⟨content, s.now⟩ } where
  file g := by
    by_cases hgf : g = f
    · subst hgf
      rcases hg with hlt | hun
      · exact .inr (.inr (by simpa using hlt))
      · exact .inl hun
    · have := hK.file g
      unfold LatestCarries at this ⊢
      simpa [hgf] using this
  sends := hK.sends

theorem Kept.check {s : State} {f : TmateState} {rest : List TmateState} {ch : BitVec 5}
    {times' : Times} {ch' : BitVec 5} (hK : Kept strtod s) (hpc : s.pc = .checking (f :: rest) ch)
    (hc : checkOutput (some (s.file f).mtime) f s.times ch = some (times', ch')) :
    Kept strtod { s with times := times', pc := .checking rest ch' } where
  file g := by
    have hg := hK.file g
    obtain ⟨mtime, hm, ht, hr, hother⟩ := checkOutput_some hc
    simp only [Option.some.injEq] at hm
    subst hm
    unfold LatestCarries at hg ⊢
    rw [hpc] at hg
    simp only [unread, pending] at hg ⊢
    by_cases hgf : g = f
    · subst hgf
      by_cases hlt : s.times g < (s.file g).mtime
      · exact .inl (by rw [hr]; simp [hlt])
      · rcases hg with hun | hsent | hnew
        · exact .inl (by rw [hr, hun]; rfl)
        · exact .inr (.inl hsent)
        · exact absurd hnew hlt
    · obtain ⟨htg, hrg⟩ := hother g hgf
      rwa [htg, hrg]
  sends _ h := by cases h

theorem Kept.checked {s : State} {ch : BitVec 5} (hK : Kept strtod s) (hpc : s.pc = .checking [] ch) :
    Kept strtod (checked s ch) where
  file g := by
    have hg := hK.file g
    unfold LatestCarries at hg ⊢
    rw [hpc] at hg
    exact hg
  sends ch' h hne := by
    simp only [DataThread.checked, DataPc.deciding.injEq] at h ⊢
    subst h
    simp [hne]

/-- Whichever way `SendNotifyPluginStates` starts, the changes found are the
files it has to read, and it has read none. -/
theorem sendNotifyPluginStates_start (ch : BitVec 5) (reset : Bool) (f : TmateState) :
    unread (sendNotifyPluginStates ch reset) f = hasState ch f ∧
      pending (sendNotifyPluginStates ch reset) f = [] := by
  unfold sendNotifyPluginStates
  split
  · rename_i h; simp [h, unread, pending]
  · simp [unread, mem_sendOrder, pending, objectsOf]

theorem Kept.decided {s : State} {ch : BitVec 5} (hK : Kept strtod s) (hpc : s.pc = .deciding ch) :
    Kept strtod (decided s ch) where
  file g := by
    have hg := hK.file g
    have hpc' : unread (DataThread.decided s ch).pc g = hasState ch g ∧
        pending (DataThread.decided s ch).pc g = [] := by
      unfold DataThread.decided
      simp only
      split
      · exact sendNotifyPluginStates_start ch false g
      · split
        · exact sendNotifyPluginStates_start ch true g
        · -- without the flag there are no changes
          rename_i hsend
          have hnone : ch = StateUpdated.none := by
            by_contra hne
            exact hsend (hK.sends ch hpc hne)
          rw [hnone]; simp [unread, pending]
    unfold LatestCarries at hg ⊢
    rw [hpc] at hg
    rw [hpc'.1, hpc'.2]
    exact hg
  sends ch' h := by
    exfalso
    simp only [DataThread.decided, sendNotifyPluginStates] at h
    repeat' split at h
    all_goals cases h

theorem objectsOf_concat_self (f : TmateState) (states : List (TmateState × CJson)) (object : CJson) :
    objectsOf f (states ++ [(f, object)]) = objectsOf f states ++ [object] := by
  simp [objectsOf]

theorem objectsOf_concat_of_ne {f g : TmateState} (h : f ≠ g) (states : List (TmateState × CJson))
    (object : CJson) : objectsOf g (states ++ [(f, object)]) = objectsOf g states := by
  simp [objectsOf, h]

/-- The object that is read carries what the file holds. -/
theorem Kept.read {s : State} {f : TmateState} {rest : List TmateState}
    {states : List (TmateState × CJson)} {reset : Bool} {object : CJson} (hK : Kept strtod s)
    (hpc : s.pc = .reading (f :: rest) states reset)
    (hcarries : Carries strtod f (s.file f).content object) :
    Kept strtod { s with pc := .reading rest (states ++ [(f, object)]) reset } where
  file g := by
    have hg := hK.file g
    unfold LatestCarries at hg ⊢
    rw [hpc] at hg
    simp only [unread, pending, List.mem_cons, decide_eq_true_eq] at hg ⊢
    by_cases hgf : g = f
    · subst hgf
      refine .inr (.inl ⟨object, ?_, hcarries⟩)
      rw [objectsOf_concat_self, ← List.append_assoc, List.getLast?_concat]
    · rw [objectsOf_concat_of_ne (Ne.symm hgf)]
      rwa [or_iff_right hgf] at hg
  sends _ h := by cases h

/-- A successful send hands over everything it read. -/
theorem Kept.send {s : State} {states : List (TmateState × CJson)} {reset : Bool} (hK : Kept strtod s)
    (hpc : s.pc = .reading [] states reset) :
    Kept strtod { s with pc := .sentStates reset,
                         sent := fun f => if true then s.sent f ++ objectsOf f states else s.sent f } where
  file g := by
    have hg := hK.file g
    unfold LatestCarries at hg ⊢
    rw [hpc] at hg
    simpa [unread, pending] using hg
  sends _ h := by cases h

/-- With nothing to read and nothing read, every file is reported. -/
theorem Kept.reported {s : State} (hK : Kept strtod s)
    (hpc : s.pc = .idle ∨ ∃ reset, s.pc = .sentStates reset) (f : TmateState) :
    Reported strtod s f := by
  have hf := hK.file f
  unfold LatestCarries at hf
  unfold Reported
  rcases hpc with hpc | ⟨reset, hpc⟩ <;>
    (rw [hpc] at hf; simpa [unread, pending] using hf)

/-- A state in which every file is reported and the thread has found nothing
yet. -/
theorem kept_of_reported {s : State} (h : ∀ f, Reported strtod s f) (hpending : ∀ f, pending s.pc f = [])
    (hpc : ∀ ch, s.pc = .deciding ch → ch = StateUpdated.none) : Kept strtod s where
  file f := by
    unfold LatestCarries
    rw [hpending f, List.append_nil]
    exact .inr (h f)
  sends ch hc hne := absurd (hpc ch hc) hne

theorem kept_step {s s' : State} {l : Label} (hK : Kept strtod s) (hg : SentAndSpaced strtod s l)
    (h : step (cJsonParse strtod) s l = some s') : Kept strtod s' := by
  cases l with
  | tick seconds => cases h; exact hK.of_eq rfl rfl rfl rfl id
  | rewrite f content => cases h; exact hK.rewrite hg
  | setNeedCheckStates => cases h; exact hK.of_eq rfl rfl rfl rfl id
  | setNeedSendStates => cases h; exact hK.of_eq rfl rfl rfl rfl fun _ => rfl
  | sigInt => cases h; exact hK.of_eq rfl rfl rfl rfl id
  | beginIteration =>
    simp only [step] at h
    split at h
    · rename_i hpc
      cases h
      refine kept_of_reported (fun f => hK.reported (.inl hpc) f) (fun f => ?_) fun ch hch => ?_
      · simp only
        split <;> rfl
      · simp only at hch
        split at hch <;> cases hch
        rfl
    · cases h
  | check =>
    simp only [step] at h
    split at h
    · rename_i ch hpc
      cases h
      exact hK.checked hpc
    · rename_i f rest ch hpc
      simp only [Option.map_eq_some_iff] at h
      obtain ⟨r, hr, rfl⟩ := h
      exact hK.check hpc hr
    · cases h
  | decide =>
    simp only [step] at h
    split at h
    · rename_i ch hpc
      cases h
      exact hK.decided hpc
    · cases h
  | read =>
    simp only [step] at h
    split at h
    · rename_i f rest states reset hpc
      have hsendable : Sendable strtod f (s.file f).content := hg f (by rw [hpc]; rfl)
      obtain ⟨object, hobject, hcarries⟩ := (sendable_iff strtod f _).mpr hsendable
      rw [joinLines_getlines, hobject] at h
      cases h
      exact hK.read hpc hcarries
    · cases h
  | send ok =>
    simp only [step] at h
    split at h
    · rename_i states reset hpc
      cases h
      have hok : ok = true := hg
      subst hok
      exact hK.send hpc
    · cases h
  | endIteration =>
    simp only [step] at h
    split at h
    · rename_i reset hpc
      cases h
      exact kept_of_reported (fun f => hK.reported (.inr ⟨reset, hpc⟩) f) (fun _ => rfl) fun ch hch => by
        cases hch
    · cases h

end

/-- In every run from a new plugin and files written after the epoch, whose
steps all meet `SentAndSpaced`, each file is reported between iterations. -/
theorem changes_reported (strtod : Strtod) (s₀ s : State) (ls : List Label) (hinit : Initial s₀)
    (hepoch : ∀ f, 0 < (s₀.file f).mtime)
    (hrun : ((dataThread (cJsonParse strtod)).guard (SentAndSpaced strtod)).Run s₀ ls s)
    (hpc : s.pc = .idle) (f : TmateState) : Reported strtod s f := by
  have hnew : Kept strtod s₀ := by
    refine kept_of_reported (fun f => .inr ?_) (fun f => ?_) fun ch hch => ?_
    · rw [hinit.times f]; exact hepoch f
    · rw [hinit.pc]; rfl
    · rw [hinit.pc] at hch; cases hch
  have hK : Kept strtod s :=
    hrun.preserves (P := fun _ => True) (fun _ _ => trivial)
      (fun _ _ _ _ hK h => kept_step hK h.1 h.2) hnew
  exact hK.reported (.inl hpc) f

/-- A plugin at time 100 with files written at time 50: empty texts, and arrays for the
links. -/
def exampleState : State where
  now := 100
  file f := ⟨if f = .web ∨ f = .ssh then str "[]" else [], 50⟩
  times _ := 0
  stateCount := 0
  needCheckStates := false
  needSendStates := false
  gotSigInt := false
  pc := .idle
  sent _ := []

theorem exampleState_initial : Initial exampleState :=
  ⟨fun _ => rfl, rfl, rfl, fun _ => rfl, fun _ => (by decide : (50 : Int) ≤ 100)⟩

theorem exampleState_epoch (f : TmateState) : 0 < (exampleState.file f).mtime :=
  (by decide : (0 : Int) < 50)

/-- One iteration that finds all five files changed. -/
def oneIteration (ok : Bool) : List Label :=
  [.setNeedCheckStates, .beginIteration, .check, .check, .check, .check, .check, .check, .decide,
    .read, .read, .read, .read, .read, .send ok, .endIteration]

theorem changes_reported_once :
    ∃ s, ((dataThread (cJsonParse digitsStrtod)).guard (SentAndSpaced digitsStrtod)).Run exampleState
        (oneIteration true) s ∧
      s.pc = .idle ∧ ∀ f, s.times f = 50 ∧ Reported digitsStrtod s f := by
  have hp : ((exec (guardFn (SentAndSpaced digitsStrtod) (step (cJsonParse digitsStrtod))) exampleState
      (oneIteration true)).any fun s =>
        s.pc = .idle && checkOrder.all fun f => s.times f = 50) = true := by decide +kernel
  simp only [Option.any_eq_true, Bool.and_eq_true, decide_eq_true_eq, List.all_eq_true] at hp
  obtain ⟨s, hs, hpc, ht⟩ := hp
  have hrun : ((dataThread (cJsonParse digitsStrtod)).guard (SentAndSpaced digitsStrtod)).Run exampleState
      (oneIteration true) s := run_guard_of_exec hs
  exact ⟨s, hrun, hpc, fun f => ⟨ht f (mem_checkOrder f),
    changes_reported digitsStrtod exampleState s _ exampleState_initial exampleState_epoch hrun hpc f⟩⟩

/-- The send fails: the files are neither reported nor newer than their
recorded times. -/
theorem change_lost :
    ¬ ∀ (strtod : Strtod) s₀ s ls, Initial s₀ → (∀ f, 0 < (s₀.file f).mtime) →
      (dataThread (cJsonParse strtod)).Run s₀ ls s → s.pc = .idle → ∀ f, Reported strtod s f := by
  intro h
  have hp : ((exec (step (cJsonParse digitsStrtod)) exampleState (oneIteration false)).any fun s =>
      s.pc = .idle && (s.sent .status).isEmpty && s.times .status = (s.file .status).mtime) = true := by
    decide +kernel
  simp only [Option.any_eq_true, Bool.and_eq_true, decide_eq_true_eq, List.isEmpty_iff] at hp
  obtain ⟨s, hs, ⟨hpc, hsent⟩, ht⟩ := hp
  rcases h digitsStrtod exampleState s _ exampleState_initial exampleState_epoch (run_of_exec hs) hpc
    .status with ⟨object, hlast, -⟩ | hlt
  · rw [hsent] at hlast; cases hlast
  · omega

end TmatePlugin.L4.DataThread
