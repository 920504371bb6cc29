import TmatePlugin.L2Plugin.CommandAcks

/-!
# Acks that cannot be built

`SetNotifyCommandAcks` returns NULL when the SDK throws. Without its first ack
a command is skipped and the loop goes on with the next one; without the second
one the function returns, and the rest of the message is never looked at. Nor is it
when the states of the second ack cannot be logged.

`fails` is an oracle: for each command of the message, which of its two calls
return NULL. Every body of the loop that is run begins with the verdict of
`AcceptReceivedCommand` and the attempt at the first ack, so the commands that
are handled are those with a body (`bodies`).

* `bodies_ackLoop`: the bodies are what `SendNotifyPluginCommandAcks` does.
* `every_command_handled_iff`: every command is handled exactly when no command
  but the last is accepted, gets its first ack and then has states that cannot be
  logged or no second one.
-/
namespace TmatePlugin.L2.AckFailures

open CString
open TmatePlugin.L1.Json
open TmatePlugin.L2.Scripts TmatePlugin.L2.Commands TmatePlugin.L2.CommandAcks

/-- The two calls of `SetNotifyCommandAcks` for one command. -/
inductive AckCall where
  | first
  | second
  deriving DecidableEq, Repr

section
variable {σ : Type} (env : Env σ) (plugin : CTmatePlugin)

def nameOf (command : CJson) : Bytes := env.getJSONStringFieldValue command JKEY_NAME

/-- `AcceptReceivedCommand` on the command's name. -/
def accepted (command : CJson) : Bool := (acceptReceivedCommand (nameOf env command) []).1

/-- The verdict in a command's first ack; no second ack of an accepted command
has it. -/
def firstState (command : CJson) : AckState := if accepted env command then .ACCEPTED else .REJECTED

def callOf (command : CJson) (request : AckRequest) : AckCall :=
  if request.cmdState = firstState env command then .first else .second

/-- The SDK as one command meets it: `print` is the text of a request that it
does not throw on. -/
def failing (print : AckRequest → Bytes) (fails : AckCall → Bool) (command : CJson) : Env σ :=
  { env with commandAcks := fun request =>
      if fails (callOf env command request) then none else some (print request) }

/-- The effects of each body of the loop that is run; `envs` is the SDK for the
command at each position.
mirrors MainSrc/WebSocketClient.cpp:57-121 -/
def bodies (envs : Nat → CJson → Env σ) (received : CCommandPluginJson) :
    Nat → List CJson → σ → List (List Event) × σ × Bool
  | _, [], s => ([], s, true)
  | i, command :: commands, s =>
    match handleCommand (envs i command) plugin received command s with
    | (events, s', true) =>
      let r := bodies envs received (i + 1) commands s'
      (events :: r.1, r.2)
    | (events, s', false) => ([events], s', false)

/-- With one SDK for all commands the bodies are the loop, up to the last
`ClearReceivedCommand`. -/
theorem bodies_ackLoop (received : CCommandPluginJson) (i : Nat) (commands : List CJson) (s : σ) :
    let r := bodies plugin (fun _ _ => env) received i commands s
    ackLoop env plugin received commands s =
      (if r.2.2 then r.1.flatten ++ [.clearReceivedCommand] else r.1.flatten, r.2.1) := by
  induction commands generalizing i s with
  | nil => rfl
  | cons command commands ih =>
    cases hhandle : handleCommand env plugin received command s with
    | mk events r =>
      obtain ⟨s', goesOn⟩ := r
      simp only [bodies, ackLoop, hhandle]
      cases goesOn with
      | true =>
        have ih := ih (i + 1) s'
        simp only at ih
        simp only [ih, List.flatten_cons]
        split
        · rw [List.append_assoc]
        · rfl
      | false => simp

/-! ## One body -/

/-- The scripts of the command are run: it is accepted, and its first ack is built. -/
def runs (fails : AckCall → Bool) (command : CJson) : Bool := accepted env command && !fails .first

/-- The file system after the body of a command. -/
def stateAfter (fails : AckCall → Bool) (command : CJson) (s : σ) : σ :=
  if runs env fails command then
    scriptsRun env plugin (nameOf env command) (commandParams env command) s
  else s

/-- The function ends here: the scripts of the command are run, and then the states
cannot be logged or its second ack is NULL. -/
def leaves (fails : AckCall → Bool) (command : CJson) (s : σ) : Bool :=
  runs env fails command &&
    !(statesLogged env plugin (stateAfter env plugin fails command s) && !fails .second)

variable (print : AckRequest → Bytes) (fails : AckCall → Bool)

theorem callOf_first (command : CJson) (request : AckRequest)
    (h : request.cmdState = firstState env command) : callOf env command request = .first :=
  if_pos h

/-- Executing a command never gives the verdict of its first ack. -/
theorem callOf_second {command : CJson} (haccepted : accepted env command = true) (path : Bytes)
    (params : Params) (s : σ) (request : AckRequest)
    (h : request.cmdState =
      (executeReceivedCommand env.os path (nameOf env command) params (.object []) s).1.1) :
    callOf env command request = .second := by
  have hstate := execute_state env.os path (nameOf env command) params (.object []) s
  have hne : request.cmdState ≠ .ACCEPTED := by
    rw [h]
    split at hstate
    · rcases hstate with hacked | herrored
      · rw [hacked]; decide
      · rw [herrored]; decide
    · rw [hstate]; decide
  rw [callOf, firstState, if_pos haccepted]
  exact if_neg hne

theorem executeCommand_failing (received : CCommandPluginJson) (command : CJson) (s : σ)
    (params : Params) (haccepted : accepted env command = true) :
    let s' := scriptsRun env plugin (nameOf env command) params s
    let r := executeCommand (failing env print fails command) plugin received
      (nameOf env command) params s
    r.2.2 = (statesLogged env plugin s' && !fails .second) ∧ r.2.1 = s' ∧
      .execute (nameOf env command) ∈ r.1 := by
  have hsecond : ∀ request : AckRequest, request.cmdState =
      execState env plugin (nameOf env command) params s →
      (failing env print fails command).commandAcks request =
        if fails .second then none else some (print request) := by
    intro request hstate
    simp only [failing, callOf_second env haccepted _ params s request hstate]
  intro s' r
  -- the files are those of `env`
  rcases executeCommand_cases (failing env print fails command) plugin received (nameOf env command)
    params s with ⟨hlogged, hr⟩ | ⟨hlogged, request, hstate, hbuilt⟩
  · have hlogged : statesLogged env plugin s' = false := hlogged
    rw [show r = _ from hr, hlogged]
    exact ⟨rfl, rfl, List.mem_cons_self⟩
  · have hlogged : statesLogged env plugin s' = true := hlogged
    rw [hsecond request hstate] at hbuilt
    cases hfails : fails .second with
    | true =>
      rw [hfails, if_pos rfl] at hbuilt
      rcases hbuilt with ⟨-, hr⟩ | ⟨ack, hack, -⟩
      · rw [show r = _ from hr, hlogged]
        exact ⟨rfl, rfl, List.mem_cons_self⟩
      · cases hack
    | false =>
      rw [hfails, if_neg (by simp)] at hbuilt
      rcases hbuilt with ⟨hack, -⟩ | ⟨ack, -, hr⟩
      · cases hack
      · rw [show r = _ from hr, hlogged]
        exact ⟨rfl, rfl, List.mem_cons_self⟩

/-- Once the first ack is built it is sent with the verdict, and an accepted
command is executed. -/
def HandledBy (command : CJson) (events : List Event) : Prop :=
  fails .first = false →
    (∃ request ack, .notify request ack ∈ events ∧ request.cmdState = firstState env command) ∧
      (accepted env command = true → .execute (nameOf env command) ∈ events)

/-- What a body does; it ends the function when `leaves` says so. -/
theorem handleCommand_failing (received : CCommandPluginJson) (command : CJson) (s : σ) :
    let r := handleCommand (failing env print fails command) plugin received command s
    r.2.2 = !leaves env plugin fails command s ∧ r.2.1 = stateAfter env plugin fails command s ∧
      HandledBy env fails command r.1 := by
  have hfirst : ∀ request : AckRequest, request.cmdState = firstState env command →
      (failing env print fails command).commandAcks request =
        if fails .first then none else some (print request) := by
    intro request hrequest
    simp only [failing, callOf_first env command request hrequest]
  have haccept : (acceptReceivedCommand ((failing env print fails command).getJSONStringFieldValue
      command JKEY_NAME) []).1 = accepted env command := rfl
  simp only [handleCommand]
  rw [hfirst _ rfl, haccept, leaves, stateAfter, runs]
  cases hbuilt : fails .first with
  | true => exact ⟨by simp, by simp, fun h => absurd (h.symm.trans hbuilt) (by decide)⟩
  | false =>
    cases haccepted : accepted env command with
    | false =>
      refine ⟨by simp, by simp, fun _ => ⟨⟨_, _, List.mem_cons_self, ?_⟩, fun h => ?_⟩⟩
      · rw [firstState, haccepted]; rfl
      · rw [haccepted] at h; cases h
    | true =>
      obtain ⟨hgoesOn, hstate, hmem⟩ := executeCommand_failing env plugin print fails received command s
        (commandParams env command) haccepted
      refine ⟨?_, hstate, fun _ => ⟨⟨_, _, List.mem_cons_self, ?_⟩,
        fun _ => List.mem_cons_of_mem _ hmem⟩⟩
      · simp only [Bool.not_false, Bool.and_true, Bool.true_and, if_true, Bool.not_not]
        exact hgoesOn
      · rw [firstState, haccepted]; rfl

end

/-! ## The whole message -/

section
variable {σ : Type} (env : Env σ) (plugin : CTmatePlugin) (print : AckRequest → Bytes)
  (fails : Nat → AckCall → Bool)

/-- The bodies run for the commands from position `i` on. -/
def failingBodies (received : CCommandPluginJson) (i : Nat) (commands : List CJson) (s : σ) :
    List (List Event) :=
  (bodies plugin (fun j command => failing env print (fails j) command) received i commands s).1

/-- One body, and the others unless the function ends there. -/
theorem failingBodies_cons (received : CCommandPluginJson) (i : Nat) (command : CJson)
    (commands : List CJson) (s : σ) :
    let r := handleCommand (failing env print (fails i) command) plugin received command s
    failingBodies env plugin print fails received i (command :: commands) s =
      r.1 :: if leaves env plugin (fails i) command s then []
        else failingBodies env plugin print fails received (i + 1) commands
          (stateAfter env plugin (fails i) command s) := by
  obtain ⟨hgoesOn, hstate, -⟩ := handleCommand_failing env plugin print (fails i) received command s
  unfold failingBodies
  rw [bodies, ← hstate]
  cases hr : handleCommand (failing env print (fails i) command) plugin received command s with
  | mk events r =>
    obtain ⟨s', goesOn⟩ := r
    rw [hr] at hgoesOn
    cases hleaves : leaves env plugin (fails i) command s with
    | true =>
      have hstop : goesOn = false := by simpa [hleaves] using hgoesOn
      simp [hstop]
    | false =>
      have hon : goesOn = true := by simpa [hleaves] using hgoesOn
      simp [hon]

/-- Every body handles its command. -/
theorem body_handles (received : CCommandPluginJson) (i : Nat) (commands : List CJson) (s : σ)
    (j : Nat) (command : CJson) (events : List Event) (hcommand : commands[j]? = some command)
    (hevents : (failingBodies env plugin print fails received i commands s)[j]? = some events) :
    HandledBy env (fails (i + j)) command events := by
  induction commands generalizing i j s with
  | nil => simp at hcommand
  | cons command' commands ih =>
    rw [failingBodies_cons] at hevents
    cases j with
    | zero =>
      simp only [List.getElem?_cons_zero, Option.some.injEq] at hcommand hevents
      subst hcommand hevents
      exact (handleCommand_failing env plugin print (fails i) received _ s).2.2
    | succ j =>
      rw [List.getElem?_cons_succ] at hcommand hevents
      split at hevents
      · simp at hevents
      · have hhandled := ih (i + 1) _ j hcommand hevents
        rwa [Nat.add_right_comm] at hhandled

/-- The file system before the command at position `j` of those from `i` on, when
none of the commands before it ends the function. -/
def stateBefore (i : Nat) : List CJson → σ → Nat → σ
  | command :: commands, s, j + 1 =>
    stateBefore (i + 1) commands (stateAfter env plugin (fails i) command s) j
  | _, s, _ => s

/-- No command but the last one ends the function. -/
def OnlyLastLeaves (i : Nat) (commands : List CJson) (s : σ) : Prop :=
  ∀ j command, commands[j]? = some command → j + 1 < commands.length →
    leaves env plugin (fails (i + j)) command (stateBefore env plugin fails i commands s j) = false

theorem onlyLastLeaves_cons_iff (i : Nat) (command command' : CJson) (commands : List CJson) (s : σ) :
    OnlyLastLeaves env plugin fails i (command :: command' :: commands) s ↔
      leaves env plugin (fails i) command s = false ∧
        OnlyLastLeaves env plugin fails (i + 1) (command' :: commands)
          (stateAfter env plugin (fails i) command s) := by
  constructor
  · intro h
    refine ⟨h 0 command rfl (by simp), fun j c hc hj => ?_⟩
    have := h (j + 1) c hc (by simpa using hj)
    rwa [Nat.add_right_comm]
  · intro h j c hc hj
    cases j with
    | zero => cases hc; exact h.1
    | succ j =>
      have := h.2 j c hc (by simpa using hj)
      rwa [Nat.add_right_comm] at this

theorem failingBodies_length_iff (received : CCommandPluginJson) (i : Nat) (commands : List CJson)
    (s : σ) :
    commands.length ≤ (failingBodies env plugin print fails received i commands s).length ↔
      OnlyLastLeaves env plugin fails i commands s := by
  induction commands generalizing i s with
  | nil => exact ⟨fun _ j c hc => by simp at hc, fun _ => Nat.zero_le _⟩
  | cons command commands ih =>
    rw [failingBodies_cons, List.length_cons, List.length_cons]
    cases commands with
    | nil =>
      refine ⟨fun _ j c _ hj => ?_, fun _ => ?_⟩
      · simp at hj
      · simp
    | cons command' commands =>
      rw [onlyLastLeaves_cons_iff]
      cases hleaves : leaves env plugin (fails i) command s with
      | true => simp
      | false => simpa using ih (i + 1) _

/-- Every command of the message has a body of its own, which handles it. -/
def EveryCommandHandled (received : CCommandPluginJson) (s : σ) : Prop :=
  ∀ i command, received.commands[i]? = some command →
    ∃ events, (failingBodies env plugin print fails received 0 received.commands s)[i]? =
        some events ∧
      HandledBy env (fails i) command events

/-- Whichever calls return NULL, every command is handled exactly when no
command but the last makes the function end: it is accepted, gets its first ack, and
then has states that cannot be logged or no second ack. -/
theorem every_command_handled_iff (received : CCommandPluginJson) (s : σ) :
    EveryCommandHandled env plugin print fails received s ↔
      ∀ i command, received.commands[i]? = some command → i + 1 < received.commands.length →
        leaves env plugin (fails i) command
          (stateBefore env plugin fails 0 received.commands s i) = false := by
  have hcond : OnlyLastLeaves env plugin fails 0 received.commands s ↔
      ∀ i command, received.commands[i]? = some command → i + 1 < received.commands.length →
        leaves env plugin (fails i) command
          (stateBefore env plugin fails 0 received.commands s i) = false := by
    simp only [OnlyLastLeaves, Nat.zero_add]
  rw [← hcond, ← failingBodies_length_iff env plugin print fails received 0 received.commands s]
  constructor
  · intro h
    by_contra hshort
    -- the command at the position after the last body
    have hlt := Nat.lt_of_not_le hshort
    obtain ⟨events, hevents, -⟩ := h _ _ (List.getElem?_eq_getElem hlt)
    simp at hevents
  · intro hlength i command hcommand
    obtain ⟨hi, -⟩ := List.getElem?_eq_some_iff.mp hcommand
    have hevents := List.getElem?_eq_getElem (Nat.lt_of_lt_of_le hi hlength)
    refine ⟨_, hevents, ?_⟩
    have hhandled := body_handles env plugin print fails received 0 received.commands s i command _
      hcommand hevents
    rwa [Nat.zero_add] at hhandled

end

/-- Two commands, the second ack of the first one is NULL: the other command is
never looked at. -/
theorem batch_silenced :
    ¬ ∀ (env : Env Unit) (plugin : CTmatePlugin) (print : AckRequest → Bytes)
        (fails : Nat → AckCall → Bool) (received : CCommandPluginJson) (s : Unit),
      EveryCommandHandled env plugin print fails received s := by
  intro h
  have hhandled := h exampleEnv examplePlugin (fun _ => str "ack") (fun i call => i = 0 && call = .second)
    (exampleMessage [str "stop", str "start"]) ()
  obtain ⟨events, hevents, -⟩ := hhandled 1 _ rfl
  cases hevents

end TmatePlugin.L2.AckFailures
