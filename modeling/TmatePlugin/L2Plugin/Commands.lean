import Std.Data.TreeMap
import TmatePlugin.L2Plugin.Scripts

/-!
# The commands: accepting and executing one

`AcceptReceivedCommand` and `ExecuteReceivedCommand` test the name of a
command separately. The first rejects the empty name only and accepts every
other one; the second runs the four commands it knows and rejects the rest.

* `accept_iff`, `execute_state`: the two verdicts on one name.
* `cmdParam_eq`: the parameter of a script depends on the command name and the
  value of "password" alone.
-/
namespace TmatePlugin.L2.Commands

open CString
open TmatePlugin.L1.Json
open TmatePlugin.L2.Scripts

/-- mirrors PluginSDK/CommandAcksPluginJson.h:19-29 -/
inductive AckState where
  | ACCEPTED
  | ACKED
  | REJECTED
  | ERRORED
  deriving DecidableEq, Repr

/-- `std::map<string, string>`: keys in the order of their bytes. -/
abbrev Params := Std.TreeMap Bytes Bytes

/-! ## TmateCommands: Plugins/TmatePlugin.cpp:20-24 -/

def install : Bytes := str "install"
def start : Bytes := str "start"
def stop : Bytes := str "stop"
def uninstall : Bytes := str "uninstall"
def password : Bytes := str "password"

/-- The test both functions make. -/
def isTmateCommand (cmdName : Bytes) : Bool :=
  cmdName = start || cmdName = stop || cmdName = install || cmdName = uninstall

/-- The verdict and the reason; `reason` is what the caller passed in.
mirrors Plugins/TmatePlugin.cpp:71-90 -/
def acceptReceivedCommand (cmdName : Bytes) (reason : Bytes) : Bool × Bytes :=
  if cmdName ≠ [] then
    if isTmateCommand cmdName then (true, str "OK") else (true, reason)
  else (false, str "Rejected.")

/-- The loop over the parameters: the first non-empty "password".
mirrors Plugins/TmatePlugin.cpp:101-115 -/
def passwordParam : List (Bytes × Bytes) → Bytes
  | [] => []
  | (paramName, paramValue) :: params =>
    if paramValue = [] then passwordParam params
    else if paramName = password then str "--" ++ paramName ++ str "=" ++ paramValue
    else passwordParam params

/-- mirrors Plugins/TmatePlugin.cpp:98-116 -/
def cmdParam (cmdName : Bytes) (params : Params) : Bytes :=
  if cmdName = start then passwordParam params.toList else []

def commandScript (path cmdName : Bytes) : Bytes :=
  path ++ SCRIPTS_COMMANDS_PATH ++ cmdName ++ SCRIPT_EXT

/-- The name and result added to `cmdAck`, an object the caller created. -/
def execAck (cmdAck : CJson) (cmdName result : Bytes) : CJson :=
  (cmdAck.addStringToObject JKEY_NAME cmdName).addStringToObject JKEY_RESULT result

section
variable {σ : Type} (os : Os σ)

/-- The state, the filled `cmdAck` and the state of the file system.
mirrors Plugins/TmatePlugin.cpp:92-148 -/
def executeReceivedCommand (path cmdName : Bytes) (params : Params) (cmdAck : CJson) (s : σ) :
    (AckState × CJson) × σ :=
  if isTmateCommand cmdName then
    let ((result, message), s') :=
      runPluginScriptCmdOutput os (commandScript path cmdName) (cmdParam cmdName params) s
    ((if result then .ACKED else .ERRORED, execAck cmdAck cmdName message), s')
  else ((.REJECTED, execAck cmdAck cmdName (str "Unrecognized command.")), s)

/-! ## The two verdicts -/

theorem accept_iff (cmdName reason : Bytes) :
    (acceptReceivedCommand cmdName reason).1 = true ↔ cmdName ≠ [] := by
  unfold acceptReceivedCommand
  split
  · rename_i h
    split <;> exact ⟨fun _ => h, fun _ => rfl⟩
  · rename_i h
    exact ⟨fun ht => by (cases ht), fun hn => absurd hn h⟩

/-- A known command ends ACKED or ERRORED, another one REJECTED. -/
theorem execute_state (path cmdName : Bytes) (params : Params) (cmdAck : CJson) (s : σ) :
    if isTmateCommand cmdName then
      (executeReceivedCommand os path cmdName params cmdAck s).1.1 = .ACKED ∨
        (executeReceivedCommand os path cmdName params cmdAck s).1.1 = .ERRORED
    else (executeReceivedCommand os path cmdName params cmdAck s).1.1 = .REJECTED := by
  unfold executeReceivedCommand
  split
  · simp only
    split
    · exact .inl rfl
    · exact .inr rfl
  · rfl

end

/-! ## The parameter of the script -/

theorem passwordParam_none {params : List (Bytes × Bytes)}
    (h : ∀ v, (password, v) ∈ params → v = []) : passwordParam params = [] := by
  induction params with
  | nil => rfl
  | cons p params ih =>
    obtain ⟨name, value⟩ := p
    have ih := ih fun v hv => h v (List.mem_cons_of_mem _ hv)
    rw [passwordParam]
    split
    · exact ih
    · rename_i hvalue
      split
      · rename_i hname
        exact absurd (h value (by rw [hname]; exact List.mem_cons_self)) hvalue
      · exact ih

theorem passwordParam_some {params : List (Bytes × Bytes)} {v : Bytes} (hv : v ≠ [])
    (hmem : (password, v) ∈ params)
    (hdistinct : params.Pairwise fun a b => ¬ compare a.1 b.1 = .eq) :
    passwordParam params = str "--" ++ password ++ str "=" ++ v := by
  induction params with
  | nil => cases hmem
  | cons p params ih =>
    obtain ⟨name, value⟩ := p
    obtain ⟨hhead, htail⟩ := List.pairwise_cons.mp hdistinct
    rw [passwordParam]
    rcases List.mem_cons.mp hmem with heq | hmem
    · cases heq
      rw [if_neg hv, if_pos rfl]
    · split
      · exact ih hmem htail
      · split
        · rename_i hname
          -- keys are distinct
          exact absurd (by rw [hname]; exact Std.ReflCmp.compare_self) (hhead _ hmem)
        · exact ih hmem htail

/-- The parameter is built from the value of "password", when there is a
non-empty one. -/
theorem cmdParam_eq (cmdName : Bytes) (params : Params) :
    cmdParam cmdName params =
      if cmdName = start then
        match params[password]? with
        | some (c :: v) => str "--" ++ password ++ str "=" ++ c :: v
        | _ => []
      else [] := by
  unfold cmdParam
  split
  · cases hp : params[password]? with
    | none =>
      refine passwordParam_none fun v hv => ?_
      rw [Std.TreeMap.mem_toList_iff_getElem?_eq_some, hp] at hv
      cases hv
    | some v =>
      cases v with
      | nil =>
        refine passwordParam_none fun v hv => ?_
        rw [Std.TreeMap.mem_toList_iff_getElem?_eq_some, hp] at hv
        cases hv; rfl
      | cons c v =>
        exact passwordParam_some (by simp)
          (Std.TreeMap.mem_toList_iff_getElem?_eq_some.mpr hp) Std.TreeMap.distinct_keys_toList
  · rfl

end TmatePlugin.L2.Commands
