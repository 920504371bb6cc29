import TmatePlugin.Lib.Outcome
import TmatePlugin.L1Base.CJson
import TmatePlugin.L2Plugin.StateFiles

/-!
# The plugin's scripts and their output files

Commands and states are shell scripts under the plugin's directory; each
writes its output next to itself, with `.sh` replaced by `.output`.
`CTmatePlugin` runs them with `system` and reads the output file back.

The operating system is a parameter: `Os σ` over any type `σ` of file system
states, with what `system` and opening a file do to it. A script runs on a
thread that is joined at once, so it is a call here.

The log is left out, with one exception: `GetStatesOutput` hands it the text of a
file as the format of a message without arguments, and a conversion specification
in it asks for an argument that is not there (`UTL_LOG_INFO`).
-/
namespace TmatePlugin.L2.Scripts

open CString Outcome
open TmatePlugin.L1.Json
open TmatePlugin.L2.StateFiles

/-- What `system` returns: -1 with the `strerror` text of `errno`, a status with
an exit code, or another status. -/
inductive WaitStatus where
  | failed (strerror : Bytes)
  | exited (code : UInt8)
  | abnormal
  deriving DecidableEq, Repr

/-- `system` runs a command line, `readFile` is `none` when the file cannot be
opened. -/
structure Os (σ : Type) where
  system : Bytes → σ → WaitStatus × σ
  readFile : Bytes → σ → Option Bytes

/-! ## Paths: Plugins/PluginSample.h:9-18 -/

def SCRIPT_OUTPUT_EXT : Bytes := str ".output"
def SCRIPT_EXT : Bytes := str ".sh"
def PLUGINS_PATH : Bytes := str "/opt/allxon/plugIN/"
def SCRIPTS_STATES_PATH : Bytes := str "scripts/states/"
def SCRIPTS_COMMANDS_PATH : Bytes := str "scripts/commands/"

/-- The member `m_pluginPath`.
mirrors Plugins/TmatePlugin.cpp:313 -/
def pluginPath (appGUID : Bytes) : Bytes := PLUGINS_PATH ++ appGUID ++ str "/"

/-- mirrors Plugins/TmatePlugin.cpp:15-19 -/
def TmateState.name : TmateState → Bytes
  | .status => str "status"
  | .version => str "version"
  | .web => str "web"
  | .ssh => str "ssh"
  | .sshString => str "ssh_string"

/-- `scriptName.substr(0, scriptName.find(SCRIPT_EXT)).append(SCRIPT_OUTPUT_EXT)` -/
def scriptOutput (scriptName : Bytes) : Bytes :=
  substrBefore SCRIPT_EXT scriptName ++ SCRIPT_OUTPUT_EXT

section
variable {σ : Type} (os : Os σ)

/-! ## Reading output -/

/-- The lines joined with newlines. -/
def joinLines : List Bytes → Bytes
  | [] => []
  | [line] => line
  | line :: lines => line ++ [10] ++ joinLines lines

/-- At most 1000 bytes, then an ellipsis. -/
def truncateOutput (output : Bytes) : Bytes :=
  if 1000 < output.length then output.take 1000 ++ str "..." else output

/-- mirrors Plugins/TmatePlugin.cpp:327-352 -/
def readOutput (outputName : Bytes) (s : σ) : Bytes :=
  if outputName = [] then str "Cannot find output"
  else truncateOutput (joinLines (getlines ((os.readFile (cStr outputName) s).getD [])))

/-! ## Running scripts -/

/-- The string handed to `system`.
mirrors Plugins/TmatePlugin.cpp:425-430 -/
def commandLine (scriptCmd cmdParam : Bytes) : Bytes :=
  if cmdParam = [] then scriptCmd else scriptCmd ++ str " " ++ cmdParam

/-- mirrors Plugins/TmatePlugin.cpp:384-421 -/
def runPluginScriptCmd (scriptCmd cmdParam : Bytes) (s : σ) : Bool × σ :=
  let (status, s') := os.system (cStr (commandLine scriptCmd cmdParam)) s
  (match status with
    | .failed _ => false
    | .exited code => code = 0
    | .abnormal => false, s')

/-- The result and message; the output file is read after the script ran.
mirrors Plugins/TmatePlugin.cpp:423-469 -/
def runPluginScriptCmdOutput (scriptCmd cmdParam : Bytes) (s : σ) : (Bool × Bytes) × σ :=
  let (status, s') := os.system (cStr (commandLine scriptCmd cmdParam)) s
  let output := readOutput os (scriptOutput scriptCmd) s'
  (match status with
    | .failed strerror =>
      (false, str "Error: " ++ cStr strerror ++ str "occurred while running command " ++ scriptCmd ++
        str "\n" ++ output)
    | .exited code =>
      if code = 0 then (true, output)
      else (false, str "Fail (" ++ str (toString code.toNat) ++ str "): " ++ output)
    | .abnormal => (false, str "Program exited abnormaly." ++ str "\n" ++ output), s')

/-- A command line without a parameter is the script itself. -/
@[simp] theorem commandLine_nil (scriptCmd : Bytes) : commandLine scriptCmd [] = scriptCmd := rfl

/-! ## States -/

/-- The result of the script is ignored by the caller.
mirrors Plugins/TmatePlugin.cpp:354-360 -/
def runStatesScript (scriptCmd : Bytes) (s : σ) : σ := (runPluginScriptCmd os scriptCmd [] s).2

def stateScript (path : Bytes) (f : TmateState) : Bytes :=
  path ++ SCRIPTS_STATES_PATH ++ TmateState.name f ++ SCRIPT_EXT

/-- The order of the blocks of `UpdateStates`. -/
def updateOrder : List TmateState := [.status, .web, .ssh, .version, .sshString]

/-- mirrors Plugins/TmatePlugin.cpp:150-186 -/
def updateStates (path : Bytes) (updateMask : BitVec 5) (s : σ) : σ :=
  (updateOrder.filter (hasState updateMask)).foldl (fun s f => runStatesScript os (stateScript path f) s) s

end

/-! ## The objects of the states -/

/-- No byte `%` but in `%%`, which asks for no argument. -/
def plainFormat : Bytes → Bool
  | [] => true
  | [c] => c ≠ 37
  | c :: c' :: s => if c = 37 then c' = 37 && plainFormat s else plainFormat (c' :: s)

/-- `UTL_LOG_INFO(format)` without arguments. INFO is never disabled, and a format
that is not plain is undefined behaviour.
mirrors Util/include/Utl_Log.h:103, Util/src/Utl_Log.cpp:60,829-850 -/
def UTL_LOG_INFO (format : Bytes) : Outcome Unit := if plainFormat format then pure () else fault

section
variable {σ : Type} (os : Os σ) (parse : Bytes → Option CJson)

/-- The web and ssh outputs are logged and parsed, and left out when they do not
parse; `parse` is `cJSON_Parse`.
mirrors Plugins/TmatePlugin.cpp:368-381 -/
def testState (f : TmateState) (message : Bytes) : Outcome CJson := do
  let testState := (CJson.object []).addStringToObject JKEY_NAME (TmateState.name f)
  match f with
  | .web | .ssh =>
    UTL_LOG_INFO (cStr message)
    match parse (cStr message) with
    | some value => pure (testState.addItemToObject JKEY_VALUE value)
    | none => pure testState
  | .version | .status | .sshString => pure (testState.addStringToObject JKEY_VALUE message)

/-- mirrors Plugins/TmatePlugin.cpp:362-382 -/
def getStatesOutput (path : Bytes) (f : TmateState) (s : σ) : Outcome CJson :=
  testState parse f (readOutput os (scriptOutput (stateScript path f)) s)

/-- The states array of the second ack.
mirrors MainSrc/WebSocketClient.cpp:99-104 -/
def allStates (path : Bytes) (s : σ) : Outcome CJson := do
  let states ← sendOrder.mapM fun f => getStatesOutput os parse path f s
  pure (.array states)

end

end TmatePlugin.L2.Scripts
