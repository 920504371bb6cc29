import TmatePlugin.L2Plugin.Commands

/-!
# The output files, under two names

`Init` puts the names of the watched files together from the plugin's path, the
name of the state and ".output". Whoever reads an output cuts the script's path
at the first ".sh" in it and appends ".output", and the path begins with the
configured appGUID.

* `infix_path_iff`: an extension in such a path is in the appGUID or in the
  script's name.
* `watched_is_read_iff`: both names are the same, for a state and for a
  command, exactly when there is no ".sh" in the appGUID and in the command's
  name.
-/
namespace TmatePlugin.L2.OutputPaths

open CString
open TmatePlugin.L2.StateFiles TmatePlugin.L2.Scripts TmatePlugin.L2.Commands

/-- `m_statusOutput` and the four like it.
mirrors Plugins/TmatePlugin.cpp:313-323 -/
def stateOutput (path : Bytes) (f : TmateState) : Bytes :=
  path ++ SCRIPTS_STATES_PATH ++ TmateState.name f ++ SCRIPT_OUTPUT_EXT

/-- Where a command's script writes, next to itself. -/
def commandOutput (path cmdName : Bytes) : Bytes :=
  path ++ SCRIPTS_COMMANDS_PATH ++ cmdName ++ SCRIPT_OUTPUT_EXT

/-- The extension is found at the end exactly when it is nowhere else. -/
theorem scriptOutput_iff (script : Bytes) :
    scriptOutput (script ++ SCRIPT_EXT) = script ++ SCRIPT_OUTPUT_EXT ↔ ¬ SCRIPT_EXT <:+: script := by
  rw [scriptOutput, List.append_left_inj]
  exact substrBefore_append_self_iff (by decide) (by decide) script

/-- Nothing but the appGUID and the name can have the extension in it. -/
theorem infix_path_iff {directory middle : Bytes} (hdirectory : directory = middle ++ str "/")
    (hmiddle : ¬ SCRIPT_EXT <:+: middle) (appGUID name : Bytes) :
    SCRIPT_EXT <:+: pluginPath appGUID ++ directory ++ name ↔
      SCRIPT_EXT <:+: appGUID ∨ SCRIPT_EXT <:+: name := by
  have hslash : str "/" = [47] := by decide
  have hplugins : PLUGINS_PATH = str "/opt/allxon/plugIN" ++ [47] := by decide
  have hpath : pluginPath appGUID ++ directory ++ name =
      str "/opt/allxon/plugIN" ++ 47 :: (appGUID ++ 47 :: (middle ++ 47 :: name)) := by
    rw [pluginPath, hdirectory, hplugins, hslash]
    simp
  have hsep : (47 : UInt8) ∉ SCRIPT_EXT := by decide
  have hbase : ¬ SCRIPT_EXT <:+: str "/opt/allxon/plugIN" := by decide
  rw [hpath, infix_append_cons_iff hsep, infix_append_cons_iff hsep, infix_append_cons_iff hsep]
  simp only [hbase, hmiddle, false_or]

theorem not_infix_stateName (f : TmateState) : ¬ SCRIPT_EXT <:+: TmateState.name f := by
  cases f <;> decide

theorem stateOutput_iff (appGUID : Bytes) (f : TmateState) :
    scriptOutput (stateScript (pluginPath appGUID) f) = stateOutput (pluginPath appGUID) f ↔
      ¬ SCRIPT_EXT <:+: appGUID := by
  unfold stateScript stateOutput
  have hdirectory : SCRIPTS_STATES_PATH = str "scripts/states" ++ str "/" := by decide
  rw [scriptOutput_iff, infix_path_iff hdirectory (by decide), or_iff_left (not_infix_stateName f)]

theorem commandOutput_iff (appGUID cmdName : Bytes) :
    scriptOutput (commandScript (pluginPath appGUID) cmdName) =
        commandOutput (pluginPath appGUID) cmdName ↔
      ¬ SCRIPT_EXT <:+: appGUID ∧ ¬ SCRIPT_EXT <:+: cmdName := by
  unfold commandScript commandOutput
  have hdirectory : SCRIPTS_COMMANDS_PATH = str "scripts/commands" ++ str "/" := by decide
  rw [scriptOutput_iff, infix_path_iff hdirectory (by decide), not_or]

/-- The names of the commands that are run have no extension. -/
theorem not_infix_tmateCommand {cmdName : Bytes} (h : isTmateCommand cmdName = true) :
    ¬ SCRIPT_EXT <:+: cmdName := by
  simp only [isTmateCommand, Bool.or_eq_true, decide_eq_true_eq] at h
  rcases h with ((rfl | rfl) | rfl) | rfl <;> decide

/-- The commands that are run read what their scripts write, up to the appGUID. -/
theorem tmateCommand_output_iff (appGUID : Bytes) {cmdName : Bytes}
    (h : isTmateCommand cmdName = true) :
    scriptOutput (commandScript (pluginPath appGUID) cmdName) =
        commandOutput (pluginPath appGUID) cmdName ↔ ¬ SCRIPT_EXT <:+: appGUID := by
  rw [commandOutput_iff, and_iff_left (not_infix_tmateCommand h)]

/-- The file that is watched or written is the file that is read, exactly when
the appGUID and the name of the command do not contain ".sh". -/
theorem watched_is_read_iff (appGUID cmdName : Bytes) (f : TmateState) :
    (scriptOutput (stateScript (pluginPath appGUID) f) = stateOutput (pluginPath appGUID) f ∧
      scriptOutput (commandScript (pluginPath appGUID) cmdName) =
        commandOutput (pluginPath appGUID) cmdName) ↔
      ¬ SCRIPT_EXT <:+: appGUID ∧ ¬ SCRIPT_EXT <:+: cmdName := by
  rw [stateOutput_iff, commandOutput_iff, ← and_assoc, and_self]

/-- With the appGUID "a.sh" the state is read from /opt/allxon/plugIN/a.output. -/
theorem other_file_read :
    ¬ ∀ (appGUID cmdName : Bytes) (f : TmateState),
      scriptOutput (stateScript (pluginPath appGUID) f) = stateOutput (pluginPath appGUID) f ∧
        scriptOutput (commandScript (pluginPath appGUID) cmdName) =
          commandOutput (pluginPath appGUID) cmdName := by
  intro h
  have hread : scriptOutput (stateScript (pluginPath (str "a.sh")) .web) =
      str "/opt/allxon/plugIN/a.output" := by decide
  have hsame := (h (str "a.sh") start .web).1
  rw [hread] at hsame
  exact absurd hsame (by decide)

end TmatePlugin.L2.OutputPaths
