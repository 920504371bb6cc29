import TmatePlugin.Lib.Shell
import TmatePlugin.L2Plugin.Commands

/-!
# The command line of a start command

`ExecuteReceivedCommand` appends the received value of "password" to the path
of the start script, and `RunPluginScriptCmdOutput` hands the result to
`system`, unquoted. The shell reads it back as the words it was meant to be
exactly when both the value and the configured appGUID are literal
(`password_safe_iff`): without blanks, newline, NUL, quotes, backslash and
`| & ; < > ( ) $ ``, and without a pattern (`*`, `?` or a bracket expression).
-/
namespace TmatePlugin.L2.PasswordArg

open CString Shell
open TmatePlugin.L1.Json
open TmatePlugin.L2.Scripts TmatePlugin.L2.Commands

/-- A system that records the command lines it is given. -/
def recorder : Os (List Bytes) where
  system line lines := (.exited 0, lines ++ [line])
  readFile _ _ := none

/-- The strings that executing a start command hands to `system`. -/
def handedToSystem (appGUID : Bytes) (params : Params) : List Bytes :=
  (executeReceivedCommand recorder (pluginPath appGUID) start params (.object []) []).2

def startScript (appGUID : Bytes) : Bytes := commandScript (pluginPath appGUID) start

def passwordArg (value : Bytes) : Bytes := str "--password=" ++ value

/-- The shell sees the script path, or the script path and the one word with
the received value. -/
def OnlyPassword (appGUID : Bytes) (params : Params) : Prop :=
  ∃ line, handedToSystem appGUID params = [line] ∧
    (splitWords line = some [startScript appGUID] ∨
      ∃ value, params[password]? = some value ∧
        splitWords line = some [startScript appGUID, passwordArg value])

/-! ## The line -/

theorem handedToSystem_eq (appGUID : Bytes) (params : Params) :
    handedToSystem appGUID params =
      [cStr (commandLine (startScript appGUID) (cmdParam start params))] := by
  have hknown : isTmateCommand start = true := by decide
  simp only [handedToSystem, executeReceivedCommand, hknown, if_true, runPluginScriptCmdOutput,
    recorder, List.nil_append, startScript]

theorem onlyPassword_iff (appGUID : Bytes) (params : Params) :
    OnlyPassword appGUID params ↔
      splitWords (cStr (commandLine (startScript appGUID) (cmdParam start params))) =
          some [startScript appGUID] ∨
        ∃ value, params[password]? = some value ∧
          splitWords (cStr (commandLine (startScript appGUID) (cmdParam start params))) =
            some [startScript appGUID, passwordArg value] := by
  simp [OnlyPassword, handedToSystem_eq]

/-- The parameter as one word, from the value of "password". -/
theorem cmdParam_start (params : Params) :
    cmdParam start params =
      match params[password]? with
      | some (c :: v) => passwordArg (c :: v)
      | _ => [] := by
  have hprefix : str "--" ++ password ++ str "=" = str "--password=" := by decide
  rw [cmdParam_eq, if_pos rfl, hprefix]
  rfl

theorem startScript_begins (appGUID : Bytes) :
    ∃ p, startScript appGUID = 47 :: p ∧ isPlain 47 = true ∧ (47 : UInt8) ≠ 35 :=
  ⟨_, rfl, by decide, by decide⟩

theorem passwordArg_begins (value : Bytes) :
    ∃ p, passwordArg value = 45 :: p ∧ isPlain 45 = true ∧ (45 : UInt8) ≠ 35 :=
  ⟨_, rfl, by decide, by decide⟩

theorem startScript_literal_iff (appGUID : Bytes) :
    Literal (startScript appGUID) ↔ Literal appGUID := by
  have hbefore : ∀ c ∈ PLUGINS_PATH, isInert c = true :=
    List.all_eq_true.mp (by decide : PLUGINS_PATH.all isInert = true)
  have hafter : ∀ c ∈ SCRIPTS_COMMANDS_PATH ++ start ++ SCRIPT_EXT, isInert c = true :=
    List.all_eq_true.mp
      (by decide : (SCRIPTS_COMMANDS_PATH ++ start ++ SCRIPT_EXT).all isInert = true)
  have hsplit : startScript appGUID =
      PLUGINS_PATH ++ (appGUID ++ 47 :: (SCRIPTS_COMMANDS_PATH ++ start ++ SCRIPT_EXT)) := by
    have hslash : str "/" = [47] := by decide
    simp [startScript, commandScript, pluginPath, hslash, List.append_assoc]
  rw [hsplit, literal_inert_append hbefore, literal_append_slash hafter]

theorem passwordArg_literal_iff (value : Bytes) : Literal (passwordArg value) ↔ Literal value :=
  literal_inert_append (List.all_eq_true.mp (by decide : (str "--password=").all isInert = true))

/-! ## What the shell makes of it -/

theorem commandLine_passwordArg (appGUID value : Bytes) :
    commandLine (startScript appGUID) (passwordArg value) =
      unwords [startScript appGUID, passwordArg value] := by
  obtain ⟨p, hp, -⟩ := passwordArg_begins value
  have hne : passwordArg value ≠ [] := by rw [hp]; simp
  have hblank : str " " = [32] := by decide
  rw [commandLine, if_neg hne, hblank, List.append_assoc, List.singleton_append]
  rfl

/-- Without a parameter the shell sees the path exactly when the appGUID is
literal. -/
theorem splitWords_script_iff (appGUID : Bytes) :
    splitWords (cStr (startScript appGUID)) = some [startScript appGUID] ↔ Literal appGUID := by
  obtain ⟨p, hp, -, h35⟩ := startScript_begins appGUID
  have := splitWords_cStr_unwords_iff [startScript appGUID] (by simp)
    (by simpa using ⟨_, _, hp, h35⟩)
  rw [List.forall_mem_singleton, startScript_literal_iff] at this
  exact this

/-- With one it sees both words exactly when the value is literal, too. -/
theorem splitWords_line_iff (appGUID value : Bytes) :
    splitWords (cStr (commandLine (startScript appGUID) (passwordArg value))) =
        some [startScript appGUID, passwordArg value] ↔
      Literal appGUID ∧ Literal value := by
  obtain ⟨p, hp, -, h35⟩ := startScript_begins appGUID
  obtain ⟨q, hq, -, hq35⟩ := passwordArg_begins value
  have := splitWords_cStr_unwords_iff [startScript appGUID, passwordArg value] (by simp)
    (by simpa using ⟨⟨_, _, hp, h35⟩, ⟨_, _, hq, hq35⟩⟩)
  rw [List.forall_mem_cons, List.forall_mem_singleton, startScript_literal_iff,
    passwordArg_literal_iff] at this
  rw [commandLine_passwordArg]
  exact this

/-- A parameter does not disappear into the path. -/
theorem splitWords_line_ne (appGUID value : Bytes) :
    splitWords (cStr (commandLine (startScript appGUID) (passwordArg value))) ≠
      some [startScript appGUID] := by
  obtain ⟨p, hp, hplain, h35⟩ := startScript_begins appGUID
  obtain ⟨q, hq, hqplain, hq35⟩ := passwordArg_begins value
  rw [commandLine_passwordArg, unwords_cons, hp, hq]
  exact splitWords_cStr_first hplain h35 (by decide) hqplain hq35

/-- The path alone is not split into the path and a parameter. -/
theorem splitWords_script_ne (appGUID value : Bytes) :
    splitWords (cStr (startScript appGUID)) ≠ some [startScript appGUID, passwordArg value] := by
  intro h
  have hsize := splitWords_size h
  have hlen := cStr_length_le (startScript appGUID)
  simp only [size_cons, size_nil] at hsize
  omega

/-- The shell sees the script path and at most the one word with the received
password exactly when the appGUID and the password are literal. -/
theorem password_safe_iff (appGUID : Bytes) (params : Params) :
    OnlyPassword appGUID params ↔
      Literal appGUID ∧ ∀ value, params[password]? = some value → Literal value := by
  rw [onlyPassword_iff, cmdParam_start]
  cases hvalue : params[password]? with
  | none => simp [splitWords_script_iff]
  | some value =>
    simp only [Option.some.injEq, forall_eq', exists_eq_left']
    cases value with
    | nil => simp [splitWords_script_iff, splitWords_script_ne, literal_nil]
    | cons c v => simp only [splitWords_line_ne, false_or, splitWords_line_iff]

/-- The password "a;reboot" ends the command and starts another one. -/
theorem password_runs_command :
    ¬ ∀ (appGUID : Bytes) (params : Params), Literal appGUID → OnlyPassword appGUID params := by
  intro h
  have hline : (handedToSystem (str "GUID") ((∅ : Params).insertIfNew password (str "a;reboot"))).map
      splitWords = [none] := by decide
  obtain ⟨line, hhanded, hwords⟩ := h (str "GUID")
    ((∅ : Params).insertIfNew password (str "a;reboot"))
    (by decide)
  rw [hhanded, List.map_singleton, List.cons.injEq] at hline
  rcases hwords with hwords | ⟨value, -, hwords⟩ <;>
    (rw [hwords] at hline; cases hline.1)

end TmatePlugin.L2.PasswordArg
