import Mathlib.Data.List.DropRight
import TmatePlugin.L2Plugin.PluginData

/-!
# Looking up an alarm by its name

`IsAlarmEnabled` goes through all alarms of a module and keeps the flag of the
last one that its test accepts. The test compares the `int` of
`string::compare` with `string::npos`, a `size_t`: every result but -1 passes,
0 and the results for other names alike.

Of `compare` only the sign is documented, so it is a parameter
(`StringCompare`).

* `isAlarmEnabled_eq`: the flag of the last alarm whose comparison is not -1.
* `isAlarmEnabled_iff`: that is the flag of the last alarm of the name exactly
  when no alarm behind it passes the test with another flag.
-/
namespace TmatePlugin.L2.Alarms

open CString
open TmatePlugin.L1.Json
open TmatePlugin.L2.PluginData

/-- mirrors PluginSDK/AlertsPluginJson.h:10 -/
def JKEY_ENABLED : Bytes := str "enabled"

/-- `a.compare(b)`, an `int`: zero for equal strings, negative when `a` is
the smaller one. -/
structure StringCompare where
  compare : Bytes → Bytes → BitVec 32
  eq_zero_iff : ∀ a b, compare a b = 0#32 ↔ a = b
  neg_iff : ∀ a b, (compare a b).toInt < 0 ↔ a < b

/-- `std::string::npos`, the largest `size_t`. -/
def npos : BitVec 64 := BitVec.allOnes 64

/-- What `GetAlarms` returns for a module.
mirrors PluginSDK/AlertsPluginJson.h:32-39 -/
structure CAlarmUpdatePluginJson where
  getAlarms : Bytes → List CJson

section
variable (sdk : Sdk) (cmp : StringCompare)

def alarmNameOf (alarm : CJson) : Bytes := sdk.getJSONStringFieldValue alarm JKEY_NAME

def enabledOf (alarm : CJson) : Bool := sdk.getJSONBooleanFieldValue alarm JKEY_ENABLED

/-- `alarmName.compare(…) != string::npos`; the `int` is converted to the
unsigned type. -/
def nameMatches (alarmName : Bytes) (alarm : CJson) : Bool :=
  (cmp.compare alarmName (alarmNameOf sdk alarm)).signExtend 64 ≠ npos

/-- mirrors Plugins/PluginSample.cpp:894-912 -/
def isAlarmEnabled (moduleName : Bytes) (alarmUpdate : Option CAlarmUpdatePluginJson)
    (alarmName : Bytes) : Bool :=
  match alarmUpdate with
  | none => false
  | some alarmUpdate =>
    (alarmUpdate.getAlarms moduleName).foldl (fun enabled alarm =>
      if nameMatches sdk cmp alarmName alarm then enabledOf sdk alarm else enabled) false

/-! ## The test -/

/-- Only -1 is `npos`. -/
theorem nameMatches_iff (alarmName : Bytes) (alarm : CJson) :
    nameMatches sdk cmp alarmName alarm = true ↔
      (cmp.compare alarmName (alarmNameOf sdk alarm)).toInt ≠ -1 := by
  have hnpos : npos.toInt = -1 := by decide
  have hext := BitVec.toInt_signExtend_of_le (x := cmp.compare alarmName (alarmNameOf sdk alarm))
    (v := 64) (by omega)
  rw [nameMatches, decide_eq_true_eq, ne_eq, ← BitVec.toInt_inj, hext, hnpos]

/-- An alarm of the name passes. -/
theorem nameMatches_of_eq {alarmName : Bytes} {alarm : CJson}
    (h : alarmNameOf sdk alarm = alarmName) : nameMatches sdk cmp alarmName alarm = true := by
  have hzero : cmp.compare alarmName (alarmNameOf sdk alarm) = 0#32 :=
    (cmp.eq_zero_iff _ _).mpr h.symm
  rw [nameMatches_iff, hzero]
  decide

/-! ## The last one counts -/

/-- The flag of the last alarm that `p` accepts, false without one. -/
def lastEnabled (p : CJson → Bool) (alarms : List CJson) : Bool :=
  ((alarms.filter p).getLast?.map (enabledOf sdk)).getD false

theorem lastEnabled_concat (p : CJson → Bool) (alarms : List CJson) (alarm : CJson) :
    lastEnabled sdk p (alarms ++ [alarm]) =
      if p alarm then enabledOf sdk alarm else lastEnabled sdk p alarms := by
  unfold lastEnabled
  rw [List.filter_append, List.filter_singleton]
  cases p alarm <;> simp

theorem isAlarmEnabled_eq (moduleName alarmName : Bytes) (alarmUpdate : CAlarmUpdatePluginJson) :
    isAlarmEnabled sdk cmp moduleName (some alarmUpdate) alarmName =
      lastEnabled sdk (nameMatches sdk cmp alarmName) (alarmUpdate.getAlarms moduleName) := by
  unfold isAlarmEnabled
  simp only
  induction alarmUpdate.getAlarms moduleName using List.reverseRecOn with
  | nil => rfl
  | append_singleton alarms alarm ih =>
    rw [List.foldl_append, lastEnabled_concat, ← ih]
    rfl

/-- The alarms behind the last one of the name; all of them without one. -/
def behind (alarmName : Bytes) (alarms : List CJson) : List CJson :=
  alarms.rtakeWhile fun alarm => alarmNameOf sdk alarm ≠ alarmName

/-- A test that passes the alarms of the name decides by what is behind them. -/
theorem lastEnabled_behind (alarmName : Bytes) (alarms : List CJson) :
    lastEnabled sdk (nameMatches sdk cmp alarmName) alarms =
      (((behind sdk alarmName alarms).filter (nameMatches sdk cmp alarmName)).getLast?.map
        (enabledOf sdk)).getD (lastEnabled sdk (alarmNameOf sdk · = alarmName) alarms) := by
  induction alarms using List.reverseRecOn with
  | nil => rfl
  | append_singleton alarms alarm ih =>
    rw [lastEnabled_concat, lastEnabled_concat, behind, List.rtakeWhile_concat]
    by_cases hname : alarmNameOf sdk alarm = alarmName
    · have hmatch := nameMatches_of_eq sdk cmp hname
      simp [hname, hmatch]
    · rw [behind] at ih
      by_cases hmatch : nameMatches sdk cmp alarmName alarm = true
      · simp [hname, hmatch, List.filter_append]
      · simp [hname, hmatch, List.filter_append, ih]

/-- The lookup finds the flag of the last alarm of the name exactly when the
last alarm behind it that passes the test, if any, has the same flag. -/
theorem isAlarmEnabled_iff (moduleName alarmName : Bytes) (alarmUpdate : CAlarmUpdatePluginJson) :
    let alarms := alarmUpdate.getAlarms moduleName
    let enabled := lastEnabled sdk (alarmNameOf sdk · = alarmName) alarms
    isAlarmEnabled sdk cmp moduleName (some alarmUpdate) alarmName = enabled ↔
      ∀ alarm ∈ ((behind sdk alarmName alarms).filter (nameMatches sdk cmp alarmName)).getLast?,
        enabledOf sdk alarm = enabled := by
  intro alarms enabled
  rw [isAlarmEnabled_eq, lastEnabled_behind]
  cases ((behind sdk alarmName alarms).filter (nameMatches sdk cmp alarmName)).getLast? with
  | none => simp [alarms, enabled]
  | some alarm => simp [alarms, enabled]

end

/-- The smaller, the same and the greater string. -/
def threeWayCompare : StringCompare where
  compare a b := if a < b then -1#32 else if a = b then 0#32 else 1#32
  eq_zero_iff a b := by
    by_cases hlt : a < b
    · rw [if_pos hlt]
      exact ⟨fun h => absurd h (by decide), fun h => absurd hlt (h ▸ List.lt_irrefl a)⟩
    · rw [if_neg hlt]
      by_cases heq : a = b
      · simp [heq]
      · rw [if_neg heq]
        exact ⟨fun h => absurd h (by decide), fun h => absurd h heq⟩
  neg_iff a b := by
    by_cases hlt : a < b
    · rw [if_pos hlt]
      exact ⟨fun _ => hlt, fun _ => by decide⟩
    · rw [if_neg hlt]
      refine ⟨fun h => absurd h ?_, fun h => absurd h hlt⟩
      split <;> decide

/-- The alarm "a" is enabled, and "b" is reported to be. -/
theorem other_alarm_enabled :
    ¬ ∀ (sdk : Sdk) (cmp : StringCompare) (moduleName alarmName : Bytes)
        (alarmUpdate : CAlarmUpdatePluginJson),
      isAlarmEnabled sdk cmp moduleName (some alarmUpdate) alarmName =
        lastEnabled sdk (alarmNameOf sdk · = alarmName) (alarmUpdate.getAlarms moduleName) := by
  intro h
  let alarm : CJson := .object [(str "name", .string (str "a")), (str "enabled", .bool true)]
  have hb := h plainSdk threeWayCompare (str "tmateWebConsole") (str "b") ⟨fun _ => [alarm]⟩
  exact absurd hb (by decide)

end TmatePlugin.L2.Alarms
