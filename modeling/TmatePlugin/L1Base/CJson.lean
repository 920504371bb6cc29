import TmatePlugin.Lib.CString

/-!
# cJSON values

The tree that Util/src/cJSON.c builds, as far as the plugin reads and writes
it: object lookup (ASCII case is ignored), the children of a node with the
three pointers the plugin follows (`string`, `valuestring`, `next`), appending
members to an object and overwriting a string. Keys and string values are C
strings. A number keeps its text, nothing here computes with it. There are no raw
items (`cJSON_Raw`): nothing in the plugin makes one.
-/
namespace TmatePlugin.L1.Json

open CString

inductive CJson where
  | null
  | bool (b : Bool)
  | number (text : Bytes)
  | string (valuestring : Bytes)
  | array (items : List CJson)
  | object (members : List (Bytes × CJson))

namespace CJson

/-- `tolower` on one byte. -/
def tolower (c : UInt8) : UInt8 := if 65 ≤ c ∧ c ≤ 90 then c + 32 else c

/-- mirrors Util/src/cJSON.c:133-155 -/
def caseInsensitiveEq (a b : Bytes) : Bool := (cStr a).map tolower = (cStr b).map tolower

/-- The first member whose key matches; the items of an array have no key.
mirrors Util/src/cJSON.c:1876-1911 -/
def getObjectItem (json : CJson) (key : Bytes) : Option CJson :=
  match json with
  | .object members => (members.find? fun m => caseInsensitiveEq key m.1).map (·.2)
  | _ => none

/-- An existing key is not replaced.
mirrors Util/src/cJSON.c:2007-2047 -/
def addItemToObject (json : CJson) (key : Bytes) (item : CJson) : CJson :=
  match json with
  | .object members => .object (members ++ [(cStr key, item)])
  | other => other

/-- mirrors Util/src/cJSON.c:2135-2145 -/
def addStringToObject (json : CJson) (key value : Bytes) : CJson :=
  json.addItemToObject key (.string (cStr value))

/-- mirrors Util/src/cJSON.c:2947-2955 -/
def isArray : CJson → Bool
  | .array _ => true
  | _ => false

/-- What `cJSON_ArrayForEach` visits, arrays and objects alike: the `string`
pointer of each child, NULL in an array, and the child. -/
def children : CJson → List (Option Bytes × CJson)
  | .array items => items.map fun item => (none, item)
  | .object members => members.map fun m => (some (cStr m.1), m.2)
  | _ => []

/-- The `valuestring` pointer, which is also `cJSON_GetStringValue`.
mirrors Util/src/cJSON.c:99-107 -/
def valuestring : CJson → Option Bytes
  | .string v => some (cStr v)
  | _ => none

/-- On a node of another type nothing is done.
mirrors Util/src/cJSON.c:400-425 -/
def setValuestring (json : CJson) (valuestring : Bytes) : CJson :=
  match json with
  | .string _ => .string (cStr valuestring)
  | other => other

/-- The members after `cJSON_SetValuestring` on the first one whose key
matches; `none` without such a member. -/
def setMember (key valuestring : Bytes) : List (Bytes × CJson) → Option (List (Bytes × CJson))
  | [] => none
  | m :: members =>
    if caseInsensitiveEq key m.1 then some ((m.1, m.2.setValuestring valuestring) :: members)
    else (setMember key valuestring members).map (m :: ·)

/-- `cJSON_SetValuestring(cJSON_GetObjectItem(json, key), valuestring)`; `none`
when the item is NULL. -/
def setItemValuestring (json : CJson) (key valuestring : Bytes) : Option CJson :=
  match json with
  | .object members => (setMember key valuestring members).map .object
  | _ => none

theorem setMember_isSome (key valuestring : Bytes) (members : List (Bytes × CJson)) :
    (setMember key valuestring members).isSome =
      (members.find? fun m => caseInsensitiveEq key m.1).isSome := by
  induction members with
  | nil => rfl
  | cons m members ih =>
    rw [setMember, List.find?_cons]
    split
    · rename_i h; rw [h]; rfl
    · rename_i h
      rw [Bool.not_eq_true] at h
      rw [h, Option.isSome_map, ih]

theorem setItemValuestring_isSome (json : CJson) (key valuestring : Bytes) :
    (json.setItemValuestring key valuestring).isSome = (json.getObjectItem key).isSome := by
  cases json with
  | object members =>
    simp only [setItemValuestring, getObjectItem, Option.isSome_map]
    exact setMember_isSome key valuestring members
  | _ => rfl

/-- Keys that match one key match each other. -/
theorem caseInsensitiveEq_of_common {key other k : Bytes} (h : caseInsensitiveEq key k = true)
    (h' : caseInsensitiveEq other k = true) : caseInsensitiveEq other key = true := by
  simp only [caseInsensitiveEq, decide_eq_true_eq] at h h' ⊢
  rw [h', h]

theorem find?_setMember {key other valuestring : Bytes} {members members' : List (Bytes × CJson)}
    (hne : caseInsensitiveEq other key = false) (h : setMember key valuestring members = some members') :
    members'.find? (fun m => caseInsensitiveEq other m.1) =
      members.find? fun m => caseInsensitiveEq other m.1 := by
  induction members generalizing members' with
  | nil => cases h
  | cons m members ih =>
    rw [setMember] at h
    split at h
    · rename_i hk
      cases h
      have hother : caseInsensitiveEq other m.1 = false := by
        rw [Bool.eq_false_iff]
        intro ho
        rw [caseInsensitiveEq_of_common hk ho] at hne
        cases hne
      simp [hother]
    · obtain ⟨rest, hrest, rfl⟩ := Option.map_eq_some_iff.mp h
      rw [List.find?_cons, List.find?_cons, ih hrest]

/-- The other members are read as before. -/
theorem getObjectItem_setItemValuestring {json json' : CJson} {key other valuestring : Bytes}
    (hne : caseInsensitiveEq other key = false)
    (h : json.setItemValuestring key valuestring = some json') :
    json'.getObjectItem other = json.getObjectItem other := by
  cases json with
  | object members =>
    obtain ⟨members', hm, rfl⟩ := Option.map_eq_some_iff.mp h
    simp only [getObjectItem, find?_setMember hne hm]
  | _ => cases h

end CJson

/-! ## The keys of PluginSDK/BasePluginObject.h, CommandAcksPluginJson.h and UpdatePluginJson.h -/

def JKEY_NAME : Bytes := str "name"
def JKEY_VALUE : Bytes := str "value"
def JKEY_PARAMS : Bytes := str "params"
def JKEY_RESULT : Bytes := str "result"
def JKEY_APP_NAME : Bytes := str "appName"
def JKEY_VERSION : Bytes := str "version"
def JKEY_APP_GUID : Bytes := str "appGUID"
def JKEY_DISPLAY_NAME : Bytes := str "displayName"
def JKEY_TYPE : Bytes := str "type"
def JKEY_MODULE_NAME : Bytes := str "moduleName"
def JKEY_DISPLAY_TYPE : Bytes := str "displayType"
def JKEY_DISPLAY_UNIT : Bytes := str "displayUnit"
def JKEY_DESCRIPTION : Bytes := str "description"
def JKEY_DISPLAY_CATEGORY : Bytes := str "displayCategory"
def JKEY_START_COMMAND : Bytes := str "startCommand"
def JKEY_STOP_COMMAND : Bytes := str "stopCommand"
def JKEY_MODULES : Bytes := str "modules"
def JKEY_REQUIRED : Bytes := str "required"
def JKEY_REQUIRED_ON : Bytes := str "requiredOn"
def JKEY_DISPLAY_FORMAT : Bytes := str "displayFormat"
def JKEY_DISPLAY_VALUES : Bytes := str "displayValues"
def JKEY_DEFAULT_VALUE : Bytes := str "defaultValue"
def JKEY_LINK_URL : Bytes := str "url"
def JKEY_LINK_ALIAS : Bytes := str "alias"
def JKEY_DISPLAY_ON_PROPERTY : Bytes := str "displayOnProperty"
def JKEY_DISPLAY_MASK : Bytes := str "displayMask"
def JKEY_VALUE_ENCODING : Bytes := str "valueEncoding"

end TmatePlugin.L1.Json
