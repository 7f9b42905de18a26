import ComputeArray.Text.Blank
import ComputeArray.Value.Integer
import ComputeArray.Value.Truth

/-!
# Options

The options an adapter and a device are requested with. They are given by name, or read from
environment variables that explicit settings override. A variable for the workgroup size is read
before the overrides are applied, so a malformed one is refused even if it would be overridden. The
names that stand for the receiver of a call cannot be set.
-/

set_option autoImplicit false

namespace ComputeArray

inductive PowerPreference where
  | highPerformance
  | lowPower
  deriving DecidableEq

namespace PowerPreference

def text : PowerPreference → String
  | .highPerformance => "high-performance"
  | .lowPower => "low-power"

/-- A table is compared cell by cell, and has to have a single one. -/
def ofValue (value : Value) : Except Failure PowerPreference := do
  match value with
  | .text "high-performance" => return .highPerformance
  | .text "low-power" => return .lowPower
  | .table _ _ cells =>
    let _ ← Value.onlyCell cells
    throw (.unknownPowerPreference value)
  | value => throw (.unknownPowerPreference value)

end PowerPreference

structure Options where
  power : PowerPreference
  /-- Whether half precision is asked for, as the caller put it. -/
  halfPrecision : Value
  workgroupSize : Int
  label : Value

namespace Options

/-- Named settings; the value of a name is its first one. -/
abbrev Settings := List (String × Value)

def fields : List String := ["power_preference", "enable_f16", "workgroup_size", "label"]

def constructor : String := "BackendOptions.__init__"

/-- Options from named settings, with defaults for the missing ones. -/
def ofSettings (settings : Settings) : Except Failure Options := do
  if let some (name, _) := settings.find? fun (name, _) => !fields.contains name then
    throw (if name = "self" then .repeatedArgument constructor name
      else .unexpectedKeyword constructor name)
  let setting (name : String) (default : Value) : Value := (settings.lookup name).getD default
  let power ← PowerPreference.ofValue (setting "power_preference" (.text "high-performance"))
  let size ← (setting "workgroup_size" (.int 256)).toInt
  if size ≤ 0 then throw (.workgroupSizeNotPositive size)
  return ⟨power, setting "enable_f16" (.bool true), size, setting "label" (.text "wgpu_array")⟩

abbrev Environment := List (String × String)

/-- The value of a variable that is set and not empty. -/
def nonEmpty? (environment : Environment) (name : String) : Option String :=
  (environment.lookup name).filter (· ≠ "")

/-- Whether a variable is switched on. -/
def isOn (environment : Environment) (name : String) : Bool :=
  let word := String.ofList (Text.trim Text.isBlank ((environment.lookup name).getD "").toList)
  ["1", "true", "yes", "on"].contains (word.map Char.toLower)

/-- The settings the environment makes. -/
def settingsOf (environment : Environment) : Except Failure Settings := do
  let power := (nonEmpty? environment "WGPU_ARRAY_POWER_PREFERENCE").map fun text =>
    ("power_preference", Value.text text)
  let half :=
    if isOn environment "WGPU_ARRAY_DISABLE_F16" then some ("enable_f16", Value.bool false)
    else none
  let size ← (nonEmpty? environment "WGPU_ARRAY_WORKGROUP_SIZE").mapM fun text => do
    return ("workgroup_size", Value.int (← Value.toInt (.text text)))
  return power.toList ++ half.toList ++ size.toList

/-- Options from the environment, overridden by explicit settings. -/
def ofEnvironment (environment : Environment) (overrides : Settings) : Except Failure Options := do
  if (overrides.lookup "cls").isSome then
    throw (.repeatedArgument "BackendOptions.from_env" "cls")
  let settings ← settingsOf environment
  ofSettings (overrides ++ settings)

def shown (options : Options) : String :=
  "BackendOptions(power_preference=" ++ Text.quoted options.power.text
    ++ ", enable_f16=" ++ options.halfPrecision.shown
    ++ ", workgroup_size=" ++ toString options.workgroupSize
    ++ ", label=" ++ options.label.shown ++ ")"

end Options

end ComputeArray
