import LogQuery.Address
import LogQuery.Number.Integer
import LogQuery.Parameter

/-!
The settings of the service, taken from environment variables.
-/

namespace LogQuery

structure Settings where
  host : String := "0.0.0.0"
  portNumber : Nat := 8080
  defaultLimit : Int := 100
  defaultTimezone : String := "UTC"
deriving DecidableEq, Repr

inductive SettingsFault
  | integer (fault : IntegerFault)
  | limitNotPositive (limit : Int)
  | timezone (error : QueryError)
deriving DecidableEq, Repr

def SettingsFault.message : SettingsFault → String
  | integer fault => fault.message
  | limitNotPositive limit =>
      "LOGCHEF_DEFAULT_LIMIT must be positive, got " ++ toString limit
  | timezone error => error.render

namespace Settings

def readInteger (range : IntegerRange) (setting : Option String) (default : Int) :
    Except SettingsFault Int :=
  match setting with
  | none => .ok default
  | some text => (range.read text).mapError .integer

def ofEnvironment (lookup : String → Option String) :
    Except SettingsFault Settings := do
  let defaults : Settings := {}
  let portNumber ← readInteger .unsigned16 (lookup "LOGCHEF_PORT") defaults.portNumber
  let defaultLimit ← readInteger .signed64 (lookup "LOGCHEF_DEFAULT_LIMIT")
    defaults.defaultLimit
  if defaultLimit ≤ 0 then throw (.limitNotPositive defaultLimit)
  let defaultTimezone :=
    (lookup "LOGCHEF_DEFAULT_TIMEZONE").getD defaults.defaultTimezone
  (Parameter.checkTimezone defaultTimezone).mapError .timezone
  return {
    host := (lookup "LOGCHEF_HOST").getD defaults.host
    portNumber := portNumber.toNat
    defaultLimit
    defaultTimezone }

def effectiveLimit (settings : Settings) (requested : Option Int) : Int :=
  (requested.filter (0 < ·)).getD settings.defaultLimit

def socketAddress? (settings : Settings) : Option String :=
  (Address.read? settings.host).map fun address =>
    address.render ++ ":" ++ toString settings.portNumber

end Settings

end LogQuery
