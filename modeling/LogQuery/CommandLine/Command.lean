import LogQuery.Compilation
import LogQuery.Number.Integer

/-!
Commands and how they are written as arguments. Arguments that are not understood are
refused as a whole.
-/

namespace LogQuery.CommandLine

/-! ## Arguments -/

inductive Argument
  | terminator
  | long (name : String) (value : Option String)
  | short (letter : Char) (value : Option String)
  | plain (text : String)
deriving DecidableEq, Repr

namespace Argument

def attachedValue? : List Char → Option String
  | [] => none
  | '=' :: value => some (String.ofList value)
  | value => some (String.ofList value)

def ofText (text : String) : Argument :=
  match text.toList with
  | ['-', '-'] => terminator
  | '-' :: '-' :: rest =>
      let name := String.ofList (rest.takeWhile (· != '='))
      match rest.dropWhile (· != '=') with
      | [] => long name none
      | _ :: value => long name (some (String.ofList value))
  | '-' :: letter :: rest => short letter (attachedValue? rest)
  | _ => plain text

example : ofText "--limit=-5" = long "limit" (some "-5") := by decide +kernel
example : ofText "-" = plain "-" := by decide +kernel

end Argument

/-! ## Options -/

inductive Setting
  | dialect
  | schema
  | table
  | timestampField
  | startTime
  | endTime
  | timezone
  | limit
deriving DecidableEq, Repr

namespace Setting

def name : Setting → String
  | dialect => "dialect"
  | schema => "schema"
  | table => "table"
  | timestampField => "timestamp-field"
  | startTime => "start"
  | endTime => "end"
  | timezone => "timezone"
  | limit => "limit"

def letter? : Setting → Option Char
  | dialect => some 'd'
  | schema => some 's'
  | limit => some 'l'
  | _ => none

end Setting

structure Options where
  dialect : Option Dialect := none
  schema : Option String := none
  table : Option String := none
  timestampField : Option String := none
  startTime : Option String := none
  endTime : Option String := none
  timezone : Option String := none
  limit : Option Int := none

namespace Options

def fill (current : Option α) (value : Option α) : Option (Option α) :=
  match current, value with
  | none, some value => some (some value)
  | _, _ => none

def pathOf (text : String) : Option String :=
  if text.isEmpty then none else some text

def assign (options : Options) (setting : Setting) (value : String) : Option Options :=
  match setting with
  | .dialect => do
      return { options with dialect := ← fill options.dialect (Dialect.ofName? value) }
  | .schema => do return { options with schema := ← fill options.schema (pathOf value) }
  | .table => do return { options with table := ← fill options.table value }
  | .timestampField => do
      return { options with timestampField := ← fill options.timestampField value }
  | .startTime => do return { options with startTime := ← fill options.startTime value }
  | .endTime => do return { options with endTime := ← fill options.endTime value }
  | .timezone => do return { options with timezone := ← fill options.timezone value }
  | .limit => do
      return { options with
        limit := ← fill options.limit (IntegerRange.signed64.read value).toOption }

end Options

/-! ## Commands -/

inductive Verb
  | compile
  | validate
  | detect
  | format
  | build
deriving DecidableEq, Repr

namespace Verb

def name : Verb → String
  | compile => "translate"
  | validate => "validate"
  | detect => "detect"
  | format => "fmt"
  | build => "build"

def all : List Verb := [compile, validate, detect, format, build]

def ofName? (name : String) : Option Verb :=
  all.find? fun verb => verb.name == name

theorem ofName?_name (verb : Verb) : ofName? verb.name = some verb := by
  cases verb <;> rfl

def settings : Verb → List Setting
  | compile => [.dialect, .schema]
  | build =>
      [.dialect, .schema, .table, .timestampField, .startTime, .endTime, .timezone,
        .limit]
  | _ => []

end Verb

structure BuildOptions where
  dialect : Dialect
  schema : Option String
  table : Option String
  timestampField : String
  startTime : String
  endTime : String
  timezone : String
  limit : Int
deriving DecidableEq, Repr

inductive Action
  | compile (dialect : Dialect) (schema : Option String)
  | validate
  | detect
  | format
  | build (options : BuildOptions)
deriving DecidableEq, Repr

inductive Command
  | introduce
  | version
  | act (action : Action) (query : String) (pretty : Bool)
deriving DecidableEq, Repr

/-! ## Reading a verb's arguments -/

structure Reading where
  options : Options := {}
  query : Option String := none
  pretty : Bool := false
  awaiting : Option Setting := none
  terminated : Bool := false

namespace Reading

def setOption (reading : Reading) (setting : Setting) (value : Option String) :
    Option Reading :=
  match value with
  | none => some { reading with awaiting := some setting }
  | some value =>
      do return { reading with options := ← reading.options.assign setting value }

def setQuery (reading : Reading) (query : String) : Option Reading :=
  if reading.query.isSome then none else some { reading with query := some query }

def setPretty (reading : Reading) : Option Reading :=
  if reading.pretty then none else some { reading with pretty := true }

def take (verb : Verb) (reading : Reading) (text : String) : Option Reading :=
  let argument := if reading.terminated then .plain text else Argument.ofText text
  match reading.awaiting, argument with
  | some setting, .plain value => do
      return { reading with
        options := ← reading.options.assign setting value
        awaiting := none }
  | some _, _ => none
  | none, .plain query => reading.setQuery query
  | none, .terminator => some { reading with terminated := true }
  | none, .long "pretty" none => reading.setPretty
  | none, .long name value => do
      reading.setOption (← verb.settings.find? (·.name == name)) value
  | none, .short letter value => do
      reading.setOption (← verb.settings.find? (·.letter? == some letter)) value

end Reading

/-- The action of a verb. Options that are not given are looked up among the variables
of the environment first. -/
def Verb.action? (verb : Verb) (options : Options) (lookup : String → Option String) :
    Option Action := do
  let dialect := options.dialect.getD .clickhouse
  let schemaOf : Option (Option String) :=
    match options.schema, lookup "LOGCHEF_SCHEMA" with
    | none, some path => (Options.pathOf path).map some
    | path, _ => some path
  match verb with
  | .compile => return .compile dialect (← schemaOf)
  | .validate => return .validate
  | .detect => return .detect
  | .format => return .format
  | .build =>
      return .build {
        dialect
        schema := ← schemaOf
        table := options.table
        timestampField := options.timestampField.getD "timestamp"
        startTime := ← options.startTime
        endTime := ← options.endTime
        timezone := options.timezone.getD ((lookup "LOGCHEF_TIMEZONE").getD "UTC")
        limit := options.limit.getD 100 }

def Verb.read? (verb : Verb) (lookup : String → Option String) (pretty : Bool)
    (arguments : List String) : Option Command := do
  let reading ← arguments.foldlM (Reading.take verb) {}
  guard reading.awaiting.isNone
  let query ← reading.query
  return .act (← verb.action? reading.options lookup) query (pretty || reading.pretty)

def Command.readFrom? (lookup : String → Option String) (pretty : Bool) :
    List String → Option Command
  | [] => some .introduce
  | text :: rest =>
      match Verb.ofName? text, Argument.ofText text with
      | some verb, _ => verb.read? lookup pretty rest
      | none, .terminator => if rest.isEmpty then some .introduce else none
      | none, .long "version" none => some .version
      | none, .short 'V' _ => some .version
      | none, .long "pretty" none =>
          if pretty then none else Command.readFrom? lookup true rest
      | none, _ => none

def Command.read? (lookup : String → Option String) (arguments : List String) :
    Option Command :=
  Command.readFrom? lookup false arguments

end LogQuery.CommandLine
