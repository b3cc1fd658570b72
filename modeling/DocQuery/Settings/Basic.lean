import DocQuery.Settings.Environment
import DocQuery.Settings.Toml.Document

/-!
# Settings

What a run is configured by: a settings file, and variables of the environment
that go before it.
-/

namespace DocQuery

structure Settings where
  logFilter : String
  initialData : Option String
  persist : Option String
  /-- Whether a text that is no query answers with all documents. -/
  returnAll : Bool
deriving DecidableEq, Repr

namespace Settings

def default : Settings := ⟨"cosmoql=info", none, none, true⟩

def fileName : String := "cosmoql.toml"

def variablesFileName : String := ".env"

def logVariable : String := "COSMOQL_LOG"

def initialDataVariable : String := "COSMOQL_INITIAL_DATA"

def persistVariable : String := "COSMOQL_PERSIST"

def returnAllVariable : String := "COSMOQL_RETURN_ALL_ON_PARSE_ERROR"

def variableNames : List String :=
  [logVariable, initialDataVariable, persistVariable, returnAllVariable]

/-- A text under a name; refused when it is something else. -/
def text? (document : Toml.Table) (name : String) : Option (Option String) :=
  match document.datum? name with
  | none => some none
  | some (.text s) => some (some s)
  | some _ => none

def flag? (document : Toml.Table) (name : String) : Option (Option Bool) :=
  match document.datum? name with
  | none => some none
  | some (.flag b) => some (some b)
  | some _ => none

/-- The settings that a file's text says, if it is well formed. -/
def ofToml (text : String) : Option Settings := do
  let document ← Toml.read text.toList
  let logFilter ← text? document "log_filter"
  let initialData ← text? document "initial_data"
  let persist ← text? document "persist"
  let returnAll ← flag? document "return_all_on_parse_error"
  some ⟨logFilter.getD default.logFilter, initialData, persist, returnAll.getD default.returnAll⟩

def nonEmpty (lookup : String → Option String) (name : String) : Option String :=
  (lookup name).filter (· != "")

def truth? (text : String) : Option Bool :=
  let word := (Text.trimBlanks text.toList).map Char.toLower
  if ["1".toList, "true".toList, "yes".toList].contains word then some true
  else if ["0".toList, "false".toList, "no".toList].contains word then some false
  else none

/-- Settings with the variables of the environment, which go before them. -/
def withVariables (settings : Settings) (lookup : String → Option String) : Settings :=
  ⟨(nonEmpty lookup logVariable).getD settings.logFilter,
    nonEmpty lookup initialDataVariable <|> settings.initialData,
    nonEmpty lookup persistVariable <|> settings.persist,
    ((lookup returnAllVariable).bind truth?).getD settings.returnAll⟩

def variablesOf (file : Option String) : List String :=
  variableNames ++ (file.map fun text => Variables.mentioned text.toList).getD []

def variableOf (environment : String → Option String) (file : Option String) :
    String → Option String :=
  Variables.lookupIn environment ((file.map (Variables.ofText environment)).getD [])

/--
The settings of a run: those of a settings file, if it has to exist or exists, with
the variables of the environment and those of a file beside it.
-/
def resolve (required : Bool) (file variablesFile : Option String)
    (environment : String → Option String) : Option Settings := do
  let settings ←
    match file with
    | some text => ofToml text
    | none => if required then none else some default
  some (settings.withVariables (variableOf environment variablesFile))

end Settings

end DocQuery
