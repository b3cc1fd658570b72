import DocQuery.CommandLine.Arguments
import DocQuery.Service
import DocQuery.Settings.Basic
import DocQuery.Store.File

/-!
# A run of the command line

A run reads settings and files, fills a collection, answers one query and may write
the store back.  The surroundings are given as operations of a monad, so that a run
is the same over files and over a table of texts.
-/

namespace DocQuery

namespace CommandLine

structure World (m : Type → Type) where
  /-- The text of a file, if it can be read. -/
  contents : String → m (Option String)
  /-- Writes a file and says whether that was possible. -/
  save : String → String → m Bool
  /-- The variables of the environment with some names. -/
  environment : List String → m (String → Option String)
  /-- A new id and stamp. -/
  draw : m Fresh
  /-- The numbers that a query draws. -/
  numbers : m Draws

structure Outcome where
  exitCode : Nat
  output : String
  complaint : String
deriving DecidableEq, Repr

variable {m : Type → Type} [Monad m]

abbrev Task (m : Type → Type) (α : Type) := ExceptT Failure m α

def check {α : Type} (result : Except Failure α) : Task m α :=
  ExceptT.mk (pure result)

def demand (world : World m) (path : String) : Task m String := do
  match ← (world.contents path : Task m _) with
  | some text => return text
  | none => throw (.file path)

/-- The path of the file that sets variables, beside another file. -/
def variablesPath (path : String) : String :=
  String.ofList (path.toList.reverse.dropWhile (· != '/')).reverse ++ Settings.variablesFileName

def settings (world : World m) (config : Option String) : Task m Settings := do
  let path := config.getD Settings.fileName
  let file ← world.contents path
  let variablesFile ← world.contents (variablesPath path)
  let environment ← world.environment (Settings.variablesOf variablesFile)
  match Settings.resolve config.isSome file variablesFile environment with
  | some settings => return settings
  | none => throw .settings

def initialStore (world : World m) (settings : Settings) : Task m Store := do
  match settings.initialData with
  | some path => check (Store.load (← demand world path))
  | none => return Store.empty

def ensureCollection (world : World m) (store : Store) (database collection : String) :
    Task m Store := do
  let store ←
    match (Store.createDatabase database (← world.draw)).run store with
    | .ok _ store => pure store
    | .error (.databaseExists _) store => pure store
    | .error failure _ => throw failure
  match (Store.createCollection database collection [] (← world.draw)).run store with
  | .ok _ store => return store
  | .error (.collectionExists _) store => return store
  | .error failure _ => throw failure

/-- The store with documents added to a collection, or put in the place of older ones. -/
def addDocuments (world : World m) (database collection : String) :
    Store → List Value → Task m Store
  | store, [] => return store
  | store, document :: rest => do
      let fresh ← world.draw
      match (Store.createDocument database collection document true fresh).run store with
      | .ok _ store => addDocuments world database collection store rest
      | .error failure _ => throw failure

def loadDocuments (world : World m) (arguments : Arguments) (store : Store) : Task m Store := do
  match arguments.documents with
  | none => return store
  | some path =>
      match Json.read (← demand world path).toList with
      | some (.array documents) =>
          addDocuments world arguments.database arguments.collection store documents
      | _ => throw .json

def parameters (set : Parameters) : List String → Except Failure Parameters
  | [] => .ok set
  | argument :: rest => do
      let (name, value) ← Parameters.ofArgument argument
      parameters (set.set name value) rest

/-- The results of a run, the store after it, and the file it is to be written to. -/
def answer (world : World m) (arguments : Arguments) :
    Task m (List Value × Store × Option String) := do
  let settings ← settings world arguments.config
  let store ← initialStore world settings
  let store ← ensureCollection world store arguments.database arguments.collection
  let store ← loadDocuments world arguments store
  let parameters ← check (parameters [] arguments.parameters)
  let draws ← world.numbers
  let results ← check (store.runQuery settings.returnAll arguments.database arguments.collection
    arguments.query.toList parameters draws)
  return (results, store, settings.persist)

def printed (results : List Value) : String :=
  (Value.array results).prettyJson ++ "\n"

def usage : String :=
  "Run a query over JSON documents\n\nUsage: [OPTIONS] --query <QUERY>\n\nOptions:\n" ++
  "  -q, --query <QUERY>            Query text\n" ++
  "  -d, --documents <DOCUMENTS>    JSON file holding an array of documents\n" ++
  "  -p, --param <PARAMS>           Query parameter as @name=<json> (repeatable)\n" ++
  "  -c, --config <CONFIG>          Configuration file\n" ++
  "      --database <DATABASE>      Database to query [default: cli]\n" ++
  "      --collection <COLLECTION>  Collection to query [default: documents]\n" ++
  "  -h, --help                     Print help\n"

def runFor (world : World m) (arguments : Arguments) : m Outcome := do
  match ← (answer world arguments).run with
  | .error failure => return ⟨1, "", failure.message⟩
  | .ok (results, _, none) => return ⟨0, printed results, ""⟩
  | .ok (results, store, some path) =>
      if ← world.save path store.dump then return ⟨0, printed results, ""⟩
      else return ⟨1, printed results, (Failure.file path).message⟩

def run (world : World m) (arguments : List String) : m Outcome :=
  match read arguments with
  | .error .help => return ⟨0, usage, ""⟩
  | .error .misuse => return ⟨2, "", usage⟩
  | .ok arguments => runFor world arguments

end CommandLine

end DocQuery
