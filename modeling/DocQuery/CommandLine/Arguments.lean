/-!
# Command line arguments

Options in their long and short forms, each with a value that stands after it or is
attached to it.  The query is required, parameters may be given many times.
-/

namespace DocQuery

namespace CommandLine

inductive Flag where
  | query | documents | parameter | config | database | collection
deriving DecidableEq, Repr

namespace Flag

def ofLong? (name : String) : Option Flag :=
  [("query", query), ("documents", documents), ("param", parameter), ("config", config),
    ("database", database), ("collection", collection)].lookup name

def ofShort? (c : Char) : Option Flag :=
  [('q', query), ('d', documents), ('p', parameter), ('c', config)].lookup c

def namesFile : Flag → Bool
  | documents | config => true
  | _ => false

end Flag

inductive Stop where
  | help
  | misuse
deriving DecidableEq, Repr

/-- What an argument is when no value is awaited. -/
inductive Kind where
  /-- An option with the value attached to it, if there is one. -/
  | flag (flag : Flag) (attached : Option String)
  | help
  /-- From here on no argument is an option. -/
  | terminator
  | unknown
deriving DecidableEq, Repr

def cutAtEquals (cs : List Char) : List Char × Option String :=
  (cs.takeWhile (· != '='),
    match cs.dropWhile (· != '=') with
    | [] => none
    | _ :: value => some (String.ofList value))

def longKind (cs : List Char) : Kind :=
  match cutAtEquals cs with
  | (name, attached) =>
      if name = "help".toList then
        match attached with
        | none => .help
        | some _ => .unknown
      else
        match Flag.ofLong? (String.ofList name) with
        | some flag => .flag flag attached
        | none => .unknown

def shortKind : List Char → Kind
  | [] => .unknown
  | c :: rest =>
      if c = 'h' then .help
      else
        match Flag.ofShort? c, rest with
        | some flag, [] => .flag flag none
        | some flag, '=' :: value => .flag flag (some (String.ofList value))
        | some flag, value => .flag flag (some (String.ofList value))
        | none, _ => .unknown

def kindOf (argument : String) : Kind :=
  match argument.toList with
  | ['-', '-'] => .terminator
  | '-' :: '-' :: rest => longKind rest
  | '-' :: rest => shortKind rest
  | _ => .unknown

/-- Whether an argument cannot be the value of the option before it. -/
def isDashed (argument : String) : Bool :=
  match argument.toList with
  | '-' :: _ :: _ => true
  | _ => false

abbrev Given := List (Flag × String)

/-- Adds a value; only parameters may be repeated, and files need a name. -/
def give (given : Given) (flag : Flag) (value : String) : Except Stop Given :=
  if flag ≠ .parameter ∧ given.any (fun entry => entry.1 = flag) then .error .misuse
  else if flag.namesFile ∧ value = "" then .error .misuse
  else .ok (given ++ [(flag, value)])

/-- Reads arguments from left to right, with the option that awaits a value. -/
def readFrom : Option Flag → Given → List String → Except Stop Given
  | none, given, [] => .ok given
  | some _, _, [] => .error .misuse
  | some flag, given, argument :: rest =>
      if isDashed argument then .error .misuse
      else
        match give given flag argument with
        | .ok given => readFrom none given rest
        | .error stop => .error stop
  | none, given, argument :: rest =>
      match kindOf argument with
      | .flag flag none => readFrom (some flag) given rest
      | .flag flag (some value) =>
          match give given flag value with
          | .ok given => readFrom none given rest
          | .error stop => .error stop
      | .help => .error .help
      | .terminator => if rest.isEmpty then .ok given else .error .misuse
      | .unknown => .error .misuse

structure Arguments where
  query : String
  documents : Option String
  parameters : List String
  config : Option String
  database : String
  collection : String
deriving DecidableEq, Repr

def read (arguments : List String) : Except Stop Arguments :=
  match readFrom none [] arguments with
  | .error stop => .error stop
  | .ok given =>
      match given.lookup .query with
      | none => .error .misuse
      | some query =>
          .ok ⟨query, given.lookup .documents,
            (given.filter fun entry => entry.1 = .parameter).map Prod.snd,
            given.lookup .config, (given.lookup .database).getD "cli",
            (given.lookup .collection).getD "documents"⟩

end CommandLine

end DocQuery
