import Packrat.Journal

/-!
# Requests on the command line

Arguments are read from left to right.  An option may stand before or after the path of
the document, once; `--` ends the options.  The first request for help or for the
version is final, whatever comes after it.
-/

namespace Packrat.CommandLine

structure Job where
  path : String
  pretty : Bool
  threshold : Level
  deriving DecidableEq, Repr

inductive Request where
  | help
  | version
  | check (job : Job)
  deriving DecidableEq, Repr

/-- The level of a name; diagnostics are shown from warnings on if the name is none. -/
def levelNamed (name : String) : Level :=
  match name with
  | "trace" => .trace
  | "debug" => .debug
  | "info" => .info
  | "error" => .error
  | _ => .warn

inductive Argument where
  | separator
  | long (name : String) (value : Option String)
  | short (cluster : List Char)
  | plain (text : String)
  deriving DecidableEq, Repr

namespace Argument

/-- The form of an argument.  A lone hyphen is no option. -/
def ofString (text : String) : Argument :=
  match text.toList with
  | ['-', '-'] => .separator
  | '-' :: '-' :: rest =>
      match rest.dropWhile (· ≠ '=') with
      | _ :: value => .long (String.ofList (rest.takeWhile (· ≠ '='))) (some (String.ofList value))
      | [] => .long (String.ofList rest) none
  | '-' :: c :: rest => .short (c :: rest)
  | _ => .plain text

end Argument

structure Given where
  path : Option String
  pretty : Bool
  levelName : Option String
  awaitsLevel : Bool
  deriving DecidableEq, Repr

namespace Given

def nothing : Given := ⟨none, false, none, false⟩

def withLevel? (given : Given) (name : String) : Option Given :=
  match given.levelName with
  | none => some { given with levelName := some name, awaitsLevel := false }
  | some _ => none

def withPretty? (given : Given) : Option Given :=
  if given.pretty then none else some { given with pretty := true }

/-- The path was given; an empty path and a second one are refused. -/
def withPath? (given : Given) (path : String) : Option Given :=
  match given.path with
  | none => if path.isEmpty then none else some { given with path := some path }
  | some _ => none

def job? (given : Given) : Option Job :=
  given.path.map fun path =>
    ⟨path, given.pretty, (given.levelName.map levelNamed).getD .warn⟩

end Given

/-- The effect of one argument: it adds to what is given, or it settles the request. -/
inductive Effect where
  | adds (given : Given)
  | settles (request : Request)

def longEffect? (given : Given) (name : String) (value : Option String) : Option Effect :=
  match name, value with
  | "log-level", none => some (.adds { given with awaitsLevel := true })
  | "log-level", some level => (given.withLevel? level).map .adds
  | "pretty", none => given.withPretty?.map .adds
  | "version", none => some (.settles .version)
  | "help", none => some (.settles .help)
  | _, _ => none

/-- The effect of an option with a short name, which may have its value attached. -/
def shortEffect? (given : Given) (cluster : List Char) : Option Effect :=
  match cluster with
  | ['l'] => some (.adds { given with awaitsLevel := true })
  | 'l' :: '=' :: level => (given.withLevel? (String.ofList level)).map .adds
  | 'l' :: level => (given.withLevel? (String.ofList level)).map .adds
  | 'V' :: _ => some (.settles .version)
  | 'h' :: _ => some (.settles .help)
  | _ => none

def readPaths (given : Given) : List String → Option Request
  | [] => given.job?.map .check
  | argument :: rest => (given.withPath? argument).bind fun more => readPaths more rest

/-- Read arguments.  Only a plain argument can be the level that an option waits for. -/
def readArguments (given : Given) : List String → Option Request
  | [] => if given.awaitsLevel then none else given.job?.map .check
  | argument :: rest =>
      match Argument.ofString argument, given.awaitsLevel with
      | .plain level, true => (given.withLevel? level).bind fun more => readArguments more rest
      | .plain path, false => (given.withPath? path).bind fun more => readArguments more rest
      | _, true => none
      | .separator, false => readPaths given rest
      | .long name value, false =>
          match longEffect? given name value with
          | some (.adds more) => readArguments more rest
          | some (.settles request) => some request
          | none => none
      | .short cluster, false =>
          match shortEffect? given cluster with
          | some (.adds more) => readArguments more rest
          | some (.settles request) => some request
          | none => none

def Request.ofArguments? (arguments : List String) : Option Request :=
  readArguments .nothing arguments

end Packrat.CommandLine
