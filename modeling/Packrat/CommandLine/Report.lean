import Packrat.CommandLine.Request
import Packrat.Json.Document
import Packrat.Json.Printer
import Packrat.Text.LineColumn

/-!
# Reports of the command

The command prints the value of an accepted document.  For a rejected one it says where
and why, and for one that cannot be read it says what stood in the way.  Diagnostic
events come first, as far as they matter enough.
-/

namespace Packrat.CommandLine

inductive Obstacle where
  | unreadable (path : String) (reason : String)
  | notUnicode (path : String)
  deriving DecidableEq, Repr

namespace Obstacle

def message : Obstacle → String
  | unreadable path reason => s!"cannot read {path}: {reason}"
  | notUnicode path => s!"{path} is not valid UTF-8"

end Obstacle

structure Report where
  code : Nat
  output : String
  complaints : String
  deriving DecidableEq, Repr

def asLines (texts : List String) : String := String.join (texts.map (· ++ "\n"))

/-- The lines of the events that a job shows, of a journal whose latest event comes first. -/
def Job.diagnosticLines (job : Job) (journal : List Event) : List String :=
  ((journal.filterMap Event.diagnostic?).reverse.filter
    fun diagnostic => job.threshold.isShown diagnostic.level).map Diagnostic.targetLine

def rejectionLines (source : String) (error : ParseError) : List String :=
  match error.farthest with
  | some farthest =>
      let (line, column) := Text.lineColumn source farthest.position
      [s!"error at line {line}, column {column}: {error.text}", farthest.text]
  | none => [s!"error: {error.text}"]

def Obstacle.report (obstacle : Obstacle) : Report where
  code := 2
  output := ""
  complaints := asLines [
    Diagnostic.targetLine ⟨.error, "parse_json", s!"giving up error={obstacle.message}"⟩,
    obstacle.message]

def Job.reportOn (steps : Nat) (job : Job) (source : String) : Report :=
  match Json.parse steps source with
  | .done (.ok json) final =>
      ⟨0, asLines [if job.pretty then json.pretty else json.compact],
        asLines (job.diagnosticLines final.journal)⟩
  | .done (.error error) final =>
      ⟨1, "", asLines (job.diagnosticLines final.journal ++ rejectionLines source error)⟩
  | .faulted _ final => ⟨101, "", asLines (job.diagnosticLines final.journal)⟩
  | .unfinished => ⟨101, "", ""⟩

/-- The report on what reading a document gave: its bytes, or the reason for having none. -/
def Job.report (steps : Nat) (job : Job) (content : Except String ByteArray) : Report :=
  match content with
  | .error reason => (Obstacle.unreadable job.path reason).report
  | .ok bytes =>
      match String.fromUTF8? bytes with
      | some source => job.reportOn steps source
      | none => (Obstacle.notUnicode job.path).report

def versionLine : String := "parse-json 0.1.0"

def usageLine : String := "Usage: parse-json [--pretty] [-l|--log-level LEVEL] PATH"

def helpText : String :=
  asLines [
    "Check a JSON document and print it back.",
    "",
    usageLine,
    "",
    "  PATH               the document to read, or - for standard input",
    "  --pretty           print the value indented",
    "  -l, --log-level    log level (trace, debug, info, warn, error)",
    "  -h, --help         print help",
    "  -V, --version      print the version"]

/-- The report on a request, of which `read` gives the content of a path. -/
def Request.report {m : Type → Type} [Monad m] (steps : Nat)
    (read : String → m (Except String ByteArray)) (request : Request) : m Report :=
  match request with
  | .help => pure ⟨0, helpText, ""⟩
  | .version => pure ⟨0, asLines [versionLine], ""⟩
  | .check job => (job.report steps ·) <$> read job.path

end Packrat.CommandLine
