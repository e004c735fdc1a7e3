import Packrat.CommandLine.Report

/-!
# The command

Checks a JSON document and prints it back.
-/

namespace Packrat.CommandLine

def stepLimit : Nat := Nat.pow 2 62

def readingFailure (error : IO.Error) : String :=
  match error with
  | .noFileOrDirectory _ code details => numbered details code
  | .permissionDenied _ code details => numbered details code
  | .inappropriateType _ code details => numbered details code
  | .invalidArgument _ code details => numbered details code
  | .resourceExhausted _ code details => numbered details code
  | .otherError code details => numbered details code
  | .hardwareFault code details => numbered details code
  | other => toString other
where
  numbered (details : String) (code : UInt32) : String := s!"{details} (os error {code})"

partial def readAll (stream : IO.FS.Stream) (before : ByteArray) : IO ByteArray := do
  let more ← stream.read 65536
  if more.isEmpty then pure before else readAll stream (before ++ more)

/-- The bytes of a document; a hyphen stands for standard input. -/
def readDocument (path : String) : IO (Except String ByteArray) := do
  try
    if path = "-" then
      Except.ok <$> readAll (← IO.getStdin) ByteArray.empty
    else
      Except.ok <$> IO.FS.readBinFile path
  catch error => pure (.error (readingFailure error))

def showReport (report : Report) : IO UInt32 := do
  (← IO.getStdout).putStr report.output
  (← IO.getStderr).putStr report.complaints
  pure report.code.toUInt32

end Packrat.CommandLine

open Packrat.CommandLine in
def main (arguments : List String) : IO UInt32 := do
  match Request.ofArguments? arguments with
  | none => showReport ⟨2, "", asLines [usageLine]⟩
  | some request => showReport (← request.report stepLimit readDocument)
