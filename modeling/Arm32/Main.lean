import Arm32.CommandLine

/-! The program: reads the file that the command line names, runs it, and writes
the transcript. -/

namespace Arm32.CommandLine

def readFailureOf : IO.Error → ReadFailure
  | .noFileOrDirectory _ _ _ => .missing
  | .inappropriateType _ 21 _ => .isDirectory
  | .inappropriateType _ _ _ => .notDirectory
  | error => .other (toString error)

def readImage (path : Path) : IO (Except ReadFailure Image) := do
  try
    let content ← IO.FS.readBinFile path.text
    return .ok content.toList
  catch error =>
    return .error (readFailureOf error)

def write (transcript : Transcript) : IO UInt32 := do
  let output ← IO.getStdout
  let errors ← IO.getStderr
  output.putStr transcript.output
  output.flush
  errors.putStr transcript.errors
  return transcript.exitCode.toUInt32

def perform (request : Request) : IO UInt32 := do
  match request with
  | .help => write helpTranscript
  | .run settings =>
      if settings.hasNullCharacter then write (breakdown .nullCharacter)
      else
        let file ← readImage (Path.ofText settings.image)
        match runTranscript settings file with
        | .ok transcript => write transcript
        | .error cause => write (breakdown cause)

end Arm32.CommandLine

def main (arguments : List String) : IO UInt32 := do
  match Arm32.CommandLine.parse arguments with
  | .ok request => Arm32.CommandLine.perform request
  | .error error => Arm32.CommandLine.write (Arm32.CommandLine.usageFailure error)
