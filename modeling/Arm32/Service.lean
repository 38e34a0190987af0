import Arm32.Base64
import Arm32.Json.Writer
import Arm32.Service.Answer
import Arm32.Service.Request

namespace Arm32.Service

/-! The service: runs the program in a request and answers with its report. A
request that is not well formed is refused with all its problems; one that is,
but cannot be carried out, is refused with the first obstacle. -/

structure Response where
  status : Nat
  body : Json

/-- The largest image that is accepted, in bytes. -/
def maximalImageSize : Nat := 0x100000

/-- Why a well-formed request cannot be carried out. -/
inductive Obstacle where
  | unreadableImage
  | oversizedImage
  | unreadableAddress (text : String)
deriving DecidableEq, Repr

def Obstacle.message : Obstacle → String
  | .unreadableImage => "Image is not valid base64"
  | .oversizedImage =>
      s!"Image size exceeds limit of {Numeral.write .decimal maximalImageSize} bytes"
  | .unreadableAddress text => "Invalid memory address key: " ++ text

def decodeImage (text : String) : Except Obstacle Image :=
  match Base64.decode? text with
  | none => .error .unreadableImage
  | some image =>
      if maximalImageSize < image.length then .error .oversizedImage else .ok image

/-- Seeds under their addresses. Texts of one address make one seed. -/
def decodeSeeds (named : List (String × Int)) : Except Obstacle Memory.Seeds := do
  let pairs ← named.mapM fun (text, value) =>
    match Numeral.readLiteral? text with
    | some address => .ok (address, value)
    | none => .error (.unreadableAddress text)
  return Memory.Seeds.ofList pairs

/-- The image and the options that a request stands for. -/
def prepare (request : Request) : Except Obstacle (Image × Options) := do
  let image ← decodeImage request.image
  let seeds ← decodeSeeds request.options.seeds
  let options : Options := {
    memorySize := request.options.memorySize
    startAddress? := request.options.startAddress?
    stepLimit := request.options.stepLimit
    trace := request.options.trace
    traceRegisters := request.options.traceRegisters
    traceLimit := request.options.traceLimit
    watched := request.options.watched
    breakpoints := request.options.breakpoints
    seeds }
  return (image, options)

/-- An answer is sent as text, in which every number has to be written. -/
def send (status : Nat) (body : Json) : Except Breakdown Response :=
  if body.isWritable then .ok ⟨status, body⟩ else .error (.misuse .numeralTooLong)

/-- Answers the data of a request, by what a validator makes of it. -/
def respond (validate : Validator) (body : Json) : Except Breakdown Response :=
  match validate body with
  | .error problems => send 422 (.list (problems.map encodeProblem))
  | .ok request =>
      match prepare request with
      | .error obstacle => send 400 (.object [("detail", .text obstacle.message)])
      | .ok (image, options) => do
          let report ← (Run.program image options).mapError .misuse
          let members ← answerMembers (resultMembers report)
          send 200 (.object members)

end Arm32.Service
