import Arm32.Proofs.Memory.Seeds
import Arm32.Proofs.Service.Base64
import Arm32.Proofs.Service.Members

namespace Arm32.Service

/-! Answers to requests that a validator has accepted. Such a request is refused for its
image or for one of its addresses, and is a run of a program otherwise. -/

/-! ## What a request stands for -/

/-- The pairs that the entries of a dictionary denote. -/
def Denotes (named : List (String × Int)) (pairs : List (Int × Int)) : Prop :=
  named.map (fun entry => (Numeral.readLiteral? entry.1, entry.2)) =
    pairs.map fun pair => (some pair.1, pair.2)

/-- The name of the first entry that denotes nothing. -/
def firstUnreadable? (named : List (String × Int)) : Option String :=
  (named.find? fun entry => (Numeral.readLiteral? entry.1).isNone).map (·.1)

/-- The options of the run that a request asks for, with these seeds. -/
def RequestOptions.forRun (options : RequestOptions) (seeds : Memory.Seeds) : Options where
  memorySize := options.memorySize
  startAddress? := options.startAddress?
  stepLimit := options.stepLimit
  trace := options.trace
  traceRegisters := options.traceRegisters
  traceLimit := options.traceLimit
  watched := options.watched
  breakpoints := options.breakpoints
  seeds := seeds

namespace Request

/-- What a request is refused with. What comes first hides what comes later. -/
inductive RefusedWith (request : Request) : (text : String) → Prop where
  | unreadable (invalid : Base64.decode? request.image = none) :
      RefusedWith request "Image is not valid base64"
  | oversized {image : Image} (decoded : Base64.decode? request.image = some image)
      (tooLarge : 1048576 < image.length) :
      RefusedWith request "Image size exceeds limit of 1048576 bytes"
  | address {image : Image} {name : String} (decoded : Base64.decode? request.image = some image)
      (fits : image.length ≤ 1048576)
      (first : firstUnreadable? request.options.seeds = some name) :
      RefusedWith request ("Invalid memory address key: " ++ name)

/-- A request that cannot be carried out, for whatever reason. -/
def Unusable (request : Request) : Prop :=
  Base64.decode? request.image = none ∨
    (∃ image, Base64.decode? request.image = some image ∧ 1048576 < image.length) ∨
    ∃ entry ∈ request.options.seeds, Numeral.readLiteral? entry.1 = none

/-- The run that a request asks for, with its report. -/
structure Runs (request : Request) (image : Image) (seeds : Memory.Seeds) (report : Report) :
    Prop where
  decodes : Base64.decode? request.image = some image
  collapses : ∃ pairs, Denotes request.options.seeds pairs ∧ Memory.Collapses pairs seeds
  reports : Run.program image (request.options.forRun seeds) = .ok report
  steps : (report.steps : Int) ≤ request.options.stepLimit ∧ request.options.stepLimit ≤ 1000000
  rows : (report.trace.rows.size : Int) ≤ request.options.traceLimit ∧
    request.options.traceLimit ≤ 100000

end Request

/-! ## Seeds -/

namespace Request

variable {request : Request} {text other : String}

/-- There is at most one text to refuse a request with. -/
theorem RefusedWith.unique (refused : request.RefusedWith text)
    (again : request.RefusedWith other) : other = text := by
  cases refused with
  | unreadable invalid =>
      cases again with
      | unreadable => rfl
      | oversized decoded tooLarge => cases invalid.symm.trans decoded
      | address decoded fits first => cases invalid.symm.trans decoded
  | oversized decoded tooLarge =>
      cases again with
      | unreadable invalid => cases invalid.symm.trans decoded
      | oversized => rfl
      | address otherDecoded fits first =>
          cases decoded.symm.trans otherDecoded
          omega
  | address decoded fits first =>
      cases again with
      | unreadable invalid => cases invalid.symm.trans decoded
      | oversized otherDecoded tooLarge =>
          cases decoded.symm.trans otherDecoded
          omega
      | address otherDecoded otherFits otherFirst =>
          rw [Option.some.inj (first.symm.trans otherFirst)]

end Request

theorem Obstacle.message_oversizedImage :
    oversizedImage.message = "Image size exceeds limit of 1048576 bytes" := by
  decide

theorem Obstacle.message_unreadableAddress (name : String) :
    (unreadableAddress name).message.toList =
      "Invalid memory address key: ".toList ++ name.toList :=
  String.toList_append

/-- The seventh character of what is said of an obstacle is enough to recognise it. -/
def Obstacle.mark : Obstacle → Char
  | .unreadableImage => 'i'
  | .oversizedImage => 's'
  | .unreadableAddress _ => 'd'

theorem Obstacle.message_mark (obstacle : Obstacle) :
    obstacle.message.toList[6]? = some obstacle.mark := by
  cases obstacle with
  | unreadableImage => decide
  | oversizedImage =>
      rw [message_oversizedImage]
      decide
  | unreadableAddress name =>
      have inside : 6 < "Invalid memory address key: ".toList.length := by decide
      rw [message_unreadableAddress, List.getElem?_append_left inside, mark]
      decide

/-- The obstacles are told from each other by what is said of them. -/
theorem Obstacle.message_injective {obstacle other : Obstacle}
    (same : obstacle.message = other.message) : obstacle = other := by
  have marks : obstacle.mark = other.mark := by
    rw [← Option.some.injEq, ← message_mark, ← message_mark, same]
  cases obstacle with
  | unreadableImage =>
      cases other with
      | unreadableImage => rfl
      | _ => simp [mark] at marks
  | oversizedImage =>
      cases other with
      | oversizedImage => rfl
      | _ => simp [mark] at marks
  | unreadableAddress name =>
      cases other with
      | unreadableAddress another =>
          have characters := congrArg String.toList same
          rw [message_unreadableAddress, message_unreadableAddress] at characters
          rw [String.toList_inj.mp (List.append_cancel_left characters)]
      | _ => simp [mark] at marks

section Accepted

variable {validate : Validator} {body : Json} {request : Request}
  (accepted : validate body = .ok request)

include accepted

end Accepted

/-- How data that has been accepted as a request is answered. -/
structure Answers (body : Json) (request : Request) (response : Response) : Prop where
  options : request.options.Reflect (givenOptions body)
  refuses_iff : response.status = 400 ↔ request.Unusable
  refuses : response.status = 400 → ∃ text, request.RefusedWith text ∧
    response.body = .object [("detail", .text text)]
  runs : response.status ≠ 400 → response.status = 200 ∧
    ∃ image seeds report, request.Runs image seeds report ∧
      response.body = .object (shownMembers report) ∧ ShowsReport response.body report

end Arm32.Service
