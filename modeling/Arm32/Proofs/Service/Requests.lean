import Arm32.Proofs.Text.Literals
import Arm32.Service.Request

namespace Arm32

/-! What a validator of requests has to enforce. A field that is absent has its default, a
value of the declared type is taken as it is, and numbers are within their bounds and not
too long. Nothing is said of values of other types that a validator converts. -/

/-! ## Values of declared types -/

namespace Json

def text? : Json → Option String
  | .text value => some value
  | _ => none

def integer? : Json → Option Int
  | .number value => some value
  | _ => none

def bool? : Json → Option Bool
  | .bool value => some value
  | _ => none

def integers? : Json → Option (List Int)
  | .list items => items.mapM integer?
  | _ => none

def dictionary? : Json → Option (List (String × Int))
  | .object members => members.mapM fun (name, value) => value.integer?.map (name, ·)
  | _ => none

/-- The value of something that may be null. -/
def optional? (read? : Json → Option α) : Json → Option (Option α)
  | .null => some none
  | json => (read? json).map some

def names : Json → List String
  | .object members => members.map (·.1)
  | _ => []

end Json

namespace Service

/-- How a field comes from a member of an object. -/
structure FieldReflects (declared? : Json → Option α) (default : α) (member? : Option Json)
    (value : α) : Prop where
  absent : member? = none → value = default
  exact : ∀ json ∈ member?, ∀ given ∈ declared? json, value = given

/-- How the options of a request come from an object. -/
structure RequestOptions.Reflect (options : RequestOptions) (json : Json) : Prop where
  memorySize :
    FieldReflects Json.integer? 0x10000 (json.member? "memory_size") options.memorySize
  startAddress :
    FieldReflects (Json.optional? Json.integer?) none (json.member? "start_address")
      options.startAddress?
  stepLimit : FieldReflects Json.integer? 100000 (json.member? "max_steps") options.stepLimit
  trace : FieldReflects Json.bool? false (json.member? "trace") options.trace
  watched : FieldReflects Json.integers? [] (json.member? "trace_watch") options.watched
  traceRegisters :
    FieldReflects Json.bool? true (json.member? "trace_include_registers") options.traceRegisters
  traceLimit : FieldReflects Json.integer? 10000 (json.member? "max_trace_rows") options.traceLimit
  breakpoints : FieldReflects Json.integers? [] (json.member? "breakpoints") options.breakpoints
  seeds : FieldReflects Json.dictionary? [] (json.member? "initial_memory") options.seeds
  seedNames : ∀ member ∈ json.member? "initial_memory", options.seeds.map (·.1) = member.names

/-- The options in the data of a request. None are given by an object without members. -/
def givenOptions (body : Json) : Json :=
  match body.member? "options" with
  | none | some .null => .object []
  | some json => json

namespace Request.Reflects

variable {request : Request} {body : Json}

end Request.Reflects

/-! ## Readers of fields -/

/-- A reader all of whose accepted values have a property. -/
def Yields (read : List Place → Json → Checked α) (Holds : α → Prop) : Prop :=
  ∀ place json, (read place json).problems = [] → Holds (read place json).value

/-- A reader that takes values of the declared type as they are. -/
def Takes (read : List Place → Json → Checked α) (declared? : Json → Option α) : Prop :=
  ∀ place json, (read place json).problems = [] →
    ∀ given ∈ declared? json, (read place json).value = given

section Fields

variable {read : List Place → Json → Checked α} {Holds : α → Prop} {declared? : Json → Option α}

theorem Yields.optional (yields : Yields read Holds) :
    Yields (readOptional read) fun value? => ∀ value ∈ value?, Holds value := by
  intro place json accepted value given
  cases json with
  | null => cases given
  | _ =>
      cases given
      exact yields place _ accepted

theorem Takes.optional (takes : Takes read declared?) :
    Takes (readOptional read) (Json.optional? declared?) := by
  intro place json accepted given declared
  cases json with
  | null =>
      cases declared
      rfl
  | _ =>
      rcases Option.map_eq_some_iff.mp declared with ⟨value, isValue, rfl⟩
      exact congrArg some (takes place _ accepted value isValue)

variable {default : α} {json : Json} {place : List Place} {name : String}

theorem Yields.field (yields : Yields read Holds) (defaultHolds : Holds default)
    (accepted : (readField json place name default read).problems = []) :
    Holds (readField json place name default read).value := by
  unfold readField at accepted ⊢
  split
  case h_1 value found =>
    rw [found] at accepted
    exact yields _ value accepted
  case h_2 => exact defaultHolds

theorem Takes.field (takes : Takes read declared?)
    (accepted : (readField json place name default read).problems = []) :
    FieldReflects declared? default (json.member? name)
      (readField json place name default read).value := by
  unfold readField at accepted ⊢
  cases found : json.member? name with
  | none =>
      refine ⟨fun _ => rfl, ?_⟩
      intro value among
      cases among
  | some value =>
      rw [found] at accepted
      refine ⟨fun missing => (by cases missing), ?_⟩
      intro value among
      cases among
      exact takes _ value accepted

end Fields

/-! ## Readers of values -/

end Service

end Arm32
