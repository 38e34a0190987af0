import Arm32.Memory

namespace Arm32

/-! What the user of a run may ask for. Every number is an integer without
bounds; a limit below zero allows nothing. -/

structure Options where
  memorySize : Int := Memory.defaultSize
  /-- Where to start; without it, where the image says. -/
  startAddress? : Option Int := none
  stepLimit : Int := 1000000
  trace : Bool := false
  traceRegisters : Bool := true
  traceLimit : Int := 100000
  /-- The addresses of the words to be shown in the trace and the report. -/
  watched : List Int := []
  /-- The run stops before an instruction at one of these addresses. -/
  breakpoints : List Int := []
  /-- Words in memory before the image is loaded over them. -/
  seeds : Memory.Seeds := []
  /-- Keeps a copy of the output apart from the console's own. -/
  echo : Bool := false
deriving Repr

end Arm32
