import Mathlib.Data.Int.Basic

/-!
# The ETW sink interface

The plain types of `src/etw/EtwMonitor.h` through which the ETW consumer thread
talks to the launcher's model.  `EtwMonitor.cpp` maps everything outside the
enumerations to `invalid` / `unknown` before it calls the sink, so these are
ordinary enumerations.
-/

namespace Dx12Track.Etw

/-- `etw::ObjType`, the object types of the timing-capture library. -/
inductive ObjType
  | invalid | device | resource | heap | pipelineState | stateObject
  | commandAllocator | descriptorHeap | metaCommand
  deriving DecidableEq, Repr, Inhabited

/-- `etw::Group`, where an object's backing allocation lives. -/
inductive Group
  | unknown
  /-- Video memory. -/
  | «local»
  /-- System memory. -/
  | nonLocal
  deriving DecidableEq, Repr, Inhabited

inductive ResidencyOp
  | makeResident | evict | pageIn | pageOut
  deriving DecidableEq, Repr, Inhabited

/-- `etw::CounterKind`, the per-process memory counters. -/
inductive CounterKind
  | localBudget | localResident | localUsage
  | nonLocalBudget | nonLocalResident | nonLocalUsage
  | demotedMin | demotedLow | demotedNormal | demotedHigh | demotedMax
  | pagingLocalToNonLocal | pagingNonLocalToLocal
  deriving DecidableEq, Repr, Inhabited

/-- `etw::GroupChange`; `ts` is in absolute QPC nanoseconds. -/
structure GroupChange where
  ts : ℤ
  libId : ℕ
  type : ObjType
  group : Group
  deriving Repr

/-- `etw::Stats`. -/
structure Stats where
  events : ℕ := 0
  eventsLost : ℕ := 0
  buffersLost : ℕ := 0
  exceptions : ℕ := 0
  rundowns : ℕ := 0
  rundownFailures : ℕ := 0
  deriving DecidableEq, Repr, Inhabited

end Dx12Track.Etw
