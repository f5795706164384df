import Flowchart.Walk

/-!
States and log entries of a walk as JSON.
-/

namespace Flowchart.Walk

def Frame.toJson (frame : Frame) : Json :=
  .object [("functionName", .text frame.functionName),
    ("returnBlockIndex", .ofOption .int frame.returnTo),
    ("localContext", .object frame.values)]

def State.toJson (state : State) : Json :=
  .object [("currentBlockIndex", .ofOption .int state.current),
    ("visitedBlocks", .array (state.visited.map Json.int)),
    ("executionPath", .array (state.path.map Json.int)),
    ("callStack", .array (state.stack.reverse.map Frame.toJson)),
    ("loopCounters", .object (state.counters.map fun (loop, count) =>
      (toString loop, Json.int count))),
    ("isPaused", .bool (state.phase = .paused)),
    ("isComplete", .bool (state.phase = .completed)),
    ("phase", .text state.phase.name),
    ("speedMs", .int state.speed)]

def Entry.toJson (entry : Entry Number) : Json :=
  .object [("timestamp", .number entry.time), ("blockIndex", .int entry.index),
    ("blockContent", .text entry.content), ("blockType", .text entry.kind.name),
    ("action", .text entry.action.name), ("details", .ofOption .text entry.details)]

def Entry.line (entry : Entry Number) : String :=
  let details := match entry.details.filter (!·.isEmpty) with
    | some details => " (" ++ details ++ ")"
    | none => ""
  "[" ++ toString entry.index ++ "] " ++ entry.action.name ++ ": " ++ entry.content ++ details

end Flowchart.Walk
