import DirectConv.Rejection
import DirectConv.Shape

/-!
# Log entries

What a request reports about itself, apart from its result.

## Main definitions

- `DirectConv.LogLevel`: how important an entry is
- `DirectConv.LogEntry`: the entries
- `DirectConv.LogEntry.line`: an entry in words
-/

namespace DirectConv

/-- How important an entry is. -/
inductive LogLevel where
  | warn
  | debug
  | trace
  deriving DecidableEq

/-- The name of the level. -/
def LogLevel.name : LogLevel → String
  | warn => "WARN"
  | debug => "DEBUG"
  | trace => "TRACE"

/-- How the rows of a tile were finished. -/
structure TileStats where
  /-- Full blocks that more rows followed. -/
  steadyBlocks : Nat
  /-- Rows of the last block. -/
  drainedRows : Nat
  deriving DecidableEq

/-- What is reported. -/
inductive LogEntry where
  /-- The environment describes no usable vector unit. -/
  | ignoredEnvironment (reason : Rejection)
  | convolution (regime : String) (shape : Shape) (filter : FilterSize)
      (maxLanes block tiles : Nat)
  /-- A tile of one output plane is finished. -/
  | tile (col outWidth : Nat) (filter : FilterSize) (block : Nat) (stats : TileStats)
  deriving DecidableEq

namespace LogEntry

/-- How important the entry is. -/
def level : LogEntry → LogLevel
  | ignoredEnvironment _ => .warn
  | convolution _ _ _ _ _ _ => .debug
  | tile _ _ _ _ _ => .trace

/-- The entry in words, without its level. -/
def message : LogEntry → String
  | ignoredEnvironment reason =>
    s!"ignoring lane configuration from environment: {reason.message}"
  | convolution regime shape filter maxLanes block tiles =>
    s!"conv2d {regime}: {shape.channels}x{shape.height}x{shape.width} -> " ++
      s!"{shape.outputs}x{shape.outHeight}x{shape.outWidth}, {filter.text} filter, " ++
      s!"Lmax={maxLanes}, B={block}, {tiles} tiles"
  | tile col outWidth filter block stats =>
    s!"tile col={col} width={outWidth} F={filter.side} B={block}: " ++
      s!"{stats.steadyBlocks} steady blocks, {stats.drainedRows} drained rows"

/-- The entry with its level. -/
def line (entry : LogEntry) : String := s!"{entry.level.name} {entry.message}"

end LogEntry

end DirectConv
