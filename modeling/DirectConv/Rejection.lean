import DirectConv.FilterSize
import DirectConv.Text.Numeral
import DirectConv.Text.Quoted

/-!
# Rejections

A request that cannot be carried out is rejected before anything is written. A rejection says why.

## Main definitions

- `DirectConv.Rejection`: the reasons
- `DirectConv.Rejection.Kind`, `DirectConv.Rejection.kind`: what part of the request is at fault
- `DirectConv.Rejection.message`: the reason in words
- `DirectConv.FilterSize.supported`: accept the sides of filters
-/

namespace DirectConv

/-- The buffers of a request. -/
inductive BufferRole where
  | input
  | filter
  | output
  deriving DecidableEq

/-- The name of the buffer. -/
def BufferRole.name : BufferRole → String
  | input => "input"
  | filter => "filter"
  | output => "output"

/-- The two operands of a product. -/
inductive OperandRole where
  | activation
  | weight
  deriving DecidableEq

/-- The name of the operand. -/
def OperandRole.name : OperandRole → String
  | activation => "activation"
  | weight => "weight"

/-- The reasons for which a request is turned down. -/
inductive Rejection where
  /-- No filter has this side. -/
  | unsupportedFilter (side : Nat)
  /-- The input does not cover one window of the filter. -/
  | inputTooSmall (height width : Nat) (filter : FilterSize)
  | noChannel
  /-- A buffer does not have the length the shape asks for. -/
  | wrongLength (buffer : BufferRole) (expected actual : Nat)
  /-- The register length is below 64 bits or not a power of two. -/
  | oddRegister (bits : Nat)
  /-- The register length exceeds the longest one, `limit`. -/
  | longRegister (bits limit : Nat)
  /-- At most zero lanes may be used. -/
  | zeroLaneCap
  /-- The value of a variable of the environment is not a size. -/
  | unreadable (variableName value : String) (error : Text.NumeralError)
  /-- A register has fewer lanes than a filter has columns. -/
  | tooFewLanes (lanes : Nat) (filter : FilterSize)
  | emptyBlock
  /-- Widening after every zero channel groups is asked for. -/
  | zeroFlushInterval
  /-- Operands of this many bits are not between one and eight bits wide. -/
  | operandBits (operand : OperandRole) (bits : Nat)
  /-- One channel group can already overflow a field of `fieldBits` bits. -/
  | fieldTooNarrow (activationBits weightBits fieldBits : Nat) (filter : FilterSize)
  /-- A field can overflow between two widenings. -/
  | flushTooLate (requested longest : Nat)
  deriving DecidableEq

namespace Rejection

/-- The part of a request a rejection is about. -/
inductive Kind where
  | filterSize
  | shape
  | bufferLength
  | configuration
  | precision
  | flushInterval
  deriving DecidableEq

/-- The part of the request that is at fault. -/
def kind : Rejection → Kind
  | unsupportedFilter _ => .filterSize
  | inputTooSmall _ _ _ => .shape
  | noChannel => .shape
  | wrongLength _ _ _ => .bufferLength
  | oddRegister _ => .configuration
  | longRegister _ _ => .configuration
  | zeroLaneCap => .configuration
  | unreadable _ _ _ => .configuration
  | tooFewLanes _ _ => .configuration
  | emptyBlock => .configuration
  | zeroFlushInterval => .configuration
  | operandBits _ _ => .precision
  | fieldTooNarrow _ _ _ _ => .precision
  | flushTooLate _ _ => .flushInterval

/-- The opening words of all rejections of a kind. -/
def Kind.heading : Kind → String
  | filterSize => "Unsupported filter size: "
  | shape => "Invalid shape: "
  | configuration => "Configuration error: "
  | precision => "Unsupported precision: "
  | bufferLength => ""
  | flushInterval => ""

/-- What is wrong, without the opening words. -/
def detail : Rejection → String
  | unsupportedFilter side => s!"{side} (expected 1, 3, 5 or 7)"
  | inputTooSmall height width filter =>
    s!"input {height}x{width} is smaller than the {filter.text} filter"
  | noChannel => "at least one input channel is required"
  | wrongLength buffer expected actual =>
    s!"{buffer.name} buffer size mismatch: expected {expected}, got {actual}"
  | oddRegister bits => s!"vector length must be a power of two >= 64 bits, got {bits}"
  | longRegister bits limit => s!"vector length {bits} exceeds {limit} bits"
  | zeroLaneCap => "lane cap must be at least 1"
  | unreadable variableName value error =>
    s!"{variableName}={Text.quote value}: {error.message}"
  | tooFewLanes lanes filter => s!"{lanes} lanes cannot hold one {filter.text} window"
  | emptyBlock => "row-block size must be at least 1"
  | zeroFlushInterval => "flush interval must be at least 1"
  | operandBits operand bits => s!"{operand.name} precision must be 1..=8 bits, got {bits}"
  | fieldTooNarrow activationBits weightBits fieldBits filter =>
    s!"A{activationBits}W{weightBits} does not fit {fieldBits}-bit fields " ++
      s!"for a {filter.text} filter"
  | flushTooLate requested longest =>
    s!"Flush interval {requested} exceeds the overflow-safe maximum {longest}"

/-- The reason in words. -/
def message (rejection : Rejection) : String :=
  rejection.kind.heading ++ rejection.detail

end Rejection

/-- The filter whose side is `side`, or the rejection of a side no filter has. -/
def FilterSize.supported (side : Nat) : Except Rejection FilterSize :=
  match ofSide? side with
  | some filter => .ok filter
  | none => .error (.unsupportedFilter side)

end DirectConv
