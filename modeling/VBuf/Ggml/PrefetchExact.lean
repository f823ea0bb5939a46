import VBuf.Ggml.PrefetchDistance

/-!
# Prefetch plans

The table of the planner has the least candidate of each persistent tensor in reach, so
sorting it gives one list whatever the order of the hash map, and the last loop is the
greedy selection from it.
-/

namespace VBuf.Ggml.Prefetch

open VBuf.Lib

/-! ### Candidates -/

section Collect

variable {planning : Planning} {memo : Memo}

end Collect

/-! ### The greedy selection -/

section Unbounded

variable {planning : Planning} {memo memo' : Memo}

end Unbounded

end VBuf.Ggml.Prefetch
