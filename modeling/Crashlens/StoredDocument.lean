import Crashlens.NormalizeRules

/-!
# Which accepted envelopes are stored

A text or a number that `jsonb` refuses keeps a document out only where it stays in it: beyond the
limits of normalisation it is cut off, and symbolication writes over some fields of a frame.
`documentKept` looks for such values in the envelope as it came and in the strings of the maps. With
it the accepted envelopes that end up as one event row are told from those that do not.
-/

namespace Crashlens

open Assoc Transactional

/-! ## What stays of an envelope -/

section Kept

end Kept

section Maps

variable (rt : Runtime) (call : EventCall)

end Maps

/-! ## Strings, frames and tags -/

section Parts

variable {key : PyStr}

end Parts

/-! ## Frames with a map -/

section Rewritten

variable {out : Dict} {gone : List PyStr}

end Rewritten

section Symbolicated

variable {rt : Runtime} {call : EventCall} {dir : Path}

end Symbolicated

/-! ## The chain of causes -/

section Chain

variable {frameKept : Json → Bool} {d : Dict}

end Chain

section SymbolicatedChain

variable {rt : Runtime} {call : EventCall} {release : PyStr} {frameKept : Json → Bool} {d : Dict}

end SymbolicatedChain

/-! ## The document -/

section Document

variable {rt : Runtime} {call : EventCall}

end Document

/-! ## Acceptance and processing together -/

section Acceptance

end Acceptance

end Crashlens
