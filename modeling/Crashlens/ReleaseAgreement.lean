import Crashlens.UploadBatch

/-!
# The directory of a release, for the upload, the worker and the removal

The upload takes the whitespace off a release before it derives the directory; the removal and the
worker take the release as it comes. They agree on the releases that have no whitespace at their
ends, and on no others; and the removal is asked for with the release in the path of the request,
where it cannot have a slash.
-/

namespace Crashlens

open Transactional OpenFiles

/-! ## Directories side by side -/

section Directories

variable {root release release' : PyStr} {orgId projectId : ℕ}

end Directories

/-! ## The three paths -/

section Agreement

variable (root : PyStr) (orgId projectId : ℕ)

variable {root orgId projectId} {rt : Runtime} {release : PyStr}

omit root orgId projectId rt release

end Agreement

end Crashlens
