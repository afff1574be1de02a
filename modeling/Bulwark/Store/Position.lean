import Bulwark.SipHash
import Bulwark.Store.Basic

/-!
# Scan positions

Scans may walk the keys in any fixed order (`Store.scan` takes the position of a key as a function).
`Store.position` is the usual one, a hash, which strews keys of one beginning over all positions.
-/

namespace Bulwark.Store

/-- The place of a key in a scan: the hash of its bytes under zero, with one round for a word and
three at the end.  A byte that occurs in no text closes them, so no key's bytes begin another's. -/
def position (key : String) : Nat :=
  (SipHash.digest 1 3 0 0 (key.toUTF8.data.toList ++ [0xff])).toNat

end Bulwark.Store
