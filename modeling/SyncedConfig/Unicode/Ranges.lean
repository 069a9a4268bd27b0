/-!
# Character ranges

A Unicode property is a list of ranges of code points, both ends included. The tables
of this folder follow version 17 of the standard.
-/
namespace SyncedConfig.Unicode

abbrev Ranges := List (Nat × Nat)

def Ranges.contains (ranges : Ranges) (c : Char) : Bool :=
  ranges.any fun (first, last) => first ≤ c.toNat && c.toNat ≤ last

end SyncedConfig.Unicode
