/-!
# Sets of code points

A Unicode property is a long list of ranges.  `CharSet` keeps only the places where membership
changes:

* `CharSet.changes`    the code points, in increasing order, at which one enters or leaves the set;
* `CharSet.contains`   membership, read off the number of changes passed.
-/

namespace BoundSql.Unicode

/-- a set of code points, kept as the increasing list of the places where membership changes -/
structure CharSet where
  changes : List Nat

/-- membership of `n` once the places before have left it `inside` -/
def memberAfter (n : Nat) (inside : Bool) : List Nat → Bool
  | [] => inside
  | place :: places => if n < place then inside else memberAfter n (!inside) places

def CharSet.contains (s : CharSet) (c : Char) : Bool := memberAfter c.toNat false s.changes

end BoundSql.Unicode
