/-!
# Levels of nesting

A limit bounds how deep data, evaluations and templates may nest. What stands at depth 0 is not
nested, and depth `limit` is the last one that is allowed.
-/

namespace SchemeCore

/-- How many levels are left for something at `depth`, its own included. -/
def levelsLeft (limit depth : Int) : Nat := (limit + 1 - depth).toNat

/-- One level further in, one level less is left. -/
theorem levelsLeft_of_le {limit depth : Int} (h : depth ≤ limit) :
    levelsLeft limit depth = levelsLeft limit (depth + 1) + 1 := by
  unfold levelsLeft; omega

end SchemeCore
