import SchemeCore.Datum.Mark

/-!
# Induction over data

A datum is an atom, or a list or vector of data that lie below it. `Datum.induction` reasons about a
datum from what holds of its elements; heights descend to them.
-/

namespace SchemeCore

namespace Datum

@[elab_as_elim]
theorem induction {motive : Datum → Prop} (atom : ∀ d, d.items? = none → motive d)
    (list : ∀ items, (∀ item ∈ items, motive item) → motive (.list items))
    (vector : ∀ items, (∀ item ∈ items, motive item) → motive (.vector items)) (d : Datum) :
    motive d := by
  refine @Datum.rec motive (fun items => ∀ item ∈ items, motive item) (fun _ => atom _ rfl)
    (fun _ => atom _ rfl) (fun _ => atom _ rfl) (fun _ => atom _ rfl) (fun _ => atom _ rfl)
    list vector ?nil ?cons d
  case nil =>
    intro item h
    cases h
  case cons =>
    intro first items hfirst hitems item h
    rcases List.mem_cons.1 h with rfl | h
    · exact hfirst
    · exact hitems item h

theorem height_lt_of_mem {item : Datum} {items : List Datum} (h : item ∈ items) :
    item.height < heightItems items := by
  induction items with
  | nil => cases h
  | cons first items ih =>
    rw [heightItems]
    rcases List.mem_cons.1 h with rfl | h
    · omega
    · have := ih h
      omega

theorem height_eq_heightItems {d : Datum} {items : List Datum} (h : d.items? = some items) :
    d.height = heightItems items := by
  cases d <;> cases h <;> rw [height]

theorem height_eq_zero {d : Datum} (h : d.items? = none) : d.height = 0 := by
  cases d with
  | list items => cases h
  | vector items => cases h
  | symbol | integer | string | boolean | char => rfl

end Datum

theorem Mark.height_on (mark : Mark) (d : Datum) : (mark.on d).height = d.height + 1 := by
  simp [Mark.on, Datum.height, Datum.heightItems]

end SchemeCore
