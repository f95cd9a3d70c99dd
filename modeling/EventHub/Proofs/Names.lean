/-!
Lists of names that are shown in increasing order.
-/

namespace EventHub

/-- However names came together, sorting puts them in increasing order. -/
theorem pairwise_le_sorted (names : List String) :
    (names.mergeSort fun a b => !(b < a)).Pairwise (· ≤ ·) := by
  have hle (a b : String) : (!decide (b < a)) = true ↔ a ≤ b := by
    rw [Bool.not_eq_true', decide_eq_false_iff_not, String.not_lt]
  have hsorted : (names.mergeSort fun a b => !(b < a)).Pairwise fun a b =>
      (!decide (b < a)) = true :=
    List.pairwise_mergeSort (fun a b c hab hbc =>
        (hle a c).mpr (String.le_trans ((hle a b).mp hab) ((hle b c).mp hbc)))
      (fun a b => by
        rw [Bool.or_eq_true, hle, hle]
        exact String.le_total a b)
      names
  exact hsorted.imp fun h => (hle _ _).mp h

/-- Names of which none stands twice come to stand in strictly increasing order. -/
theorem pairwise_lt_sorted {names : List String} (h : names.Nodup) :
    (names.mergeSort fun a b => !(b < a)).Pairwise (· < ·) := by
  have hdistinct : (names.mergeSort fun a b => !(b < a)).Nodup :=
    (List.mergeSort_perm names _).nodup_iff.mpr h
  refine ((pairwise_le_sorted names).and hdistinct).imp ?_
  rintro a b ⟨hle, hne⟩
  exact String.not_le.mp fun hge => hne (String.le_antisymm hle hge)

end EventHub
