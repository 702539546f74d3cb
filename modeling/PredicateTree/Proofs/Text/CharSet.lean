import PredicateTree.Text.Alphanumeric
import PredicateTree.Text.Blank

/-!
# Proofs.Text.CharSet

When two sets of characters have no character in common.

`CharSet.apartFrom` decides it on the bounds: no bound of the one set lies inside a range of the
other, and the first character of no range is in both. `not_isAlphanumeric_of_blank` is the case that the
readers of text rely on: what may stand in a word is never skipped as a blank.
-/

namespace PredicateTree

namespace CharSet

/-- Nothing is both between the first and the second bound, the third and the fourth and so on,
and in the set with the bounds `bs`. -/
def apartFrom (bs : List Nat) : List Nat → Bool
  | [] => true
  | [_] => false
  | lo :: hi :: rest =>
    (bs.all fun b => b ≤ lo || hi ≤ b) && !containsFrom lo bs false && apartFrom bs rest

theorem containsFrom_congr {n m : Nat} {bs : List Nat} (h : ∀ b ∈ bs, n < b ↔ m < b)
    (inside : Bool) : containsFrom n bs inside = containsFrom m bs inside := by
  induction bs generalizing inside with
  | nil => rfl
  | cons b bs ih =>
    have hb : n < b ↔ m < b := h b List.mem_cons_self
    have hbs := ih (fun c hc => h c (List.mem_cons_of_mem b hc)) (!inside)
    simp only [containsFrom, hb, hbs]

/-- A member is in the first range or in a later one. -/
theorem containsFrom_cons_cons {n lo hi : Nat} {rest : List Nat}
    (h : containsFrom n (lo :: hi :: rest) false = true) :
    (lo ≤ n ∧ n < hi) ∨ containsFrom n rest false = true := by
  simp only [containsFrom, Bool.not_false, Bool.not_true] at h
  split at h
  · cases h
  · rename_i hlo
    split at h
    · rename_i hhi
      exact .inl ⟨Nat.le_of_not_lt hlo, hhi⟩
    · exact .inr h

theorem not_containsFrom_of_apart {bs : List Nat} {n : Nat} :
    ∀ {as : List Nat}, apartFrom bs as = true → containsFrom n as false = true →
      containsFrom n bs false = false
  | [], _, h => by cases h
  | [_], h, _ => by cases h
  | lo :: hi :: rest, hapart, h => by
    simp only [apartFrom, Bool.and_eq_true, List.all_eq_true, Bool.or_eq_true, decide_eq_true_eq,
      Bool.not_eq_true'] at hapart
    obtain ⟨⟨hbounds, hfirst⟩, hrest⟩ := hapart
    rcases containsFrom_cons_cons h with ⟨hlo, hhi⟩ | h
    · -- No bound lies between `lo` and `n`, so both are on the same side.
      have hside : ∀ b ∈ bs, n < b ↔ lo < b := by
        intro b hb
        have := hbounds b hb
        omega
      exact (containsFrom_congr hside false).trans hfirst
    · exact not_containsFrom_of_apart hrest h

end CharSet

theorem not_isAlphanumeric_of_blank {c : Char} (h : isBlank c = true) : isAlphanumeric c = false :=
  CharSet.not_containsFrom_of_apart
    (by decide +kernel : CharSet.apartFrom CharSet.alphanumeric.bounds CharSet.blank.bounds = true) h

end PredicateTree
