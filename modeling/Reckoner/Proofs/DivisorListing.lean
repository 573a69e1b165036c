import Mathlib.Tactic.Linarith
import Reckoner.Number.Divisors

/-! The divisors that trial division lists. Between two trials it has found the divisors
below the next trial and the partners of those above the root. No number but the root is its
own partner, so at the end nothing is missing and nothing stands twice. -/

namespace Reckoner.Proofs.DivisorListing
open Number

/-- What has been found when the next number is on trial. Divisors below the root stand in
descending order, as they were met; their partners above it ascend, each put in front of
those that were found before. -/
structure Gathered (n trial : ℕ) (small large : List ℕ) : Prop where
  positive : 0 < trial
  reached : ∀ d < trial, d * d ≤ n
  divisors : ∀ d, d ∈ small ↔ 0 < d ∧ d < trial ∧ d ∣ n
  partners : ∀ d, d ∈ large ↔ ∃ partner, 0 < partner ∧ partner < trial ∧ partner < d ∧ partner * d = n
  descending : small.Pairwise (· > ·)
  ascending : large.Pairwise (· < ·)

variable {n trial : ℕ} {small large : List ℕ}

theorem gathered_start (n : ℕ) : Gathered n 1 [] [] := by
  refine ⟨one_pos, ?_, ?_, ?_, .nil, .nil⟩
  · intro d first
    rw [Nat.lt_one_iff.mp first]
    exact Nat.zero_le n
  · intro d
    constructor
    · exact nofun
    · intro ⟨positive, below, _⟩
      omega
  · intro d
    constructor
    · exact nofun
    · intro ⟨partner, positive, below, _⟩
      omega

section Step

variable (gathered : Gathered n trial small large) (within : trial * trial ≤ n)

include gathered within

theorem reached_next : ∀ d < trial + 1, d * d ≤ n := by
  intro d below
  rcases Nat.lt_succ_iff_lt_or_eq.mp below with before | rfl
  · exact gathered.reached d before
  · exact within

theorem gathered_miss (missed : ¬ trial ∣ n) : Gathered n (trial + 1) small large := by
  refine ⟨Nat.succ_pos trial, reached_next gathered within, ?_, ?_, gathered.descending, gathered.ascending⟩
  · intro d
    rw [gathered.divisors]
    constructor
    · intro ⟨positive, below, divides⟩
      exact ⟨positive, by omega, divides⟩
    · intro ⟨positive, below, divides⟩
      have other : d ≠ trial := fun same => missed (same ▸ divides)
      exact ⟨positive, by omega, divides⟩
  · intro d
    rw [gathered.partners]
    constructor
    · intro ⟨partner, positive, below, less, product⟩
      exact ⟨partner, positive, by omega, less, product⟩
    · intro ⟨partner, positive, below, less, product⟩
      have other : partner ≠ trial := fun same => missed (same ▸ ⟨d, product.symm⟩)
      exact ⟨partner, positive, by omega, less, product⟩

theorem small_hit (divides : trial ∣ n) :
    (∀ d, d ∈ trial :: small ↔ 0 < d ∧ d < trial + 1 ∧ d ∣ n) ∧ (trial :: small).Pairwise (· > ·) := by
  constructor
  · intro d
    rw [List.mem_cons, gathered.divisors]
    constructor
    · rintro (rfl | ⟨positive, below, divides⟩)
      · exact ⟨gathered.positive, by omega, divides⟩
      · exact ⟨positive, by omega, divides⟩
    · intro ⟨positive, below, divides⟩
      rcases Nat.lt_succ_iff_lt_or_eq.mp below with before | same
      · exact .inr ⟨positive, before, divides⟩
      · exact .inl same
  · refine List.pairwise_cons.mpr ⟨fun d member => ?_, gathered.descending⟩
    exact ((gathered.divisors d).mp member).2.1

/-- The root is its own partner and stands with the small divisors only. -/
theorem gathered_root (root : trial * trial = n) : Gathered n (trial + 1) (trial :: small) large := by
  obtain ⟨members, descending⟩ := small_hit gathered within ⟨trial, root.symm⟩
  refine ⟨Nat.succ_pos trial, reached_next gathered within, members, ?_, descending, gathered.ascending⟩
  intro d
  rw [gathered.partners]
  constructor
  · intro ⟨partner, positive, below, less, product⟩
    exact ⟨partner, positive, by omega, less, product⟩
  · intro ⟨partner, positive, below, less, product⟩
    have other : partner ≠ trial := by
      rintro rfl
      exact less.ne (Nat.eq_of_mul_eq_mul_left positive (root.trans product.symm))
    exact ⟨partner, positive, by omega, less, product⟩

/-- A later divisor has an earlier partner, so the new partner goes in front. -/
theorem gathered_pair {partner : ℕ} (product : trial * partner = n) (other : trial * trial ≠ n) :
    Gathered n (trial + 1) (trial :: small) (partner :: large) := by
  obtain ⟨members, descending⟩ := small_hit gathered within ⟨partner, product.symm⟩
  have above : trial < partner := by
    have less : trial * trial < trial * partner := product ▸ lt_of_le_of_ne within other
    exact lt_of_mul_lt_mul_left less (Nat.zero_le trial)
  refine ⟨Nat.succ_pos trial, reached_next gathered within, members, ?_, descending, ?_⟩
  · intro d
    rw [List.mem_cons, gathered.partners]
    constructor
    · rintro (rfl | ⟨lower, positive, below, less, same⟩)
      · exact ⟨trial, gathered.positive, by omega, above, product⟩
      · exact ⟨lower, positive, by omega, less, same⟩
    · intro ⟨lower, positive, below, less, same⟩
      rcases Nat.lt_succ_iff_lt_or_eq.mp below with before | rfl
      · exact .inr ⟨lower, positive, before, less, same⟩
      · exact .inl (Nat.eq_of_mul_eq_mul_left positive (same.trans product.symm))
  · refine List.pairwise_cons.mpr ⟨fun d member => ?_, gathered.ascending⟩
    obtain ⟨lower, positive, below, -, same⟩ := (gathered.partners d).mp member
    by_contra early
    have less : lower * d < trial * partner := by
      calc lower * d ≤ lower * partner := Nat.mul_le_mul_left lower (not_lt.mp early)
        _ < trial * partner := Nat.mul_lt_mul_of_pos_right below (by omega)
    omega

end Step

/-- Once the square of the trial passes the number, of any two partners one has been tried. -/
theorem Gathered.complete (gathered : Gathered n trial small large) (positive : 0 < n) (passed : n < trial * trial) :
    (small.reverse ++ large).Pairwise (· < ·) ∧ ∀ d, d ∈ small.reverse ++ large ↔ 0 < d ∧ d ∣ n := by
  constructor
  · rw [List.pairwise_append, List.pairwise_reverse]
    refine ⟨gathered.descending, gathered.ascending, fun d low e high => ?_⟩
    have inside := gathered.reached d ((gathered.divisors d).mp (List.mem_reverse.mp low)).2.1
    obtain ⟨partner, -, -, less, rfl⟩ := (gathered.partners e).mp high
    by_contra beyond
    have outside : partner * e < e * e := Nat.mul_lt_mul_of_pos_right less (by omega)
    have : e * e ≤ d * d := Nat.mul_le_mul (not_lt.mp beyond) (not_lt.mp beyond)
    omega
  · intro d
    rw [List.mem_append, List.mem_reverse, gathered.divisors, gathered.partners]
    constructor
    · rintro (⟨nonzero, -, divides⟩ | ⟨partner, -, -, less, product⟩)
      · exact ⟨nonzero, divides⟩
      · exact ⟨by omega, partner, by rw [← product, Nat.mul_comm]⟩
    · intro ⟨nonzero, divides⟩
      by_cases early : d < trial
      · exact .inl ⟨nonzero, early, divides⟩
      · obtain ⟨partner, product⟩ := divides
        have tried : partner < trial := by
          by_contra late
          have : trial * trial ≤ d * partner := Nat.mul_le_mul (not_lt.mp early) (not_lt.mp late)
          omega
        have exists_partner : 0 < partner := by
          apply Nat.pos_of_ne_zero
          rintro rfl
          omega
        exact .inr ⟨partner, exists_partner, tried, by omega, by rw [product, Nat.mul_comm]⟩

theorem divisorsFrom_complete (positive : 0 < n) (gathered : Gathered n trial small large) :
    (divisorsFrom n trial small large).Pairwise (· < ·) ∧
      ∀ d, d ∈ divisorsFrom n trial small large ↔ 0 < d ∧ d ∣ n := by
  fun_induction divisorsFrom n trial small large with
  | case1 trial small large within hit ih =>
    apply ih
    have divides := Nat.dvd_of_mod_eq_zero hit
    split
    next root => exact gathered_root gathered within root
    next other => exact gathered_pair gathered within (Nat.mul_div_cancel' divides) other
  | case2 trial small large within miss ih =>
    exact ih (gathered_miss gathered within fun divides => miss (Nat.mod_eq_zero_of_dvd divides))
  | case3 trial small large passed => exact gathered.complete positive (not_le.mp passed)

/-- Of a positive number all positive divisors are listed, each once and in ascending order;
other numbers have an empty list. -/
theorem divisors_listed (n : Int) :
    (1 ≤ n → (divisors n).Pairwise (· < ·) ∧ ∀ d : ℕ, d ∈ divisors n ↔ 0 < d ∧ (d : Int) ∣ n) ∧
      (n < 1 → divisors n = []) := by
  rw [divisors]
  split
  next low => exact ⟨fun high => absurd low (not_lt.mpr high), fun _ => rfl⟩
  next high =>
    refine ⟨fun _ => ?_, fun low => absurd low high⟩
    obtain ⟨whole, rfl⟩ := Int.eq_ofNat_of_zero_le (show 0 ≤ n by omega)
    have positive : 0 < whole := by omega
    rw [Int.toNat_natCast]
    simp only [Int.natCast_dvd_natCast]
    exact divisorsFrom_complete positive (gathered_start whole)

example : divisors 36 = [1, 2, 3, 4, 6, 9, 12, 18, 36] := by decide +kernel

end Reckoner.Proofs.DivisorListing
