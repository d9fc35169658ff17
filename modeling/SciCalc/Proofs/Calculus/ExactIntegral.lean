import Mathlib
import SciCalc.Calculus.Simpson

/-!
# Integrals of exact numbers

Over the rational numbers the integral of a function is its weighted sum over
evenly spaced nodes. The weights of the rule read the same from both ends, and
where two rules meet the end weights of both add up to the weight of an inner
node. So an integral changes its sign when the limits are exchanged, and two
integrals over neighbouring ranges with subintervals of the same width make up
the integral over both.
-/

namespace SciCalc.Simpson

open Finset

variable {ε : Type} {f : ℚ → ℚ} {a b : ℚ} {m n i : ℕ}

variable (ε) in
/-- The integral of a function that has a value everywhere, though its calls
could fail with an error of type `ε`. -/
def exactIntegral (f : ℚ → ℚ) (a b : ℚ) (n : ℕ) :
    Except (IntegralError ℚ ε) ℚ :=
  Id.run (integrate (fun x => pure (.ok (f x))) a b n)

/-- The values `y 0, …, y n` with the weights of the rule. -/
def weightedSum (n : ℕ) (y : ℕ → ℚ) : ℚ :=
  ∑ i ∈ range (n + 1), weight n i * y i

/-- The rule over `n` subintervals of width `h` from `a` on. -/
def rule (f : ℚ → ℚ) (a h : ℚ) (n : ℕ) : ℚ :=
  h / 3 * weightedSum n fun i => f (a + i * h)

/-! ## The integral as a weighted sum -/

theorem check_eq_ok (hpos : 0 < n) (heven : Even n) :
    check a b n = .ok () := by
  have hcount : ¬(n = 0 ∨ n % 2 ≠ 0) := by
    rw [Nat.even_iff] at heven
    omega
  rw [check, if_neg hcount]
  rfl

theorem addNodes_exact (sum : ℚ) (indices : List ℕ) :
    Id.run (addNodes (fun x => pure (.ok (f x))) a b n sum indices) =
      (.ok (sum + (indices.map fun i => weight n i * f (node a b n i)).sum) :
        Except (IntegralError ℚ ε) ℚ) := by
  induction indices generalizing sum with
  | nil =>
      rw [List.map_nil, List.sum_nil, add_zero]
      rfl
  | cons i indices ih =>
      rw [List.map_cons, List.sum_cons, ← add_assoc, ← ih]
      rfl

theorem width_eq (a b : ℚ) (n : ℕ) : width a b n = (b - a) / n := rfl

theorem add_mul_width (hpos : 0 < n) (a b : ℚ) : a + n * width a b n = b := by
  have hn : (n : ℚ) ≠ 0 := by positivity
  rw [width_eq, mul_div_cancel₀ _ hn, add_sub_cancel]

/-- The last node needs no rule of its own. -/
theorem node_eq (hpos : 0 < n) (a b : ℚ) (i : ℕ) :
    node a b n i = a + i * width a b n := by
  unfold node
  split
  · next hlast => rw [hlast, add_mul_width hpos]
  · rfl

theorem exactIntegral_eq (hpos : 0 < n) (heven : Even n) (f : ℚ → ℚ)
    (a b : ℚ) :
    exactIntegral ε f a b n = .ok (rule f a (width a b n) n) := by
  have hsum : weightedSum n (fun i => f (a + i * width a b n)) =
      0 + ((List.range (n + 1)).map fun i =>
        weight n i * f (node a b n i)).sum := by
    simp only [node_eq hpos, zero_add]
    rfl
  rw [exactIntegral, integrate_of_check (check_eq_ok hpos heven), rule,
    hsum]
  change (Id.run (addNodes _ a b n 0 (List.range (n + 1)))).map _ = _
  rw [addNodes_exact]
  rfl

/-! ## Weights -/

theorem weight_end : weight n n = (1 : ℚ) :=
  if_pos (.inr rfl)

theorem weight_start : weight n 0 = (1 : ℚ) :=
  if_pos (.inl rfl)

theorem weight_odd (hi : i < n) (hodd : i % 2 = 1) : weight n i = (4 : ℚ) := by
  rw [weight, if_neg (by omega), if_pos hodd]
  rfl

theorem weight_even (hpos : 0 < i) (hi : i < n) (heven : i % 2 = 0) :
    weight n i = (2 : ℚ) := by
  rw [weight, if_neg (by omega), if_neg (by omega)]
  rfl

/-- The weights read the same from both ends. -/
theorem weight_reflect (heven : Even n) (hi : i ≤ n) :
    weight n (n - i) = (weight n i : ℚ) := by
  rw [Nat.even_iff] at heven
  have hends : n - i = 0 ∨ n - i = n ↔ i = 0 ∨ i = n := by omega
  have hparity : (n - i) % 2 = i % 2 := by omega
  simp only [weight, hends, hparity]

/-- Before the end of the first rule its weights are those of the whole. -/
theorem weight_add_left (hi : i < m) (n : ℕ) :
    weight (m + n) i = (weight m i : ℚ) := by
  have hends : i = 0 ∨ i = m + n ↔ i = 0 ∨ i = m := by omega
  simp only [weight, hends]

/-- Behind the joint the weights are those of the second rule. -/
theorem weight_add_right (heven : Even m) (hi : 0 < i) (n : ℕ) :
    weight (m + n) (m + i) = (weight n i : ℚ) := by
  rw [Nat.even_iff] at heven
  have hends : m + i = 0 ∨ m + i = m + n ↔ i = 0 ∨ i = n := by omega
  have hparity : (m + i) % 2 = i % 2 := by omega
  simp only [weight, hends, hparity]

/-! ## Weighted sums -/

theorem weightedSum_congr {y z : ℕ → ℚ} (h : ∀ i ≤ n, y i = z i) :
    weightedSum n y = weightedSum n z := by
  apply sum_congr rfl
  intro i hi
  rw [h i (Nat.lt_succ_iff.1 (mem_range.1 hi))]

theorem weightedSum_reflect (heven : Even n) (y : ℕ → ℚ) :
    weightedSum n (fun i => y (n - i)) = weightedSum n y := by
  unfold weightedSum
  rw [← sum_range_reflect (fun i => weight n i * y i)]
  apply sum_congr rfl
  intro i hi
  have hle : i ≤ n := Nat.lt_succ_iff.1 (mem_range.1 hi)
  rw [Nat.add_sub_cancel, weight_reflect heven hle]

/-- Where the rules meet, one and one make the weight of an inner node. -/
theorem weightedSum_add (hm : 0 < m) (hn : 0 < n) (heven : Even m)
    (y : ℕ → ℚ) :
    weightedSum (m + n) y =
      weightedSum m y + weightedSum n fun i => y (m + i) := by
  have hleft : ∑ i ∈ range m, weight (m + n) i * y i =
      ∑ i ∈ range m, weight m i * y i := by
    apply sum_congr rfl
    intro i hi
    rw [weight_add_left (mem_range.1 hi)]
  have hright : ∑ i ∈ range n, weight (m + n) (m + (i + 1)) * y (m + (i + 1)) =
      ∑ i ∈ range n, weight n (i + 1) * y (m + (i + 1)) := by
    apply sum_congr rfl
    intro i _
    rw [weight_add_right heven i.succ_pos]
  have hjoint : weight (m + n) m = (2 : ℚ) :=
    weight_even hm (by omega) (Nat.even_iff.1 heven)
  calc
    weightedSum (m + n) y =
        ∑ i ∈ range m, weight (m + n) i * y i +
          ∑ i ∈ range (n + 1), weight (m + n) (m + i) * y (m + i) := by
      rw [weightedSum, add_assoc, sum_range_add]
    _ = ∑ i ∈ range m, weight m i * y i +
          (∑ i ∈ range n, weight n (i + 1) * y (m + (i + 1)) + 2 * y m) := by
      rw [sum_range_succ', hleft, hright, add_zero, hjoint]
    _ = weightedSum m y + weightedSum n fun i => y (m + i) := by
      rw [weightedSum, weightedSum, sum_range_succ, sum_range_succ',
        weight_end, weight_start, add_zero]
      ring

theorem weightedSum_two (y : ℕ → ℚ) :
    weightedSum 2 y = y 0 + 4 * y 1 + y 2 := by
  rw [weightedSum, sum_range_succ, sum_range_succ, sum_range_one, weight_start,
    weight_end, weight_odd (by omega) rfl, one_mul, one_mul]

/-! ## Exchanged and neighbouring limits -/

/-- The rule from the last node back to the first. -/
theorem rule_backwards (heven : Even n) (f : ℚ → ℚ) (a h : ℚ) :
    rule f (a + n * h) (-h) n = -rule f a h n := by
  have hnodes : weightedSum n (fun i => f (a + n * h + i * -h)) =
      weightedSum n fun i => f (a + (n - i : ℕ) * h) := by
    apply weightedSum_congr
    intro i hi
    rw [Nat.cast_sub hi]
    congr 1
    ring
  rw [rule, rule, hnodes, weightedSum_reflect heven fun i => f (a + i * h)]
  ring

theorem rule_add (hm : 0 < m) (hn : 0 < n) (heven : Even m) (f : ℚ → ℚ)
    (a h : ℚ) :
    rule f a h (m + n) = rule f a h m + rule f (a + m * h) h n := by
  have hnodes : weightedSum n (fun i => f (a + m * h + i * h)) =
      weightedSum n fun i => f (a + (m + i : ℕ) * h) := by
    apply weightedSum_congr
    intro i _
    rw [Nat.cast_add]
    congr 1
    ring
  rw [rule, rule, rule, weightedSum_add hm hn heven, hnodes]
  ring

theorem rule_two (f : ℚ → ℚ) (a h : ℚ) :
    rule f a h 2 = h / 3 * (f a + 4 * f (a + h) + f (a + 2 * h)) := by
  rw [rule, weightedSum_two]
  norm_num

/-- Two ranges with subintervals of one width, and the range of both. -/
theorem width_add {a b c : ℚ} (hm : 0 < m) (hn : 0 < n)
    (hwidth : width a c m = width c b n) :
    width a b (m + n) = width a c m := by
  have hpos : ((m : ℚ) + n) ≠ 0 := by positivity
  have hleft := add_mul_width hm a c
  have hright := add_mul_width hn c b
  rw [← hwidth] at hright
  rw [width_eq a b, Nat.cast_add, div_eq_iff hpos]
  linarith

/-- Exchanged limits change the sign of an integral, equal limits make it zero,
and integrals over neighbouring ranges add up when their subintervals have the
same width. -/
theorem integral_oriented_and_additive (ε : Type) (f : ℚ → ℚ) :
    (∀ (a b : ℚ) (n : ℕ), 0 < n → Even n →
      ∃ value, exactIntegral ε f a b n = .ok value ∧
        exactIntegral ε f b a n = .ok (-value)) ∧
    (∀ (a : ℚ) (n : ℕ), 0 < n → Even n → exactIntegral ε f a a n = .ok 0) ∧
    (∀ (a c b : ℚ) (n₁ n₂ : ℕ), 0 < n₁ → Even n₁ → 0 < n₂ → Even n₂ →
      (c - a) / n₁ = (b - c) / n₂ →
      ∃ left right, exactIntegral ε f a c n₁ = .ok left ∧
        exactIntegral ε f c b n₂ = .ok right ∧
        exactIntegral ε f a b (n₁ + n₂) = .ok (left + right)) := by
  refine ⟨?_, ?_, ?_⟩
  · intro a b n hpos heven
    refine ⟨_, exactIntegral_eq hpos heven f a b, ?_⟩
    have hwidth : width b a n = -width a b n := by
      rw [width_eq, width_eq, ← neg_div, neg_sub]
    rw [exactIntegral_eq hpos heven, ← rule_backwards heven,
      add_mul_width hpos, hwidth]
  · intro a n hpos heven
    rw [exactIntegral_eq hpos heven, rule, width_eq, sub_self, zero_div,
      zero_div, zero_mul]
  · intro a c b n₁ n₂ hpos₁ heven₁ hpos₂ heven₂ hwidth
    have hsame : width a c n₁ = width c b n₂ := hwidth
    refine ⟨_, _, exactIntegral_eq hpos₁ heven₁ f a c,
      exactIntegral_eq hpos₂ heven₂ f c b, ?_⟩
    rw [exactIntegral_eq (by omega) (heven₁.add heven₂),
      width_add hpos₁ hpos₂ hsame, rule_add hpos₁ hpos₂ heven₁,
      add_mul_width hpos₁, hsame]

/-- The rule is not exact on a fourth power, yet two parts of different length
make up the whole. -/
theorem integral_of_fourth_power_in_parts :
    let f : ℚ → ℚ := fun x => x ^ 4
    exactIntegral Empty f 0 1 2 = .ok (5 / 24) ∧
      exactIntegral Empty f 1 0 2 = .ok (-(5 / 24)) ∧
      exactIntegral Empty f 1 1 2 = .ok 0 ∧
      ((1 : ℚ) - 0) / (2 : ℕ) = (3 - 1) / (4 : ℕ) ∧
      ∃ right, exactIntegral Empty f 1 3 4 = .ok right ∧
        exactIntegral Empty f 0 3 (2 + 4) = .ok (5 / 24 + right) := by
  intro f
  obtain ⟨hexchange, hequal, hadd⟩ := integral_oriented_and_additive Empty f
  have htwo : Even 2 := by decide
  have hleft : exactIntegral Empty f 0 1 2 = .ok (5 / 24) := by
    rw [exactIntegral_eq two_pos htwo, rule_two, width_eq]
    norm_num [f]
  have hwidth : ((1 : ℚ) - 0) / (2 : ℕ) = (3 - 1) / (4 : ℕ) := by norm_num
  obtain ⟨value, hvalue, hback⟩ := hexchange 0 1 2 two_pos htwo
  obtain ⟨left, right, hleft', hright, hwhole⟩ :=
    hadd 0 1 3 2 4 two_pos htwo four_pos (by decide) hwidth
  cases hleft.symm.trans hvalue
  cases hleft.symm.trans hleft'
  exact ⟨hleft, hback, hequal 1 2 two_pos htwo, hwidth, right, hright, hwhole⟩

end SciCalc.Simpson
