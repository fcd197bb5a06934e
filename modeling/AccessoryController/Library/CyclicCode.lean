import Mathlib.Algebra.Polynomial.FieldDivision
import Mathlib.Data.List.GetD
import Mathlib.Tactic.LinearCombination

/-!
# Cyclic redundancy

Symbols of a field are the coefficients of a polynomial, the first one at the highest power. The
check of a message is the remainder of its polynomial, moved up by the degree of the generator,
after division by the generator. A register that does not start at zero counts as symbols before the
message. A check detects each burst that is no longer than the degree of its generator.

## Main definitions

* `CyclicCode.ofSymbols`: the polynomial of some symbols
* `CyclicCode.check`: the check of a message

## Main results

* `CyclicCode.check_append`: the check goes on from where it is
* `CyclicCode.check_ne_of_burst`: two messages that differ in one burst have different checks
-/

namespace CyclicCode

open Polynomial

variable {K : Type*} [Field K]

/-- The polynomial of some symbols, the first one at the highest power. -/
noncomputable def ofSymbols (symbols : List K) : K[X] := symbols.foldl (fun p a => p * X + C a) 0

@[simp] theorem ofSymbols_nil : ofSymbols ([] : List K) = 0 := rfl

@[simp] theorem ofSymbols_snoc (symbols : List K) (a : K) :
    ofSymbols (symbols ++ [a]) = ofSymbols symbols * X + C a := by
  rw [ofSymbols, List.foldl_append]
  rfl

theorem ofSymbols_append (symbols others : List K) : ofSymbols (symbols ++ others) =
    ofSymbols symbols * X ^ others.length + ofSymbols others := by
  induction others using List.reverseRecOn with
  | nil => simp
  | append_singleton others a ih =>
    rw [← List.append_assoc, ofSymbols_snoc, ofSymbols_snoc, ih, List.length_append, pow_add]
    simp only [List.length_singleton, pow_one]
    ring

theorem coeff_ofSymbols (symbols : List K) (d : ℕ) :
    (ofSymbols symbols).coeff d = symbols.reverse.getD d 0 := by
  induction symbols using List.reverseRecOn generalizing d with
  | nil => simp
  | append_singleton symbols a ih =>
    rw [ofSymbols_snoc, List.reverse_append, List.reverse_singleton, List.singleton_append]
    cases d with
    | zero => simp
    | succ d => simp [ih]

/-- The check of a message, by a register that starts as it does. -/
noncomputable def check (generator start : K[X]) (message : List K) : K[X] :=
  (ofSymbols message * X ^ generator.natDegree + start * X ^ message.length) %ₘ generator

variable {generator : K[X]}

/-- **The check goes on** from where it is. -/
theorem check_append (monic : generator.Monic) (start : K[X]) (message more : List K) :
    check generator start (message ++ more) =
      check generator (check generator start message) more := by
  apply modByMonic_eq_of_dvd_sub monic
  rw [ofSymbols_append, List.length_append, pow_add]
  -- the register before `more` counts as what it is the remainder of
  obtain ⟨q, hq⟩ := dvd_modByMonic_sub
    (ofSymbols message * X ^ generator.natDegree + start * X ^ message.length) generator
  refine ⟨-(q * X ^ more.length), ?_⟩
  rw [check]
  linear_combination -(X ^ more.length) * hq

theorem check_nil (monic : generator.Monic) {start : K[X]}
    (small : start.degree < generator.degree) :
    check generator start [] = start := by
  rw [check, ofSymbols_nil, zero_mul, zero_add, List.length_nil, pow_zero, mul_one]
  exact (modByMonic_eq_self_iff monic).mpr small

/-- A generator with a constant term divides no power of the variable away. -/
theorem dvd_of_dvd_mul_X_pow (constant : generator.coeff 0 ≠ 0) {p : K[X]} {n : ℕ}
    (divides : generator ∣ p * X ^ n) : generator ∣ p := by
  have coprime : IsCoprime generator X := by
    refine ⟨C (generator.coeff 0)⁻¹, -(C (generator.coeff 0)⁻¹ * generator.divX), ?_⟩
    have parts := divX_mul_X_add generator
    have unit : C (generator.coeff 0)⁻¹ * C (generator.coeff 0) = (1 : K[X]) := by
      rw [← C_mul, inv_mul_cancel₀ constant, C_1]
    calc C (generator.coeff 0)⁻¹ * generator + -(C (generator.coeff 0)⁻¹ * generator.divX) * X
        = C (generator.coeff 0)⁻¹ * (generator.divX * X + C (generator.coeff 0)) -
          C (generator.coeff 0)⁻¹ * generator.divX * X := by rw [parts]; ring
      _ = C (generator.coeff 0)⁻¹ * C (generator.coeff 0) := by ring
      _ = 1 := unit
  exact coprime.pow_right.dvd_of_dvd_mul_right divides

/-- **A burst is detected** when it is no longer than the degree of the generator. -/
theorem check_ne_of_burst (monic : generator.Monic) (constant : generator.coeff 0 ≠ 0)
    (start : K[X]) {sent received : List K} (length : sent.length = received.length)
    {first : ℕ} (burst : ∀ i, i < first ∨ first + generator.natDegree ≤ i →
      sent[i]? = received[i]?) (differ : sent ≠ received) :
    check generator start sent ≠ check generator start received := by
  intro same
  -- The error is a multiple of the generator.
  have divides : generator ∣ ofSymbols sent - ofSymbols received := by
    refine dvd_of_dvd_mul_X_pow constant (n := generator.natDegree) ?_
    rw [check, check, length] at same
    have zero := sub_modByMonic (ofSymbols sent * X ^ generator.natDegree +
      start * X ^ received.length) (ofSymbols received * X ^ generator.natDegree +
      start * X ^ received.length) generator
    rw [same, sub_self, modByMonic_eq_zero_iff_dvd monic] at zero
    obtain ⟨q, hq⟩ := zero
    exact ⟨q, by linear_combination hq⟩
  have coeff_error (d : ℕ) : (ofSymbols sent - ofSymbols received).coeff d =
      sent.reverse.getD d 0 - received.reverse.getD d 0 := by
    rw [coeff_sub, coeff_ofSymbols, coeff_ofSymbols]
  have outside (d : ℕ) (out : sent.length ≤ d ∨ sent.length - 1 - d < first ∨
      first + generator.natDegree ≤ sent.length - 1 - d) :
      (ofSymbols sent - ofSymbols received).coeff d = 0 := by
    rw [coeff_error, sub_eq_zero]
    rcases Nat.lt_or_ge d sent.length with inside | past
    · have symbol := burst (sent.length - 1 - d) (by omega)
      rw [List.getD_eq_getElem?_getD, List.getD_eq_getElem?_getD, List.getElem?_reverse inside,
        List.getElem?_reverse (length ▸ inside), ← length, symbol]
    · rw [List.getD_eq_default _ _ (by rwa [List.length_reverse]),
        List.getD_eq_default _ _ (by rwa [List.length_reverse, ← length])]
  -- Moved down to the end of the burst, the error has a degree below that of the generator.
  have low : X ^ (sent.length - (first + generator.natDegree)) ∣
      ofSymbols sent - ofSymbols received :=
    X_pow_dvd_iff.mpr fun d below => outside d (by omega)
  obtain ⟨error, moved⟩ := low
  have small : error.degree < generator.natDegree := by
    rw [degree_lt_iff_coeff_zero]
    intro d high
    have far := outside (d + (sent.length - (first + generator.natDegree))) (by omega)
    rwa [moved, coeff_X_pow_mul] at far
  have none : error = 0 := by
    by_contra some
    refine monic.not_dvd_of_degree_lt some ?_ ?_
    · rwa [degree_eq_natDegree monic.ne_zero]
    · rw [moved, mul_comm] at divides
      exact dvd_of_dvd_mul_X_pow constant divides
  rw [none, mul_zero] at moved
  refine differ (List.ext_getElem? fun i => ?_)
  rcases Nat.lt_or_ge i sent.length with inside | past
  · have symbol := coeff_error (sent.length - 1 - i)
    rw [moved, coeff_zero, eq_comm, sub_eq_zero, List.getD_eq_getElem?_getD,
      List.getD_eq_getElem?_getD, List.getElem?_reverse (by omega),
      List.getElem?_reverse (by omega), ← length,
      Nat.sub_sub_self (Nat.le_sub_one_of_lt inside), List.getElem?_eq_getElem inside,
      List.getElem?_eq_getElem (length ▸ inside)] at symbol
    rw [List.getElem?_eq_getElem inside, List.getElem?_eq_getElem (length ▸ inside)]
    exact congrArg some symbol
  · rw [List.getElem?_eq_none past, List.getElem?_eq_none (length ▸ past)]

end CyclicCode
