import Mathlib
import SciCalc.Proofs.Mat.RingLaws
import SciCalc.Proofs.Mat.StoredOperations

/-!
# Transposes of products and sums

A cell of a product is a sum of products in a fixed order. The product of the
transposes in reverse adds the same terms in the same order, each with its two
factors exchanged. So multiplication has to be commutative and nothing is asked
of addition: the equations hold of doubles cell for cell, rounding included.
They hold of the stored cells as well, where the two sides find the factors at
different places of lists of different strides, and where either side has a result
only if there is room for the product.
-/

namespace SciCalc

open Outcome

/-! ## Products of doubles -/

section Doubles

open Float.Model

theorem sign_mul_comm (s t : UnpackedFloat.Sign) : s * t = t * s := by
  cases s <;> cases t <;> rfl

theorem unpacked_mul_comm (format : Format) (x y : UnpackedFloat) :
    UnpackedFloat.mul format x y = UnpackedFloat.mul format y x := by
  cases x <;> cases y <;>
    simp [UnpackedFloat.mul, sign_mul_comm, mul_comm, add_comm]

/-- A product of doubles is the exact product, rounded; that of a zero and an
infinity is not a number in either order. -/
theorem double_mul_comm (x y : Float) : x * y = y * x :=
  congrArg (fun product => Float.ofModel (pack product))
    (unpacked_mul_comm Format.binary64 x.toModel.unpack y.toModel.unpack)

end Doubles

variable {R : Type} [Scalar R]

namespace Cells

variable {m n k : ℕ}

/-- Both sides of a cell are sums over the inner index from the first to the
last. -/
theorem transpose_mul (hcomm : ∀ x y : R, x * y = y * x) (c : Cells R m k)
    (d : Cells R k n) :
    (c.mul d).transpose = d.transpose.mul c.transpose := by
  apply ext
  intro j i
  rw [entry_transpose, mul, mul, entry_ofFn, entry_ofFn]
  refine congrArg (Scalar.sum k) (funext fun l => ?_)
  rw [entry_transpose, entry_transpose]
  exact hcomm _ _

theorem transpose_add (c d : Cells R m n) :
    (c.add d).transpose = c.transpose.add d.transpose := by
  apply ext
  intro j i
  simp only [entry_transpose, add, entry_ofFn]

end Cells

namespace Mat

theorem transpose_of_multiply (hcomm : ∀ x y : R, x * y = y * x)
    (a b : Mat R) :
    AgreeWhen (a.cols = b.rows) ((a.multiply b).map transpose)
      (b.transpose.multiply a.transpose) := by
  apply AgreeWhen.intro
  · intro d hd
    obtain ⟨ab, hab, -⟩ := map_eq_ok_iff.1 hd
    exact (shape_of_multiply hab).1
  · intro d hd
    exact (shape_of_multiply hd).1.symm
  · intro hinner
    obtain ⟨m, k, c, hm, hk⟩ := a
    obtain ⟨k', n, d, hk', hn⟩ := b
    obtain rfl : k = k' := hinner
    refine ⟨⟨n, m, (c.mul d).transpose, hn, hm⟩, ?_, ?_⟩
    · rw [multiply_cells]
      rfl
    · rw [transpose, transpose, multiply_cells, Cells.transpose_mul hcomm]

theorem transpose_of_add (a b : Mat R) :
    AgreeWhen (a.rows = b.rows ∧ a.cols = b.cols) ((a.add b).map transpose)
      (a.transpose.add b.transpose) := by
  apply AgreeWhen.intro
  · intro d hd
    obtain ⟨sum, hsum, -⟩ := map_eq_ok_iff.1 hd
    exact (shape_of_cellwise hsum).1
  · intro d hd
    exact (shape_of_cellwise hd).1.symm
  · rintro ⟨hrows, hcols⟩
    obtain ⟨m, n, c, hm, hn⟩ := a
    obtain ⟨m', n', d, hm', hn'⟩ := b
    obtain rfl : m = m' := hrows
    obtain rfl : n = n' := hcols
    refine ⟨⟨n, m, (c.add d).transpose, hn, hm⟩, ?_, ?_⟩
    · rw [add_cells]
      rfl
    · rw [transpose, transpose, add_cells, Cells.transpose_add]

end Mat

/-! ## Stored cells -/

omit [Scalar R] in
/-- Calculations on matrices that agree also agree in the cells they store. -/
theorem agreeWhen_stored {fits : Prop} {x y : Except (MatError R) (Mat R)}
    (h : AgreeWhen fits x y) : AgreeWhen fits (stored x) (stored y) := by
  apply AgreeWhen.intro
  · intro s hs
    obtain ⟨a, ha, -⟩ := stored_eq_ok_iff.1 hs
    exact h.2.1 ⟨a, ha⟩
  · intro s hs
    obtain ⟨a, ha, -⟩ := stored_eq_ok_iff.1 hs
    exact h.2.1 ⟨a, (h.1 a).2 ha⟩
  · intro hfits
    obtain ⟨a, ha⟩ := h.2.2 hfits
    exact ⟨a.store, stored_eq_ok_iff.2 ⟨a, ha, rfl⟩,
      stored_eq_ok_iff.2 ⟨a, (h.1 a).1 ha, rfl⟩⟩

namespace RowMajor

theorem transposes_bind (a b : Mat R)
    (next : RowMajor R → RowMajor R → Except (StorageFault R) (RowMajor R)) :
    (a.store.transpose >>= fun s => b.store.transpose >>= fun t => next s t) =
      next a.transpose.store b.transpose.store := by
  rw [transpose_eq, ok_bind, transpose_eq, ok_bind]

end RowMajor

namespace Mat

/-- Both sides need room for as many cells: a shape has as many places as the
exchanged one. -/
theorem stored_transpose_of_multiply (hcomm : ∀ x y : R, x * y = y * x)
    (a b : Mat R) :
    AgreeWhen (a.cols = b.rows ∧ RowMajor.Storable a.rows b.cols)
      (a.store.multiply b.store >>= RowMajor.transpose)
      (b.transpose.store.multiply a.transpose.store) := by
  apply AgreeWhen.intro
  · intro s hs
    obtain ⟨product, hproduct, -⟩ := bind_eq_ok_iff.1 hs
    exact RowMajor.storable_of_multiply hproduct
  · intro s hs
    obtain ⟨hinner, hroom⟩ := RowMajor.storable_of_multiply hs
    exact ⟨hinner.symm, RowMajor.storable_comm.1 hroom⟩
  · rintro ⟨hinner, hroom⟩
    have hroom' : RowMajor.Storable b.transpose.rows a.transpose.cols :=
      RowMajor.storable_comm.1 hroom
    rw [RowMajor.multiply_eq a b fun _ => hroom,
      RowMajor.multiply_eq _ _ fun _ => hroom',
      RowMajor.stored_bind_transpose]
    have hagree := agreeWhen_stored (transpose_of_multiply hcomm a b)
    obtain ⟨s, hs⟩ := hagree.2.2 hinner
    exact ⟨s, hs, (hagree.1 s).1 hs⟩

/-- The transpose of a product is the product of the transposes in reverse, and
the transpose of a sum is the sum of the transposes: of matrices and of their
cells as they are stored. Either side is refused for the same shapes, and stored
products need room for their cells on either side. -/
theorem transpose_reverses_products (hcomm : ∀ x y : R, x * y = y * x)
    (a b : Mat R) :
    AgreeWhen (a.cols = b.rows) ((a.multiply b).map transpose)
        (b.transpose.multiply a.transpose) ∧
      AgreeWhen (a.cols = b.rows ∧ RowMajor.Storable a.rows b.cols)
        (a.store.multiply b.store >>= RowMajor.transpose)
        (b.store.transpose >>= fun s => a.store.transpose >>= fun t =>
          s.multiply t) ∧
      AgreeWhen (a.rows = b.rows ∧ a.cols = b.cols)
        ((a.add b).map transpose) (a.transpose.add b.transpose) ∧
      AgreeWhen (a.rows = b.rows ∧ a.cols = b.cols)
        (RowMajor.cellwise .add (· + ·) a.store b.store >>= RowMajor.transpose)
        (a.store.transpose >>= fun s => b.store.transpose >>= fun t =>
          RowMajor.cellwise .add (· + ·) s t) := by
  have hsum := transpose_of_add a b
  refine ⟨transpose_of_multiply hcomm a b, ?_, hsum, ?_⟩
  · rw [RowMajor.transposes_bind]
    exact stored_transpose_of_multiply hcomm a b
  · rw [RowMajor.cellwise_eq, RowMajor.stored_bind_transpose,
      RowMajor.transposes_bind, RowMajor.cellwise_eq]
    exact agreeWhen_stored hsum

/-- The first sum is rounded on its way and comes to zero, where another order
of its terms would give one. -/
theorem transpose_of_rounded_product :
    let a : Mat Float := ⟨2, 3, Cells.ofFn
      ![![9007199254740992, 1, -9007199254740992], ![1, 2, 3]],
      two_pos, three_pos⟩
    let b : Mat Float := ⟨3, 1, Cells.ofFn ![![1], ![1], ![1]], three_pos,
      one_pos⟩
    (∀ x y : Float, x * y = y * x) ∧
      ∃ c, a.multiply b = .ok c ∧ c.toList = [0, 6] ∧
        b.transpose.multiply a.transpose = .ok c.transpose := by
  intro a b
  have hproduct : (a.multiply b).map toList = .ok [0, 6] := by decide +kernel
  obtain ⟨c, hc, hcells⟩ := map_eq_ok_iff.1 hproduct
  obtain ⟨⟨hsame, -⟩, -⟩ := transpose_reverses_products double_mul_comm a b
  refine ⟨double_mul_comm, c, hc, hcells, (hsame c.transpose).1 ?_⟩
  rw [hc]
  rfl

end Mat

end SciCalc
