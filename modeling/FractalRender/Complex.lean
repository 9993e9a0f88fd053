import FractalRender.Scalar.Basic

/-!
# Points of the complex plane

Arithmetic on pairs of coordinates.  Each operation fixes the order of its roundings, so that
over binary64 two ways of reaching the same number are the same number only where this file
makes them so.
-/

namespace FractalRender

/-- A point of the complex plane. -/
structure Complex (α : Type) where
  /-- The real part. -/
  re : α
  /-- The imaginary part. -/
  im : α

namespace Complex

variable {α : Type} [Scalar α]

/-- The point 0. -/
def zero : Complex α := ⟨0.0, 0.0⟩

/-- The point 1. -/
def one : Complex α := ⟨1.0, 0.0⟩

/-- The sum. -/
@[inline] def add (z w : Complex α) : Complex α := ⟨z.re + w.re, z.im + w.im⟩

/-- The difference. -/
@[inline] def sub (z w : Complex α) : Complex α := ⟨z.re - w.re, z.im - w.im⟩

/-- The product. -/
@[inline] def mul (z w : Complex α) : Complex α :=
  ⟨z.re * w.re - z.im * w.im, z.re * w.im + z.im * w.re⟩

/-- The point stretched by a real factor. -/
@[inline] def scale (z : Complex α) (k : α) : Complex α := ⟨z.re * k, z.im * k⟩

/-- The square. -/
@[inline] def square (z : Complex α) : Complex α :=
  ⟨z.re * z.re - z.im * z.im, 2.0 * z.re * z.im⟩

/-- The squared distance from 0. -/
@[inline] def normSq (z : Complex α) : α := z.re * z.re + z.im * z.im

/-- The quotient, and nothing when the squared size of the divisor lies below `least`. -/
@[inline] def div? (z w : Complex α) (least : α) : Option (Complex α) :=
  let d := w.normSq
  if d < least then none
  else some ⟨(z.re * w.re + z.im * w.im) / d, (z.im * w.re - z.re * w.im) / d⟩

end Complex

end FractalRender
