/-!
# The Koch word

The curve is written as a word: `F` goes forward, `+` and `-` turn.  A deeper word comes from
replacing every `F`; all other characters stay.
-/

namespace FractalRender.Koch

/-- What every `F` is replaced by in the next deeper word: `F+F--F+F`. -/
def production : List Char := ['F', '+', 'F', '-', '-', 'F', '+', 'F']

/-- The word with every `F` replaced by `w`. -/
def substitute (w : List Char) (word : List Char) : List Char :=
  word.flatMap fun c => if c = 'F' then w else [c]

theorem substitute_append (w u v : List Char) :
    substitute w (u ++ v) = substitute w u ++ substitute w v := by
  simp [substitute]

/-- The word of the given depth. -/
def generate : Nat → List Char
  | 0 => ['F']
  | d + 1 => substitute production (generate d)

/-- The deepest word that is drawn; beyond it the segments are shorter than a pixel. -/
def maxDepth : Nat := 6

/-- The depth drawn for an iteration cap: one level for each 128 above 64. -/
def depthFor (cap : UInt32) : Nat := min ((cap.toNat - 64) / 128) maxDepth

end FractalRender.Koch
