import Mathlib
import FractalRender.Koch.Word

/-!
# The Koch curve — its words

Replacing every `F` is a morphism of words: it goes through concatenations, and to replace twice is
to replace once by a word in which was replaced before.  So the depth of a word can be split at any
place, and its characters are counted without writing it down.

* `substitute_substitute`, `generate_add`: the two facts on replacing.
* `count_substitute`, `length_substitute`: the characters of a word after replacing.
* `count_forward_generate`, `length_generate`, `count_turns_generate`, `isCommand_of_mem_generate`:
  the characters of the word of a depth.
-/

namespace FractalRender.Koch

/-- Whether the turtle obeys a character. -/
def isCommand (c : Char) : Bool := c = 'F' || c = '+' || c = '-'

/-! ### Replacing -/

theorem substitute_cons (u w : List Char) (c : Char) :
    substitute u (c :: w) = (if c = 'F' then u else [c]) ++ substitute u w := rfl

/-- To replace `F` by itself is to replace nothing. -/
theorem substitute_forward (w : List Char) : substitute ['F'] w = w := by
  induction w with
  | nil => rfl
  | cons c w ih =>
      rw [substitute_cons, ih]
      split
      · next h => rw [h]; rfl
      · rfl

/-- **To replace twice is to replace once.** -/
theorem substitute_substitute (u v w : List Char) :
    substitute u (substitute v w) = substitute (substitute u v) w := by
  induction w with
  | nil => rfl
  | cons c w ih =>
      rw [substitute_cons, substitute_append, ih, substitute_cons]
      split
      · rfl
      · next h =>
          -- a character that stays is met by the second replacement and stays again
          rw [show substitute u [c] = [c] by simp [substitute, h]]

/-- **A depth can be split anywhere**: the word of the sum is the first word with every `F` replaced
by the second. -/
theorem generate_add (n m : Nat) : generate (n + m) = substitute (generate m) (generate n) := by
  induction m with
  | zero => exact (substitute_forward (generate n)).symm
  | succ m ih =>
      calc generate (n + (m + 1))
          = substitute production (generate (n + m)) := rfl
        _ = substitute production (substitute (generate m) (generate n)) := by rw [ih]
        _ = substitute (generate (m + 1)) (generate n) := substitute_substitute _ _ _

/-! ### Counting -/

/-- The characters of a word after replacing: those of the new word for every `F`, and the others
as they were. -/
theorem count_substitute (u w : List Char) (c : Char) :
    (substitute u w).count c = w.count 'F' * u.count c + if c = 'F' then 0 else w.count c := by
  induction w with
  | nil => simp [substitute]
  | cons a w ih =>
      rw [substitute_cons, List.count_append, ih]
      by_cases ha : a = 'F'
      · subst ha
        rw [if_pos rfl, List.count_cons_self, Nat.succ_mul]
        grind
      · rw [if_neg ha, List.count_cons_of_ne ha]
        grind

/-- The length of a word after replacing. -/
theorem length_substitute (u w : List Char) :
    (substitute u w).length + w.count 'F' = w.count 'F' * u.length + w.length := by
  induction w with
  | nil => simp [substitute]
  | cons c w ih =>
      rw [substitute_cons, List.length_append, List.length_cons]
      by_cases hc : c = 'F'
      · subst hc
        rw [if_pos rfl, List.count_cons_self, Nat.succ_mul]
        omega
      · rw [if_neg hc, List.count_cons_of_ne hc, List.length_singleton]
        omega

/-- Every `F` becomes four. -/
theorem count_forward_generate (d : Nat) : (generate d).count 'F' = 4 ^ d := by
  induction d with
  | zero => rfl
  | succ d ih =>
      rw [generate, count_substitute, ih, pow_succ]
      rfl

/-- Every `F` becomes eight characters, which is seven more. -/
theorem length_generate (d : Nat) : (generate d).length = 1 + 7 * (4 ^ d - 1) / 3 := by
  have grown : 3 * (generate d).length + 4 = 7 * 4 ^ d := by
    induction d with
    | zero => rfl
    | succ d ih =>
        have step : (generate (d + 1)).length + 4 ^ d = 4 ^ d * 8 + (generate d).length := by
          rw [← count_forward_generate d]
          exact length_substitute production (generate d)
        rw [pow_succ]
        omega
  omega

/-- There are as many turns to one side as to the other. -/
theorem count_turns_generate (d : Nat) : (generate d).count '+' = (generate d).count '-' := by
  induction d with
  | zero => rfl
  | succ d ih =>
      rw [generate, count_substitute, count_substitute]
      exact congrArg (_ + ·) ih

/-- A word has no characters but commands if the word it comes from and the new part have none. -/
theorem isCommand_of_mem_substitute {u w : List Char} (hu : ∀ c ∈ u, isCommand c = true)
    (hw : ∀ c ∈ w, isCommand c = true) : ∀ c ∈ substitute u w, isCommand c = true := by
  intro c hc
  obtain ⟨a, ha, hca⟩ := List.mem_flatMap.mp hc
  split at hca
  · exact hu c hca
  · exact List.mem_singleton.mp hca ▸ hw a ha

theorem isCommand_of_mem_generate (d : Nat) : ∀ c ∈ generate d, isCommand c = true := by
  induction d with
  | zero => simp [generate, isCommand]
  | succ d ih => exact isCommand_of_mem_substitute (by simp [production, isCommand]) ih

end FractalRender.Koch
