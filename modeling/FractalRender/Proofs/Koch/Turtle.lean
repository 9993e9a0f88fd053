import Mathlib
import FractalRender.Koch.Drawing
import FractalRender.Proofs.Koch.Word

/-!
# The Koch curve — the turtle's trail

The positions a turtle leaves are its start and its *trail* (`Turtle.trail`), one position for every
step forward.  Characters that are no commands leave the turtle as it is, so they may be dropped
from a word; and only steps forward move it, so it is at the end of its trail.

* `toList_polyline`: a curve as the start and the trail.
* `length_trail`, `trail_filter`, `getLast_trail`: the three facts on trails.
* `words_and_curves`: what the words of all depths consist of, and the curves of all words.
-/

namespace FractalRender.Koch

variable {α : Type} [Scalar α] [Elementary α]

namespace Turtle

/-- The turtle after a word. -/
def read (length : α) (t : Turtle α) (word : List Char) : Turtle α := word.foldl (obey length) t

/-- The positions a turtle leaves while it reads a word, one after every step forward. -/
def trail (length : α) : Turtle α → List Char → List (Point α)
  | _, [] => []
  | t, c :: w =>
    let u := t.obey length c
    if c = 'F' then u.position :: trail length u w else trail length u w

/-! ### One character -/

/-- What is no command does nothing. -/
theorem obey_of_not_isCommand {c : Char} (h : isCommand c = false) (length : α) (t : Turtle α) :
    t.obey length c = t := by
  simp only [isCommand, Bool.or_eq_false_iff, decide_eq_false_iff_not] at h
  rw [obey, if_neg h.1.1, if_neg h.1.2, if_neg h.2]

/-- Only a step forward changes the position. -/
theorem position_obey {c : Char} (h : c ≠ 'F') (length : α) (t : Turtle α) :
    (t.obey length c).position = t.position := by
  rw [obey, if_neg h]
  split
  · rfl
  · split <;> rfl

/-! ### Words -/

/-- There is one position for every `F`. -/
theorem length_trail (length : α) (t : Turtle α) (w : List Char) :
    (t.trail length w).length = w.count 'F' := by
  induction w generalizing t with
  | nil => rfl
  | cons c w ih =>
      rw [trail]
      split
      · next h => rw [List.length_cons, ih, h, List.count_cons_self]
      · next h => rw [ih, List.count_cons_of_ne h]

/-- **Characters that are no commands** leave no trace. -/
theorem trail_filter (length : α) (t : Turtle α) (w : List Char) :
    t.trail length (w.filter isCommand) = t.trail length w := by
  induction w generalizing t with
  | nil => rfl
  | cons c w ih =>
      cases hc : isCommand c with
      | true =>
          rw [List.filter_cons_of_pos hc]
          simp only [trail, ih]
      | false =>
          have hF : c ≠ 'F' := by
            rintro rfl
            cases hc
          rw [List.filter_cons_of_neg (by simp [hc]), ih, trail, if_neg hF,
            obey_of_not_isCommand hc]

/-- The turtle is at the end of its trail. -/
theorem getLast_trail (length : α) (t : Turtle α) (w : List Char) :
    (t.position :: t.trail length w).getLast? = some (t.read length w).position := by
  induction w generalizing t with
  | nil => rfl
  | cons c w ih =>
      rw [trail]
      split
      · rw [List.getLast?_cons_cons]
        exact ih (t.obey length c)
      · next h =>
          rw [← position_obey h length t]
          exact ih (t.obey length c)

end Turtle

/-- **A curve** is the start and the trail from there. -/
theorem toList_polyline (word : List Char) (depth : UInt32) (s : Surface) :
    (polyline word depth s : Array (Point α)).toList =
      (start s).position :: (start s).trail (segment depth s.width : α) word := by
  rw [polyline]
  generalize (start s : Turtle α) = t
  generalize (segment depth s.width : α) = length
  have grows (t : Turtle α) (left : Array (Point α)) :
      (word.foldl (fun u c => (u.1.obey length c,
        if c = 'F' then u.2.push (u.1.obey length c).position else u.2))
        (t, left)).2.toList = left.toList ++ t.trail length word := by
    induction word generalizing t left with
    | nil => simp [Turtle.trail]
    | cons c w ih =>
        rw [List.foldl_cons, ih, Turtle.trail]
        split
        · rw [Array.toList_push, List.append_assoc, List.singleton_append]
        · rfl
  exact grows t #[t.position]

/-- **Words of all depths and curves of all words.**  The word of a sum of depths is the first word
with every `F` replaced by the second.  The word of depth `d` consists of commands: `4 ^ d` steps
forward and as many turns to one side as to the other.  A curve has its start and one position for
each `F` of its word, and what is no command can be dropped from the word. -/
theorem words_and_curves :
    (∀ n m, generate (n + m) = substitute (generate m) (generate n)) ∧
    (∀ d, (∀ c ∈ generate d, isCommand c = true) ∧
      (generate d).count 'F' = 4 ^ d ∧
      (generate d).length = 1 + 7 * (4 ^ d - 1) / 3 ∧
      (generate d).count '+' = (generate d).count '-') ∧
    (∀ (word : List Char) (depth : UInt32) (s : Surface),
      (polyline word depth s : Array (Point α)).size = 1 + word.count 'F' ∧
      (polyline word depth s : Array (Point α))[0]? = some (start s).position ∧
      (polyline word depth s : Array (Point α)) = polyline (word.filter isCommand) depth s) ∧
    ∀ (d : UInt32) (s : Surface),
      (polyline (generate d.toNat) d s : Array (Point α)).size = 4 ^ d.toNat + 1 := by
  have size (word : List Char) (depth : UInt32) (s : Surface) :
      (polyline word depth s : Array (Point α)).size = 1 + word.count 'F' := by
    rw [← Array.length_toList, toList_polyline, List.length_cons, Turtle.length_trail,
      Nat.add_comm]
  refine ⟨generate_add, fun d => ?_, fun word depth s => ⟨size word depth s, ?_, ?_⟩, fun d s => ?_⟩
  · exact ⟨isCommand_of_mem_generate d, count_forward_generate d, length_generate d,
      count_turns_generate d⟩
  · rw [← Array.getElem?_toList, toList_polyline]
    rfl
  · apply Array.toList_inj.mp
    rw [toList_polyline, toList_polyline, Turtle.trail_filter]
  · rw [size, count_forward_generate, Nat.add_comm]

end FractalRender.Koch
