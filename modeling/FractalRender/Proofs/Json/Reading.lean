import FractalRender.Proofs.Json.Grammar

/-!
# JSON — what is written is read

A value is well written when its numbers, strings and keys keep to their grammars.  The compact
text of such a value is a text of it, without white space, and so it is read as that value.

* `WellWritten.isValue`: the compact text keeps to the grammar.
* `parse?_render`: the compact text of a well-written value reads as that value.
-/

namespace FractalRender.Json

/-- Numbers, strings and keys keep to their grammars. -/
inductive WellWritten : Json → Prop where
  | null : WellWritten .null
  | bool (b : Bool) : WellWritten (.bool b)
  | number {literal : List Char} (h : IsNumber literal) : WellWritten (.number literal)
  | string {literal : List Char} (h : IsLiteral literal) : WellWritten (.string literal)
  | array {items : List Json} (h : ∀ j ∈ items, WellWritten j) : WellWritten (.array items)
  | object {members : List (List Char × Json)} (hkeys : ∀ m ∈ members, IsLiteral m.1)
      (h : ∀ m ∈ members, WellWritten m.2) : WellWritten (.object members)

/-- A value is a text without white space. -/
theorem IsValue.isText {j : Json} {s : List Char} (h : IsValue j s) : IsText j s := by
  have text := IsText.mk isBlanks_nil h isBlanks_nil
  rwa [List.append_nil, List.nil_append] at text

theorem IsKey.quoted {key : List Char} (h : IsLiteral key) : IsKey key (quoted key) := by
  have k := IsKey.mk isBlanks_nil h isBlanks_nil
  rwa [List.append_nil, List.nil_append] at k

theorem isItems_write {x : Json} {xs : List Json} (h : ∀ j ∈ x :: xs, IsValue j j.write) :
    IsItems (x :: xs) (x.write ++ writeItems xs) := by
  induction xs generalizing x with
  | nil => exact .last (h x List.mem_cons_self).isText
  | cons y ys ih => exact .next (h x List.mem_cons_self).isText (ih fun j hj => h j (.tail x hj))

theorem isMembers_write {k : List Char} {v : Json} {ms : List (List Char × Json)}
    (hk : ∀ m ∈ (k, v) :: ms, IsLiteral m.1) (hv : ∀ m ∈ (k, v) :: ms, IsValue m.2 m.2.write) :
    IsMembers ((k, v) :: ms) (quoted k ++ ':' :: (v.write ++ writeMembers ms)) := by
  have key : IsKey k (quoted k) := .quoted (hk _ List.mem_cons_self)
  have value : IsText v v.write := (hv _ List.mem_cons_self).isText
  induction ms generalizing k v with
  | nil => exact .last key value
  | cons m ms ih =>
      have later := ih (fun m hm => hk m (.tail _ hm)) (fun m hm => hv m (.tail _ hm))
        (.quoted (hk m (.tail _ List.mem_cons_self))) (hv m (.tail _ List.mem_cons_self)).isText
      exact .next key value later

/-- The compact text of a well-written value keeps to the grammar. -/
theorem WellWritten.isValue {j : Json} (h : j.WellWritten) : IsValue j j.write := by
  induction h with
  | null => exact .null
  | bool b =>
      cases b with
      | true => exact .boolTrue
      | false => exact .boolFalse
  | number h => exact .number h
  | string h => exact .string h
  | @array items _ ih =>
      cases items with
      | nil => exact .noItems isBlanks_nil
      | cons x xs => exact .array (isItems_write ih)
  | @object members hkeys _ ih =>
      cases members with
      | nil => exact .noMembers isBlanks_nil
      | cons m ms => exact .object (isMembers_write hkeys ih)

/-- **The compact text of a well-written value reads as that value.** -/
theorem parse?_render {j : Json} (hj : j.WellWritten) : parse? j.render = some j := by
  refine parse?_of_isText ?_
  rw [render, String.toList_ofList]
  exact hj.isValue.isText

end FractalRender.Json
