import DatalogStrata.Text

/-!
# Texts put together

## Main results

* `concat_append`, `concat_flatMap` — what is put together may be put together in parts
-/

namespace DatalogStrata

@[simp] theorem concat_nil : concat [] = "" := rfl

@[simp] theorem concat_cons (text : String) (texts : List String) :
    concat (text :: texts) = text ++ concat texts := rfl

@[simp] theorem concat_append (texts more : List String) :
    concat (texts ++ more) = concat texts ++ concat more := by
  induction texts with
  | nil => simp
  | cons text texts ih => simp only [List.cons_append, concat_cons, ih, String.append_assoc]

theorem concat_flatMap {α : Type} (pieces : α → List String) (items : List α) :
    concat (items.flatMap pieces) = concat (items.map fun item => concat (pieces item)) := by
  induction items with
  | nil => rfl
  | cons item items ih => rw [List.flatMap_cons, concat_append, ih, List.map_cons, concat_cons]

end DatalogStrata
