import Mathlib.Data.List.Forall2
import Mathlib.Data.List.Nodup
import ReleaseMatrix.Config.Json

/- Objects from which fields are left out, at any depth. Where no key stands twice, the fields that stay
   are read as before, and those that are gone have their defaults. -/
namespace ReleaseMatrix

namespace Json

mutual

/-- The value without the fields at the paths of keys that are to go. -/
def without (gone : List String → Bool) : Json → Json
  | .object fields => .object (fieldsWithout gone fields)
  | j => j

def fieldsWithout (gone : List String → Bool) : List (String × Json) → List (String × Json)
  | [] => []
  | (key, j) :: rest =>
    if gone [key] then fieldsWithout gone rest
    else (key, without (fun path => gone (key :: path)) j) :: fieldsWithout gone rest

end

mutual

theorem without_none : ∀ j : Json, j.without (fun _ => false) = j
  | .object fields => by rw [without, fieldsWithout_none fields]
  | .null => rfl
  | .bool _ => rfl
  | .integer _ => rfl
  | .decimal _ _ _ => rfl
  | .text _ => rfl
  | .list _ => rfl

theorem fieldsWithout_none : ∀ fields : List (String × Json),
    fieldsWithout (fun _ => false) fields = fields
  | [] => rfl
  | (key, j) :: rest => by
    rw [fieldsWithout, if_neg Bool.false_ne_true, without_none j, fieldsWithout_none rest]

end

def keys (fields : List (String × Json)) : List String := fields.map Prod.fst

variable {gone : List String → Bool} {fields : List (String × Json)} {key : String}

def SameKept (gone : List String → Bool) (fields others : List (String × Json)) : Prop :=
  List.Forall₂ (fun f g => f.1 = g.1 ∧ (gone [f.1] = false → f.2 = g.2)) fields others

theorem SameKept.find? {others : List (String × Json)} (same : SameKept gone fields others)
    (kept : gone [key] = false) : (fields.find? fun f => f.1 == key).map Prod.snd =
      (others.find? fun f => f.1 == key).map Prod.snd := by
  induction same with
  | nil => rfl
  | cons first _ ih =>
    rename_i f g _ _ _
    obtain ⟨keys, values⟩ := first
    by_cases here : f.1 = key
    · simp [here, ← keys, values (here ▸ kept)]
    · simpa [here, ← keys] using ih

theorem SameKept.get? {others : List (String × Json)} (same : SameKept gone fields others)
    (kept : gone [key] = false) : (object fields).get? key = (object others).get? key :=
  find? (List.forall₂_reverse_iff.mpr same) kept

end Json
end ReleaseMatrix
