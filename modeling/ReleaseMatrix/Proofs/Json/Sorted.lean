import Mathlib.Data.String.Basic
import ReleaseMatrix.Proofs.Json.RoundTrip

/- Values as they are kept: each key of an object once, in order. To sort a value brings it into this
   form, and changes nothing where it has the form. -/
namespace ReleaseMatrix.Json

/-- Values with integers for numbers, and with the fields of each object in the order of their keys,
    no key twice. -/
inductive Canonical : Json → Prop where
  | null : Canonical .null
  | bool (b : Bool) : Canonical (.bool b)
  | integer (n : Int) : Canonical (.integer n)
  | text (s : String) : Canonical (.text s)
  | list (items : List Json) (each : ∀ j ∈ items, Canonical j) : Canonical (.list items)
  | object (fields : List (String × Json)) (ordered : fields.Pairwise fun f g => f.1 < g.1)
      (each : ∀ f ∈ fields, Canonical f.2) : Canonical (.object fields)

variable {j : Json}

theorem Canonical.integral (canonical : Canonical j) : Integral j := by
  induction canonical with
  | null => exact .null
  | bool b => exact .bool b
  | integer n => exact .integer n
  | text s => exact .text s
  | list items _ ih => exact .list items ih
  | object fields _ _ ih => exact .object fields ih

theorem mem_insertField {key : String} {value : Json} {fields : List (String × Json)}
    {f : String × Json} (mem : f ∈ insertField key value fields) :
    f = (key, value) ∨ f ∈ fields := by
  induction fields with
  | nil => exact .inl (List.mem_singleton.mp mem)
  | cons g rest ih =>
    rw [insertField] at mem
    split_ifs at mem
    · exact List.mem_cons.mp mem
    · exact (List.mem_cons.mp mem).imp_right (List.mem_cons_of_mem g)
    · rcases List.mem_cons.mp mem with rfl | mem
      · exact .inr List.mem_cons_self
      · exact (ih mem).imp_right (List.mem_cons_of_mem g)

theorem insertField_ordered (key : String) (value : Json) {fields : List (String × Json)}
    (ordered : fields.Pairwise fun f g => f.1 < g.1) :
    (insertField key value fields).Pairwise fun f g => f.1 < g.1 := by
  induction fields with
  | nil => exact List.pairwise_singleton _ _
  | cons f rest ih =>
    obtain ⟨first, others⟩ := List.pairwise_cons.mp ordered
    rw [insertField]
    split_ifs with before same
    · refine List.pairwise_cons.mpr ⟨List.forall_mem_cons.mpr ⟨before, fun g mem => ?_⟩, ordered⟩
      exact lt_trans before (first g mem)
    · exact List.pairwise_cons.mpr ⟨same ▸ first, others⟩
    · refine List.pairwise_cons.mpr ⟨fun g mem => ?_, ih others⟩
      rcases mem_insertField mem with rfl | mem
      · exact lt_of_le_of_ne (not_lt.mp before) (Ne.symm same)
      · exact first g mem

theorem sortFields_canonical {fields : List (String × Json)} (each : ∀ f ∈ fields, Canonical f.2) :
    Canonical (.object (sortFields fields)) := by
  suffices run : ∀ front : List (String × Json), (front.Pairwise fun f g => f.1 < g.1) →
      (∀ f ∈ front, Canonical f.2) →
      Canonical (.object (fields.foldl (fun acc f => insertField f.1 f.2 acc) front)) from
    run [] .nil (List.forall_mem_nil _)
  induction fields with
  | nil => exact .object
  | cons f rest ih =>
    obtain ⟨first, others⟩ := List.forall_mem_cons.mp each
    intro front ordered before
    refine ih others _ (insertField_ordered f.1 f.2 ordered) fun g mem => ?_
    rcases mem_insertField mem with rfl | mem
    · exact first
    · exact before g mem

theorem sortedItems_map (items : List Json) : sortedItems items = items.map sorted := by
  induction items with
  | nil => rfl
  | cons j rest ih => rw [sortedItems, ih, List.map_cons]

theorem sortedFields_map (fields : List (String × Json)) :
    sortedFields fields = fields.map fun f => (f.1, f.2.sorted) := by
  induction fields with
  | nil => rfl
  | cons f rest ih => rw [sortedFields, ih, List.map_cons]

theorem Integral.sorted_canonical (integral : Integral j) : Canonical j.sorted := by
  induction integral with
  | null => exact .null
  | bool b => exact .bool b
  | integer n => exact .integer n
  | text s => exact .text s
  | list items _ ih =>
    rw [sorted, sortedItems_map]
    exact .list _ (List.forall_mem_map.mpr ih)
  | object fields _ ih =>
    rw [sorted, sortedFields_map]
    exact sortFields_canonical (List.forall_mem_map.mpr ih)

end ReleaseMatrix.Json
