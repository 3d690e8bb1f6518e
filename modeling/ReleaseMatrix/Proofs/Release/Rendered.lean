import ReleaseMatrix.Proofs.Json.Fields
import ReleaseMatrix.Proofs.Json.Sorted
import ReleaseMatrix.Release.Output

/- Results written as JSON are read back. What is left out because it is empty is what stands for a
   field that is missing. -/
namespace ReleaseMatrix

open Json

section Fields

variable {position : Nat} {name : String} {j : Json} {empty : Bool}

/-- A field of an object, and whether it is left out. -/
structure Piece where
  key : String
  value : Json
  empty : Bool := false

def Piece.fields (p : Piece) : List (String × Json) := if p.empty then [] else [(p.key, p.value)]

end Fields

section Values

end Values

namespace Output

variable {o : Output} {order : o.Order}

/-- What the types of the values promise: durations and sizes of 64 bits, and metadata that is kept in
    order and has integers for numbers. -/
structure WellTyped (o : Output) : Prop where
  duration : ∀ ms ∈ o.durationMs, ms ≤ Decimal.maxNat64
  sizes : ∀ a ∈ o.artifacts, a.size ≤ Decimal.maxNat64
  metadata : ∀ (key : String) (value : Json), o.metadata[key]? = some value → value.Canonical

theorem WellTyped.withMetadata (typed : o.WellTyped) (key : String) {value : Json}
    (integral : value.Integral) : (o.withMetadata key value).WellTyped := by
  refine ⟨typed.duration, typed.sizes, fun other kept here => ?_⟩
  rw [Output.withMetadata, Std.ExtTreeMap.getElem?_insert] at here
  split at here
  · exact Option.some.inj here ▸ integral.sorted_canonical
  · exact typed.metadata other kept here

def pieces (o : Output) (order : o.Order) : List Piece :=
  [⟨"success", .bool o.success, false⟩, ⟨"message", .text o.message, false⟩,
    ⟨"operation", .text o.operation, false⟩,
    ⟨"duration_ms", Json.ofOption Json.ofNat o.durationMs, false⟩,
    ⟨"artifacts", .list (o.artifacts.map ListedArtifact.toJson), o.artifacts.isEmpty⟩,
    ⟨"planned", .list (o.planned.map .text), o.planned.isEmpty⟩,
    ⟨"warnings", .list (o.warnings.map .text), o.warnings.isEmpty⟩,
    ⟨"errors", .list (o.errors.map .text), o.errors.isEmpty⟩,
    ⟨"outputs", .object (order.outputs.map fun p => (p.1, .text p.2)), o.outputs.isEmpty⟩,
    ⟨"metadata", .object order.metadata, o.metadata.isEmpty⟩]

def backwards (o : Output) : o.Order where
  outputs := o.outputs.toList.reverse
  metadata := o.metadata.toList.reverse
  outputs_perm := List.reverse_perm _
  metadata_perm := List.reverse_perm _

def nested : Nat → Json
  | 0 => .null
  | n + 1 => .list [nested n]

end Output

end ReleaseMatrix
