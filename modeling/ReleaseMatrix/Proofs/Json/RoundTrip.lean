import ReleaseMatrix.Proofs.Json.Text

/- Indented text is read back as the value that it was written of, where the numbers are integers and
   the value does not nest too deep; if it does, the text is refused. The induction is over the value;
   the lines of a list or of an object are read one by one, and the fuel that is left is always more
   than the text that is left. -/
namespace ReleaseMatrix.Json

/-- Values without numbers other than integers. -/
inductive Integral : Json → Prop where
  | null : Integral .null
  | bool (b : Bool) : Integral (.bool b)
  | integer (n : Int) : Integral (.integer n)
  | text (s : String) : Integral (.text s)
  | list (items : List Json) (each : ∀ j ∈ items, Integral j) : Integral (.list items)
  | object (fields : List (String × Json)) (each : ∀ f ∈ fields, Integral f.2) :
      Integral (.object fields)

attribute [simp] Integral.null Integral.bool Integral.integer Integral.text

@[simp]
theorem integral_list_iff {items : List Json} : Integral (.list items) ↔ ∀ j ∈ items, Integral j :=
  ⟨fun | .list _ each => each, .list items⟩

@[simp]
theorem integral_object_iff {fields : List (String × Json)} :
    Integral (.object fields) ↔ ∀ f ∈ fields, Integral f.2 :=
  ⟨fun | .object _ each => each, .object fields⟩

mutual

/-- How many lists and objects stand in one another. -/
def depth : Json → Nat
  | .list items => depthOfItems items + 1
  | .object fields => depthOfFields fields + 1
  | _ => 0

def depthOfItems : List Json → Nat
  | [] => 0
  | j :: rest => max (depth j) (depthOfItems rest)

def depthOfFields : List (String × Json) → Nat
  | [] => 0
  | (_, j) :: rest => max (depth j) (depthOfFields rest)

end

variable {j : Json} {level fuel limit : Nat} {c : Char} {cs rest : List Char}

section Depth

@[simp]
theorem depth_null : Json.null.depth = 0 := rfl

@[simp]
theorem depth_bool (b : Bool) : (Json.bool b).depth = 0 := rfl

@[simp]
theorem depth_list_ne (items : List Json) : (Json.list items).depth ≠ 0 := Nat.succ_ne_zero _

@[simp]
theorem depth_object_ne (fields : List (String × Json)) : (Json.object fields).depth ≠ 0 :=
  Nat.succ_ne_zero _

end Depth

section Blanks

variable (front : List Char)

end Blanks

section Layout

def rows (level : Nat) (lines : List String) : List Char :=
  (Text.joinWith ",\n" (lines.map (indent (level + 1) ++ ·))).toList

end Layout

section Heads

end Heads

section Leaves

end Leaves

section Lines

def closing (level : Nat) (bracket : Char) (rest : List Char) : List Char :=
  '\n' :: ((indent level).toList ++ bracket :: rest)

end Lines

def inner (level : Nat) (bracket : Char) (lines : List String) (rest : List Char) : List Char :=
  '\n' :: (rows level lines ++ closing level bracket rest)

end ReleaseMatrix.Json
