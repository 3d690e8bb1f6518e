import ReleaseMatrix.Variant.Error

/- A variant is named by environment overrides in the order they are declared. -/
namespace ReleaseMatrix

def isKeyStart (c : Char) : Bool :=
  ('A' ≤ c && c ≤ 'Z') || ('a' ≤ c && c ≤ 'z') || c == '_'

def isKeyRest (c : Char) : Bool := isKeyStart c || ('0' ≤ c && c ≤ '9')

/-- ASCII letters, digits and underscores, not a digit in front. -/
def isEnvKey : List Char → Bool
  | [] => false
  | c :: cs => isKeyStart c && cs.all isKeyRest

structure EnvOverride where
  key : String
  value : String
  key_valid : isEnvKey key.toList = true
  value_nonempty : value ≠ ""
  deriving DecidableEq

namespace EnvOverride

def text (o : EnvOverride) : String := o.key ++ "=" ++ o.value

/-- Of several faults the empty key comes first, then the key's form, then the empty value. -/
def checked (position : Nat) (key value : String) : Except VariantError EnvOverride :=
  if key = "" then .error (.emptyKey position)
  else if hk : isEnvKey key.toList = true then
    if hv : value = "" then .error (.emptyValue key) else .ok ⟨key, value, hk, hv⟩
  else .error (.invalidKey key)

/-- Neither side is trimmed. -/
def new (key value : String) : Except VariantError EnvOverride := checked 0 key value

/-- Cut at the first equals sign, both sides trimmed. -/
def parseAt (position : Nat) (item : String) : Except VariantError EnvOverride :=
  match Text.cut? '=' item.toList with
  | none => .error (.malformed item)
  | some (key, value) =>
    checked position (String.ofList (Text.trimList key)) (String.ofList (Text.trimList value))

def parse (item : String) : Except VariantError EnvOverride := parseAt 0 item

end EnvOverride

def checkFrom {α : Type} (check : Nat → α → Except VariantError EnvOverride) :
    Nat → List α → Except VariantError (List EnvOverride)
  | _, [] => .ok []
  | position, item :: rest =>
    match check position item with
    | .error e => .error e
    | .ok o =>
      match checkFrom check (position + 1) rest with
      | .error e => .error e
      | .ok os => .ok (o :: os)

structure VariantDescriptor where
  overrides : List EnvOverride
  nonempty : overrides ≠ []
  deriving DecidableEq

namespace VariantDescriptor

def ofOverrides (os : List EnvOverride) : Except VariantError VariantDescriptor :=
  if h : os = [] then .error .emptyDescriptor else .ok ⟨os, h⟩

def new (pairs : List (String × String)) : Except VariantError VariantDescriptor :=
  match checkFrom (fun position p => EnvOverride.checked position p.1 p.2) 0 pairs with
  | .error e => .error e
  | .ok os => ofOverrides os

def parse (items : List String) : Except VariantError VariantDescriptor :=
  match checkFrom EnvOverride.parseAt 0 items with
  | .error e => .error e
  | .ok os => ofOverrides os

/-- The last declaration of a key wins. -/
def get? (d : VariantDescriptor) (key : String) : Option String :=
  (d.overrides.reverse.find? fun o => o.key == key).map EnvOverride.value

def contains (d : VariantDescriptor) (key : String) : Bool := d.overrides.any fun o => o.key == key

def values (d : VariantDescriptor) : List String := d.overrides.map EnvOverride.value

def strings (d : VariantDescriptor) : List String := d.overrides.map EnvOverride.text

/-- The values joined by slashes, as people write a target. -/
def label (d : VariantDescriptor) : String := Text.joinWith "/" d.values

def text (d : VariantDescriptor) : String := Text.joinWith " " d.strings

end VariantDescriptor
end ReleaseMatrix
