/- Groups of fields, as data formats write them. -/
namespace ReleaseMatrix

/-- A group of fields: by name, or in the order in which they are declared. -/
inductive Section (α : Type) where
  | named (fields : List (String × α))
  | positional (items : List α) (closed : Bool)

namespace Section

variable {α β : Type}

def get? (s : Section α) (position : Nat) (name : String) : Option α :=
  match s with
  | named fields => (fields.find? fun f => f.1 == name).map Prod.snd
  | positional items _ => items[position]?

def fits (names : List String) : Section α → Bool
  | named fields => names.all fun name => (fields.filter fun f => f.1 == name).length ≤ 1
  | positional items closed => !closed || items.length ≤ names.length

def field (s : Section α) (position : Nat) (name : String) (read : α → Option β) (default : β) :
    Option β :=
  match s.get? position name with
  | none => some default
  | some a => read a

def required (s : Section α) (position : Nat) (name : String) (read : α → Option β) : Option β :=
  (s.get? position name).bind read

/-- A value that may be missing; where fields go by position it still needs its place. -/
def optional (s : Section α) (position : Nat) (name : String) (read : α → Option (Option β)) :
    Option (Option β) :=
  match s.get? position name, s with
  | some a, _ => read a
  | none, named _ => some none
  | none, positional _ _ => none

end Section
end ReleaseMatrix
