import ReleaseMatrix.Variant.Descriptor

/- The release matrix: variants in build order, each with its index in the full matrix. -/
namespace ReleaseMatrix

def builtinVariants : List VariantDescriptor :=
  let darwin : EnvOverride := ⟨"GOOS", "darwin", rfl, by decide⟩
  let freebsd : EnvOverride := ⟨"GOOS", "freebsd", rfl, by decide⟩
  let linux : EnvOverride := ⟨"GOOS", "linux", rfl, by decide⟩
  let windows : EnvOverride := ⟨"GOOS", "windows", rfl, by decide⟩
  let amd64 : EnvOverride := ⟨"GOARCH", "amd64", rfl, by decide⟩
  let arm64 : EnvOverride := ⟨"GOARCH", "arm64", rfl, by decide⟩
  let mipsle : EnvOverride := ⟨"GOARCH", "mipsle", rfl, by decide⟩
  let mips64le : EnvOverride := ⟨"GOARCH", "mips64le", rfl, by decide⟩
  let ppc64le : EnvOverride := ⟨"GOARCH", "ppc64le", rfl, by decide⟩
  [⟨[darwin, amd64], by simp⟩,
   ⟨[darwin, arm64], by simp⟩,
   ⟨[linux, amd64], by simp⟩,
   ⟨[linux, amd64, ⟨"GOAMD64", "v3", rfl, by decide⟩], by simp⟩,
   ⟨[linux, amd64, ⟨"GOAMD64", "v4", rfl, by decide⟩], by simp⟩,
   ⟨[linux, arm64], by simp⟩,
   ⟨[linux, mipsle, ⟨"GOMIPS", "softfloat", rfl, by decide⟩], by simp⟩,
   ⟨[linux, mips64le, ⟨"GOMIPS64", "hardfloat", rfl, by decide⟩], by simp⟩,
   ⟨[linux, ppc64le], by simp⟩,
   ⟨[freebsd, amd64], by simp⟩,
   ⟨[windows, amd64], by simp⟩]

/-- Variants in build order, each with its index in the full matrix; at least one. -/
structure Catalog where
  entries : List (Nat × VariantDescriptor)
  nonempty : entries ≠ []
  deriving DecidableEq

namespace Catalog

def numberFrom {α : Type} : Nat → List α → List (Nat × α)
  | _, [] => []
  | start, a :: rest => (start, a) :: numberFrom (start + 1) rest

theorem numberFrom_ne_nil {α : Type} {start : Nat} {items : List α} (h : items ≠ []) :
    numberFrom start items ≠ [] := by
  cases items with
  | nil => exact absurd rfl h
  | cons a rest => simp [numberFrom]

def new (variants : List VariantDescriptor) : Except VariantError Catalog :=
  if h : variants = [] then .error .emptyCatalog
  else .ok ⟨numberFrom 0 variants, numberFrom_ne_nil h⟩

def builtin : Catalog := ⟨numberFrom 0 builtinVariants, numberFrom_ne_nil (by simp [builtinVariants])⟩

def size (c : Catalog) : Nat := c.entries.length

def isEmpty (c : Catalog) : Bool := c.entries.isEmpty

def get? (c : Catalog) (position : Nat) : Option VariantDescriptor :=
  (c.entries[position]?).map Prod.snd

def variants (c : Catalog) : List VariantDescriptor := c.entries.map Prod.snd

def select (c : Catalog) (index : Nat) : Except VariantError Catalog :=
  match c.entries[index]? with
  | some entry => .ok ⟨[entry], by simp⟩
  | none => .error (.indexOutOfRange index c.entries.length)

def narrow (c : Catalog) : Option Nat → Except VariantError Catalog
  | some index => c.select index
  | none => .ok c

end Catalog
end ReleaseMatrix
