import ReleaseMatrix.Config.Basic
import ReleaseMatrix.Section

/- Reading a configuration from a value of a data format. Every field may be left out, and then
   has its default; fields that the configuration does not have are passed over. -/
namespace ReleaseMatrix

structure DataView (α : Type) where
  text? : α → Option String
  flag? : α → Option Bool
  count? : α → Option Nat
  items? : α → Option (List α)
  fieldsOf? : α → Option (Section α)
  present? : α → Option Bool

namespace DataView

variable {α : Type} (v : DataView α)

def path? (a : α) : Option Path := (v.text? a).map Path.mk

def optionalPath? (a : α) : Option (Option Path) :=
  match v.present? a with
  | none => none
  | some false => some none
  | some true => (v.path? a).map some

def all? {β : Type} (read : α → Option β) : List α → Option (List β)
  | [] => some []
  | a :: rest =>
    match read a, all? read rest with
    | some b, some bs => some (b :: bs)
    | _, _ => none

def texts? (a : α) : Option (List String) := (v.items? a).bind (all? v.text?)

def variant? (a : α) : Option VariantDescriptor :=
  (v.texts? a).bind fun items => (VariantDescriptor.parse items).toOption

def variants? (a : α) : Option (List VariantDescriptor) := (v.items? a).bind (all? v.variant?)

def sectionOf? (names : List String) (a : α) : Option (Section α) :=
  (v.fieldsOf? a).filter fun s => s.fits names

def projectFields : List String := ["name", "version", "source", "readme", "license"]

def project? (a : α) : Option ProjectConfig := do
  let d : ProjectConfig := {}
  let s ← v.sectionOf? projectFields a
  let name ← s.field 0 "name" v.text? d.name
  let version ← s.field 1 "version" v.text? d.version
  let source ← s.field 2 "source" v.path? d.source
  let readme ← s.field 3 "readme" v.path? d.readme
  let license ← s.field 4 "license" v.path? d.license
  some ⟨name, version, source, readme, license⟩

def buildFields : List String :=
  ["output_dir", "compiler", "pgo_profile", "trimpath", "strip", "version_symbol",
    "build_time_symbol", "build_time_format", "default_amd64_level"]

def build? (a : α) : Option BuildConfig := do
  let d : BuildConfig := {}
  let s ← v.sectionOf? buildFields a
  let outputDir ← s.field 0 "output_dir" v.path? d.outputDir
  let compiler ← s.field 1 "compiler" v.text? d.compiler
  let pgoProfile ← s.field 2 "pgo_profile" v.optionalPath? d.pgoProfile
  let trimpath ← s.field 3 "trimpath" v.flag? d.trimpath
  let strip ← s.field 4 "strip" v.flag? d.strip
  let versionSymbol ← s.field 5 "version_symbol" v.text? d.versionSymbol
  let buildTimeSymbol ← s.field 6 "build_time_symbol" v.text? d.buildTimeSymbol
  let buildTimeFormat ← s.field 7 "build_time_format" v.text? d.buildTimeFormat
  let amd64Level ← s.field 8 "default_amd64_level" v.text? d.amd64Level
  some ⟨outputDir, compiler, pgoProfile, trimpath, strip, versionSymbol, buildTimeSymbol,
    buildTimeFormat, amd64Level⟩

def generatorFields : List String := ["program", "args", "output"]

def generator? (a : α) : Option GeneratorConfig := do
  let d : GeneratorConfig := {}
  let s ← v.sectionOf? generatorFields a
  let program ← s.field 0 "program" v.text? d.program
  let args ← s.field 1 "args" v.texts? d.args
  let output ← s.field 2 "output" v.text? d.output
  some ⟨program, args, output⟩

def packageFields : List String := ["compression_level"]

def package? (a : α) : Option PackageConfig := do
  let d : PackageConfig := {}
  let s ← v.sectionOf? packageFields a
  let level ← s.field 0 "compression_level" v.count? d.compressionLevel
  some ⟨level⟩

def configFields : List String := ["variants", "project", "build", "config_gen", "package"]

def config? (a : α) : Option Config := do
  let s ← v.sectionOf? configFields a
  let variants ← s.field 0 "variants" v.variants? builtinVariants
  let project ← s.field 1 "project" v.project? {}
  let build ← s.field 2 "build" v.build? {}
  let generator ← s.field 3 "config_gen" v.generator? {}
  let package ← s.field 4 "package" v.package? {}
  some ⟨variants, project, build, generator, package⟩

end DataView
end ReleaseMatrix
