import ReleaseMatrix.Proofs.Config.Load

/- What the configuration files for a new project are read as. Each template spells out the defaults in
   its own format, and is no configuration in the other one. -/
namespace ReleaseMatrix

inductive Spelled : List String → List (List Char) → Prop where
  | none : Spelled [] []
  | line (cs : List Char) (letters : List (List Char)) {lines : List String}
      (rest : Spelled lines letters) : Spelled (String.ofList cs :: lines) (cs :: letters)

variable {lines : List String} {letters : List (List Char)}

theorem Spelled.text (spelled : Spelled lines letters) : ConfigFormat.endLines lines =
    String.ofList (letters.flatMap fun line => line ++ ['\n']) := by
  induction spelled with
  | none => rfl
  | line cs letters _ ih =>
    rw [ConfigFormat.endLines, List.foldr_cons, ← ConfigFormat.endLines, ih, List.flatMap_cons,
      String.ofList_append, String.ofList_append]

theorem Spelled.holds (lines : List String) (letters : List (List Char)) (P : String → Prop)
    (spelled : Spelled lines letters)
    (known : P (String.ofList (letters.flatMap fun line => line ++ ['\n']))) :
    P (ConfigFormat.endLines lines) := by
  rw [spelled.text]
  exact known

namespace Config

open ConfigFormat

-- The kernel runs the readers below. It would take long to come by the letters of a whole file, so those
-- of its lines are found first, by unification. What is printed is made of letters already.

theorem toml_template_read :
    ofToml? ConfigFormat.toml.template = some {} ∧ ofYaml? ConfigFormat.toml.template = none := by
  refine Spelled.holds tomlLines ?letters
    (fun text => ofToml? text = some {} ∧ ofYaml? text = none) ?spelled ?read
  case spelled => repeat (first | exact .none | (refine .line _ ?_ ?_; rotate_left))
  case read =>
    rw [ofToml?, Toml.parse?, ofYaml?, Yaml.parse?, Yaml.tokens?, ← String.length_toList,
      String.toList_ofList]
    constructor
    · decide +kernel
    · decide +kernel

theorem yaml_template_read :
    ofToml? ConfigFormat.yaml.template = none ∧ ofYaml? ConfigFormat.yaml.template = some {} := by
  rw [template, Yaml.print, ofToml?, Toml.parse?, ofYaml?, Yaml.parse?, Yaml.tokens?,
    ← String.length_toList, String.toList_ofList]
  constructor
  · decide +kernel
  · decide +kernel

def misread : ConfigFormat → ConfigError
  | .toml => .toml wrongShape
  | .yaml => .yaml wrongShape

theorem parse_toml (text : String) :
    parse .toml text = (ofToml? text).elim (.error (misread .toml)) .ok := by
  unfold parse
  cases ofToml? text <;> rfl

theorem parse_yaml (text : String) :
    parse .yaml text = (ofYaml? text).elim (.error (misread .yaml)) .ok := by
  unfold parse
  cases ofYaml? text <;> rfl

theorem parse_template (format asked : ConfigFormat) : parse asked format.template =
    if asked = format then .ok {} else .error (misread asked) := by
  cases format with
  | toml =>
    cases asked with
    | toml => rw [parse_toml, toml_template_read.1, Option.elim_some, if_pos rfl]
    | yaml => rw [parse_yaml, toml_template_read.2, Option.elim_none, if_neg (by decide)]
  | yaml =>
    cases asked with
    | toml => rw [parse_toml, yaml_template_read.1, Option.elim_none, if_neg (by decide)]
    | yaml => rw [parse_yaml, yaml_template_read.2, Option.elim_some, if_pos rfl]

end Config
end ReleaseMatrix
