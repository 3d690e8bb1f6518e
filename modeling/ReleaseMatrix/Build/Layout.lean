import ReleaseMatrix.Path

/- The project root and the output directory of a run. Tools run in the output directory and get
   paths as they are seen from there. -/
namespace ReleaseMatrix

structure Layout where
  root : Path
  outputDir : Path
  /-- leads from the output directory to the root, where only names lie between them -/
  backToRoot : Option Path
  deriving DecidableEq, Repr

namespace Layout

def back : List Path.Component → Path → Option Path
  | [], up => some up
  | .name _ :: rest, up => back rest (up.join ⟨".."⟩)
  | .current :: rest, up => back rest up
  | _, _ => none

def new (root outputDir : Path) : Layout :=
  ⟨root, root.join outputDir, back outputDir.components ⟨""⟩⟩

def outputFile (l : Layout) (name : Path) : Path := l.outputDir.join name

def projectFile (l : Layout) (p : Path) : Path := l.root.join p

def joinClean (base p : Path) : Path :=
  let joined := base.joinAll (p.components.filter fun c => c != .current)
  if joined.text = "" then ⟨"."⟩ else joined

/-- A path of the project as a tool in the output directory has to write it. -/
def fromOutputDir (l : Layout) (p : Path) : Path :=
  if p.isAbsolute then p else joinClean (l.backToRoot.getD l.root) p

end Layout
end ReleaseMatrix
