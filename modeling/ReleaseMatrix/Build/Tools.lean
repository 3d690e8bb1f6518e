import ReleaseMatrix.Build.Error
import ReleaseMatrix.Build.Layout
import ReleaseMatrix.Build.Stamp
import ReleaseMatrix.FileTree.Basic
import ReleaseMatrix.Variant.Target

/- What a run asks of its tools: a compiler and a generator of the sample configuration. A tool
   may change files, whether it succeeds or not. -/
namespace ReleaseMatrix

structure CompileRequest where
  variant : NormalizedVariant
  stamp : Stamp
  layout : Layout

def CompileRequest.binary (r : CompileRequest) : Path :=
  r.layout.outputFile ⟨r.variant.target.binaryName⟩

/-- The tree that a tool leaves, and the file it made or why it failed. -/
abbrev ToolRun := FileTree × Except BuildError Path

structure Compiler where
  check : FileTree → Except BuildError Unit
  commandLine : CompileRequest → String
  compile : CompileRequest → FileTree → ToolRun

structure Generator where
  check : FileTree → Except BuildError Unit
  generate : Layout → FileTree → ToolRun

end ReleaseMatrix
