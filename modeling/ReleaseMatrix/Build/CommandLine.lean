import ReleaseMatrix.Text

/- Command lines for people to read and copy. -/
namespace ReleaseMatrix.CommandLine

def needsQuotes (cs : List Char) : Bool :=
  cs.isEmpty || cs.any Text.isBlank || cs.contains '"'

def escapeQuote (c : Char) : List Char := if c = '"' then ['\\', '"'] else [c]

/-- Quotes go around an argument that is empty or holds a blank or a quote. -/
def quote (arg : String) : String :=
  if needsQuotes arg.toList then
    String.ofList ('"' :: (arg.toList.flatMap escapeQuote ++ ['"']))
  else arg

def render (program : String) (args : List String) : String :=
  args.foldl (fun line arg => line ++ " " ++ quote arg) (quote program)

end ReleaseMatrix.CommandLine
