import CiPipeline.Annotations
import CiPipeline.Failure
import CiPipeline.Yaml.Node

/-!
# Pipeline documents

A pipeline document is a YAML mapping.  A text without content is
the empty mapping.
-/

namespace CiPipeline

open CiPipeline.Text

namespace Document

/-- The name of the file that holds the pipeline of a checkout. -/
def usualFile : String := ".gitlab-ci.yml"

/-- Whether a line has no content: it is blank, a comment, or the mark of a
document's start. -/
def isBlankLine (line : List Char) : Bool :=
  let line := trim line
  line.isEmpty || line.head? == some '#' || line == ['-', '-', '-']

def read (text : String) : Except Failure Node :=
  if (lines text.toList).all isBlankLine then .ok Node.empty
  else
    match Node.ofYaml (annotate text) with
    | .error error => .error (.yaml error.reason)
    | .ok .null => .ok Node.empty
    | .ok (.mapping entries) => .ok (.mapping entries)
    | .ok other =>
        .error (.configuration
          s!"pipeline document must be a mapping, found {other.kind}")

end Document

end CiPipeline
