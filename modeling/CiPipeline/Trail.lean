import CiPipeline.Failure
import CiPipeline.Variables

/-!
# Trails

A trail says where in a document processing currently is.  It grows at its end
by the names that are entered and by scopes of variables that are bound; an
earlier trail is never changed.
-/

namespace CiPipeline

/-- A value shown beside the name of a frame. -/
inductive FrameValue where
  | text (value : String)
  | pointer (segments : List String)
  deriving DecidableEq, Repr

/-- The mark between the parts of a path. -/
def pathSeparator : String := " ⋯ "

/-- The displayed form of a frame's value. -/
def FrameValue.render : FrameValue → String
  | .text value => s!"'{value}'"
  | .pointer segments => pathSeparator.intercalate segments

/-- One step of a trail. -/
inductive Frame where
  | named (name : String)
  | valued (kind name : String) (value : FrameValue)
  | scope (bindings : Variables)
  deriving DecidableEq, Repr

namespace Frame

/-- The displayed form of a frame; a scope is not displayed. -/
def label? : Frame → Option String
  | .named name => some name
  | .valued kind name value => some s!"[{kind}] {name} ⟵ {value.render}"
  | .scope _ => none

/-- The value that a frame binds a variable to. -/
def lookup (frame : Frame) (name : String) : Option String :=
  match frame with
  | .scope bindings => bindings.lookup name
  | _ => none

end Frame

/-- The frames from the innermost to the outermost. -/
structure Trail where
  frames : List Frame
  deriving DecidableEq, Repr

namespace Trail

/-- The trail of a whole document. -/
def root : Trail := ⟨[]⟩

/-- Enters a key, a job or an include. -/
def descend (trail : Trail) (name : String) : Trail :=
  ⟨.named name :: trail.frames⟩

/-- Enters a name and shows the value that is processed there. -/
def descendValued (trail : Trail) (kind name : String)
    (value : FrameValue) : Trail :=
  ⟨.valued kind name value :: trail.frames⟩

/-- Binds variables over those bound before. -/
def bind (trail : Trail) (bindings : Variables) : Trail :=
  ⟨.scope bindings :: trail.frames⟩

/-- Looks a variable up, the nearest scope first. -/
def resolve (trail : Trail) (name : String) : Option String :=
  trail.frames.findSome? (·.lookup name)

/-- The path from the outermost frame to the innermost. -/
def render (trail : Trail) : String :=
  pathSeparator.intercalate (trail.frames.reverse.filterMap Frame.label?)

/-- A problem at this place. -/
def fail (trail : Trail) (problem : Problem) : Failure :=
  .located problem trail.render

def require {Value : Type} (trail : Trail) (value : Option Value)
    (problem : Problem) : Except Failure Value :=
  match value with
  | some value => .ok value
  | none => .error (trail.fail problem)

/-- Requires a condition. -/
def assert (trail : Trail) (condition : Bool) (problem : Problem) :
    Except Failure Unit :=
  if condition then .ok () else .error (trail.fail problem)

/-- Places a failure here unless it has a place already. -/
def wrap (trail : Trail) : Failure → Failure
  | .located problem path => .located problem path
  | failure => trail.fail (.other failure.message)

/-- Places the failure of a computation here unless it has a place already. -/
def run {Value : Type} (trail : Trail) (result : Except Failure Value) :
    Except Failure Value :=
  result.mapError trail.wrap

@[simp] theorem resolve_bind (trail : Trail) (bindings : Variables)
    (name : String) :
    (trail.bind bindings).resolve name =
      (bindings.lookup name).or (trail.resolve name) := by
  cases found : bindings.lookup name <;>
    simp [resolve, bind, Frame.lookup, found]

end Trail

end CiPipeline
