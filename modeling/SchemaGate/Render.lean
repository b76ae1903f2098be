import SchemaGate.Render.Block
import SchemaGate.Render.Datasource
import SchemaGate.Render.TextFiles
import SchemaGate.Validation

/-!
# Rendering

Only accepted applications are rendered, so rendering cannot fail.

* `Accepted.render`, the text of every file by filename
* `Accepted.renderFile?`, the text of one file
-/

namespace SchemaGate.Accepted

variable {scope : Scope}

def render (options : RenderOptions) (a : Accepted scope) : TextFiles :=
  .ofList (a.application.files.map fun file => (file.filename, file.render options a.application))

/-- The text of the file of a name, where there is one. -/
def renderFile? (options : RenderOptions) (a : Accepted scope) (filename : String) :
    Option String :=
  (a.application.file? filename).map (·.render options a.application)

end SchemaGate.Accepted
