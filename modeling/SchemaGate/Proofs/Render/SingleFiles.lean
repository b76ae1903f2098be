import SchemaGate.Proofs.Render.Outputs
import SchemaGate.Proofs.Text.Bytes

/-!
# One file and all files

A file that is asked for by its name is the first of that name, and of several texts under one name
a rendering keeps the last. Whatever is accepted has no filename twice, also where some components
are only known and not checked, so that both are the same text (`renderFile?_iff_render`).
-/

namespace SchemaGate

namespace Accepted

variable {scope : Scope} (whole : Accepted scope) (options : RenderOptions)

theorem get?_render (filename : String) :
    (whole.render options).get? filename = whole.renderFile? options filename := by
  have hcount := List.nodup_iff_count_le_one.mp (whole.nodup_names_entries options) filename
  rw [TextFiles.get?, lookup_eq_of_perm hcount (whole.render_perm options).symm, entries,
    lookup_map]
  rfl

/-- One file is rendered as all files are: the same names have a text, and the same one. The
rendering of all has one text for each file, and they stand in the order of the bytes of their
names. -/
theorem renderFile?_iff_render :
    (∀ filename text, whole.renderFile? options filename = some text ↔
      (whole.render options).get? filename = some text) ∧
    (whole.render options).length = whole.application.files.length ∧
    (whole.render options).Pairwise fun f g => Text.bytes f.1 < Text.bytes g.1 := by
  refine ⟨fun filename text => ?_, ?_, ?_⟩
  · rw [get?_render]
  · rw [(whole.render_perm options).length_eq, entries, List.length_map]
  · exact (TextFiles.ascending_ofList _).imp Text.bytes_lt_bytes

end Accepted

end SchemaGate
