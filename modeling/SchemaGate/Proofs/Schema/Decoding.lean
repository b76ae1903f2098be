import SchemaGate.Plan.Order
import SchemaGate.Proofs.Json.Presentation
import SchemaGate.Validation

/-!
# Decoding

For every type with a document, the shape of that document: which members a record has, which of them
have a default and which are options. A decoder reads back what is written of a value, however it is
presented (`decode_of_presents`).
-/

namespace SchemaGate

open Json

/-! ### Columns -/

theorem Scalar.codes : Codes .leaf Scalar.toJson Scalar.ofJson? where
  stable := stable_leaf _
  read_write := Scalar.ofName?_name

namespace Relation

def shape : Shape :=
  .record [("name", .required, .leaf), ("targetModel", .required, .leaf),
    ("mappingName", .option, .leaf), ("oppositeName", .option, .leaf)]

theorem codes : Codes shape toJson ofJson? where
  stable := by
    refine stable_record (by decide) (fun _ => rfl) fun field field' h => ?_
    simp only [List.forall_mem_cons] at h
    obtain ⟨hname, htarget, hmapping, hopposite, -⟩ := h
    refine (hname.required codes_text.stable).bind fun _ => ?_
    refine (htarget.required codes_text.stable).bind fun _ => ?_
    refine (hmapping.optional codes_text.stable).bind fun _ => ?_
    exact (hopposite.optional codes_text.stable).bind fun _ => .refl _
  read_write r := by
    obtain ⟨name, target, mapping, opposite⟩ := r
    cases mapping <;> cases opposite <;> rfl

end Relation

namespace PrimaryField

def shape : Shape :=
  .record [("name", .required, .leaf), ("description", .default (.text ""), .leaf)]

theorem codes : Codes shape toJson ofJson? where
  stable := by
    refine stable_record (by decide) (fun _ => rfl) fun field field' h => ?_
    simp only [List.forall_mem_cons] at h
    obtain ⟨hname, hdescription, -⟩ := h
    refine (hname.required codes_text.stable).bind fun _ => ?_
    exact (hdescription.withDefault codes_text.stable rfl).bind fun _ => .refl _
  read_write _ := rfl

end PrimaryField

namespace ForeignField

def shape : Shape :=
  .record [("name", .required, .leaf), ("description", .default (.text ""), .leaf),
    ("relation", .required, Relation.shape), ("unique", .default (.bool false), .leaf),
    ("nullable", .default (.bool false), .leaf)]

theorem codes : Codes shape toJson ofJson? where
  stable := by
    refine stable_record (by decide) (fun _ => rfl) fun field field' h => ?_
    simp only [List.forall_mem_cons] at h
    obtain ⟨hname, hdescription, hrelation, hunique, hnullable, -⟩ := h
    refine (hname.required codes_text.stable).bind fun _ => ?_
    refine (hdescription.withDefault codes_text.stable rfl).bind fun _ => ?_
    refine (hrelation.required Relation.codes.stable).bind fun _ => ?_
    refine (hunique.withDefault codes_bool.stable rfl).bind fun _ => ?_
    exact (hnullable.withDefault codes_bool.stable rfl).bind fun _ => .refl _
  read_write f := by
    change (Relation.ofJson? f.relation.toJson).bind (fun relation => some { f with relation }) = _
    rw [Relation.codes.read_write]
    rfl

end ForeignField

namespace PlainField

def shape : Shape :=
  .record [("name", .required, .leaf), ("type", .required, .leaf),
    ("description", .default (.text ""), .leaf), ("nullable", .default (.bool false), .leaf)]

theorem codes : Codes shape toJson ofJson? where
  stable := by
    refine stable_record (by decide) (fun _ => rfl) fun field field' h => ?_
    simp only [List.forall_mem_cons] at h
    obtain ⟨hname, hscalar, hdescription, hnullable, -⟩ := h
    refine (hname.required codes_text.stable).bind fun _ => ?_
    refine (hscalar.required Scalar.codes.stable).bind fun _ => ?_
    refine (hdescription.withDefault codes_text.stable rfl).bind fun _ => ?_
    exact (hnullable.withDefault codes_bool.stable rfl).bind fun _ => .refl _
  read_write f := by
    change (Scalar.ofJson? f.scalar.toJson).bind (fun scalar => some { f with scalar }) = _
    rw [Scalar.codes.read_write]
    rfl

end PlainField

/-! ### Indexes -/

def indexShape : Shape := .record [("fieldNames", .required, .list .leaf)]

theorem codes_index : Codes indexShape indexToJson indexOfJson? where
  stable := by
    refine stable_record (by decide) (fun _ => rfl) fun field field' h => ?_
    exact (h _ List.mem_cons_self).required codes_texts.stable
  read_write := codes_texts.read_write

def textIndexShape : Shape := .record [("fieldName", .required, .leaf)]

theorem codes_textIndex : Codes textIndexShape textIndexToJson textIndexOfJson? where
  stable := by
    refine stable_record (by decide) (fun _ => rfl) fun field field' h => ?_
    exact (h _ List.mem_cons_self).required codes_text.stable
  read_write _ := rfl

/-! ### Models, files and applications -/

namespace Model

def shape : Shape :=
  .record [("name", .required, .leaf), ("description", .default (.text ""), .leaf),
    ("material", .default (.bool false), .leaf), ("primaryField", .required, PrimaryField.shape),
    ("foreignFields", .default (.arr []), .list ForeignField.shape),
    ("plainFields", .default (.arr []), .list PlainField.shape),
    ("uniqueIndexes", .default (.arr []), .list indexShape),
    ("plainIndexes", .default (.arr []), .list indexShape),
    ("ginIndexes", .default (.arr []), .list textIndexShape)]

theorem codes : Codes shape toJson ofJson? where
  stable := by
    refine stable_record (by decide) (fun _ => rfl) fun field field' h => ?_
    simp only [List.forall_mem_cons] at h
    obtain ⟨hname, hdescription, hmaterial, hprimary, hforeign, hplain, hunique, hindexes, htexts, -⟩ :=
      h
    refine (hname.required codes_text.stable).bind fun _ => ?_
    refine (hdescription.withDefault codes_text.stable rfl).bind fun _ => ?_
    refine (hmaterial.withDefault codes_bool.stable rfl).bind fun _ => ?_
    refine (hprimary.required PrimaryField.codes.stable).bind fun _ => ?_
    refine (hforeign.withDefault ForeignField.codes.list.stable rfl).bind fun _ => ?_
    refine (hplain.withDefault PlainField.codes.list.stable rfl).bind fun _ => ?_
    refine (hunique.withDefault codes_index.list.stable rfl).bind fun _ => ?_
    refine (hindexes.withDefault codes_index.list.stable rfl).bind fun _ => ?_
    exact (htexts.withDefault codes_textIndex.list.stable rfl).bind fun _ => .refl _
  read_write m := by
    change (do
      let foreign ← list? ForeignField.ofJson? (.arr (m.foreign.map (·.toJson)))
      let plain ← list? PlainField.ofJson? (.arr (m.plain.map (·.toJson)))
      let uniqueIndexes ← list? indexOfJson? (.arr (m.uniqueIndexes.map indexToJson))
      let plainIndexes ← list? indexOfJson? (.arr (m.plainIndexes.map indexToJson))
      let textIndexes ← list? textIndexOfJson? (.arr (m.textIndexes.map textIndexToJson))
      some { m with foreign, plain, uniqueIndexes, plainIndexes, textIndexes }) = some m
    rw [ForeignField.codes.list.read_write, PlainField.codes.list.read_write,
      codes_index.list.read_write, codes_index.list.read_write, codes_textIndex.list.read_write]
    rfl

end Model

namespace SchemaFile

def shape : Shape :=
  .record [("filename", .required, .leaf), ("namespace", .required, .leaf),
    ("models", .default (.arr []), .list Model.shape)]

theorem codes : Codes shape toJson ofJson? where
  stable := by
    refine stable_record (by decide) (fun _ => rfl) fun field field' h => ?_
    simp only [List.forall_mem_cons] at h
    obtain ⟨hfilename, hdomain, hmodels, -⟩ := h
    refine (hfilename.required codes_text.stable).bind fun _ => ?_
    refine (hdomain.required codes_text.stable).bind fun _ => ?_
    exact (hmodels.withDefault Model.codes.list.stable rfl).bind fun _ => .refl _
  read_write f := by
    change (list? Model.ofJson? (.arr (f.models.map (·.toJson)))).bind
      (fun models => some { f with models }) = some f
    rw [Model.codes.list.read_write]
    rfl

end SchemaFile

namespace Application

def shape : Shape := .record [("files", .required, .list SchemaFile.shape)]

theorem codes : Codes shape toJson ofJson? where
  stable := by
    refine stable_record (by decide) (fun _ => rfl) fun field field' h => ?_
    exact ((h _ List.mem_cons_self).required SchemaFile.codes.list.stable).bind fun _ => .refl _
  read_write app := by
    change (list? SchemaFile.ofJson? (.arr (app.files.map (·.toJson)))).bind
      (fun files => some { app with files }) = some app
    rw [SchemaFile.codes.list.read_write]
    rfl

end Application

/-! ### Plans -/

namespace Component

def shape : Shape :=
  .record [("filename", .required, .leaf), ("namespace", .required, .leaf),
    ("tables", .required, .list .leaf)]

theorem codes : Codes shape toJson ofJson? where
  stable := by
    refine stable_record (by decide) (fun _ => rfl) fun field field' h => ?_
    simp only [List.forall_mem_cons] at h
    obtain ⟨hfilename, hdomain, htables, -⟩ := h
    refine (hfilename.required codes_text.stable).bind fun _ => ?_
    refine (hdomain.required codes_text.stable).bind fun _ => ?_
    exact (htables.required codes_texts.stable).bind fun _ => .refl _
  read_write c := by
    change (list? text? (.texts c.tables)).bind (fun tables => some { c with tables }) = some c
    rw [codes_texts.read_write]
    rfl

end Component

namespace DomainHint

def shape : Shape :=
  .record [("namespace", .required, .leaf), ("tables", .required, .list .leaf),
    ("dependsOn", .default (.arr []), .list .leaf)]

theorem codes : Codes shape toJson ofJson? where
  stable := by
    refine stable_record (by decide) (fun _ => rfl) fun field field' h => ?_
    simp only [List.forall_mem_cons] at h
    obtain ⟨hdomain, htables, hdependsOn, -⟩ := h
    refine (hdomain.required codes_text.stable).bind fun _ => ?_
    refine (htables.required codes_texts.stable).bind fun _ => ?_
    exact (hdependsOn.withDefault codes_texts.stable rfl).bind fun _ => .refl _
  read_write h := by
    obtain ⟨domain, tables, dependsOn⟩ := h
    cases dependsOn with
    | nil =>
      change (list? text? (.texts tables)).bind (fun tables =>
        some (DomainHint.mk domain tables [])) = _
      rw [codes_texts.read_write]
      rfl
    | cons first dependsOn =>
      change (list? text? (.texts tables)).bind (fun tables =>
        (list? text? (.texts (first :: dependsOn))).bind fun dependsOn =>
          some (DomainHint.mk domain tables dependsOn)) = _
      rw [codes_texts.read_write, codes_texts.read_write]
      rfl

end DomainHint

/-! ### Violations and reports -/

namespace Violation

theorem Kind.codes : Codes .leaf Kind.toJson Kind.ofJson? where
  stable := stable_leaf _
  read_write := Kind.ofName?_name

def Path.shape : Shape :=
  .record [("component", .option, .leaf), ("file", .option, .leaf), ("model", .option, .leaf),
    ("field", .option, .leaf), ("index", .option, .leaf)]

theorem Path.codes : Codes Path.shape Path.toJson Path.ofJson? where
  stable := by
    refine stable_record (by decide) (fun _ => rfl) fun field field' h => ?_
    simp only [List.forall_mem_cons] at h
    obtain ⟨hcomponent, hfile, hmodel, hfield, hindex, -⟩ := h
    refine (hcomponent.optionalMember codes_text.stable).bind fun _ => ?_
    refine (hfile.optionalMember codes_text.stable).bind fun _ => ?_
    refine (hmodel.optionalMember codes_text.stable).bind fun _ => ?_
    refine (hfield.optionalMember codes_text.stable).bind fun _ => ?_
    exact (hindex.optionalMember codes_text.stable).bind fun _ => .refl _
  read_write p := by
    obtain ⟨component, file, model, field, index⟩ := p
    cases component <;> cases file <;> cases model <;> cases field <;> cases index <;> rfl

def shape : Shape :=
  .record [("kind", .required, .leaf), ("path", .required, Path.shape),
    ("message", .required, .leaf)]

theorem codes : Codes shape toJson ofJson? where
  stable := by
    refine stable_record (by decide) (fun _ => rfl) fun field field' h => ?_
    simp only [List.forall_mem_cons] at h
    obtain ⟨hkind, hpath, hmessage, -⟩ := h
    refine (hkind.required Kind.codes.stable).bind fun _ => ?_
    refine (hpath.required Path.codes.stable).bind fun _ => ?_
    exact (hmessage.required codes_text.stable).bind fun _ => .refl _
  read_write v := by
    change (Kind.ofJson? v.kind.toJson).bind (fun kind =>
      (Path.ofJson? v.path.toJson).bind fun path => some { v with kind, path }) = some v
    rw [Kind.codes.read_write, Path.codes.read_write]
    rfl

end Violation

namespace Report

def shape : Shape :=
  .record [("accepted", .required, .leaf), ("application", .option, Application.shape),
    ("violations", .option, .list Violation.shape)]

theorem codes : Codes shape toJson ofJson? where
  stable := by
    refine stable_record (by decide) (fun _ => rfl) fun field field' h => ?_
    simp only [List.forall_mem_cons] at h
    obtain ⟨haccepted, happlication, hviolations, -⟩ := h
    refine (haccepted.required codes_bool.stable).bind fun _ => ?_
    refine (happlication.optionalMember Application.codes.stable).bind fun _ => ?_
    exact (hviolations.optionalMember Violation.codes.list.stable).bind fun _ => .refl _
  read_write r := by
    have happlication (app : Application) :
        Slot.nullable Application.ofJson? app.toJson = some (some app) := by
      change (Application.ofJson? app.toJson).map some = _
      rw [Application.codes.read_write, Option.map_some]
    have hviolations (vs : List Violation) :
        Slot.nullable Violation.listOfJson? (Violation.listToJson vs) = some (some vs) := by
      change (list? Violation.ofJson? (.arr (vs.map (·.toJson)))).map some = _
      rw [Violation.codes.list.read_write, Option.map_some]
    obtain ⟨accepted, application, violations⟩ := r
    cases application with
    | none =>
      cases violations with
      | none => rfl
      | some vs =>
        change (Slot.nullable Violation.listOfJson? (Violation.listToJson vs)).bind
          (fun violations => some (Report.mk accepted none violations)) = _
        rw [hviolations, Option.bind_some]
    | some app =>
      cases violations with
      | none =>
        change (Slot.nullable Application.ofJson? app.toJson).bind
          (fun application => some (Report.mk accepted application none)) = _
        rw [happlication, Option.bind_some]
      | some vs =>
        change (Slot.nullable Application.ofJson? app.toJson).bind (fun application =>
          (Slot.nullable Violation.listOfJson? (Violation.listToJson vs)).bind fun violations =>
            some (Report.mk accepted application violations)) = _
        rw [happlication, hviolations, Option.bind_some, Option.bind_some]

end Report

/-- A document that presents what is written of a value is read as that value. -/
theorem decode_of_presents :
    (∀ (app : Application) d, Presents Application.shape app.toJson d →
      Application.ofJson? d = some app) ∧
    (∀ (components : List Component) d,
      Presents (.list Component.shape) (Component.listToJson components) d →
        Component.listOfJson? d = some components) ∧
    (∀ (hints : List DomainHint) d,
      Presents (.list DomainHint.shape) (DomainHint.listToJson hints) d →
        DomainHint.listOfJson? d = some hints) ∧
    (∀ (violations : List Violation) d,
      Presents (.list Violation.shape) (Violation.listToJson violations) d →
        Violation.listOfJson? d = some violations) ∧
    ∀ (report : Report) d, Presents Report.shape report.toJson d →
      Report.ofJson? d = some report := by
  refine ⟨?_, ?_, ?_, ?_, ?_⟩
  · exact fun app d h => Application.codes.read_of_presents h
  · exact fun components d h => Component.codes.list.read_of_presents h
  · exact fun hints d h => DomainHint.codes.list.read_of_presents h
  · exact fun violations d h => Violation.codes.list.read_of_presents h
  · exact fun report d h => Report.codes.read_of_presents h

/-- A file without models, and the report of the application that it makes up. -/
def bareFile : SchemaFile :=
  { filename := "schema-01-users.prisma", domain := "Users", models := [] }

def bareReport : Report := { accepted := true, application := some ⟨[bareFile]⟩ }

/-- The document of that file with its models left out. -/
def variedFile : Json :=
  .object [("filename", .text bareFile.filename), ("namespace", .text bareFile.domain)]

/-- The document of that report with a null and a member that nobody knows. -/
def variedReport : Json :=
  .object [("violations", .null), ("note", .num "1"),
    ("application", .object [("files", .arr [variedFile])]), ("accepted", .bool true)]

theorem decode_of_presents_varied :
    Presents Report.shape bareReport.toJson variedReport ∧
      Report.ofJson? variedReport = some bareReport := by
  have hfile : Presents SchemaFile.shape bareFile.toJson variedFile := by
    refine .tail (.single (.reorder (.trans (.cons _ (.swap _ _ _)) (.swap _ _ _)))) ?_
    exact .leave (List.mem_cons_of_mem _ (List.mem_cons_of_mem _ List.mem_cons_self))
  have happlication : Presents Application.shape (Application.toJson ⟨[bareFile]⟩)
      (.object [("files", .arr [variedFile])]) :=
    Presents.inside List.mem_cons_self [] (.item [] [] hfile)
  have hreport : Presents Report.shape bareReport.toJson (.object [("application",
      .object [("files", .arr [variedFile])]), ("accepted", .bool true)]) :=
    .trans (.single (.reorder (.swap _ _ _)))
      (Presents.inside (List.mem_cons_of_mem _ List.mem_cons_self) _ happlication)
  have hnoted : Edit Report.shape (.object [("application",
        .object [("files", .arr [variedFile])]), ("accepted", .bool true)])
      (.object [("note", .num "1"), ("application", .object [("files", .arr [variedFile])]),
        ("accepted", .bool true)]) := .add _ (by decide)
  have hvaried : Presents Report.shape bareReport.toJson variedReport :=
    (hreport.tail hnoted).tail
      (.absent (List.mem_cons_of_mem _ (List.mem_cons_of_mem _ List.mem_cons_self)) (by decide))
  obtain ⟨-, -, -, -, hdecode⟩ := decode_of_presents
  exact ⟨hvaried, hdecode _ _ hvaried⟩

end SchemaGate
