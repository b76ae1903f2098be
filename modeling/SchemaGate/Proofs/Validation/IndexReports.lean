import SchemaGate.Proofs.Validation.Findings
import SchemaGate.Proofs.Validation.Indexes

/-!
# What is reported of an index

Every index of a model has a label of its own, and what is found of it is reported under that label
(`nodup_indexLabels`), so that the report on indexes falls apart into one part for each index, in
order. Of an index over columns the part tells that it has none, or else which are listed again,
which are ill-formed and which are no columns of the model, each name once, and whether an earlier
index covers the same. Of a full-text index it tells at most one fault of its column, and whether an
earlier one covers the same (`indexViolations_report`).
-/

namespace SchemaGate

open Validation

/-- The names that are listed again, once for each time after the first. -/
def repeats (names : List String) : List String :=
  ((withEarlier names).filter fun (earlier, name) => name ∈ earlier).map (·.2)

namespace Validation

/-- The violations that are reported under the label of an index. -/
def under (label : String) (vs : List Violation) : List Violation :=
  vs.filter (·.path.index = some label)

/-- The columns at which violations of one kind are reported, in their order. A violation at no
column in particular has `none`. -/
def columnsOf (kind : Violation.Kind) (vs : List Violation) : List (Option String) :=
  (ofKind kind vs).map (·.path.field)

end Validation

/-- What is found of an index over some columns, behind earlier indexes of the model. -/
structure Model.ColumnIndexFindings (model : Model) (earlier : List (List String))
    (columns : List String) (found : List Violation) : Prop where
  empty : columnsOf .emptyIndex found = if columns = [] then [none] else []
  repeated : columnsOf .duplicateIndexField found = (repeats columns).map some
  ill_formed : columnsOf .invalidIdentifier found =
    (columns.filter fun name => ¬ Text.isIdentifier name).eraseDups.map some
  unknown : columnsOf .unknownIndexField found =
    (columns.filter fun name =>
      Text.isIdentifier name ∧ name ∉ model.columnNames).eraseDups.map some
  covered : columnsOf .duplicateIndex found =
    if columns ≠ [] ∧ columns ∈ earlier then [none] else []
  others : ∀ kind ∉ [.emptyIndex, .duplicateIndexField, .invalidIdentifier, .unknownIndexField,
    .duplicateIndex], columnsOf kind found = []

/-- Whether a column is there that a full-text index cannot cover: a key, or a plain column that is
not of text. Of plain columns with one name the first counts. -/
def Model.NoText (model : Model) (name : String) : Prop :=
  name ∈ model.columnNames ∧ ∀ field ∈ model.plainField? name, field.scalar ≠ .string

instance (model : Model) : DecidablePred model.NoText :=
  fun _ => inferInstanceAs (Decidable (_ ∧ _))

/-- What is found of a full-text index, behind earlier ones of the model. -/
structure Model.TextIndexFindings (model : Model) (earlier : List String) (name : String)
    (found : List Violation) : Prop where
  ill_formed : columnsOf .invalidIdentifier found =
    if ¬ Text.isIdentifier name then [some name] else []
  unknown : columnsOf .unknownIndexField found =
    if Text.isIdentifier name ∧ name ∉ model.columnNames then [some name] else []
  no_text : columnsOf .invalidTextIndex found =
    if Text.isIdentifier name ∧ model.NoText name then [some name] else []
  one_fault : (found.filter (·.kind ≠ .duplicateIndex)).length ≤ 1
  covered : columnsOf .duplicateIndex found = if name ∈ earlier then [some name] else []
  others : ∀ kind ∉ [.invalidIdentifier, .unknownIndexField, .invalidTextIndex, .duplicateIndex],
    columnsOf kind found = []

namespace Validation

/-! ### The columns of one kind -/

section

variable {α : Type} {kind : Violation.Kind} {vs ws : List Violation} {v : Violation}

@[simp] theorem columnsOf_nil : columnsOf kind [] = [] := rfl

@[simp] theorem columnsOf_append :
    columnsOf kind (vs ++ ws) = columnsOf kind vs ++ columnsOf kind ws := by
  rw [columnsOf, ofKind_append, List.map_append, columnsOf, columnsOf]

@[simp] theorem columnsOf_singleton :
    columnsOf kind [v] = if v.kind = kind then [v.path.field] else [] := by
  by_cases hkind : v.kind = kind <;> simp [columnsOf, ofKind, hkind]

theorem columnsOf_flatMap {f : α → List Violation} {l : List α} :
    columnsOf kind (l.flatMap f) = l.flatMap fun a => columnsOf kind (f a) := by
  rw [columnsOf, ofKind_flatMap, List.map_flatMap]
  rfl

end

/-! ### Indexes over columns -/

/-- The fault of a column name in an index, behind the names before it. -/
def columnFault? (model : Model) (earlier : List String) (name : String) :
    Option Violation.Kind :=
  if name ∈ earlier then some .duplicateIndexField
  else if ¬ Text.isIdentifier name then some .invalidIdentifier
  else if name ∉ model.columnNames then some .unknownIndexField
  else none

section

variable {model : Model} {earlier : List String} {name : String} {kind : Violation.Kind}

theorem columnFault?_eq_duplicateIndexField_iff :
    columnFault? model earlier name = some .duplicateIndexField ↔ name ∈ earlier := by
  unfold columnFault?
  split_ifs with hearlier <;> simp [hearlier]

theorem columnFault?_eq_invalidIdentifier_iff :
    columnFault? model earlier name = some .invalidIdentifier ↔
      name ∉ earlier ∧ ¬ Text.isIdentifier name := by
  unfold columnFault?
  split_ifs with hearlier hidentifier <;> simp [*]

theorem columnFault?_eq_unknownIndexField_iff :
    columnFault? model earlier name = some .unknownIndexField ↔
      name ∉ earlier ∧ Text.isIdentifier name ∧ name ∉ model.columnNames := by
  unfold columnFault?
  split_ifs with hearlier hidentifier hcolumn <;> simp_all

/-- No other fault is found of column names. -/
theorem filter_columnFault?_eq_nil {names : List String}
    (hkind : kind ∉ [.duplicateIndexField, .invalidIdentifier, .unknownIndexField]) :
    ((withEarlier names).filter fun (earlier, name) =>
      columnFault? model earlier name = some kind) = [] := by
  rw [List.filter_eq_nil_iff]
  intro p _ h
  rw [decide_eq_true_eq] at h
  unfold columnFault? at h
  split_ifs at h <;> simp_all

end

section

variable (file : SchemaFile) (model : Model)

theorem columnsOf_indexColumnViolations (kind : Violation.Kind) (index : LabelledIndex) :
    columnsOf kind (indexColumnViolations model (modelPath file model) index) =
      (((withEarlier index.columns).filter fun (earlier, name) =>
        columnFault? model earlier name = some kind).map (·.2)).map some := by
  rw [List.map_map, ← flatMap_ite_eq_map_filter, indexColumnViolations, columnsOf_flatMap]
  refine List.flatMap_congr ?_
  rintro ⟨earlier, name⟩ -
  by_cases hearlier : name ∈ earlier
  · simp [columnFault?, hearlier]
  · by_cases hidentifier : Text.isIdentifier name
    · by_cases hcolumn : name ∈ model.columnNames
      · simp [columnFault?, hearlier, hidentifier, hcolumn, Model.hasColumn]
      · simp [columnFault?, hearlier, hidentifier, hcolumn, Model.hasColumn]
    · simp [columnFault?, hearlier, hidentifier]

theorem columnsOf_coverViolations (kind : Violation.Kind) (earlier : List LabelledIndex)
    (index : LabelledIndex) :
    columnsOf kind (coverViolations (modelPath file model) earlier index) =
      if kind = .duplicateIndex ∧ index.columns ∈ earlier.map (·.columns) then [none] else [] := by
  rw [coverViolations]
  cases hfirst : earlier.find? (·.columns == index.columns) with
  | none =>
    have hnew := find?_eq_none_iff_not_mem_map.mp hfirst
    rw [columnsOf_nil, if_neg fun h => hnew h.2]
  | some first =>
    have hold := mem_map_of_find?_eq_some hfirst
    rw [columnsOf_singleton]
    simp only [hold, and_true, eq_comm (b := kind)]
    rfl

/-- What is reported of an index over columns, behind earlier ones. -/
def columnReport (p : List LabelledIndex × LabelledIndex) : List Violation :=
  let path := modelPath file model
  if p.2.columns.isEmpty then
    [{ kind := .emptyIndex, path := { path with index := p.2.label },
       message := s!"{p.2.label} has no fields" }]
  else indexColumnViolations model path p.2 ++ coverViolations path p.1 p.2

theorem columnIndexFindings_of_ne_nil {earlier : List LabelledIndex} {index : LabelledIndex}
    (hne : index.columns ≠ []) :
    model.ColumnIndexFindings (earlier.map (·.columns)) index.columns
      (columnReport file model (earlier, index)) := by
  have hcolumns : ∀ kind, columnsOf kind (columnReport file model (earlier, index)) =
      (((withEarlier index.columns).filter fun (before, name) =>
        columnFault? model before name = some kind).map (·.2)).map some ++
      if kind = .duplicateIndex ∧ index.columns ∈ earlier.map (·.columns) then [none] else [] := by
    intro kind
    have hreport : columnReport file model (earlier, index) =
        indexColumnViolations model (modelPath file model) index ++
          coverViolations (modelPath file model) earlier index :=
      if_neg (by simpa using hne)
    rw [hreport, columnsOf_append, columnsOf_indexColumnViolations, columnsOf_coverViolations]
  constructor
  case empty =>
    rw [hcolumns, filter_columnFault?_eq_nil (by decide), if_neg hne]
    simp
  case repeated =>
    rw [hcolumns, if_neg (by simp), List.append_nil]
    simp only [columnFault?_eq_duplicateIndexField_iff]
    rfl
  case ill_formed =>
    rw [hcolumns, if_neg (by simp), List.append_nil, ← map_snd_filter_new]
    simp only [columnFault?_eq_invalidIdentifier_iff, decide_eq_true_eq]
  case unknown =>
    rw [hcolumns, if_neg (by simp), List.append_nil, ← map_snd_filter_new]
    simp only [columnFault?_eq_unknownIndexField_iff, decide_eq_true_eq]
  case covered =>
    rw [hcolumns, filter_columnFault?_eq_nil (by decide)]
    simp [hne]
  case others =>
    intro kind hkind
    have hfault : kind ∉ [.duplicateIndexField, .invalidIdentifier, .unknownIndexField] :=
      fun h => hkind (by simp_all)
    have hother : kind ≠ .duplicateIndex := fun h => hkind (by simp [h])
    rw [hcolumns, filter_columnFault?_eq_nil hfault, if_neg fun h => hother h.1]
    rfl

/-- An index without columns is reported for that and for nothing else. -/
theorem columnIndexFindings_of_eq_nil {earlier : List LabelledIndex} {index : LabelledIndex}
    (hnil : index.columns = []) :
    model.ColumnIndexFindings (earlier.map (·.columns)) index.columns
      (columnReport file model (earlier, index)) := by
  have hcolumns : ∀ kind, columnsOf kind (columnReport file model (earlier, index)) =
      if kind = .emptyIndex then [none] else [] := by
    intro kind
    rw [columnReport, if_pos (by simpa using hnil), columnsOf_singleton]
    simp only [eq_comm (b := kind)]
    rfl
  rw [hnil]
  constructor
  case empty =>
    simp [hcolumns]
  case repeated =>
    simp [hcolumns, repeats, withEarlier]
  case ill_formed =>
    simp [hcolumns]
  case unknown =>
    simp [hcolumns]
  case covered =>
    simp [hcolumns]
  case others =>
    intro kind hkind
    rw [hcolumns, if_neg fun h => hkind (by simp [h])]

theorem columnIndexFindings (earlier : List LabelledIndex) (index : LabelledIndex) :
    model.ColumnIndexFindings (earlier.map (·.columns)) index.columns
      (columnReport file model (earlier, index)) := by
  by_cases hnil : index.columns = []
  · exact columnIndexFindings_of_eq_nil file model hnil
  · exact columnIndexFindings_of_ne_nil file model hnil

end

/-! ### Full-text indexes -/

/-- The fault of the column of a full-text index. -/
def textFault? (model : Model) (name : String) : Option Violation.Kind :=
  if ¬ Text.isIdentifier name then some .invalidIdentifier
  else if name ∉ model.columnNames then some .unknownIndexField
  else if model.NoText name then some .invalidTextIndex
  else none

section

variable {model : Model} {name : String} {kind : Violation.Kind}

theorem textFault?_eq_invalidIdentifier_iff :
    textFault? model name = some .invalidIdentifier ↔ ¬ Text.isIdentifier name := by
  unfold textFault?
  split_ifs with hidentifier <;> simp [hidentifier]

theorem textFault?_eq_unknownIndexField_iff : textFault? model name = some .unknownIndexField ↔
    Text.isIdentifier name ∧ name ∉ model.columnNames := by
  unfold textFault?
  split_ifs with hidentifier hcolumn <;> simp_all

theorem textFault?_eq_invalidTextIndex_iff : textFault? model name = some .invalidTextIndex ↔
    Text.isIdentifier name ∧ model.NoText name := by
  unfold textFault?
  split_ifs with hidentifier hcolumn hkey <;> simp_all [Model.NoText]

theorem textFault?_ne (hkind : kind ∉ [.invalidIdentifier, .unknownIndexField, .invalidTextIndex]) :
    textFault? model name ≠ some kind := by
  intro h
  unfold textFault? at h
  split_ifs at h <;> simp_all

end

section

variable (file : SchemaFile) (model : Model) (label name : String)

theorem columnsOf_textColumnViolations (kind : Violation.Kind) :
    columnsOf kind (textColumnViolations model (modelPath file model) label name) =
      if textFault? model name = some kind then [some name] else [] := by
  rw [textColumnViolations, textFault?]
  by_cases hidentifier : Text.isIdentifier name
  · cases hfield : model.plainField? name with
    | none =>
      by_cases hcolumn : name ∈ model.columnNames
      · simp [hidentifier, Model.hasColumn, hcolumn, Model.NoText, hfield]
      · simp [hidentifier, Model.hasColumn, hcolumn]
    | some field =>
      have hcolumn : name ∈ model.columnNames :=
        List.mem_append_right _ (mem_map_of_find?_eq_some hfield)
      by_cases htext : field.scalar = .string
      · simp [hidentifier, hcolumn, Model.NoText, hfield, Scalar.isText, htext]
      · simp [hidentifier, hcolumn, Model.NoText, hfield, Scalar.isText, htext]
  · simp [hidentifier]

theorem length_textColumnViolations_le :
    (textColumnViolations model (modelPath file model) label name).length ≤ 1 := by
  unfold textColumnViolations
  dsimp only
  repeat' split
  all_goals simp

variable (earlier : List (String × String))

theorem columnsOf_textCoverViolations (kind : Violation.Kind) :
    columnsOf kind (textCoverViolations (modelPath file model) earlier label name) =
      if kind = .duplicateIndex ∧ name ∈ earlier.map (·.2) then [some name] else [] := by
  rw [textCoverViolations]
  cases hfirst : earlier.find? (·.2 == name) with
  | none =>
    have hnew := find?_eq_none_iff_not_mem_map.mp hfirst
    rw [columnsOf_nil, if_neg fun h => hnew h.2]
  | some first =>
    have hold := mem_map_of_find?_eq_some hfirst
    simp only [columnsOf_singleton, hold, and_true, eq_comm (b := kind)]

/-- What is reported of a full-text index, behind earlier ones. -/
def textReport (p : List (String × String) × String × String) : List Violation :=
  textColumnViolations model (modelPath file model) p.2.1 p.2.2 ++
    textCoverViolations (modelPath file model) p.1 p.2.1 p.2.2

theorem textIndexFindings :
    model.TextIndexFindings (earlier.map (·.2)) name
      (textReport file model (earlier, label, name)) := by
  have hcolumns : ∀ kind, columnsOf kind (textReport file model (earlier, label, name)) =
      (if textFault? model name = some kind then [some name] else []) ++
        if kind = .duplicateIndex ∧ name ∈ earlier.map (·.2) then [some name] else [] := by
    intro kind
    rw [textReport, columnsOf_append, columnsOf_textColumnViolations,
      columnsOf_textCoverViolations]
  have hfault : ∀ kind, kind ≠ .duplicateIndex →
      columnsOf kind (textReport file model (earlier, label, name)) =
        if textFault? model name = some kind then [some name] else [] := by
    intro kind hkind
    rw [hcolumns, if_neg fun h : kind = .duplicateIndex ∧ _ => hkind h.1, List.append_nil]
  constructor
  case ill_formed =>
    rw [hfault _ (by decide)]
    simp only [textFault?_eq_invalidIdentifier_iff]
  case unknown =>
    rw [hfault _ (by decide)]
    simp only [textFault?_eq_unknownIndexField_iff]
  case no_text =>
    rw [hfault _ (by decide)]
    simp only [textFault?_eq_invalidTextIndex_iff]
  case one_fault =>
    have hcover : (textCoverViolations (modelPath file model) earlier label name).filter
        (·.kind ≠ .duplicateIndex) = [] := by
      rw [List.filter_eq_nil_iff]
      intro v hv
      simp [kind_of_mem_textCoverViolations hv]
    rw [textReport, List.filter_append, hcover, List.append_nil]
    exact (List.length_filter_le ..).trans (length_textColumnViolations_le ..)
  case covered =>
    rw [hcolumns, if_neg (textFault?_ne (by decide)), List.nil_append]
    simp only [true_and]
  case others =>
    intro kind hkind
    rw [hfault _ fun h => hkind (by simp [h]), if_neg (textFault?_ne fun h => hkind (by simp_all))]

end

/-! ### Labels -/

section

variable (what : String)

theorem toList_label (i : Nat) :
    s!"{what}{i}]".toList = what.toList ++ (Nat.toDigits 10 i ++ [']']) := by
  simp [toString]

/-- Indexes of one list differ in the number on their labels. -/
theorem label_injective : Function.Injective fun i : Nat => s!"{what}{i}]" := by
  intro i j h
  have hlists := congrArg String.toList h
  rw [toList_label, toList_label] at hlists
  have hdigits := List.append_cancel_right (List.append_cancel_left hlists)
  calc i = Nat.ofDigitChars 10 (Nat.toDigits 10 i) 0 := Nat.ofDigitChars_ten_toDigits.symm
    _ = Nat.ofDigitChars 10 (Nat.toDigits 10 j) 0 := by rw [hdigits]
    _ = j := Nat.ofDigitChars_ten_toDigits

/-- The labels of a list of indexes. -/
def labels {α : Type} (indexes : List α) : List String :=
  (List.range indexes.length).map fun i => s!"{what}{i}]"

variable {α : Type} (indexes : List α)

theorem nodup_labels : (labels what indexes).Nodup :=
  List.nodup_range.map (label_injective what)

end

/-- The labels of the indexes of a model: unique, then plain, then full-text ones. -/
def indexLabels (model : Model) : List String :=
  labels "uniqueIndexes[" model.uniqueIndexes ++ labels "plainIndexes[" model.plainIndexes ++
    labels "ginIndexes[" model.textIndexes

theorem head?_of_mem_labels {α : Type} {what label : String} {indexes : List α} {c : Char}
    (hwhat : what.toList.head? = some c) (h : label ∈ labels what indexes) :
    label.toList.head? = some c := by
  obtain ⟨i, -, rfl⟩ := List.mem_map.mp h
  rw [toList_label, List.head?_append, hwhat]
  rfl

/-- Indexes of two lists differ in the first letter of their labels. -/
theorem disjoint_labels {α β : Type} {what what' : String} {indexes : List α} {indexes' : List β}
    (c c' : Char) (hwhat : what.toList.head? = some c) (hwhat' : what'.toList.head? = some c')
    (hne : c ≠ c') : (labels what indexes).Disjoint (labels what' indexes') := by
  intro label h h'
  have hsame := head?_of_mem_labels hwhat h
  rw [head?_of_mem_labels hwhat' h'] at hsame
  exact hne (Option.some.inj hsame).symm

theorem nodup_indexLabels (model : Model) : (indexLabels model).Nodup := by
  have hplain : (labels "uniqueIndexes[" model.uniqueIndexes).Disjoint
      (labels "plainIndexes[" model.plainIndexes) :=
    disjoint_labels 'u' 'p' (by decide) (by decide) (by decide)
  have htext : (labels "uniqueIndexes[" model.uniqueIndexes ++
      labels "plainIndexes[" model.plainIndexes).Disjoint
        (labels "ginIndexes[" model.textIndexes) := by
    rw [List.disjoint_append_left]
    refine ⟨?_, ?_⟩
    · exact disjoint_labels 'u' 'g' (by decide) (by decide) (by decide)
    · exact disjoint_labels 'p' 'g' (by decide) (by decide) (by decide)
  exact ((nodup_labels _ _).append (nodup_labels _ _) hplain).append (nodup_labels _ _) htext

/-! ### The parts of the report -/

section

variable (file : SchemaFile) (model : Model)

/-- What is reported of each index, with its label. -/
def indexReports : List (String × List Violation) :=
  (withEarlier (columnIndexes model)).map (fun p => (p.2.label, columnReport file model p)) ++
    (withEarlier (labelledTextIndexes model)).map fun p => (p.2.1, textReport file model p)

theorem indexViolations_eq_flatMap :
    indexViolations file model = (indexReports file model).flatMap (·.2) := by
  rw [indexReports, List.flatMap_append, List.flatMap_map, List.flatMap_map]
  rfl

theorem map_fst_indexReports : (indexReports file model).map (·.1) = indexLabels model := by
  have hlabels : ∀ {α : Type} (what : String) (indexes : List α),
      (indexes.zipIdx.map fun p => s!"{what}{p.2}]") = labels what indexes := by
    intro α what indexes
    rw [labels, List.range_eq_range', ← List.zipIdx_map_snd, List.map_map]
    rfl
  have hcolumns : (columnIndexes model).map (·.label) =
      labels "uniqueIndexes[" model.uniqueIndexes ++ labels "plainIndexes[" model.plainIndexes := by
    rw [columnIndexes, List.map_append, List.map_map, List.map_map, ← hlabels, ← hlabels]
    rfl
  have htexts : (labelledTextIndexes model).map (·.1) = labels "ginIndexes[" model.textIndexes := by
    rw [labelledTextIndexes, List.map_map, ← hlabels]
    rfl
  rw [indexReports, List.map_append, List.map_map, List.map_map, indexLabels, ← hcolumns, ← htexts]
  conv_rhs => rw [← map_snd_withEarlier (columnIndexes model),
    ← map_snd_withEarlier (labelledTextIndexes model), List.map_map, List.map_map]
  rfl

/-- What is reported of an index stands at its label on the model. -/
theorem path_of_mem_indexReports {r : String × List Violation} {v : Violation}
    (h : r ∈ indexReports file model) (hv : v ∈ r.2) :
    v.path = { modelPath file model with index := r.1, field := v.path.field } := by
  rcases List.mem_append.mp h with h | h
  · obtain ⟨⟨earlier, index⟩, -, rfl⟩ := List.mem_map.mp h
    simp only [columnReport] at hv
    split at hv
    · obtain rfl := List.mem_singleton.mp hv
      rfl
    · rcases List.mem_append.mp hv with hv | hv
      · obtain ⟨⟨before, name⟩, -, hv⟩ := List.mem_flatMap.mp hv
        dsimp only at hv
        repeat' split at hv
        all_goals simp_all
      · unfold coverViolations at hv
        split at hv <;> simp_all [modelPath, Violation.Path.ofFile]
  · obtain ⟨⟨earlier, label, name⟩, -, rfl⟩ := List.mem_map.mp h
    rcases List.mem_append.mp hv with hv | hv
    · unfold textColumnViolations at hv
      dsimp only at hv
      repeat' split at hv
      all_goals simp_all
    · unfold textCoverViolations at hv
      split at hv <;> simp_all

theorem under_indexReports {r : String × List Violation} (h : r ∈ indexReports file model) :
    under r.1 (indexViolations file model) = r.2 := by
  have hnodup : ((indexReports file model).map (·.1)).Nodup := by
    rw [map_fst_indexReports]
    exact nodup_indexLabels model
  rw [indexViolations_eq_flatMap, under,
    filter_flatMap_of_forall (q := fun other => other.1 = r.1),
    filter_eq_singleton_of_nodup hnodup h, List.flatMap_singleton]
  intro other hother v hv
  rw [path_of_mem_indexReports file model hother hv]
  simp

theorem under_columnIndex {i : Nat} {index : LabelledIndex}
    (h : (columnIndexes model)[i]? = some index) :
    model.ColumnIndexFindings ((model.uniqueIndexes ++ model.plainIndexes).take i) index.columns
      (under index.label (indexViolations file model)) := by
  have hreport : (index.label, columnReport file model ((columnIndexes model).take i, index)) ∈
      indexReports file model :=
    List.mem_append_left _ (List.mem_map_of_mem (take_mem_withEarlier h))
  rw [under_indexReports file model hreport, ← map_columns_columnIndexes, ← List.map_take]
  exact columnIndexFindings file model _ index

theorem under_textIndex {i : Nat} {label name : String}
    (h : (labelledTextIndexes model)[i]? = some (label, name)) :
    model.TextIndexFindings (model.textIndexes.take i) name
      (under label (indexViolations file model)) := by
  have hreport : (label, textReport file model ((labelledTextIndexes model).take i, label, name)) ∈
      indexReports file model :=
    List.mem_append_right _ (List.mem_map_of_mem (take_mem_withEarlier h))
  rw [under_indexReports file model hreport, ← map_snd_labelledTextIndexes, ← List.map_take]
  exact textIndexFindings file model label name _

end

end Validation

/-- What is reported of the indexes of a model falls apart into what is reported of each of them, in
order and under its label: of a unique index with the unique ones before it, of a plain index with
all unique and the plain ones before it, and of a full-text index with the full-text ones before
it. -/
theorem indexViolations_report (file : SchemaFile) (model : Model) :
    (∀ i columns, model.uniqueIndexes[i]? = some columns →
      model.ColumnIndexFindings (model.uniqueIndexes.take i) columns
        (under s!"uniqueIndexes[{i}]" (indexViolations file model))) ∧
    (∀ i columns, model.plainIndexes[i]? = some columns →
      model.ColumnIndexFindings (model.uniqueIndexes ++ model.plainIndexes.take i) columns
        (under s!"plainIndexes[{i}]" (indexViolations file model))) ∧
    (∀ i name, model.textIndexes[i]? = some name →
      model.TextIndexFindings (model.textIndexes.take i) name
        (under s!"ginIndexes[{i}]" (indexViolations file model))) ∧
    indexViolations file model =
      (indexLabels model).flatMap fun label => under label (indexViolations file model) := by
  refine ⟨?_, ?_, ?_, ?_⟩
  · intro i columns hindex
    obtain ⟨hi, -⟩ := List.getElem?_eq_some_iff.mp hindex
    have hplace : (columnIndexes model)[i]? = some ⟨s!"uniqueIndexes[{i}]", columns⟩ := by
      rw [columnIndexes, List.getElem?_append_left (by simpa using hi)]
      simp [hindex]
    have hfound := under_columnIndex file model hplace
    rwa [List.take_append_of_le_length hi.le] at hfound
  · intro i columns hindex
    have hplace : (columnIndexes model)[model.uniqueIndexes.length + i]? =
        some ⟨s!"plainIndexes[{i}]", columns⟩ := by
      rw [columnIndexes, List.getElem?_append_right (by simp)]
      simp [hindex]
    have hfound := under_columnIndex file model hplace
    rwa [List.take_length_add_append] at hfound
  · intro i name hindex
    have hplace : (labelledTextIndexes model)[i]? = some (s!"ginIndexes[{i}]", name) := by
      simp [labelledTextIndexes, hindex]
    exact under_textIndex file model hplace
  · conv_lhs => rw [indexViolations_eq_flatMap]
    rw [← map_fst_indexReports file, List.flatMap_map]
    refine List.flatMap_congr fun r hr => ?_
    exact (under_indexReports file model hr).symm

/-- A model whose indexes have a fault of every kind. -/
def faultyIndexes : Model :=
  { Model.minimal "article" with
    plain := [{ name := "title", scalar := .string }, { name := "views", scalar := .int }]
    uniqueIndexes := [[], ["title", "Nope", "title", "nope", "Nope", "nope"]]
    plainIndexes := [["views"], ["title", "views"], ["views"]]
    textIndexes := ["title", "views", "id", "Nope", "nope", "title"] }

theorem indexViolations_report_faulty :
    let found := indexViolations ⟨"articles.prisma", "Articles", [faultyIndexes]⟩ faultyIndexes
    columnsOf .emptyIndex (under "uniqueIndexes[0]" found) = [none] ∧
    columnsOf .duplicateIndexField (under "uniqueIndexes[1]" found) =
      [some "title", some "Nope", some "nope"] ∧
    columnsOf .invalidIdentifier (under "uniqueIndexes[1]" found) = [some "Nope"] ∧
    columnsOf .unknownIndexField (under "uniqueIndexes[1]" found) = [some "nope"] ∧
    columnsOf .duplicateIndex (under "plainIndexes[1]" found) = [] ∧
    columnsOf .duplicateIndex (under "plainIndexes[2]" found) = [none] ∧
    columnsOf .invalidTextIndex (under "ginIndexes[1]" found) = [some "views"] ∧
    columnsOf .invalidTextIndex (under "ginIndexes[2]" found) = [some "id"] ∧
    columnsOf .duplicateIndex (under "ginIndexes[5]" found) = [some "title"] := by
  obtain ⟨hunique, hplain, htext, -⟩ :=
    indexViolations_report ⟨"articles.prisma", "Articles", [faultyIndexes]⟩ faultyIndexes
  have hempty := hunique 0 [] rfl
  have hfaulty := hunique 1 _ rfl
  refine ⟨?_, ?_, ?_, ?_, ?_, ?_, ?_, ?_, ?_⟩
  · exact hempty.empty.trans (by decide)
  · exact hfaulty.repeated.trans (by decide +kernel)
  · exact hfaulty.ill_formed.trans (by decide +kernel)
  · exact hfaulty.unknown.trans (by decide +kernel)
  · exact (hplain 1 _ rfl).covered.trans (by decide +kernel)
  · exact (hplain 2 _ rfl).covered.trans (by decide +kernel)
  · exact (htext 1 _ rfl).no_text.trans (by decide +kernel)
  · exact (htext 2 _ rfl).no_text.trans (by decide +kernel)
  · exact (htext 5 _ rfl).covered.trans (by decide +kernel)

end SchemaGate
