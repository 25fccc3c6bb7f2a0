import LogQuery.Proofs.Sql.Projection
import Mathlib.Data.List.Nodup

/-!
The names of result columns. A field is named after its segments with underscores
between them, and that name says less than the segments do: two fields may come to share
it, and a field may come to have the name of the timestamp column. Both take an
underscore in a segment or in the timestamp.
-/

namespace LogQuery

namespace FieldPath

def flatName (field : FieldPath) : String :=
  String.intercalate "_" field.segments

@[simp] theorem flatName_name (name : String) : (FieldPath.name name).flatName = name :=
  String.intercalate_singleton

theorem eq_of_segments {first second : FieldPath}
    (one : ∀ base, first ≠ .nested base []) (two : ∀ base, second ≠ .nested base [])
    (same : first.segments = second.segments) : first = second := by
  cases first with
  | name name =>
      cases second with
      | name other =>
          cases same
          rfl
      | nested base path =>
          cases same
          exact absurd rfl (two _)
  | nested base path =>
      cases second with
      | name name =>
          cases same
          exact absurd rfl (one _)
      | nested other path' =>
          cases same
          rfl

theorem splitOn_flatName {field : FieldPath}
    (clear : ∀ segment ∈ field.segments, '_' ∉ segment.toList) :
    field.flatName.toList.splitOn '_' = field.segments.map String.toList := by
  rw [flatName, String.toList_intercalate]
  apply List.splitOn_intercalate
  · intro characters member
    rcases List.mem_map.mp member with ⟨segment, source, rfl⟩
    exact clear segment source
  · exact List.cons_ne_nil _ _

theorem underscore_of_flatName_eq {first second : FieldPath}
    (one : ∀ base, first ≠ .nested base []) (two : ∀ base, second ≠ .nested base [])
    (different : first ≠ second) (same : first.flatName = second.flatName) :
    ∃ segment ∈ first.segments ++ second.segments, '_' ∈ segment.toList := by
  by_contra none
  push Not at none
  rw [List.forall_mem_append] at none
  have parts := splitOn_flatName none.1
  rw [same, splitOn_flatName none.2] at parts
  have segments := List.map_injective_iff.mpr (fun _ _ => String.toList_inj.mp) parts
  exact different (eq_of_segments one two segments.symm)

def ToldApart (fields : List FieldPath) : Prop :=
  ∀ first ∈ fields, ∀ second ∈ fields, first.flatName = second.flatName → first = second

end FieldPath

namespace Sql

/-! ## Names of entries -/

def Access.columnName : Access → String
  | column name => name
  | mapValue base _ => base
  | jsonValue base _ => base

/-- The name of an entry in the result: its label, or else that of its column. -/
def Entry.outputName (entry : Entry) : String :=
  entry.label.getD entry.access.columnName

/-- A name that the schema does not have as a column and looks up in a map. -/
def LooksUp (schema : Option Schema) (name : String) : Prop :=
  ∃ table, schema = some table ∧ (∀ column ∈ table.columns, column.name ≠ name) ∧
    ∃ column ∈ table.columns, column.kind = .map

namespace Entry.Shows

variable {schema : Option Schema} {entry : Entry} {field : FieldPath}

theorem outputName (shows : entry.Shows schema field) :
    entry.outputName = field.flatName := by
  cases shows with
  | @column name direct => exact (FieldPath.flatName_name name).symm
  | @lookedUp name map before after given missing isMap first =>
      exact (FieldPath.flatName_name name).symm
  | nested reaches => rfl

theorem label_eq_some_iff (shows : entry.Shows schema field) (name : String) :
    entry.label = some name ↔
      field.flatName = name ∧ (field ≠ .name name ∨ LooksUp schema name) := by
  have named := shows.outputName
  cases shows with
  | @column other direct =>
      have unlabelled : ¬ LooksUp schema other := by
        rintro ⟨table, given, missing, column, member, isMap⟩
        rcases direct table given with ⟨present, found, same⟩ | noMap
        · exact missing present found same
        · exact noMap column member isMap
      rw [← named]
      constructor
      · intro same
        cases same
      · rintro ⟨rfl, different | lookedUp⟩
        · exact absurd rfl different
        · exact absurd lookedUp unlabelled
  | @lookedUp key map before after given missing isMap first =>
      have lookedUp : LooksUp schema key :=
        ⟨_, given, missing, map, List.mem_append_right before List.mem_cons_self, isMap⟩
      rw [← named]
      constructor
      · rintro ⟨⟩
        exact ⟨rfl, .inr lookedUp⟩
      · rintro ⟨rfl, -⟩
        rfl
  | nested reaches =>
      rw [← named]
      constructor
      · rintro ⟨⟩
        exact ⟨rfl, .inl (by simp)⟩
      · rintro ⟨rfl, -⟩
        rfl

end Entry.Shows

/-! ## Names of projections -/

theorem outputNames_ofField (schema : Option Schema) {fields : List FieldPath}
    (hasPath : ∀ field ∈ fields, ∀ base, field ≠ .nested base []) :
    (fields.map (Entry.ofField schema)).map Entry.outputName =
      fields.map FieldPath.flatName := by
  rw [List.map_map]
  apply List.map_congr_left
  intro field member
  exact (Entry.shows_ofField schema (hasPath field member)).outputName

theorem Leads.nodup_iff {timestamp : String} {fields : List FieldPath}
    {lead : List Entry} (leads : Leads (some timestamp) fields lead)
    (nonempty : timestamp ≠ "") (distinct : fields.Nodup) :
    (lead.map Entry.outputName ++ fields.map FieldPath.flatName).Nodup ↔
      FieldPath.ToldApart (.name timestamp :: fields) := by
  cases leads with
  | column given nonempty missing =>
      cases given
      have whole : (FieldPath.name timestamp :: fields).Nodup :=
        List.nodup_cons.mpr ⟨missing, distinct⟩
      have names : List.map Entry.outputName [⟨.column timestamp, none⟩] ++
          fields.map FieldPath.flatName =
            (FieldPath.name timestamp :: fields).map FieldPath.flatName := by
        simp [Entry.outputName, Access.columnName]
      rw [names]
      exact List.nodup_map_iff_inj_on whole
  | nothing covered =>
      have member := covered timestamp rfl nonempty
      have same (field : FieldPath) :
          field ∈ .name timestamp :: fields ↔ field ∈ fields := by
        rw [List.mem_cons, or_iff_right_of_imp]
        rintro rfl
        exact member
      simp only [FieldPath.ToldApart, same]
      exact List.nodup_map_iff_inj_on distinct

theorem Leads.label_eq_none {timestamp : Option String} {fields : List FieldPath}
    {lead : List Entry} (leads : Leads timestamp fields lead) {entry : Entry}
    (member : entry ∈ lead) : entry.label = none := by
  cases leads with
  | column given nonempty missing =>
      rw [List.mem_singleton.mp member]
  | nothing covered => cases member

/-- The names of a projection differ exactly if no two of its fields, and none of them
and the timestamp, are the same once their segments are joined with underscores, which
takes an underscore in one of the segments. A label is the timestamp exactly if such a
field is nested, or if the timestamp itself is a field that is looked up in a map. -/
theorem projection_names_told_apart_iff (schema : Option Schema)
    {fields : List FieldPath} {timestamp : String} (nonempty : timestamp ≠ "")
    (distinct : fields.Nodup)
    (hasPath : ∀ field ∈ fields, ∀ base, field ≠ .nested base []) :
    ∃ entries : List Entry,
      ((renderProjection? schema fields (some timestamp)).elim [] cells).map readCell? =
        entries.map some ∧
      ((entries.map Entry.outputName).Nodup ↔
        FieldPath.ToldApart (.name timestamp :: fields)) ∧
      (∀ first ∈ .name timestamp :: fields, ∀ second ∈ .name timestamp :: fields,
        first ≠ second →
        first.flatName = second.flatName →
          ∃ segment ∈ first.segments ++ second.segments, '_' ∈ segment.toList) ∧
      ((∃ entry ∈ entries, entry.label = some timestamp) ↔
        ∃ field ∈ fields, field.flatName = timestamp ∧
          (field ≠ .name timestamp ∨ LooksUp schema timestamp)) := by
  have allPaths :
      ∀ field ∈ .name timestamp :: fields, ∀ base, field ≠ .nested base [] := by
    rw [List.forall_mem_cons]
    exact ⟨by simp, hasPath⟩
  have underscores :
      ∀ first ∈ .name timestamp :: fields, ∀ second ∈ .name timestamp :: fields,
      first ≠ second → first.flatName = second.flatName →
        ∃ segment ∈ first.segments ++ second.segments, '_' ∈ segment.toList := by
    intro first one second two
    exact FieldPath.underscore_of_flatName_eq (allPaths first one) (allPaths second two)
  by_cases noFields : fields = []
  · subst noFields
    exact ⟨[], rfl, by simp [FieldPath.ToldApart], underscores, by simp⟩
  · rcases renderProjection?_reads_back schema noFields hasPath (some timestamp) with
      ⟨text, rendered, read⟩
    have leads := leads_timestampEntries fields (some timestamp)
    refine ⟨_, by rw [rendered]; exact read, ?_, underscores, ?_⟩
    · rw [List.map_append, outputNames_ofField schema hasPath]
      exact leads.nodup_iff nonempty distinct
    · have shows (field : FieldPath) (member : field ∈ fields) :=
        (Entry.shows_ofField schema (hasPath field member)).label_eq_some_iff timestamp
      constructor
      · rintro ⟨entry, member, labelled⟩
        rcases List.mem_append.mp member with inLead | ofField
        · rw [leads.label_eq_none inLead] at labelled
          cases labelled
        · rcases List.mem_map.mp ofField with ⟨field, source, rfl⟩
          exact ⟨field, source, (shows field source).mp labelled⟩
      · rintro ⟨field, source, clash⟩
        exact ⟨_, List.mem_append_right _ (List.mem_map_of_mem source),
          (shows field source).mpr clash⟩

def scoredFields : List FieldPath :=
  [.name "a_b", .nested "a" ["b", "c"], .nested "a_b" ["d_"], .name "t"]

theorem projection_names_told_apart_iff_scored :
    "t" ≠ "" ∧ scoredFields.Nodup ∧
      (∀ field ∈ scoredFields, ∀ base, field ≠ .nested base []) ∧
      ∃ entries : List Entry,
        ((renderProjection? none scoredFields (some "t")).elim [] cells).map readCell? =
          entries.map some ∧
        (entries.map Entry.outputName).Nodup ∧
        ¬ ∃ entry ∈ entries, entry.label = some "t" := by
  have distinct : scoredFields.Nodup := by decide
  have hasPath : ∀ field ∈ scoredFields, ∀ base, field ≠ .nested base [] := by
    simp [scoredFields]
  have toldApart : FieldPath.ToldApart (.name "t" :: scoredFields) := by
    unfold FieldPath.ToldApart
    decide +kernel
  have direct : ¬ LooksUp none "t" := by
    rintro ⟨table, given, -⟩
    cases given
  rcases projection_names_told_apart_iff none (by decide : "t" ≠ "") distinct
    hasPath with ⟨entries, read, names, -, labels⟩
  refine ⟨by decide, distinct, hasPath, entries, read, names.mpr toldApart, ?_⟩
  rw [labels]
  rintro ⟨field, member, same, different | lookedUp⟩
  · have first : FieldPath.name "t" ∈ .name "t" :: scoredFields := List.mem_cons_self
    exact different (toldApart field (List.mem_cons_of_mem _ member) _ first
      (same.trans (FieldPath.flatName_name "t").symm))
  · exact direct lookedUp

def clashingFields : List FieldPath :=
  [.name "a_b", .nested "a" ["b"]]

/-- Two fields share a name, and a nested field takes that of the timestamp. -/
theorem projection_names_clash :
    clashingFields.Nodup ∧ (∀ field ∈ clashingFields, ∀ base, field ≠ .nested base []) ∧
      "ts" ≠ "" ∧
      (∃ text, renderProjection? none clashingFields (some "ts") = some text ∧
        ((cells text).filterMap readCell?).map Entry.outputName = ["ts", "a_b", "a_b"] ∧
        ¬ ["ts", "a_b", "a_b"].Nodup) ∧
      ∃ text, renderProjection? none [.nested "a" ["b"]] (some "a_b") = some text ∧
        ((cells text).filterMap readCell?).map Entry.label = [none, some "a_b"] := by
  refine ⟨by decide, by simp [clashingFields], by decide, ⟨_, rfl, ?_, by decide⟩,
    ⟨_, rfl, ?_⟩⟩
  · decide +kernel
  · decide +kernel

end Sql

end LogQuery
