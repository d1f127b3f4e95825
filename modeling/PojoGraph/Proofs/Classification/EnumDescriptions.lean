import Mathlib.Data.List.Nodup
import PojoGraph.Proofs.Classification.Sites
import PojoGraph.Proofs.Lists.Repetitions
import PojoGraph.Proofs.Text.Lines

/-!
# Descriptions of enum values

The description of an enum may describe its values, each in a line of the form marker, value,
colon, text. A line is cut at its first colon, so it names a value by what stands before that. A
value that contains no colon gets the text of its line. A value that contains one is named by no
line: what its line says goes to the value that the part before its colon is, if that is one.

## Main definitions

* `EnumValue.namings` — the values that the lines of a text name, with their descriptions.
* `EnumValue.row` — the line that is to describe a value.
* `DescribesValues` — a text that consists of such lines.
* `enumOutcome` — what an enum with some values described is classified as.

## Main statements

* `EnumValue.describeAll_eq` — a value has the description of the last line that names it.
* `EnumValue.ofLine?_row` — the line of a value without a colon names the value.
* `enum_descriptions_attached_iff` — when all lines reach their values.
-/

namespace PojoGraph

namespace EnumValue

variable {marker text : String} {values : List String}

/-! ## Lines -/

/-- The values that the lines of a text name, each with its description. -/
def namings (marker text : String) : List (String × String) :=
  (Text.lines text.toList).filterMap (ofLine? marker)

/-- What a line says does not depend on the blanks around it. -/
theorem ofLine?_congr {line line' : List Char} (h : Text.trim line = Text.trim line') :
    ofLine? marker line = ofLine? marker line' := by
  rw [ofLine?, ofLine?, h]

theorem filterMap_ofLine?_congr {lines lines' : List (List Char)}
    (h : lines.map Text.trim = lines'.map Text.trim) :
    lines.filterMap (ofLine? marker) = lines'.filterMap (ofLine? marker) := by
  induction lines generalizing lines' with
  | nil => rw [List.map_eq_nil_iff.mp h.symm]
  | cons line rest ih =>
    cases lines' with
    | nil => cases h
    | cons line' rest' =>
      rw [List.map_cons, List.map_cons, List.cons.injEq] at h
      rw [List.filterMap_cons, List.filterMap_cons, ofLine?_congr h.1, ih h.2]

/-- No line names a value with a colon. -/
theorem colon_not_mem_of_ofLine? {line : List Char} {value description : String}
    (h : ofLine? marker line = some (value, description)) : ':' ∉ value.toList := by
  obtain ⟨rest, -, h⟩ := Option.bind_eq_some_iff.mp h
  obtain ⟨⟨before, after⟩, hcut, h⟩ := Option.bind_eq_some_iff.mp h
  obtain ⟨rfl, -⟩ := Prod.mk.inj (Option.some.inj h)
  intro hcolon
  rw [String.toList_ofList] at hcolon
  exact (Text.splitOnce_eq_some_iff.mp hcut).2
    (Text.mem_of_mem_trimWhile (Text.mem_of_mem_trimWhile hcolon))

theorem lookup?_namings_of_colon {value : String} (h : ':' ∈ value.toList) :
    Dictionary.lookup? (namings marker text).reverse value = none := by
  rw [Dictionary.lookup?_eq_none_iff]
  intro hmem
  obtain ⟨⟨named, description⟩, hnaming, rfl⟩ := List.mem_map.mp hmem
  obtain ⟨line, -, hline⟩ := List.mem_filterMap.mp (List.mem_reverse.mp hnaming)
  exact colon_not_mem_of_ofLine? hline h

/-! ## Described values -/

theorem describe_map (hvalues : values.Nodup) (described : String → Option String)
    (value description : String) :
    describe value description (values.map fun v => ⟨v, described v⟩)
      = values.map fun v => ⟨v, if v = value then some description else described v⟩ := by
  induction values with
  | nil => rfl
  | cons v rest ih =>
    rw [List.nodup_cons] at hvalues
    by_cases hv : v = value
    · have hrest : ∀ w ∈ rest, w ≠ value := fun w hw => ne_of_mem_of_not_mem hw (hv ▸ hvalues.1)
      simp only [List.map_cons, describe, if_pos hv]
      congr 1
      refine List.map_congr_left fun w hw => ?_
      rw [if_neg (hrest w hw)]
    · simp only [List.map_cons, describe, if_neg hv, ih hvalues.2]

/-- **A value has the description of the last line that names it.** -/
theorem describeAll_eq (marker text : String) (hvalues : values.Nodup) :
    describeAll marker text (values.map ({ value := · }))
      = values.map fun value => ⟨value,
          Dictionary.lookup? (namings marker text).reverse value⟩ := by
  change (namings marker text).foldl _ _ = _
  induction namings marker text using List.reverseRecOn with
  | nil => rfl
  | append_singleton earlier naming ih =>
    obtain ⟨named, description⟩ := naming
    rw [List.foldl_append, ih, List.foldl_cons, List.foldl_nil]
    dsimp only
    rw [describe_map hvalues, List.reverse_append, List.reverse_singleton]
    refine List.map_congr_left fun value _ => ?_
    by_cases hvalue : value = named
    · simp [Dictionary.lookup?, hvalue]
    · have hne : (value == named) = false := by simpa using hvalue
      simp [Dictionary.lookup?, List.lookup_cons, hvalue, hne]

/-- If any value is described, the others are reported. -/
theorem mem_undescribed_iff {described : List EnumValue} {value : String} :
    value ∈ undescribed described
      ↔ (∃ v ∈ described, v.description.isSome) ∧ ⟨value, none⟩ ∈ described := by
  rw [undescribed]
  split
  · rename_i hall
    simp only [List.not_mem_nil, false_iff, not_and]
    rintro ⟨v, hv, hsome⟩
    simp [Option.isNone_iff_eq_none.mp (List.all_eq_true.mp hall v hv)] at hsome
  · rename_i hsome
    have hany : ∃ v ∈ described, v.description.isSome := by
      simpa [Option.isSome_iff_ne_none] using hsome
    simp only [List.mem_map, List.mem_filter, Option.isNone_iff_eq_none, hany, true_and]
    constructor
    · rintro ⟨⟨value', description⟩, ⟨hmem, rfl⟩, rfl⟩
      exact hmem
    · intro hmem
      exact ⟨_, ⟨hmem, rfl⟩, rfl⟩

/-! ## Rows -/

/-- The line that is to give a value a description. -/
def row (marker : String) (entry : String × String) : List Char :=
  marker.toList ++ (entry.1.toList ++ ':' :: ' ' :: entry.2.toList)

/-- A row begins with no blank. -/
theorem head?_row {value description : String}
    (hmarker : ∀ c ∈ marker.toList.head?, Text.isBlank c = false)
    (hvalue : Text.IsTrimmed value.toList) :
    ∀ c ∈ (row marker (value, description)).head?, Text.isBlank c = false := by
  intro c hc
  rw [row, List.head?_append, List.head?_append] at hc
  cases hm : marker.toList.head? with
  | some m => exact hmarker c (by simpa [hm] using hc)
  | none =>
    cases hv : value.toList.head? with
    | some v => exact hvalue.head c (by simpa [hm, hv] using hc)
    | none =>
      obtain rfl : ':' = c := by simpa [hm, hv] using hc
      exact Text.isBlank_colon

/-- **The row of a value without a colon names the value**, and describes it by its text. -/
theorem ofLine?_row {value description : String}
    (hmarker : ∀ c ∈ marker.toList.head?, Text.isBlank c = false)
    (hvalue : Text.IsTrimmed value.toList) (htick : '\x60' ∉ value.toList)
    (hcolon : ':' ∉ value.toList) :
    ofLine? marker (row marker (value, description))
      = some (value, String.ofList (Text.trim description.toList)) := by
  -- Only the end of the row can be trimmed: it begins with no blank, and the colon is none.
  have htrim : Text.trim (row marker (value, description))
      = marker.toList
        ++ (value.toList ++ ':' :: Text.dropWhileEnd Text.isBlank (' ' :: description.toList)) := by
    rw [Text.trim, Text.trimWhile, Text.dropWhile_eq_self (head?_row hmarker hvalue), row,
      ← List.append_assoc, Text.dropWhileEnd_append_cons Text.isBlank_colon, List.append_assoc]
  have hticks : Text.trimWhile (· == '\x60') value.toList = value.toList := by
    refine Text.trimWhile_eq_self (fun c hc => ?_) fun c hc => ?_
    · exact beq_eq_false_iff_ne.mpr (ne_of_mem_of_not_mem (List.mem_of_head? hc) htick)
    · exact beq_eq_false_iff_ne.mpr (ne_of_mem_of_not_mem (List.mem_of_getLast? hc) htick)
  rw [ofLine?, htrim, Text.stripLead_append]
  simp only [Option.bind_eq_bind, Option.bind_some, Text.splitOnce_append hcolon, hvalue.trim_eq,
    hticks, Text.trim_dropWhileEnd, Text.trim_blank_cons Text.isBlank_space, String.ofList_toList]

end EnumValue

/-! ## Described enums -/

theorem Dictionary.lookup?_reverse_map {entries : Dictionary String} (h : entries.keys.Nodup)
    (f : String → String) (key : String) :
    Dictionary.lookup? (entries.map fun entry => (entry.1, f entry.2)).reverse key
      = (entries.lookup? key).map f := by
  have hkeys : (Dictionary.keys (entries.map fun entry => (entry.1, f entry.2)).reverse).Nodup := by
    rw [Dictionary.keys, List.map_reverse, List.map_map, List.nodup_reverse]
    exact h
  ext value
  rw [Dictionary.lookup?_eq_some_iff hkeys, Option.map_eq_some_iff, List.mem_reverse,
    List.mem_map]
  constructor
  · rintro ⟨⟨key', value'⟩, hentry, hpair⟩
    obtain ⟨rfl, rfl⟩ := Prod.mk.inj hpair
    exact ⟨value', (Dictionary.lookup?_eq_some_iff h).mpr hentry, rfl⟩
  · rintro ⟨value', hlookup, rfl⟩
    exact ⟨(key, value'), (Dictionary.lookup?_eq_some_iff h).mp hlookup, rfl⟩

/-- The text describes some of the values, each in a line of its own. Neither the marker nor the
values contain what a line is recognized by, apart from the colon. -/
structure DescribesValues (marker : String) (values : List String) (entries : Dictionary String)
    (text : String) : Prop where
  marker_feed : '\n' ∉ marker.toList
  marker_head : ∀ c ∈ marker.toList.head?, Text.isBlank c = false
  values_nodup : values.Nodup
  values_trimmed : ∀ value ∈ values, Text.IsTrimmed value.toList
  values_feed : ∀ value ∈ values, '\n' ∉ value.toList
  values_tick : ∀ value ∈ values, '\x60' ∉ value.toList
  entries_ne_nil : entries ≠ []
  entries_nodup : entries.keys.Nodup
  entries_subset : ∀ entry ∈ entries, entry.1 ∈ values
  entries_feed : ∀ entry ∈ entries, '\n' ∉ entry.2.toList
  lines : Text.HasLines (entries.map (EnumValue.row marker)) text.toList

/-- The values, those with an entry described by its text. -/
def EnumValue.describedBy (entries : Dictionary String) (values : List String) :
    List EnumValue :=
  values.map fun value =>
    ⟨value, (entries.lookup? value).map fun text => String.ofList (Text.trim text.toList)⟩

/-- The values without an entry. -/
def EnumValue.unnamed (entries : Dictionary String) (values : List String) : List String :=
  values.filter (· ∉ entries.keys)

/-- What an enum is classified as if the values in `missing` are found to lack a description. -/
def enumOutcome (rule : EnumDescriptionSettings) (owner : PojoName) (description : Option String)
    (described : List EnumValue) (missing : List String) (registry : Registry) :
    Except Fault (Classified × Survey) :=
  if missing = [] then .ok (.pojo (.enum owner description described), { registry })
  else if rule.failOnIncomplete then .error (.incompleteEnum owner missing)
  else .ok (.pojo (.enum owner description described),
    { registry, warnings := [.incompleteEnum owner missing] })

section

variable {settings : Settings} {rule : EnumDescriptionSettings} {owner : PojoName}
  {registry : Registry} {k : Keywords Schema} {values : List String} {text : String}
  {entries : Dictionary String}

/-- Equal outcomes report the same values, and have the same descriptions if nothing is
reported. -/
theorem eq_of_enumOutcome_eq {description : Option String} {described described' : List EnumValue}
    {missing missing' : List String}
    (h : enumOutcome rule owner description described missing registry
      = enumOutcome rule owner description described' missing' registry) :
    missing = missing' ∧ (missing = [] → described = described') := by
  rw [enumOutcome, enumOutcome] at h
  split_ifs at h <;> cases h <;> simp_all

/-- An enum with a description is classified by what the description says of its values. -/
theorem classify_enum (hsimple : k.IsSimple) (hvalues : k.enumNames? = some values)
    (hnodup : values.Nodup) (hrule : settings.enumDescription = some rule)
    (htext : k.description = some text) :
    classify settings ⟨owner, .inline k⟩ registry
      = enumOutcome rule owner k.description
          (EnumValue.describeAll rule.marker text (values.map ({ value := · })))
          (EnumValue.undescribed
            (EnumValue.describeAll rule.marker text (values.map ({ value := · })))) registry := by
  have hnames : (if k.admitsType .string then k.stringEnum? else none) = some values := hvalues
  simp only [classify, classifyInline, hsimple.isArrayShaped, hsimple.isNullReference,
    hsimple.hasComposition, hsimple.isObjectShaped, hnames, enumOf, hrule, htext,
    EnumValue.ofValues, eraseDups_of_nodup hnodup, enumOutcome, List.isEmpty_iff,
    Bool.false_eq_true, if_false]
  split_ifs <;> rfl

end

namespace DescribesValues

variable {marker text : String} {values : List String} {entries : Dictionary String}

theorem mem_values (h : DescribesValues marker values entries text) {value : String}
    (hvalue : value ∈ entries.keys) : value ∈ values := by
  obtain ⟨entry, hentry, rfl⟩ := List.mem_map.mp hvalue
  exact h.entries_subset entry hentry

/-- The lines of the text say what its rows say. -/
theorem namings_eq_filterMap (h : DescribesValues marker values entries text) :
    EnumValue.namings marker text
      = (entries.map (EnumValue.row marker)).filterMap (EnumValue.ofLine? marker) := by
  refine EnumValue.filterMap_ofLine?_congr (h.lines.map_trim_lines fun row hrow => ?_)
  obtain ⟨entry, hentry, rfl⟩ := List.mem_map.mp hrow
  have hvalue := h.values_feed entry.1 (h.entries_subset entry hentry)
  simp [EnumValue.row, h.marker_feed, hvalue, h.entries_feed entry hentry]

/-- Without colons in the values, the lines name the values of the entries. -/
theorem namings_eq (h : DescribesValues marker values entries text)
    (hcolon : ∀ entry ∈ entries, ':' ∉ entry.1.toList) :
    EnumValue.namings marker text
      = entries.map fun entry => (entry.1, String.ofList (Text.trim entry.2.toList)) := by
  rw [h.namings_eq_filterMap, List.filterMap_map, ← List.filterMap_eq_map]
  refine List.filterMap_congr fun entry hentry => ?_
  have hvalue := h.entries_subset entry hentry
  exact EnumValue.ofLine?_row h.marker_head (h.values_trimmed _ hvalue) (h.values_tick _ hvalue)
    (hcolon entry hentry)

theorem describeAll_eq_describedBy (h : DescribesValues marker values entries text)
    (hcolon : ∀ entry ∈ entries, ':' ∉ entry.1.toList) :
    EnumValue.describeAll marker text (values.map ({ value := · }))
      = EnumValue.describedBy entries values := by
  rw [EnumValue.describeAll_eq marker text h.values_nodup, h.namings_eq hcolon]
  refine List.map_congr_left fun value _ => ?_
  rw [Dictionary.lookup?_reverse_map h.entries_nodup fun text =>
    String.ofList (Text.trim text.toList)]

/-- Some value has an entry, so the others are reported. -/
theorem undescribed_describedBy (h : DescribesValues marker values entries text) :
    EnumValue.undescribed (EnumValue.describedBy entries values)
      = EnumValue.unnamed entries values := by
  obtain ⟨entry, hentry⟩ := List.exists_mem_of_ne_nil entries h.entries_ne_nil
  have hkey : entry.1 ∈ entries.keys := List.mem_map_of_mem hentry
  have hsome : ¬ (EnumValue.describedBy entries values).all (·.description.isNone) = true := by
    intro hall
    have hnone := List.all_eq_true.mp hall _ (List.mem_map_of_mem (h.mem_values hkey))
    rw [Option.isNone_iff_eq_none, Option.map_eq_none_iff,
      Dictionary.lookup?_eq_none_iff] at hnone
    exact hnone hkey
  rw [EnumValue.undescribed, if_neg hsome, EnumValue.describedBy, EnumValue.unnamed,
    List.filter_map, List.map_map]
  have hvalue : (fun v : EnumValue => v.value) ∘ (fun value => EnumValue.mk value
      ((entries.lookup? value).map fun text => String.ofList (Text.trim text.toList))) = id := rfl
  rw [hvalue, List.map_id]
  refine List.filter_congr fun value _ => ?_
  rw [Bool.eq_iff_iff]
  simp [Option.isNone_iff_eq_none, Dictionary.lookup?_eq_none_iff]

end DescribesValues

/-- **When descriptions reach their values.** For an enum whose description consists of lines that
each describe one of its values, each value described has its own text, trimmed, no other value
has any, and the others are reported in order — if and only if no value described contains a
colon. -/
theorem enum_descriptions_attached_iff (settings : Settings) (owner : PojoName)
    (registry : Registry) {rule : EnumDescriptionSettings} {k : Keywords Schema}
    {values : List String} {entries : Dictionary String} {text : String} (hsimple : k.IsSimple)
    (hvalues : k.enumNames? = some values) (hrule : settings.enumDescription = some rule)
    (htext : k.description = some text)
    (hentries : DescribesValues rule.marker values entries text) :
    classify settings ⟨owner, .inline k⟩ registry
        = enumOutcome rule owner k.description (EnumValue.describedBy entries values)
            (EnumValue.unnamed entries values) registry
      ↔ ∀ entry ∈ entries, ':' ∉ entry.1.toList := by
  rw [classify_enum hsimple hvalues hentries.values_nodup hrule htext]
  constructor
  · intro houtcome entry hentry hcolon
    obtain ⟨hmissing, hdescribed⟩ := eq_of_enumOutcome_eq houtcome
    have hkey : entry.1 ∈ entries.keys := List.mem_map_of_mem hentry
    have hnone : ⟨entry.1, none⟩ ∈ EnumValue.describeAll rule.marker text
        (values.map ({ value := · })) := by
      rw [EnumValue.describeAll_eq _ _ hentries.values_nodup,
        ← EnumValue.lookup?_namings_of_colon hcolon]
      exact List.mem_map_of_mem (f := fun value => EnumValue.mk value
        (Dictionary.lookup? (EnumValue.namings rule.marker text).reverse value))
        (hentries.mem_values hkey)
    -- The value is not reported, so nothing is, and then it must have its text.
    have hnot : entry.1 ∉ EnumValue.unnamed entries values := by
      simp [EnumValue.unnamed, hkey]
    rw [← hmissing, EnumValue.mem_undescribed_iff, not_and] at hnot
    have hnil : EnumValue.undescribed (EnumValue.describeAll rule.marker text
        (values.map ({ value := · }))) = [] := by
      refine List.eq_nil_iff_forall_not_mem.mpr fun value hvalue => ?_
      exact hnot (EnumValue.mem_undescribed_iff.mp hvalue).1 hnone
    rw [hdescribed hnil] at hnone
    obtain ⟨value, -, hvalue⟩ := List.mem_map.mp hnone
    obtain ⟨rfl, hlookup⟩ := EnumValue.mk.inj hvalue
    rw [Option.map_eq_none_iff, Dictionary.lookup?_eq_none_iff] at hlookup
    exact hlookup hkey
  · intro hcolon
    rw [hentries.describeAll_eq_describedBy hcolon, hentries.undescribed_describedBy]

/-! ## Lines that begin with a dash -/

/-- An enum of strings. -/
def stringEnumOf (description : String) (values : List String) : Keywords Schema where
  types := some (.single .string)
  description := some description
  enumValues := values.map .string

/-- Lines that begin with a dash. -/
def dashSettings : Settings where
  enumDescription := some { marker := "- " }

/-- What is left to be seen if the lines begin with a dash. -/
theorem describesValues_dash {values : List String} {entries : Dictionary String} {text : String}
    (hnodup : values.Nodup) (hvalues : ∀ value ∈ values, Text.IsTrimmed value.toList
      ∧ '\n' ∉ value.toList ∧ '\x60' ∉ value.toList)
    (hnonempty : entries ≠ []) (hkeys : entries.keys.Nodup)
    (hentries : ∀ entry ∈ entries, entry.1 ∈ values ∧ '\n' ∉ entry.2.toList)
    (hlines : Text.HasLines (entries.map (EnumValue.row "- ")) text.toList) :
    DescribesValues "- " values entries text where
  marker_feed := by decide
  marker_head := fun c hc => Option.some.inj hc ▸ Text.isBlank_dash
  values_nodup := hnodup
  values_trimmed := fun value hvalue => (hvalues value hvalue).1
  values_feed := fun value hvalue => (hvalues value hvalue).2.1
  values_tick := fun value hvalue => (hvalues value hvalue).2.2
  entries_ne_nil := hnonempty
  entries_nodup := hkeys
  entries_subset := fun entry hentry => (hentries entry hentry).1
  entries_feed := fun entry hentry => (hentries entry hentry).2
  lines := hlines

/-- A light is described but for one value, and that is reported. -/
theorem enum_descriptions_attached_light :
    (stringEnumOf "- on: Full light\n- off: No light" ["on", "off", "dim"]).IsSimple
      ∧ DescribesValues "- " ["on", "off", "dim"] [("on", "Full light"), ("off", "No light")]
          "- on: Full light\n- off: No light"
      ∧ classify dashSettings ⟨⟨"Light", ""⟩,
            .inline (stringEnumOf "- on: Full light\n- off: No light" ["on", "off", "dim"])⟩ {}
          = .ok (.pojo (.enum ⟨"Light", ""⟩ (some "- on: Full light\n- off: No light")
              [⟨"on", some "Full light"⟩, ⟨"off", some "No light"⟩, ⟨"dim", none⟩]),
            { registry := {}, warnings := [.incompleteEnum ⟨"Light", ""⟩ ["dim"]] }) := by
  have hsimple : (stringEnumOf "- on: Full light\n- off: No light" ["on", "off", "dim"]).IsSimple :=
    ⟨rfl, rfl, rfl, rfl⟩
  have htext : "- on: Full light\n- off: No light".toList
      = EnumValue.row "- " ("on", "Full light") ++ '\n' :: EnumValue.row "- " ("off", "No light") :=
    by decide
  have hentries : DescribesValues "- " ["on", "off", "dim"]
      [("on", "Full light"), ("off", "No light")] "- on: Full light\n- off: No light" := by
    refine describesValues_dash (by decide) (by decide +kernel) (by decide) (by decide) (by decide) ?_
    rw [htext]
    exact .feed (.last (by decide))
  refine ⟨hsimple, hentries, ?_⟩
  have hdescribed : EnumValue.describedBy [("on", "Full light"), ("off", "No light")]
      ["on", "off", "dim"]
        = [⟨"on", some "Full light"⟩, ⟨"off", some "No light"⟩, ⟨"dim", none⟩] := by
    decide +kernel
  have hvalues : (stringEnumOf "- on: Full light\n- off: No light" ["on", "off", "dim"]).enumNames?
      = some ["on", "off", "dim"] := rfl
  have houtcome := (enum_descriptions_attached_iff dashSettings ⟨"Light", ""⟩ {} hsimple hvalues
    rfl rfl hentries).mpr (by decide)
  rw [hdescribed] at houtcome
  exact houtcome

/-- **A description that misses its value**: the line that describes `urn:isbn` describes `urn`
instead, and `urn:isbn` is reported. -/
theorem urn_takes_description_of_isbn :
    (stringEnumOf "- urn:isbn: A book number" ["urn", "urn:isbn"]).IsSimple
      ∧ DescribesValues "- " ["urn", "urn:isbn"] [("urn:isbn", "A book number")]
          "- urn:isbn: A book number"
      ∧ classify dashSettings ⟨⟨"Name", ""⟩,
            .inline (stringEnumOf "- urn:isbn: A book number" ["urn", "urn:isbn"])⟩ {}
          = .ok (.pojo (.enum ⟨"Name", ""⟩ (some "- urn:isbn: A book number")
              [⟨"urn", some "isbn: A book number"⟩, ⟨"urn:isbn", none⟩]),
            { registry := {}, warnings := [.incompleteEnum ⟨"Name", ""⟩ ["urn:isbn"]] })
      ∧ enumOutcome { marker := "- " } ⟨"Name", ""⟩ (some "- urn:isbn: A book number")
            (EnumValue.describedBy [("urn:isbn", "A book number")] ["urn", "urn:isbn"])
            (EnumValue.unnamed [("urn:isbn", "A book number")] ["urn", "urn:isbn"]) {}
          = .ok (.pojo (.enum ⟨"Name", ""⟩ (some "- urn:isbn: A book number")
              [⟨"urn", none⟩, ⟨"urn:isbn", some "A book number"⟩]),
            { registry := {}, warnings := [.incompleteEnum ⟨"Name", ""⟩ ["urn"]] }) := by
  have hsimple : (stringEnumOf "- urn:isbn: A book number" ["urn", "urn:isbn"]).IsSimple :=
    ⟨rfl, rfl, rfl, rfl⟩
  have htext : "- urn:isbn: A book number".toList
      = EnumValue.row "- " ("urn:isbn", "A book number") := by decide
  refine ⟨hsimple, ?_, ?_, ?_⟩
  · refine describesValues_dash (by decide) (by decide +kernel) (by decide) (by decide) (by decide) ?_
    rw [htext]
    exact .last (by decide)
  · have hdescribed : EnumValue.describeAll "- " "- urn:isbn: A book number"
        (["urn", "urn:isbn"].map ({ value := · }))
          = [⟨"urn", some "isbn: A book number"⟩, ⟨"urn:isbn", none⟩] := by decide +kernel
    have hvalues : (stringEnumOf "- urn:isbn: A book number" ["urn", "urn:isbn"]).enumNames?
        = some ["urn", "urn:isbn"] := rfl
    rw [classify_enum hsimple hvalues (by decide) rfl rfl]
    dsimp only
    rw [hdescribed]
    rfl
  · have hdescribed : EnumValue.describedBy [("urn:isbn", "A book number")] ["urn", "urn:isbn"]
        = [⟨"urn", none⟩, ⟨"urn:isbn", some "A book number"⟩] := by decide +kernel
    rw [hdescribed]
    rfl

end PojoGraph
