import PojoGraph.Proofs.Classification.Bottom

/-!
# Classes of strings

Settings give classes to strings of a format. A string schema names its format by a keyword; of
this its type keeps the format that the keyword denotes, and settings are asked for the keyword by
which that format is known. The way back leads to the same keyword, with one exception:
`partial-time` denotes the format that is known as `time`. So a class for `partial-time` is given to
no string, and the strings of that format get the class for `time`.

## Main definitions

* `Keywords.IsStringOf` — strings of a format.
* `Settings.stringClass` — the class that settings have for strings of a format.

## Main statements

* `StringFormat.keyword?_ofKeyword?` — the way from a keyword to a format and back.
* `innermost_mapSchema_string` — the type of strings of a format.
* `format_mapping_applies_iff` — when strings of a format get the class for it.
-/

namespace PojoGraph

/-- The keyword by which the format is known that a keyword denotes. -/
def StringFormat.known (keyword : String) : String :=
  if keyword = "partial-time" then "time" else keyword

/-- **From a keyword to a format and back**, all keywords but one are kept. -/
theorem StringFormat.keyword?_ofKeyword? (keyword : String) :
    (ofKeyword? (some keyword)).keyword? = some (known keyword) := by
  unfold ofKeyword?
  split <;> simp_all [keyword?, known]

theorem StringFormat.ofKeyword?_known (keyword : String) :
    ofKeyword? (some (known keyword)) = ofKeyword? (some keyword) := by
  rw [known]
  split
  · rename_i hpartial
    rw [hpartial]
    rfl
  · rfl

/-! ## Strings of a format -/

/-- The schema describes strings of a format, with or without null. It has no enum values, declares
no properties and is not composed. -/
structure Keywords.IsStringOf (k : Keywords Schema) (format : String) : Prop where
  isType : k.isType .string = true
  format : k.format = some format
  enumValues : k.enumValues = []
  properties : k.properties = []
  hasComposition : k.hasComposition = false

namespace Keywords.IsStringOf

variable {k : Keywords Schema} {format : String}

/-- Strings of a format are mapped to scalars. -/
theorem form_eq (h : k.IsStringOf format) :
    k.form = .scalar (.string (.ofKeyword? (some format)))
      (k.stringConstraints (.ofKeyword? (some format))) := by
  have hbranches : k.composedBranches = [] := by
    have hcomposition := h.hasComposition
    simp only [Keywords.hasComposition, Bool.or_eq_false_iff, Bool.not_eq_false',
      List.isEmpty_iff] at hcomposition
    simp [composedBranches, hcomposition]
  have hreference : k.singleReference? = none := by
    simp [singleReference?, hbranches]
  have hobject : k.isInlineObject = false := by
    simp [isInlineObject, h.properties, h.hasComposition]
  have hnames : k.stringEnum? = none := by
    simp [Facets.stringEnum?, h.enumValues]
  have htype : k.singleType? = some .string := by
    simpa [Facets.isType] using h.isType
  have hscalar : k.scalar? = some (.string (.ofKeyword? (some format)),
      k.stringConstraints (.ofKeyword? (some format))) := by
    rw [Facets.scalar?, htype, h.format]
  simp [form, hreference, hobject, hnames, hscalar]

end Keywords.IsStringOf

/-! ## Classes -/

/-- The class that settings have for strings of a format: that of the first mapping of the format
or, if there is none, that of a mapping of the canonical name of such strings. -/
def Settings.stringClass (settings : Settings) (format : String) : Option ClassOverride :=
  match settings.formatMappings.find? (·.format == format) with
  | some mapping => some ⟨mapping.className, mapping.importName⟩
  | none => settings.classOverride (.scalar (.string (.ofKeyword? (some format))))

/-- Strings of a format get the class for the keyword by which the format is known. -/
theorem Settings.overrideFor_string (settings : Settings) (format : String)
    (constraints : Constraints) :
    settings.overrideFor (.scalar (.string (.ofKeyword? (some format))) constraints)
      = settings.stringClass (StringFormat.known format) := by
  have hformat : (DataType.scalar (.string (.ofKeyword? (some format))) constraints).format?
      = some (StringFormat.known format) := StringFormat.keyword?_ofKeyword? format
  have hcanonical : settings.classOverride
        (.scalar (.string (.ofKeyword? (some format))) constraints)
      = settings.classOverride (.scalar (.string (.ofKeyword? (some format)))) := rfl
  rw [overrideFor, formatOverride, hformat, hcanonical, stringClass,
    StringFormat.ofKeyword?_known]
  cases hmapping : settings.formatMappings.find? (·.format == StringFormat.known format) with
  | none => simp [hmapping]
  | some mapping => simp [hmapping]

section

variable (settings : Settings) (owner : PojoName) (member : String) (registry : Registry)
  {schema : Schema} {k : Keywords Schema} {format : String}

/-- **The type of strings of a format**, also as the items of lists and the values of maps. -/
theorem innermost_mapSchema_string (hbottom : schema.bottom = .inline k)
    (hstring : k.IsStringOf format) :
    (mapSchema settings owner member registry schema).type.innermost
      = (DataType.scalar (.string (.ofKeyword? (some format)))
            (k.stringConstraints (.ofKeyword? (some format)))).withOverride
          (settings.stringClass (StringFormat.known format)) := by
  rw [(mapSchema_bottom settings owner member registry schema).1, hbottom, mapSchema_inline,
    hstring.form_eq]
  dsimp only
  rw [settings.overrideFor_string]
  rfl

/-- **When strings of a format get the class for it.** Take a schema that describes strings of a
format, or lists and maps of such strings, to any depth. The class of the innermost type is that of
the first mapping of the format or, if there is none, that of a mapping of its canonical name — if
and only if the format is not `partial-time`, or settings have the same class for this as for
`time`. -/
theorem format_mapping_applies_iff (hbottom : schema.bottom = .inline k)
    (hstring : k.IsStringOf format) :
    (mapSchema settings owner member registry schema).type.innermost.traits.classOverride
        = settings.stringClass format
      ↔ (format = "partial-time" →
          settings.stringClass "partial-time" = settings.stringClass "time") := by
  have hclass : (mapSchema settings owner member registry
      schema).type.innermost.traits.classOverride
        = settings.stringClass (StringFormat.known format) := by
    rw [innermost_mapSchema_string settings owner member registry hbottom hstring]
    rfl
  rw [hclass, StringFormat.known]
  split
  · rename_i hpartial
    subst hpartial
    exact ⟨fun h _ => h.symm, fun h => (h rfl).symm⟩
  · rename_i hother
    exact ⟨fun _ h => absurd h hother, fun _ => rfl⟩

end

/-! ## Local times -/

/-- A class for strings of a format. -/
def formatSettings (format className importName : String) : Settings where
  formatMappings := [⟨format, className, some importName⟩]

/-- Strings of a format, and nothing else. -/
def stringOf (format : String) : Keywords Schema where
  types := some (.single .string)
  format := some format

theorem isStringOf_stringOf (format : String) : (stringOf format).IsStringOf format :=
  ⟨rfl, rfl, rfl, rfl, rfl⟩

theorem bottom_stringOf (format : String) :
    (Schema.inline (stringOf format)).bottom = .inline (stringOf format) := by
  have hform := (isStringOf_stringOf format).form_eq
  exact Schema.bottom_last (by rw [hform]; exact Form.noConfusion)
    (by rw [hform]; exact Form.noConfusion)

/-- Maps of lists of strings of a format. -/
def mapsOfListsOf (format : String) : Schema :=
  .inline
    { types := some (.single .object)
      additional := some (.schema (.inline
        { types := some (.single .array)
          items := some (.inline (stringOf format)) })) }

/-- Instants have their class in maps of lists too. -/
theorem format_mapping_applies_instants :
    (mapsOfListsOf "date-time").bottom = .inline (stringOf "date-time")
      ∧ (stringOf "date-time").IsStringOf "date-time"
      ∧ (mapSchema (formatSettings "date-time" "Instant" "java.time.Instant") ⟨"Shift", ""⟩
          "starts" {} (mapsOfListsOf "date-time")).type.innermost.traits.classOverride
        = some ⟨"Instant", some "java.time.Instant"⟩ := by
  have hbottom : (mapsOfListsOf "date-time").bottom = .inline (stringOf "date-time") :=
    (Schema.bottom_map rfl rfl).trans
      ((Schema.bottom_list rfl rfl).trans (bottom_stringOf "date-time"))
  refine ⟨hbottom, isStringOf_stringOf "date-time", ?_⟩
  exact (format_mapping_applies_iff (formatSettings "date-time" "Instant" "java.time.Instant")
    ⟨"Shift", ""⟩ "starts" {} hbottom (isStringOf_stringOf "date-time")).mpr (by decide)

/-- **A mapping of `partial-time` that is lost**: the string has no class, though settings have one
for its format. -/
theorem partial_time_has_no_class :
    (stringOf "partial-time").IsStringOf "partial-time"
      ∧ (formatSettings "partial-time" "LocalTime" "java.time.LocalTime").stringClass "partial-time"
        = some ⟨"LocalTime", some "java.time.LocalTime"⟩
      ∧ (mapSchema (formatSettings "partial-time" "LocalTime" "java.time.LocalTime")
          ⟨"Shift", ""⟩ "start" {} (.inline (stringOf "partial-time"))).type
        = .leaf (.scalar (.string .time)) {} :=
  ⟨isStringOf_stringOf "partial-time", by decide +kernel, by decide +kernel⟩

end PojoGraph
