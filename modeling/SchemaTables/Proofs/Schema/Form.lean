import SchemaTables.Schema.Source
import SchemaTables.Proofs.Shape.Acceptance

/-!
The published form of schemas and the reader of schemas agree. Whatever has the form can be read, so that a
text is refused only because it is no document or because its document lacks the form; and what is written of
a schema has the form and is read as that schema.
-/

namespace SchemaTables

set_option autoImplicit false

open Shape (text textOrNull constant ofTypes listOf record anyOf oneOf)

def Bound.form : Shape := anyOf [ofTypes [.integer], ofTypes [.number]]

def Bound.optionalForm : Shape := anyOf [form, ofTypes [.null]]

/-- The form of an extension of one kind, with the field that it has besides. -/
def Extension.kindForm (kind field : String) : Shape := record [("kind", constant kind), (field, text)] ["kind", field]

def Extension.form : Shape := oneOf [kindForm "about_url" "value", kindForm "virtual_triples" "turtle"]

def LiteralType.form : Shape :=
  record [("base", textOrNull), ("description", textOrNull), ("name", text), ("title", textOrNull),
    ("uri", textOrNull)] ["name"]

def Class.form : Shape :=
  record [("abstract", ofTypes [.boolean]), ("class_uri", textOrNull), ("description", textOrNull),
    ("extensions", listOf Extension.form), ("is_a", textOrNull), ("name", text), ("slots", listOf text)] ["name"]

def Slot.form : Shape :=
  record [("description", textOrNull), ("designates_type", ofTypes [.boolean]),
    ("extensions", listOf Extension.form), ("identifier", ofTypes [.boolean]), ("implicit_prefix", textOrNull),
    ("maximum_value", Bound.optionalForm), ("minimum_value", Bound.optionalForm),
    ("multivalued", ofTypes [.boolean]), ("name", text), ("pattern", textOrNull), ("range", text),
    ("required", ofTypes [.boolean]), ("slot_uri", textOrNull), ("title", textOrNull)] ["name"]

def Schema.form : Shape :=
  Shape.record [("classes", Shape.listOf Class.form), ("default_prefix", Shape.textOrNull),
    ("description", Shape.textOrNull), ("name", Shape.text), ("prefixes", Shape.tableOf Shape.text),
    ("slots", Shape.listOf Slot.form), ("types", Shape.listOf LiteralType.form)] ["name"]

/-- The published document describes this form. -/
theorem Schema.ofDocument?_formDocument : Shape.ofDocument? Schema.formDocument = some Schema.form :=
  (rfl)

namespace Bound

/-- An integer bound has 64 bits with a sign. -/
def Fits : Bound → Prop
  | int n => Number.minInt ≤ n ∧ n ≤ Number.maxSigned
  | decimal _ => True

theorem accepts_form_iff {v : Json} : form.Accepts v ↔ ∃ n, v = .num n := by
  rw [form, Shape.accepts_anyOf_iff (by simp)]
  simp only [List.mem_cons, exists_eq_or_imp, Shape.accepts_ofTypes_iff]
  cases v <;> simp [JsonType.admits]

theorem accepts_optionalForm_iff {v : Json} : optionalForm.Accepts v ↔ v = .null ∨ ∃ n, v = .num n := by
  rw [optionalForm, Shape.accepts_anyOf_iff (by simp)]
  simp only [List.mem_cons, exists_eq_or_imp, accepts_form_iff]
  cases v <;> simp [JsonType.admits, Shape.accepts_ofTypes_iff]

/-- An integer that is too large for an integer bound is rounded to a decimal one. -/
theorem exists_ofJson? {n : Number} (h : n.Fits) : ∃ b, ofJson? (.num n) = some b := by
  cases n with
  | int n =>
    by_cases hn : n ≤ Number.maxSigned
    · exact ⟨int n, if_pos hn⟩
    · obtain ⟨x, hx⟩ := Binary64.exists_ofInt h
      exact ⟨decimal x, by rw [ofJson?, if_neg hn, hx, Option.map_some]⟩
  | float x => exact ⟨decimal x, rfl⟩

theorem ofJson?_toJson {b : Bound} (h : b.Fits) : ofJson? b.toJson = some b := by
  cases b with
  | int n => exact if_pos h.2
  | decimal x => rfl

theorem accepts_toJson (b : Bound) : form.Accepts b.toJson := by
  rw [accepts_form_iff]
  cases b with
  | int n => exact ⟨.int n, rfl⟩
  | decimal x => exact ⟨.float x, rfl⟩

end Bound

namespace Extension

theorem accepts_kindForm_iff {kind field : String} {v : Json} (hkind : '\\' ∉ (Json.quoteText kind).toList) :
    (kindForm kind field).Accepts v ↔ ∃ fields text, v = .obj fields ∧
      fields.lookup "kind" = some (.str kind) ∧ fields.lookup field = some (.str text) := by
  rw [kindForm, Shape.accepts_record_iff]
  simp only [List.forall_mem_cons, Shape.accepts_constant_iff hkind, Shape.accepts_text_iff]
  constructor
  · rintro ⟨fields, rfl, ⟨hk, hf, _⟩, hhask, hhasf, _⟩
    obtain ⟨w, hw⟩ := Option.isSome_iff_exists.mp hhask
    obtain ⟨u, hu⟩ := Option.isSome_iff_exists.mp hhasf
    obtain rfl := hk w hw
    obtain ⟨text, rfl⟩ := hf u hu
    exact ⟨fields, text, rfl, hw, hu⟩
  · rintro ⟨fields, text, rfl, hk, hf⟩
    refine ⟨fields, rfl, ⟨?_, ?_, nofun⟩, ?_, ?_, nofun⟩
    · intro w hw
      exact Option.some.inj (hw.symm.trans hk)
    · intro w hw
      exact ⟨text, Option.some.inj (hw.symm.trans hf)⟩
    · simp [hk]
    · simp [hf]

theorem form_describes : form.Describes ofJson? := by
  intro v h
  rw [form, Shape.accepts_oneOf_iff (by simp)] at h
  obtain ⟨shape, hshape, hv⟩ := Shape.matching_pos_iff.mp (h.symm ▸ Nat.one_pos)
  simp only [List.mem_cons, List.not_mem_nil, or_false] at hshape
  rcases hshape with rfl | rfl
  · obtain ⟨fields, value, rfl, hk, hf⟩ := (accepts_kindForm_iff (by decide)).mp hv
    exact ⟨aboutUrl value, by simp [ofJson?, Json.required, hk, hf, Json.text?]⟩
  · obtain ⟨fields, turtle, rfl, hk, hf⟩ := (accepts_kindForm_iff (by decide)).mp hv
    exact ⟨virtualTriples turtle, by simp [ofJson?, Json.required, hk, hf, Json.text?]⟩

theorem ofJson?_toJson (e : Extension) : ofJson? e.toJson = some e := by
  cases e <;> rfl

/-- What is written has the form of its own kind and not that of the other. -/
theorem accepts_toJson (e : Extension) : form.Accepts e.toJson := by
  rw [form, Shape.accepts_oneOf_iff (by simp)]
  cases e with
  | aboutUrl value =>
    rw [Shape.matching_of_accepts, Shape.matching_of_not_accepts, Shape.matching]
    · rw [accepts_kindForm_iff (by decide)]
      simp [toJson]
    · rw [accepts_kindForm_iff (by decide)]
      exact ⟨_, value, rfl, rfl, rfl⟩
  | virtualTriples turtle =>
    rw [Shape.matching_of_not_accepts, Shape.matching_of_accepts, Shape.matching]
    · rw [accepts_kindForm_iff (by decide)]
      exact ⟨_, turtle, rfl, rfl, rfl⟩
    · rw [accepts_kindForm_iff (by decide)]
      simp [toJson]

end Extension

namespace LiteralType

theorem form_describes : form.Describes ofJson? := by
  intro v h
  obtain ⟨fields, rfl, _⟩ := Shape.accepts_record_iff.mp h
  obtain ⟨name, hname⟩ := Shape.exists_required "name" Shape.describes_text h (by simp) (by simp)
  obtain ⟨base, hbase⟩ := Shape.exists_optional_text "base" h (by simp)
  obtain ⟨uri, huri⟩ := Shape.exists_optional_text "uri" h (by simp)
  obtain ⟨title, htitle⟩ := Shape.exists_optional_text "title" h (by simp)
  obtain ⟨description, hdescription⟩ := Shape.exists_optional_text "description" h (by simp)
  refine ⟨⟨name, base, uri, title, description⟩, ?_⟩
  simp [ofJson?, Json.record?, hname, hbase, huri, htitle, hdescription]

theorem ofJson?_toJson (t : LiteralType) : ofJson? t.toJson = some t := by
  simp [ofJson?, toJson, Json.record?, Json.required, Json.optional_eq, List.lookup_append, List.lookup_cons,
    Json.text?]

theorem accepts_toJson (t : LiteralType) : form.Accepts t.toJson := by
  refine Shape.accepts_record_iff.mpr ⟨_, rfl, ?_, ?_⟩
  · simp [List.lookup_append, List.lookup_cons, Shape.accepts_text_iff, Shape.accepts_textOrNull_iff]
  · simp [List.lookup_append, List.lookup_cons]

end LiteralType

namespace Class

theorem form_describes : form.Describes ofJson? := by
  intro v h
  obtain ⟨fields, rfl, _⟩ := Shape.accepts_record_iff.mp h
  obtain ⟨name, hname⟩ := Shape.exists_required "name" Shape.describes_text h (by simp) (by simp)
  obtain ⟨parent, hparent⟩ := Shape.exists_optional_text "is_a" h (by simp)
  obtain ⟨slots, hslots⟩ := Shape.exists_withDefault "slots" [] h (by simp)
    fun w _ => Shape.describes_listOf Shape.describes_text w
  obtain ⟨isAbstract, habstract⟩ := Shape.exists_withDefault "abstract" false h (by simp)
    fun w _ => Shape.describes_flag w
  obtain ⟨uri, huri⟩ := Shape.exists_optional_text "class_uri" h (by simp)
  obtain ⟨description, hdescription⟩ := Shape.exists_optional_text "description" h (by simp)
  obtain ⟨extensions, hextensions⟩ := Shape.exists_withDefault "extensions" [] h (by simp)
    fun w _ => Shape.describes_listOf Extension.form_describes w
  refine ⟨⟨name, parent, slots, isAbstract, uri, description, extensions⟩, ?_⟩
  simp [ofJson?, Json.record?, hname, hparent, hslots, habstract, huri, hdescription, hextensions]

theorem ofJson?_toJson (c : Class) : ofJson? c.toJson = some c := by
  have hslots : Json.list? Json.text? (Json.texts c.slots) = some c.slots := Json.list?_map fun _ _ => rfl
  have hextensions := Json.elim_list?_map c.extensions fun e _ => e.ofJson?_toJson
  simp [ofJson?, toJson, Json.record?, Json.required, Json.optional_eq, Json.withDefault_eq, List.lookup_append,
    List.lookup_cons, Json.text?, Json.flag?, hslots, hextensions]

theorem accepts_toJson (c : Class) : form.Accepts c.toJson := by
  refine Shape.accepts_record_iff.mpr ⟨_, rfl, ?_, ?_⟩
  · simp [List.lookup_append, List.lookup_cons, Json.texts, Shape.accepts_text_iff, Shape.accepts_textOrNull_iff,
      Shape.accepts_flag_iff, Shape.accepts_listOf_iff, Extension.accepts_toJson]
  · simp [List.lookup_append, List.lookup_cons]

end Class

namespace Slot

theorem form_describes {v : Json} (hv : v.Fits) (h : form.Accepts v) : ∃ s, ofJson? v = some s := by
  obtain ⟨fields, rfl, _⟩ := Shape.accepts_record_iff.mp h
  -- An integer can be too large for a bound, but not one in a document.
  have hbound : ∀ (name : String) (w : Json), fields.lookup name = some w → Bound.optionalForm.Accepts w →
      w = .null ∨ ∃ b, Bound.ofJson? w = some b := by
    intro name w hw hform
    rcases Bound.accepts_optionalForm_iff.mp hform with hnull | ⟨n, rfl⟩
    · exact Or.inl hnull
    · cases hv.lookup hw with
      | num hn => exact Or.inr (Bound.exists_ofJson? hn)
  obtain ⟨name, hname⟩ := Shape.exists_required "name" Shape.describes_text h (by simp) (by simp)
  obtain ⟨title, htitle⟩ := Shape.exists_optional_text "title" h (by simp)
  obtain ⟨description, hdescription⟩ := Shape.exists_optional_text "description" h (by simp)
  obtain ⟨range, hrange⟩ := Shape.exists_withDefault "range" "string" h (by simp)
    fun w _ => Shape.describes_text w
  obtain ⟨required, hrequired⟩ := Shape.exists_withDefault "required" false h (by simp)
    fun w _ => Shape.describes_flag w
  obtain ⟨identifier, hidentifier⟩ := Shape.exists_withDefault "identifier" false h (by simp)
    fun w _ => Shape.describes_flag w
  obtain ⟨multivalued, hmultivalued⟩ := Shape.exists_withDefault "multivalued" false h (by simp)
    fun w _ => Shape.describes_flag w
  obtain ⟨pattern, hpattern⟩ := Shape.exists_optional_text "pattern" h (by simp)
  obtain ⟨minimum, hminimum⟩ := Shape.exists_optional "minimum_value" h (by simp) (hbound "minimum_value")
  obtain ⟨maximum, hmaximum⟩ := Shape.exists_optional "maximum_value" h (by simp) (hbound "maximum_value")
  obtain ⟨valuePrefix, hprefix⟩ := Shape.exists_optional_text "implicit_prefix" h (by simp)
  obtain ⟨designatesType, hdesignates⟩ := Shape.exists_withDefault "designates_type" false h (by simp)
    fun w _ => Shape.describes_flag w
  obtain ⟨uri, huri⟩ := Shape.exists_optional_text "slot_uri" h (by simp)
  obtain ⟨extensions, hextensions⟩ := Shape.exists_withDefault "extensions" [] h (by simp)
    fun w _ => Shape.describes_listOf Extension.form_describes w
  refine ⟨⟨name, title, description, range, required, identifier, multivalued, pattern, minimum, maximum,
    valuePrefix, designatesType, uri, extensions⟩, ?_⟩
  rw [ofJson?, Json.record?, Option.bind_eq_bind, Option.bind_some]
  simp only [hname, htitle, hdescription, hrange, hrequired, hidentifier, hmultivalued, hpattern, hminimum,
    hmaximum, hprefix, hdesignates, huri, hextensions]
  rfl

/-- The integer bounds of the slot have 64 bits. -/
def Fits (s : Slot) : Prop := ∀ b, s.minimum = some b ∨ s.maximum = some b → b.Fits

theorem ofJson?_toJson {s : Slot} (h : s.Fits) : ofJson? s.toJson = some s := by
  have hnull : ∀ b : Bound, b.toJson ≠ .null := by
    intro b
    cases b <;> exact nofun
  have hminimum : Json.optionalOf Bound.ofJson? (s.minimum.map Bound.toJson) = some s.minimum :=
    Json.optionalOf_map (fun b hb => Bound.ofJson?_toJson (h b (Or.inl hb))) hnull
  have hmaximum : Json.optionalOf Bound.ofJson? (s.maximum.map Bound.toJson) = some s.maximum :=
    Json.optionalOf_map (fun b hb => Bound.ofJson?_toJson (h b (Or.inr hb))) hnull
  have hextensions := Json.elim_list?_map s.extensions fun e _ => e.ofJson?_toJson
  rw [ofJson?, toJson, Json.record?, Option.bind_eq_bind, Option.bind_some]
  simp [Json.required, Json.optional_eq, Json.withDefault_eq, List.lookup_append, List.lookup_cons, Json.text?,
    Json.flag?, hminimum, hmaximum, hextensions, -Option.bind_eq_bind, -Option.bind_some]
  rfl

theorem accepts_toJson (s : Slot) : form.Accepts s.toJson := by
  have hbound : ∀ b : Bound, Bound.optionalForm.Accepts b.toJson := by
    intro b
    exact Bound.accepts_optionalForm_iff.mpr (Or.inr (Bound.accepts_form_iff.mp b.accepts_toJson))
  refine Shape.accepts_record_iff.mpr ⟨_, rfl, ?_, ?_⟩
  · simp [List.lookup_append, List.lookup_cons, Shape.accepts_text_iff, Shape.accepts_textOrNull_iff,
      Shape.accepts_flag_iff, Shape.accepts_listOf_iff, Extension.accepts_toJson, hbound]
  · simp [List.lookup_append, List.lookup_cons]

end Slot

namespace Schema

theorem form_describes {v : Json} (hv : v.Fits) (h : form.Accepts v) : ∃ s, ofJson? v = some s := by
  obtain ⟨fields, rfl, _⟩ := Shape.accepts_record_iff.mp h
  have hslot : ∀ w, fields.lookup "slots" = some w → (Shape.listOf Slot.form).Accepts w →
      ∃ l, Json.list? Slot.ofJson? w = some l := by
    intro w hw hform
    obtain ⟨items, rfl, hitems⟩ := Shape.accepts_listOf_iff.mp hform
    cases hv.lookup hw with
    | arr hfit => exact Json.exists_list? fun item hitem => Slot.form_describes (hfit item hitem) (hitems item hitem)
  obtain ⟨name, hname⟩ := Shape.exists_required "name" Shape.describes_text h (by simp) (by simp)
  obtain ⟨description, hdescription⟩ := Shape.exists_optional_text "description" h (by simp)
  obtain ⟨classPrefix, hprefix⟩ := Shape.exists_optional_text "default_prefix" h (by simp)
  obtain ⟨prefixes, hprefixes⟩ := Shape.exists_withDefault "prefixes" [] h (by simp)
    fun w _ => Shape.describes_tableOf Shape.describes_text w
  obtain ⟨types, htypes⟩ := Shape.exists_withDefault "types" [] h (by simp)
    fun w _ => Shape.describes_listOf LiteralType.form_describes w
  obtain ⟨classes, hclasses⟩ := Shape.exists_withDefault "classes" [] h (by simp)
    fun w _ => Shape.describes_listOf Class.form_describes w
  obtain ⟨slots, hslots⟩ := Shape.exists_withDefault "slots" [] h (by simp) hslot
  refine ⟨⟨name, description, classPrefix, prefixes, types, classes, slots⟩, ?_⟩
  simp [ofJson?, Json.record?, hname, hdescription, hprefix, hprefixes, htypes, hclasses, hslots]

/-- What the types of a schema promise: prefixes stand in order, each once, and integer bounds have 64 bits. -/
structure Fits (s : Schema) : Prop where
  prefixes : Ordered.Increasing compare (s.prefixes.map Prod.fst)
  slots : ∀ slot ∈ s.slots, slot.Fits

theorem ofJson?_toJson {s : Schema} (h : s.Fits) : ofJson? s.toJson = some s := by
  have hprefixes : Json.table? Json.text? (Json.ofTable s.prefixes) = some s.prefixes :=
    Json.table?_ofTable h.prefixes
  have htypes : Json.list? LiteralType.ofJson? (.arr (s.types.map LiteralType.toJson)) = some s.types :=
    Json.list?_map fun t _ => t.ofJson?_toJson
  have hclasses : Json.list? Class.ofJson? (.arr (s.classes.map Class.toJson)) = some s.classes :=
    Json.list?_map fun c _ => c.ofJson?_toJson
  have hslots : Json.list? Slot.ofJson? (.arr (s.slots.map Slot.toJson)) = some s.slots :=
    Json.list?_map fun slot hslot => Slot.ofJson?_toJson (h.slots slot hslot)
  simp [ofJson?, toJson, Json.record?, Json.required, Json.optional_eq, Json.withDefault_eq, List.lookup_append,
    List.lookup_cons, Json.text?, hprefixes, htypes, hclasses, hslots]

theorem accepts_toJson (s : Schema) : form.Accepts s.toJson := by
  refine Shape.accepts_record_iff.mpr ⟨_, rfl, ?_, ?_⟩
  · simp [List.lookup_append, List.lookup_cons, Json.ofTable, Shape.accepts_text_iff,
      Shape.accepts_textOrNull_iff, Shape.accepts_listOf_iff, Shape.accepts_tableOf_iff, Class.accepts_toJson,
      Slot.accepts_toJson, LiteralType.accepts_toJson]
  · simp [List.lookup_append, List.lookup_cons]

theorem isOk_review_iff {document : Json} : (review document).isOk = true ↔ form.Accepts document := by
  rw [review, shape, ofDocument?_formDocument, Option.getD_some, Shape.isOk_review_iff]

/-- The check of a document against the published form and the reader of schemas agree: what passes the check
is read as a schema, so a text is refused only when it is no document or its document does not pass; and the
document of a schema passes and is read as that schema. -/
theorem read_by_form :
    (∀ document : Json, document.Fits → (review document).isOk = true → ∃ s, ofJson? document = some s) ∧
    (∀ text e, read .json text = .error e ↔
      (Json.parse text = none ∧ e = .malformed .json) ∨
      ∃ document, Json.parse text = some document ∧ (review document).isOk = false ∧
        e = .invalid (review document)) ∧
    ∀ s : Schema, s.Fits → (review s.toJson).isOk = true ∧ ofJson? s.toJson = some s := by
  have hreads : ∀ document : Json, document.Fits → (review document).isOk = true →
      ∃ s, ofJson? document = some s :=
    fun document hfits hok => form_describes hfits (isOk_review_iff.mp hok)
  refine ⟨hreads, fun text e => ?_, fun s hs => ⟨isOk_review_iff.mpr s.accepts_toJson, ofJson?_toJson hs⟩⟩
  unfold read
  cases hparse : SourceFormat.json.parse text with
  | none =>
    have hnone : Json.parse text = none := hparse
    constructor
    · intro h
      cases h
      exact Or.inl ⟨hnone, rfl⟩
    · rintro (⟨_, rfl⟩ | ⟨document, hdocument, _⟩)
      · rfl
      · rw [hnone] at hdocument
        cases hdocument
  | some document =>
    have hsome : Json.parse text = some document := hparse
    cases hok : (review document).isOk with
    | false =>
      constructor
      · intro h
        simp only [hok, Bool.not_false, if_true] at h
        cases h
        exact Or.inr ⟨document, hsome, hok, rfl⟩
      · rintro (⟨hnone, _⟩ | ⟨other, hother, _, rfl⟩)
        · rw [hsome] at hnone
          cases hnone
        · rw [hsome] at hother
          cases hother
          simp [hok]
    | true =>
      obtain ⟨s, hs⟩ := hreads document (Json.fits_of_parse hsome) hok
      simp [hsome, hok, hs]

end Schema

end SchemaTables
