import SchemaTables.Shape.Basic
import SchemaTables.Proofs.Except
import SchemaTables.Proofs.Json.Record
import SchemaTables.Proofs.Json.Printer

/-!
Values that a shape accepts. Whether something is wrong with a value does not depend on where it stands,
so acceptance can be told shape by shape. A shape describes a reader when all that it accepts can be read;
this is told here for texts, flags, lists, tables, the fields of records and choices between shapes.
-/

namespace SchemaTables

set_option autoImplicit false

namespace JsonType
variable {v : Json}

theorem admits_null_iff : null.admits v = true ↔ v = .null := by
  cases v <;> simp only [admits, reduceCtorEq]

theorem admits_boolean_iff : boolean.admits v = true ↔ ∃ b, v = .bool b := by
  cases v <;> simp [admits]

theorem admits_string_iff : string.admits v = true ↔ ∃ s, v = .str s := by
  cases v <;> simp [admits]

theorem admits_array_iff : array.admits v = true ↔ ∃ items, v = .arr items := by
  cases v <;> simp [admits]

theorem admits_object_iff : object.admits v = true ↔ ∃ fields, v = .obj fields := by
  cases v <;> simp [admits]

theorem any_admits_one_iff {type : JsonType} :
    ([type] = [] ∨ [type].any (·.admits v) = true) ↔ type.admits v = true := by
  simp only [List.cons_ne_nil, false_or, List.any_cons, List.any_nil, Bool.or_false]

end JsonType

namespace Shape

section Violations
variable {pointer : String} {v : Json} {required : List String} {anyOf oneOf : List Shape}
  {constants : List Json}

theorem constantIssues_eq_nil_iff :
    constantIssues pointer v constants = [] ↔
      constants = [] ∨ constants.any (·.compact == v.compact) = true := by
  unfold constantIssues
  split
  · rename_i h
    simpa using h
  · rename_i h
    simpa using h

theorem violations_any : Shape.any.violations pointer v = [] := by
  rw [violations]

theorem propertyViolations_nil : propertyViolations pointer v [] = [] := by
  rw [propertyViolations]

theorem missing_nil : missing pointer [] v = [] := by
  cases v <;> rfl

theorem missing_eq_nil_iff :
    missing pointer required v = [] ↔
      ∀ name ∈ required, ∀ fields, v = .obj fields → (fields.lookup name).isSome := by
  cases v <;> simp [missing, Option.isSome_iff_ne_none]

/-- Nothing is wrong with a value when each rule of the shape finds nothing. -/
theorem violations_rules_eq_nil_iff {types : List JsonType} {properties : List (String × Shape)}
    {additional items : Shape} :
    (rules types properties required additional items anyOf oneOf constants).violations pointer v = [] ↔
      (types = [] ∨ types.any (·.admits v) = true) ∧
      propertyViolations pointer v properties = [] ∧
      (∀ f ∈ fieldsOf v, f.1 ∉ properties.map (·.1) →
        additional.violations (pointer ++ "/" ++ Violation.escapeName f.1) f.2 = []) ∧
      (∀ (i : Nat) item, (itemsOf v)[i]? = some item →
        items.violations (pointer ++ "/" ++ toString i) item = []) ∧
      (constants = [] ∨ constants.any (·.compact == v.compact) = true) ∧
      (anyOf = [] ∨ 0 < matching pointer v anyOf) ∧
      (oneOf = [] ∨ matching pointer v oneOf = 1) ∧
      missing pointer required v = [] := by
  rw [violations]
  split
  · rename_i h
    simp only [Bool.and_eq_true, Bool.not_eq_true', List.isEmpty_eq_false_iff] at h
    simp [h]
  · rename_i h
    have htypes : types = [] ∨ types.any (·.admits v) = true := by
      by_cases hnil : types = []
      · exact Or.inl hnil
      · exact Or.inr (by simpa [hnil] using h)
    have hitems : ((itemsOf v).mapIdx fun i item =>
        items.violations (pointer ++ "/" ++ toString i) item).flatten = [] ↔
        ∀ (i : Nat) item, (itemsOf v)[i]? = some item →
          items.violations (pointer ++ "/" ++ toString i) item = [] := by
      simp only [List.flatten_eq_nil_iff, List.mem_mapIdx, List.getElem?_eq_some_iff, forall_exists_index]
      constructor
      · rintro hall i _ hi rfl
        exact hall _ i hi rfl
      · rintro hall _ i hi rfl
        exact hall i _ hi rfl
    have hany : ∀ issue : Violation, (if (anyOf.isEmpty || decide (0 < matching pointer v anyOf)) = true
        then [] else [issue]) = [] ↔ anyOf = [] ∨ 0 < matching pointer v anyOf := by
      intro issue
      simp only [ite_eq_left_iff, List.cons_ne_nil, imp_false, not_not, Bool.or_eq_true, List.isEmpty_iff,
        decide_eq_true_eq]
    simp only [List.append_eq_nil_iff, List.flatMap_eq_nil_iff, List.mem_filter, Bool.not_eq_true',
      List.contains_eq_mem, decide_eq_false_iff_not, and_imp, hitems, constantIssues_eq_nil_iff, hany,
      htypes, true_and, and_assoc]
    -- the rules before the choice of exactly one shape read the same on both sides
    repeat refine and_congr_right fun _ => ?_
    refine and_congr_left fun _ => ?_
    rw [ite_eq_left_iff, List.isEmpty_iff, or_iff_not_imp_left]
    refine forall_congr' fun _ => ?_
    rcases matching pointer v oneOf with _ | _ | n <;> simp

end Violations

mutual

theorem violations_eq_nil_of_pointer (p q : String) (v : Json) :
    (shape : Shape) → shape.violations p v = [] → shape.violations q v = []
  | .any, _ => by rw [violations]
  | .nothing, h => by simp [violations] at h
  | .rules types properties required additional items anyOf oneOf constants, h => by
    obtain ⟨htypes, hproperties, hadditional, hitems, hconstants, hany, hone, hmissing⟩ :=
      violations_rules_eq_nil_iff.mp h
    refine violations_rules_eq_nil_iff.mpr ⟨htypes, propertyViolations_eq_nil_of_pointer p q v properties
      hproperties, fun f hf hname => ?_, fun i item hi => ?_, hconstants, ?_, ?_, ?_⟩
    · exact violations_eq_nil_of_pointer _ _ f.2 additional (hadditional f hf hname)
    · exact violations_eq_nil_of_pointer _ _ item items (hitems i item hi)
    · rwa [matching_pointer q p v anyOf]
    · rwa [matching_pointer q p v oneOf]
    · exact missing_eq_nil_iff.mpr (missing_eq_nil_iff.mp hmissing)

theorem propertyViolations_eq_nil_of_pointer (p q : String) (v : Json) :
    (properties : List (String × Shape)) → propertyViolations p v properties = [] →
      propertyViolations q v properties = []
  | [], _ => by rw [propertyViolations]
  | (name, shape) :: rest, h => by
    rw [propertyViolations, List.append_eq_nil_iff] at h ⊢
    refine ⟨?_, propertyViolations_eq_nil_of_pointer p q v rest h.2⟩
    cases hfield : v.field? name with
    | none => rfl
    | some w =>
      rw [hfield] at h
      exact violations_eq_nil_of_pointer _ _ w shape h.1

theorem matching_pointer (p q : String) (v : Json) :
    (shapes : List Shape) → matching p v shapes = matching q v shapes
  | [] => by rw [matching, matching]
  | shape :: rest => by
    have hiff : shape.violations p v = [] ↔ shape.violations q v = [] :=
      ⟨violations_eq_nil_of_pointer p q v shape, violations_eq_nil_of_pointer q p v shape⟩
    rw [matching, matching, matching_pointer p q v rest]
    simp only [List.isEmpty_iff, hiff]

end

/-- Nothing is wrong with the value. -/
def Accepts (shape : Shape) (v : Json) : Prop := shape.violations "" v = []

variable {shape item : Shape} {v w : Json}

/-- Acceptance does not depend on where the value stands. -/
theorem violations_eq_nil_iff (pointer : String) : shape.violations pointer v = [] ↔ shape.Accepts v :=
  ⟨violations_eq_nil_of_pointer _ _ v shape, violations_eq_nil_of_pointer _ _ v shape⟩

theorem isOk_review_iff : (shape.review v).isOk = true ↔ shape.Accepts v := by
  simp [review, Report.isOk, Accepts]

theorem propertyViolations_eq_nil_iff {pointer : String} {properties : List (String × Shape)} :
    propertyViolations pointer v properties = [] ↔
      ∀ p ∈ properties, ∀ w, v.field? p.1 = some w → p.2.Accepts w := by
  induction properties with
  | nil => simp [propertyViolations]
  | cons p rest ih =>
    rw [propertyViolations, List.append_eq_nil_iff, ih, List.forall_mem_cons]
    refine and_congr_left fun _ => ?_
    cases v.field? p.1 with
    | none => simp
    | some w => simp [violations_eq_nil_iff]

section Choices
variable {shapes : List Shape} {pointer : String}

theorem matching_of_accepts (h : shape.Accepts v) :
    matching pointer v (shape :: shapes) = matching pointer v shapes + 1 := by
  rw [matching, (violations_eq_nil_iff pointer).mpr h, List.isEmpty_nil, if_pos rfl, Nat.add_comm]

theorem matching_of_not_accepts (h : ¬ shape.Accepts v) :
    matching pointer v (shape :: shapes) = matching pointer v shapes := by
  rw [matching, if_neg, Nat.zero_add]
  rwa [List.isEmpty_iff, violations_eq_nil_iff]

theorem matching_pos_iff : 0 < matching pointer v shapes ↔ ∃ shape ∈ shapes, shape.Accepts v := by
  induction shapes with
  | nil => simp [matching]
  | cons shape shapes ih =>
    simp only [List.mem_cons, exists_eq_or_imp]
    by_cases h : shape.Accepts v
    · simp [matching_of_accepts h, h]
    · simp [matching_of_not_accepts h, h, ih]

end Choices

/-- A value of one of some types. -/
def ofTypes (types : List JsonType) : Shape := rules types [] [] .any .any [] [] []

def text : Shape := rules [.string] [] [] .any .any [] [] []

def textOrNull : Shape := rules [.string, .null] [] [] .any .any [] [] []

def constant (s : String) : Shape := rules [.string] [] [] .any .any [] [] [.str s]

/-- A list of values of one shape. -/
def listOf (item : Shape) : Shape := rules [.array] [] [] .any item [] [] []

/-- An object with some fields of a shape of their own, of which some have to be there. -/
def record (properties : List (String × Shape)) (required : List String) : Shape :=
  rules [.object] properties required .any .any [] [] []

/-- An object with fields of one shape. -/
def tableOf (item : Shape) : Shape := rules [.object] [] [] item .any [] [] []

/-- A value of one of some shapes, or of more than one. -/
def anyOf (shapes : List Shape) : Shape := rules [] [] [] .any .any shapes [] []

/-- A value of exactly one of some shapes. -/
def oneOf (shapes : List Shape) : Shape := rules [] [] [] .any .any [] shapes []

theorem accepts_ofTypes_iff {types : List JsonType} :
    (ofTypes types).Accepts v ↔ types = [] ∨ types.any (·.admits v) = true := by
  unfold Accepts ofTypes
  rw [violations_rules_eq_nil_iff]
  refine and_iff_left ⟨propertyViolations_nil, ?_, ?_, Or.inl rfl, Or.inl rfl, Or.inl rfl, missing_nil⟩
  · exact fun _ _ _ => violations_any
  · exact fun _ _ _ => violations_any

theorem accepts_text_iff : text.Accepts v ↔ ∃ s, v = .str s :=
  accepts_ofTypes_iff.trans (JsonType.any_admits_one_iff.trans JsonType.admits_string_iff)

theorem accepts_textOrNull_iff : textOrNull.Accepts v ↔ v = .null ∨ ∃ s, v = .str s := by
  have htypes : textOrNull.Accepts v ↔ JsonType.string.admits v = true ∨ JsonType.null.admits v = true :=
    accepts_ofTypes_iff.trans (by simp only [List.cons_ne_nil, false_or, List.any_cons, List.any_nil,
      Bool.or_false, Bool.or_eq_true])
  rw [htypes, JsonType.admits_string_iff, JsonType.admits_null_iff, or_comm]

theorem accepts_flag_iff : (ofTypes [.boolean]).Accepts v ↔ ∃ b, v = .bool b :=
  accepts_ofTypes_iff.trans (JsonType.any_admits_one_iff.trans JsonType.admits_boolean_iff)

/-- Constants are compared as they are printed; a text that is printed as it is has no other spelling. -/
theorem accepts_constant_iff {s : String} (hs : '\\' ∉ (Json.quoteText s).toList) :
    (constant s).Accepts v ↔ v = .str s := by
  unfold Accepts constant
  rw [violations_rules_eq_nil_iff]
  constructor
  · rintro ⟨htypes, -, -, -, hconstants, -⟩
    obtain ⟨t, rfl⟩ := JsonType.admits_string_iff.mp (JsonType.any_admits_one_iff.mp htypes)
    have hcompact : Json.quoteText s = Json.quoteText t := by simpa [Json.compact] using hconstants
    rw [Json.eq_of_quoteText_eq hs hcompact]
  · rintro rfl
    refine ⟨Or.inr rfl, propertyViolations_nil, ?_, ?_, Or.inr ?_, Or.inl rfl, Or.inl rfl, missing_nil⟩
    · exact fun _ _ _ => violations_any
    · exact fun _ _ _ => violations_any
    · simp only [List.any_cons, beq_self_eq_true, Bool.true_or]

/-- Alternatives alone ask nothing else of a value. -/
theorem accepts_alternatives_iff {anyOf oneOf : List Shape} :
    (rules [] [] [] .any .any anyOf oneOf []).Accepts v ↔
      (anyOf = [] ∨ ∃ shape ∈ anyOf, shape.Accepts v) ∧ (oneOf = [] ∨ matching "" v oneOf = 1) := by
  unfold Accepts
  rw [violations_rules_eq_nil_iff, matching_pos_iff]
  constructor
  · rintro ⟨-, -, -, -, -, hany, hone, -⟩
    exact ⟨hany, hone⟩
  · rintro ⟨hany, hone⟩
    refine ⟨Or.inl rfl, propertyViolations_nil, ?_, ?_, Or.inl rfl, hany, hone, missing_nil⟩
    · exact fun _ _ _ => violations_any
    · exact fun _ _ _ => violations_any

theorem accepts_anyOf_iff {shapes : List Shape} (hne : shapes ≠ []) :
    (anyOf shapes).Accepts v ↔ ∃ shape ∈ shapes, shape.Accepts v := by
  rw [anyOf, accepts_alternatives_iff, or_iff_right hne]
  exact and_iff_left (Or.inl rfl)

theorem accepts_oneOf_iff {shapes : List Shape} (hne : shapes ≠ []) :
    (oneOf shapes).Accepts v ↔ matching "" v shapes = 1 := by
  rw [oneOf, accepts_alternatives_iff, or_iff_right hne]
  exact and_iff_right (Or.inl rfl)

theorem accepts_tableOf_iff :
    (tableOf item).Accepts v ↔ ∃ fields, v = .obj fields ∧ ∀ f ∈ fields, item.Accepts f.2 := by
  unfold Accepts tableOf
  rw [violations_rules_eq_nil_iff]
  constructor
  · rintro ⟨htypes, -, hfields, -⟩
    obtain ⟨fields, rfl⟩ := JsonType.admits_object_iff.mp (JsonType.any_admits_one_iff.mp htypes)
    exact ⟨fields, rfl, fun f hf => (violations_eq_nil_iff _).mp (hfields f hf List.not_mem_nil)⟩
  · rintro ⟨fields, rfl, hfields⟩
    refine ⟨Or.inr rfl, propertyViolations_nil, ?_, ?_, Or.inl rfl, Or.inl rfl, Or.inl rfl, missing_nil⟩
    · exact fun f hf _ => (violations_eq_nil_iff _).mpr (hfields f hf)
    · exact fun _ _ _ => violations_any

theorem accepts_listOf_iff :
    (listOf item).Accepts v ↔ ∃ items, v = .arr items ∧ ∀ w ∈ items, item.Accepts w := by
  unfold Accepts listOf
  rw [violations_rules_eq_nil_iff]
  constructor
  · rintro ⟨htypes, -, -, hitems, -⟩
    obtain ⟨items, rfl⟩ := JsonType.admits_array_iff.mp (JsonType.any_admits_one_iff.mp htypes)
    refine ⟨items, rfl, fun w hw => ?_⟩
    obtain ⟨i, hi⟩ := List.mem_iff_getElem?.mp hw
    exact (violations_eq_nil_iff _).mp (hitems i w hi)
  · rintro ⟨items, rfl, hitems⟩
    refine ⟨Or.inr rfl, propertyViolations_nil, ?_, ?_, Or.inl rfl, Or.inl rfl, Or.inl rfl, missing_nil⟩
    · exact fun _ _ _ => violations_any
    · exact fun i w hi => (violations_eq_nil_iff _).mpr (hitems w (List.mem_of_getElem? hi))

theorem accepts_record_iff {properties : List (String × Shape)} {required : List String} :
    (record properties required).Accepts v ↔ ∃ fields, v = .obj fields ∧
      (∀ p ∈ properties, ∀ w, fields.lookup p.1 = some w → p.2.Accepts w) ∧
      ∀ name ∈ required, (fields.lookup name).isSome := by
  unfold Accepts record
  rw [violations_rules_eq_nil_iff, propertyViolations_eq_nil_iff, missing_eq_nil_iff]
  constructor
  · rintro ⟨htypes, hproperties, -, -, -, -, -, hrequired⟩
    obtain ⟨fields, rfl⟩ := JsonType.admits_object_iff.mp (JsonType.any_admits_one_iff.mp htypes)
    exact ⟨fields, rfl, hproperties, fun name hname => hrequired name hname fields rfl⟩
  · rintro ⟨fields, rfl, hproperties, hrequired⟩
    refine ⟨Or.inr rfl, hproperties, ?_, ?_, Or.inl rfl, Or.inl rfl, Or.inl rfl, ?_⟩
    · exact fun _ _ _ => violations_any
    · exact fun _ _ _ => violations_any
    · rintro name hname _ ⟨⟩
      exact hrequired name hname

/-- All that the shape accepts can be read. -/
def Describes {α : Type} (shape : Shape) (read : Json → Option α) : Prop :=
  ∀ v, shape.Accepts v → ∃ a, read v = some a

section Readers
variable {α : Type} {read : Json → Option α}

theorem describes_text : text.Describes Json.text? := by
  intro v h
  obtain ⟨s, rfl⟩ := accepts_text_iff.mp h
  exact ⟨s, rfl⟩

theorem describes_path : text.Describes Json.path? := by
  intro v h
  obtain ⟨s, rfl⟩ := accepts_text_iff.mp h
  exact ⟨⟨s⟩, rfl⟩

theorem describes_flag : (ofTypes [.boolean]).Describes Json.flag? := by
  intro v h
  obtain ⟨b, rfl⟩ := accepts_flag_iff.mp h
  exact ⟨b, rfl⟩

theorem describes_tableOf (h : item.Describes read) : (tableOf item).Describes (Json.table? read) := by
  intro v hv
  obtain ⟨fields, rfl, hfields⟩ := accepts_tableOf_iff.mp hv
  exact Json.exists_table? fun f hf => h f.2 (hfields f hf)

theorem describes_listOf (h : item.Describes read) : (listOf item).Describes (Json.list? read) := by
  intro v hv
  obtain ⟨items, rfl, hitems⟩ := accepts_listOf_iff.mp hv
  exact Json.exists_list? fun w hw => h w (hitems w hw)

section Fields
variable {properties : List (String × Shape)} {required : List String} {fields : List (String × Json)}

theorem exists_required (name : String) (hread : shape.Describes read)
    (h : (record properties required).Accepts (.obj fields)) (hproperty : (name, shape) ∈ properties)
    (hname : name ∈ required) : ∃ a, Json.required fields name read = some a := by
  obtain ⟨_, hfields, hproperties, hrequired⟩ := accepts_record_iff.mp h
  cases hfields
  obtain ⟨w, hw⟩ := Option.isSome_iff_exists.mp (hrequired name hname)
  obtain ⟨a, ha⟩ := hread w (hproperties _ hproperty w hw)
  exact ⟨a, by rw [Json.required, hw, Option.bind_some, ha]⟩

/-- A field that may be left out has its default then; what stands there has to be readable. -/
theorem exists_withDefault (name : String) (default : α)
    (h : (record properties required).Accepts (.obj fields)) (hproperty : (name, shape) ∈ properties)
    (hread : ∀ w, fields.lookup name = some w → shape.Accepts w → ∃ a, read w = some a) :
    ∃ a, Json.withDefault fields name default read = some a := by
  obtain ⟨_, hfields, hproperties, _⟩ := accepts_record_iff.mp h
  cases hfields
  rw [Json.withDefault_eq]
  cases hw : fields.lookup name with
  | none => exact ⟨default, rfl⟩
  | some w => exact hread w hw (hproperties _ hproperty w hw)

/-- A field that may be null can be read, when whatever else stands there can. -/
theorem exists_optional (name : String) (h : (record properties required).Accepts (.obj fields))
    (hproperty : (name, shape) ∈ properties)
    (hread : ∀ w, fields.lookup name = some w → shape.Accepts w → w = .null ∨ ∃ a, read w = some a) :
    ∃ o, Json.optional fields name read = some o := by
  obtain ⟨_, hfields, hproperties, _⟩ := accepts_record_iff.mp h
  cases hfields
  rw [Json.optional_eq]
  cases hw : fields.lookup name with
  | none => exact ⟨none, rfl⟩
  | some w =>
    by_cases hnull : w = .null
    · exact ⟨none, by rw [hnull, Json.optionalOf]⟩
    · obtain ⟨a, ha⟩ := (hread w hw (hproperties _ hproperty w hw)).resolve_left hnull
      exact ⟨some a, by rw [Json.optionalOf_some hnull, ha, Option.map_some]⟩

/-- A text that may be null can be read, whether it is there or not. -/
theorem exists_optional_text (name : String) (h : (record properties required).Accepts (.obj fields))
    (hproperty : (name, textOrNull) ∈ properties) : ∃ s, Json.optional fields name Json.text? = some s := by
  apply exists_optional name h hproperty
  intro w _ hw
  rcases accepts_textOrNull_iff.mp hw with rfl | ⟨s, rfl⟩
  · exact Or.inl rfl
  · exact Or.inr ⟨s, rfl⟩

end Fields

end Readers

end Shape

end SchemaTables
