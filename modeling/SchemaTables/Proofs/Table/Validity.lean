import SchemaTables.Proofs.Table.Relation

/-!
What validation leaves to the compilation of a table. After it every range leads to a table or to a
literal type of a known kind, and every prefix of values is declared, so that a table fails only for an
address that does not expand, a prefix of several values, a class without an address, a missing content
address or a broken template. Each function of the compilation decides its own part of this.
-/

namespace SchemaTables

set_option autoImplicit false

/-- The value stands for an address. -/
def Address.Expands (prefixes : PrefixTable) (value : String) : Prop :=
  ∃ address, Address.expand prefixes value = .ok address

section Addresses
variable {F : SchemaError → Prop} {prefixes : PrefixTable}
  (hunknown : ∀ name value, prefixes.lookup name = none → F (.unknownPrefix name value))
include hunknown

theorem Address.expand_decides (value : String) :
    (expand prefixes value).Decides (Expands prefixes value) F := by
  refine ⟨Iff.rfl, ?_⟩
  unfold expand
  split
  · exact .ok value
  · split
    · exact .ok value
    · split
      · exact .ok _
      · rename_i hnone
        exact .error (hunknown _ _ hnone)

theorem LiteralType.foreignId_decides (t : LiteralType) :
    (t.foreignId prefixes).Decides (∀ uri, t.uri = some uri → Address.Expands prefixes uri) F := by
  unfold foreignId
  split
  · rename_i hnone
    exact (Except.Decides.ok none).congr (by simp [hnone])
  · rename_i uri hsome
    exact (Address.expand_decides hunknown uri).map.congr (by simp [hsome])

theorem LiteralType.datatype_decides {t : LiteralType} {kind : BaseKind} (hkind : t.kind = .ok kind) :
    (t.datatype prefixes).Decides (∀ uri, t.uri = some uri → Address.Expands prefixes uri) F :=
  .bind_ok hkind (foreignId_decides hunknown t).bind_pure

theorem Slot.datatype_decides {t : LiteralType} {kind : BaseKind} (hkind : t.kind = .ok kind) (s : Slot)
    (rowNamespace : String) :
    (s.datatype t prefixes rowNamespace).Decides
      (kind = .uri ∧ s.multivalued = true ∨ ∀ uri, t.uri = some uri → Address.Expands prefixes uri) F := by
  have htype := (LiteralType.datatype_decides hunknown hkind).bind_pure
    (g := fun d => { d with format := s.pattern, minimum := s.minimum, maximum := s.maximum })
  unfold Slot.datatype
  split
  · -- several addresses are marked, whatever their type is
    rename_i hmultivalued
    refine .bind_ok hkind ?_
    split
    · rename_i huri
      exact (Except.Decides.ok _).congr (by simp [huri, hmultivalued])
    · rename_i huri
      exact htype.congr (by simp [huri])
  · rename_i hsingle
    exact htype.congr (by simp [hsingle])

namespace Triples
variable (htemplate : ∀ cause, F (.template cause)) {base : String}
include htemplate

theorem Token.address_fails (t : Token) : (t.address prefixes base).FailsWith F := by
  cases t with
  | iri reference => exact .ok _
  | prefixed name => exact (Address.expand_decides hunknown name).fails
  | _ => exact .error (htemplate _)

theorem Token.predicate_fails (t : Token) : (t.predicate prefixes base).FailsWith F := by
  unfold predicate
  split
  · exact .ok typePredicate
  · exact t.address_fails hunknown htemplate

theorem Token.object_fails (t : Token) : (t.object prefixes base).FailsWith F := by
  unfold object
  split
  · exact .error (htemplate .typeAsObject)
  · exact t.address_fails hunknown htemplate

theorem readStatements_fails (tokens : List Token) (state : Expected) :
    (readStatements prefixes base state tokens).FailsWith F := by
  induction tokens generalizing state with
  | nil =>
    cases state with
    | subject => exact .ok []
    | _ => exact .error (htemplate _)
  | cons t rest ih =>
    -- with and without a dot that may come instead, a predicate is read alike
    have hpredicate : ∀ s, (do
        let p ← t.predicate prefixes base
        readStatements prefixes base (.object s p) rest).FailsWith F :=
      fun s => (t.predicate_fails hunknown htemplate).bind fun p _ => ih (.object s p)
    cases state with
    | subject => exact (t.address_fails hunknown htemplate).bind fun s _ => ih (.predicate s)
    | predicate s => exact hpredicate s
    | predicateOrDot s =>
      simp only [readStatements]
      split
      · exact ih .subject
      · exact hpredicate s
    | object s p =>
      refine (t.object_fails hunknown htemplate).bind fun o _ => ?_
      exact (ih (.separator s p)).bind fun triples _ => .ok (⟨s, p, o⟩ :: triples)
    | separator s p =>
      cases t with
      | comma => exact ih (.object s p)
      | semicolon => exact ih (.predicateOrDot s)
      | dot => exact ih .subject
      | _ => exact .error (htemplate _)

theorem columns_fails (template rowNamespace row : String) :
    (columns template prefixes rowNamespace row).FailsWith F := by
  refine Except.FailsWith.bind (.mapError fun cause _ => htemplate cause) fun tokens _ => ?_
  refine Except.FailsWith.bind ?_ fun triples _ => .ok _
  exact (readStatements_fails hunknown htemplate tokens .subject).map

end Triples

end Addresses

namespace Job

variable {j : Job} {c : Class} {slots : List Slot} {slot : Slot} {row : String}

/-- What can still be wrong with the table of a class after validation. -/
inductive Fault (j : Job) (c : Class) (slots : List Slot) : SchemaError → Prop where
  | unknownPrefix {name value : String} :
      j.view.prefixes.lookup name = none → Fault j c slots (.unknownPrefix name value)
  | multivaluedPrefix {slot : Slot} {name : String} :
      slot ∈ slots → slot.multivalued = true → slot.valuePrefix = some name →
      Fault j c slots (.multivaluedPrefix name slot.name)
  | undefinedClassPrefix {name : String} :
      c.uri = none → j.view.schema.classPrefix = some name → j.view.prefixes.lookup name = none →
      Fault j c slots (.undefinedPrefix name)
  | noClassUri : c.uri = none → j.view.schema.classPrefix = none → Fault j c slots (.noClassUri c.name)
  | noContentUrl :
      j.options.requireContentUrls = true → j.options.contentUrls.lookup c.name = none →
      Fault j c slots (.noContentUrl c.name)
  | template {cause : Triples.TemplateError} : Fault j c slots (.template cause)

/-- The slot holds literal values of the type. -/
def HoldsType (j : Job) (slot : Slot) (t : LiteralType) : Prop :=
  j.options.synthetic? slot.range = none ∧ j.view.rangeOf slot = .literal t

/-- What the column of a slot asks of the schema beyond validity. The address of its literal type has no
part in a column of addresses that is marked as several or refers to what they are the addresses of. -/
structure SlotCompiles (j : Job) (slot : Slot) : Prop where
  predicate : ∀ uri, slot.uri = some uri → Address.Expands j.view.prefixes uri
  singlePrefix : slot.multivalued = true → slot.valuePrefix = none
  datatype : ∀ t, j.HoldsType slot t →
    (t.kind = .ok .uri ∧ (slot.multivalued = true ∨ slot.uri.isSome = true)) ∨
      ∀ uri, t.uri = some uri → Address.Expands j.view.prefixes uri

/-- The class has an address that expands, or none while its name has one under the default prefix. -/
def HasAddress (j : Job) (c : Class) : Prop :=
  (∃ uri, c.uri = some uri ∧ Address.Expands j.view.prefixes uri) ∨
    (c.uri = none ∧ ∃ name base,
      j.view.schema.classPrefix = some name ∧ j.view.prefixes.lookup name = some base)

/-- What the table of a class with the slots asks of the schema beyond validity. -/
structure TableCompiles (j : Job) (c : Class) (slots : List Slot) (row : String) : Prop where
  columns : ∀ slot ∈ slots, j.SlotCompiles slot
  address : slots.any Slot.designatesType = true ∨ j.HasAddress c
  content : (j.options.contentUrls.lookup c.name).isSome ∨ j.options.requireContentUrls = false
  templates : ∀ template ∈ c.templates, ∃ columns,
    Triples.columns template j.view.prefixes j.options.rowNamespace row = .ok columns

theorem baseColumn_decides :
    (j.baseColumn row slot).Decides (∀ uri, slot.uri = some uri → Address.Expands j.view.prefixes uri)
      (j.Fault c slots) := by
  unfold baseColumn
  cases slot.uri with
  | none => exact (Except.Decides.ok _).congr (by simp)
  | some uri =>
    exact (Address.expand_decides (fun _ _ => .unknownPrefix) uri).map.bind_pure.congr (by simp)

theorem checkSinglePrefix_decides (hslot : slot ∈ slots) :
    (checkSinglePrefix slot).Decides (slot.multivalued = true → slot.valuePrefix = none)
      (j.Fault c slots) := by
  unfold checkSinglePrefix
  split
  · rename_i name hname
    split
    · rename_i hmultivalued
      exact (Except.Decides.error (.multivaluedPrefix hslot hmultivalued hname)).congr
        (by simp [hmultivalued, hname])
    · rename_i hsingle
      exact (Except.Decides.ok ()).congr (by simp [hsingle])
  · rename_i hnone
    exact (Except.Decides.ok ()).congr (by simp [hnone])

theorem exists_prefixedTemplate (h : j.view.checkValuePrefix slot = .ok ()) :
    ∃ template, j.prefixedTemplate slot = .ok template := by
  unfold View.checkValuePrefix at h
  unfold prefixedTemplate
  split
  · rename_i name hname
    rw [hname] at h
    simp only at h
    split at h
    · rename_i hsome
      obtain ⟨base, hbase⟩ := Option.isSome_iff_exists.mp hsome
      exact ⟨_, by rw [Address.ofPrefix, hbase]; rfl⟩
    · cases h
  · exact ⟨none, rfl⟩

theorem literalColumn_decides {t : LiteralType} {kind : BaseKind} (hkind : t.kind = .ok kind)
    (hslot : slot ∈ slots) (hdeclared : j.view.checkValuePrefix slot = .ok ()) (column : Column) :
    (j.literalColumn slot t column).Decides
      ((slot.multivalued = true → slot.valuePrefix = none) ∧
        ((t.kind = .ok .uri ∧ (slot.multivalued = true ∨ slot.uri.isSome = true)) ∨
          ∀ uri, t.uri = some uri → Address.Expands j.view.prefixes uri))
      (j.Fault c slots) := by
  obtain ⟨template, htemplate⟩ := exists_prefixedTemplate hdeclared
  refine .bind_ok hkind ((checkSinglePrefix_decides hslot).bind fun _ _ => .bind_ok htemplate ?_)
  split
  · rename_i hsingle
    exact (Except.Decides.ok _).congr (by simp [hkind, hsingle])
  · rename_i hother
    refine (Slot.datatype_decides (fun _ _ => .unknownPrefix) hkind slot _).bind_pure.congr ?_
    simp only [hkind, Except.ok.injEq]
    -- a single address with a predicate has been dealt with
    cases hmultivalued : slot.multivalued <;> simp_all

/-- After validation the range of a slot leads to a table or to a literal type of a known kind. -/
theorem target_cases {s : Schema} (hv : View.ofSchema s = .ok j.view)
    (hvalid : j.view.validate j.options.syntheticNames = .ok ())
    (hrange : j.view.checkRange j.options.syntheticNames c slot = .ok ()) :
    (∃ target, j.target c slot = .ok (some target) ∧ ∀ t, ¬ j.HoldsType slot t) ∨
    (∃ t kind, j.target c slot = .ok none ∧ j.HoldsType slot t ∧ t.kind = .ok kind) := by
  unfold target
  cases hsynthetic : j.options.synthetic? slot.range with
  | some t => exact Or.inl ⟨_, rfl, fun _ hholds => by simp [hholds.1] at hsynthetic⟩
  | none =>
    have hnot := Options.notMem_syntheticNames hsynthetic
    cases hcls : j.view.rangeOf slot with
    | cls d =>
      have hd := View.mem_tableClasses_of_rangeOf hv hrange hnot hcls
      have hconcrete := (View.mem_tableClasses_iff.mp hd).2.1
      obtain ⟨⟨id, hid⟩, _⟩ := View.checkClass_eq_ok_iff.mp (View.validate_eq_ok_iff.mp hvalid d hd)
      refine Or.inl ⟨⟨Options.csvPath d.name, id.name, id.columnTitle⟩, ?_, ?_⟩
      · simp [hconcrete, hid, Except.map]
      · intro t hholds
        cases hcls.symm.trans hholds.2
    | literal t =>
      unfold View.checkRange at hrange
      rw [if_neg (by simpa using hnot), hcls] at hrange
      obtain ⟨kind, hkind, _⟩ := Except.map_eq_ok_iff.mp hrange
      exact Or.inr ⟨t, kind, rfl, ⟨hsynthetic, hcls⟩, hkind⟩
    | unresolved =>
      unfold View.checkRange at hrange
      rw [if_neg (by simpa using hnot), hcls] at hrange
      cases hrange

theorem buildColumn_decides {s : Schema} (hv : View.ofSchema s = .ok j.view)
    (hvalid : j.view.validate j.options.syntheticNames = .ok ()) (hslot : slot ∈ slots)
    (hdeclared : j.view.checkValuePrefix slot = .ok ())
    (hrange : j.view.checkRange j.options.syntheticNames c slot = .ok ()) :
    (j.buildColumn c row slot).Decides (j.SlotCompiles slot) (j.Fault c slots) := by
  unfold buildColumn
  rcases target_cases hv hvalid hrange with ⟨target, htarget, hnone⟩ | ⟨t, kind, htarget, hholds, hkind⟩
  · refine (baseColumn_decides.bind fun _ _ =>
      .bind_ok htarget (checkSinglePrefix_decides hslot).bind_pure).congr ?_
    refine ⟨fun ⟨huri, hsingle⟩ => ⟨huri, hsingle, ?_⟩, fun h => ⟨h.predicate, h.singlePrefix⟩⟩
    exact fun t hholds => absurd hholds (hnone t)
  · simp only [hholds.2]
    refine (baseColumn_decides.bind fun column _ =>
      .bind_ok htarget (literalColumn_decides hkind hslot hdeclared column).bind_pure).congr ?_
    refine ⟨?_, fun h => ⟨h.predicate, h.singlePrefix, h.datatype t hholds⟩⟩
    rintro ⟨huri, hsingle, hdatatype⟩
    refine ⟨huri, hsingle, fun t' hholds' => ?_⟩
    cases hholds.2.symm.trans hholds'.2
    exact hdatatype

theorem classAddress_decides : (j.classAddress c).Decides (j.HasAddress c) (j.Fault c slots) := by
  unfold classAddress HasAddress
  split
  · rename_i uri huri
    exact (Address.expand_decides (fun _ _ => .unknownPrefix) uri).congr (by simp [huri])
  · rename_i huri
    split
    · rename_i name hname
      unfold Address.ofPrefix
      split
      · rename_i base hbase
        exact (Except.Decides.ok _).congr (by simp [huri, hname, hbase])
      · rename_i hnone
        exact (Except.Decides.error (.undefinedClassPrefix huri hname hnone)).congr
          (by simp [huri, hname, hnone])
    · rename_i hname
      exact (Except.Decides.error (.noClassUri huri hname)).congr (by simp [huri, hname])

theorem typeColumns_decides :
    (j.typeColumns c slots).Decides (slots.any Slot.designatesType = true ∨ j.HasAddress c)
      (j.Fault c slots) := by
  unfold typeColumns
  split
  · rename_i hdesignated
    exact (Except.Decides.ok []).congr (iff_of_true trivial (Or.inl hdesignated))
  · rename_i hnone
    exact classAddress_decides.map.congr (or_iff_right hnone).symm

theorem contentColumns_decides :
    (j.contentColumns c row).Decides
      ((j.options.contentUrls.lookup c.name).isSome ∨ j.options.requireContentUrls = false)
      (j.Fault c slots) := by
  unfold contentColumns
  split
  · rename_i url hurl
    exact (Except.Decides.ok _).congr (by simp [hurl])
  · rename_i hnone
    split
    · rename_i hrequired
      exact (Except.Decides.error (.noContentUrl hrequired hnone)).congr (by simp [hnone, hrequired])
    · rename_i hfree
      exact (Except.Decides.ok []).congr (by simp [hfree])

theorem virtualColumns_decides :
    (j.virtualColumns c row slots).Decides
      ((slots.any Slot.designatesType = true ∨ j.HasAddress c) ∧
      ((j.options.contentUrls.lookup c.name).isSome ∨ j.options.requireContentUrls = false) ∧
      ∀ template ∈ c.templates, ∃ columns,
        Triples.columns template j.view.prefixes j.options.rowNamespace row = .ok columns)
      (j.Fault c slots) := by
  have htemplates : (c.templates.mapM fun template =>
      Triples.columns template j.view.prefixes j.options.rowNamespace row).Decides _ (j.Fault c slots) :=
    .mapM fun template _ => ⟨Iff.rfl,
      Triples.columns_fails (fun _ _ => .unknownPrefix) (fun _ => .template) template _ row⟩
  exact typeColumns_decides.bind fun _ _ => contentColumns_decides.bind fun _ _ => htemplates.bind_pure

/-- After validation the table of a class compiles exactly when its slots, its address, its content and its
templates allow it, and it never fails for a range, for a target without a table or an identifier, for the
kind of a literal type, or for a prefix of values that is not declared. -/
theorem compileTable_decides {s : Schema} (hv : View.ofSchema s = .ok j.view)
    (hvalid : j.view.validate j.options.syntheticNames = .ok ()) (hc : c ∈ j.view.tableClasses) :
    ∃ slots id, j.view.slots c.name = .ok slots ∧ j.view.identifier c.name = .ok id ∧
      ((∃ t, j.compileTable c = .ok t) ↔
        j.TableCompiles c slots (rowTemplate j.options.rowNamespace id.name)) ∧
      ∀ e, j.compileTable c = .error e → j.Fault c slots e ∧
        ∀ slot ∈ slots, ∀ name, slot.valuePrefix = some name → e ≠ .undefinedPrefix name := by
  obtain ⟨⟨id, hid⟩, slots, hslots, hchecks⟩ :=
    View.checkClass_eq_ok_iff.mp (View.validate_eq_ok_iff.mp hvalid c hc)
  have hcolumns : (slots.mapM (j.buildColumn c (rowTemplate j.options.rowNamespace id.name))).Decides
      (∀ slot ∈ slots, j.SlotCompiles slot) (j.Fault c slots) :=
    .mapM fun slot hslot =>
      buildColumn_decides hv hvalid hslot (hchecks slot hslot).1 (hchecks slot hslot).2
  have hdecides : (j.compileTable c).Decides
      (j.TableCompiles c slots (rowTemplate j.options.rowNamespace id.name)) (j.Fault c slots) := by
    refine Except.Decides.congr (.bind_ok hslots <| .bind_ok hid <|
      hcolumns.bind fun _ _ => virtualColumns_decides.bind_pure) ?_
    constructor
    · rintro ⟨hcolumns, haddress, hcontent, htemplates⟩
      exact ⟨hcolumns, haddress, hcontent, htemplates⟩
    · intro h
      exact ⟨h.columns, h.address, h.content, h.templates⟩
  refine ⟨slots, id, hslots, hid, hdecides.succeeds, fun e he => ⟨hdecides.fails e he, ?_⟩⟩
  rintro slot hslot name hname rfl
  cases hdecides.fails _ he with
  | undefinedClassPrefix _ _ hnone =>
    have hdeclared := (hchecks slot hslot).1
    simp [View.checkValuePrefix, hname, hnone] at hdeclared

/-- Two classes with a slot whose literal type has an address that does not expand. The links of a letter
are several addresses, which are marked and not typed; the weight of a parcel is not. -/
def postSchema : Schema where
  name := "post"
  classPrefix := some "ex"
  prefixes := [("ex", "https://example.org/")]
  types := [{ name := "string" }, { name := "link", base := some "uri", uri := some "net:link" },
    { name := "mass", base := some "decimal", uri := some "si:kg" }]
  classes := [{ name := "Letter", slots := ["id", "links"] }, { name := "Parcel", slots := ["id", "weight"] }]
  slots := [{ name := "id", required := true, identifier := true },
    { name := "links", range := "link", multivalued := true }, { name := "weight", range := "mass" }]

theorem compileTable_post : ∃ v, View.ofSchema postSchema = .ok v ∧ v.validate [] = .ok () ∧
    (∃ c ∈ v.tableClasses, c.name = "Letter" ∧ ∃ t, compileTable ⟨v, {}⟩ c = .ok t) ∧
    ∃ c ∈ v.tableClasses, c.name = "Parcel" ∧ ∀ t, compileTable ⟨v, {}⟩ c ≠ .ok t := by
  refine ⟨_, rfl, rfl, ⟨_, .head _, rfl, ?_⟩, ⟨_, .tail _ (.head _), rfl, ?_⟩⟩
  · obtain ⟨slots, id, hslots, hid, hiff, _⟩ :=
      compileTable_decides (j := ⟨_, {}⟩) (s := postSchema) rfl rfl (.head _)
    cases hslots
    cases hid
    refine hiff.mpr ⟨?_, Or.inr (Or.inr ⟨rfl, "ex", _, rfl, rfl⟩), Or.inr rfl, nofun⟩
    rintro slot (_ | ⟨_, _ | ⟨_, ⟨⟩⟩⟩)
    · refine ⟨nofun, nofun, fun t ht => Or.inr ?_⟩
      obtain rfl := Range.literal.inj ht.2
      exact nofun
    · refine ⟨nofun, fun _ => rfl, fun t ht => Or.inl ?_⟩
      obtain rfl := Range.literal.inj ht.2
      exact ⟨rfl, Or.inl rfl⟩
  · obtain ⟨slots, id, hslots, hid, hiff, _⟩ :=
      compileTable_decides (j := ⟨_, {}⟩) (s := postSchema) rfl rfl (.tail _ (.head _))
    cases hslots
    cases hid
    intro t ht
    have hweight := (hiff.mp ⟨t, ht⟩).columns _ (.tail _ (.head _))
    rcases hweight.datatype _ ⟨rfl, rfl⟩ with ⟨hkind, _⟩ | haddress
    · cases hkind
    · obtain ⟨_, h⟩ := haddress _ rfl
      cases h

end Job

end SchemaTables
