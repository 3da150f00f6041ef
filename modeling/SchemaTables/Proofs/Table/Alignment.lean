import SchemaTables.Proofs.Table.Relation

/-!
The parts of a compiled table follow the slots of its class one by one: a heading and a column for each
slot, whatever its range, and for each relation either a key or a check. Virtual columns come after these.
-/

namespace SchemaTables.Job

set_option autoImplicit false

variable {j : Job} {c : Class} {slot : Slot} {slots : List Slot} {row : String} {b : BuiltColumn}
  {built : List BuiltColumn} {t : CompiledTable}

/-- The slot ranges over a synthetic table, or else over a class. -/
def isRelational (j : Job) (slot : Slot) : Bool :=
  match j.options.synthetic? slot.range with
  | some _ => true
  | none =>
    match j.view.rangeOf slot with
    | .cls _ => true
    | .literal _ | .unresolved => false

/-- The key of a slot that refers to the target. -/
def key (j : Job) (r : Slot × RelationTarget) : ForeignKey :=
  ⟨r.1.name, j.options.remoteUrl r.2.table, r.2.idColumn⟩

/-- The check of a slot of the class that refers to the target. -/
def check (j : Job) (c : Class) (r : Slot × RelationTarget) : ManualCheck :=
  ⟨Options.csvPath c.name, r.1.columnTitle, r.2.table, r.2.idTitle,
    if r.1.multivalued then some j.options.separator else none⟩

/-- The table follows the slots of its class; `relations` lists the relational ones among them, in their
order, with what they refer to. -/
structure Follows (j : Job) (c : Class) (slots : List Slot) (relations : List (Slot × RelationTarget))
    (t : CompiledTable) : Prop where
  header : t.header = slots.map Slot.columnTitle
  columns : List.Forall₂ j.Shows slots (t.schema.columns.take slots.length)
  virtual : ∀ column ∈ t.schema.columns.drop slots.length, column.isVirtual = true
  identifier : ∃ id, slots.filter Slot.identifier = [id] ∧ t.schema.primaryKey = [id.name] ∧
    t.schema.aboutUrl = rowTemplate j.options.rowNamespace id.name
  relational : relations.map Prod.fst = slots.filter j.isRelational
  refersTo : ∀ r ∈ relations, j.RefersTo r.1 r.2
  keys : t.schema.foreignKeys =
    some ((relations.filter fun r => r.1.required && !r.1.multivalued).map j.key)
  checks : t.manualChecks =
    (relations.filter fun r => !(r.1.required && !r.1.multivalued)).map (j.check c)
  dependencies : ∀ p, t.dependencies.contains p = true ↔
    p.Same (Options.csvPath c.name) ∨ ∃ r ∈ relations, p.Same r.2.table

theorem enforcement_eq (target : RelationTarget) : j.enforcement c slot target =
    if slot.required && !slot.multivalued then .declarative (j.key (slot, target))
    else .manual (j.check c (slot, target)) := by
  unfold enforcement Slot.relation key check
  cases slot.multivalued <;> cases slot.required <;> rfl

/-- What is built for a slot carries a relation exactly when the slot is relational. -/
theorem buildColumn_relation_cases (h : j.buildColumn c row slot = .ok b) :
    (j.isRelational slot = false ∧ b.relation = none) ∨
    (j.isRelational slot = true ∧ ∃ target, j.RefersTo slot target ∧
      b.relation = some (target, j.enforcement c slot target)) := by
  obtain ⟨_, _, target?, htarget, hrelation⟩ := buildColumn_ok h
  cases target? with
  | some target =>
    have href := (refersTo_iff_of_target htarget).mpr rfl
    refine Or.inr ⟨?_, target, href, hrelation⟩
    cases href with
    | synthetic ht => simp only [isRelational, ht]
    | ofClass hnone hrange _ => simp only [isRelational, hnone, hrange]
  | none =>
    -- with a synthetic table or a class there would be a target or an error
    refine Or.inl ⟨?_, hrelation⟩
    unfold target at htarget
    split at htarget
    · cases htarget
    · rename_i hnone
      split at htarget
      · split at htarget
        · cases htarget
        · obtain ⟨_, _, h⟩ := Except.map_eq_ok_iff.mp htarget
          cases h
      · rename_i hrange
        simp only [isRelational, hnone, hrange]
      · rename_i hrange
        simp only [isRelational, hnone, hrange]

/-- The relations of what is built, in the order of the slots, with what becomes of them. -/
theorem exists_relations (h : List.Forall₂ (fun slot b => j.buildColumn c row slot = .ok b) slots built) :
    ∃ relations : List (Slot × RelationTarget),
      relations.map Prod.fst = slots.filter j.isRelational ∧
      (∀ r ∈ relations, j.RefersTo r.1 r.2) ∧
      foreignKeys built = (relations.filter fun r => r.1.required && !r.1.multivalued).map j.key ∧
      manualChecks built =
        (relations.filter fun r => !(r.1.required && !r.1.multivalued)).map (j.check c) ∧
      targets built = relations.map fun r => r.2.table := by
  induction h with
  | nil => exact ⟨[], rfl, by simp, rfl, rfl, rfl⟩
  | @cons slot b slots built hbuild _ ih =>
    obtain ⟨relations, hfst, hrefs, hkeys, hchecks, htargets⟩ := ih
    unfold foreignKeys at hkeys ⊢
    unfold manualChecks at hchecks ⊢
    unfold targets at htargets ⊢
    rcases buildColumn_relation_cases hbuild with ⟨hno, hnone⟩ | ⟨hyes, target, href, hsome⟩
    · refine ⟨relations, ?_, hrefs, ?_, ?_, ?_⟩
      · rw [List.filter_cons_of_neg (by simp [hno]), hfst]
      · rw [List.filterMap_cons_none (by rw [hnone]), hkeys]
      · rw [List.filterMap_cons_none (by rw [hnone]), hchecks]
      · rw [List.filterMap_cons_none (by rw [hnone]; rfl), htargets]
    · refine ⟨(slot, target) :: relations, ?_, List.forall_mem_cons.mpr ⟨href, hrefs⟩, ?_, ?_, ?_⟩
      · rw [List.filter_cons_of_pos hyes, ← hfst]
        rfl
      · rw [List.filterMap_cons, hsome, enforcement_eq, hkeys, List.filter_cons]
        cases slot.required && !slot.multivalued <;> rfl
      · rw [List.filterMap_cons, hsome, enforcement_eq, hchecks, List.filter_cons]
        cases slot.required && !slot.multivalued <;> rfl
      · rw [List.filterMap_cons_some (by rw [hsome]; rfl), htargets]
        rfl

theorem virtualColumns_virtual {columns : List Column} (h : j.virtualColumns c row slots = .ok columns) :
    ∀ column ∈ columns, column.isVirtual = true := by
  simp only [virtualColumns, Except.bind_eq_ok_iff] at h
  obtain ⟨types, htypes, content, hcontent, templates, htemplates, h⟩ := h
  cases h
  have htypes' : ∀ column ∈ types, column.isVirtual = true := by
    unfold typeColumns at htypes
    split at htypes
    · cases htypes
      simp
    · obtain ⟨_, _, rfl⟩ := Except.map_eq_ok_iff.mp htypes
      simp [Column.statement]
  have hinput : ∀ column ∈ j.inputColumns row, column.isVirtual = true := by
    simp [inputColumns, Column.statement]
  have hcontent' : ∀ column ∈ content, column.isVirtual = true := by
    unfold contentColumns at hcontent
    split at hcontent
    · cases hcontent
      simp [Column.statement]
    · split at hcontent
      · cases hcontent
      · cases hcontent
        simp
  have htemplates' : ∀ column ∈ templates.flatten, column.isVirtual = true := by
    intro column hcolumn
    obtain ⟨stated, hstated, hcolumn⟩ := List.mem_flatten.mp hcolumn
    obtain ⟨template, _, hcompiled⟩ := (Except.mapM_eq_ok_iff.mp htemplates).exists_of_mem_right hstated
    simp only [Triples.columns, Except.bind_eq_ok_iff] at hcompiled
    obtain ⟨_, _, triples, _, hcompiled⟩ := hcompiled
    cases hcompiled
    obtain ⟨triple, _, rfl⟩ := List.mem_map.mp hcolumn
    rfl
  simp only [List.forall_mem_append]
  exact ⟨⟨⟨htypes', hinput⟩, hcontent'⟩, htemplates'⟩

/-- A table that compiles follows the slots of its class. -/
theorem compileTable_follows (h : j.compileTable c = .ok t) :
    ∃ slots relations, j.view.slots c.name = .ok slots ∧ j.Follows c slots relations t := by
  obtain ⟨slots, id, built, virtual, hslots, hid, hbuilt, hvirtual, rfl⟩ := compileTable_eq_ok_iff.mp h
  obtain ⟨slots', hslots', hfilter⟩ := View.identifier_eq_ok_iff.mp hid
  cases hslots.symm.trans hslots'
  obtain ⟨relations, hrelational, hrefs, hkeys, hchecks, htargets⟩ := exists_relations hbuilt
  -- the columns of the slots end where the virtual ones begin
  have hlength : slots.length = (built.map BuiltColumn.column).length := by
    rw [List.length_map, hbuilt.length_eq]
  refine ⟨slots, relations, hslots, ?_⟩
  exact {
    header := rfl
    columns := by
      rw [hlength, List.take_left, List.forall₂_map_right_iff]
      exact hbuilt.imp fun _ _ hbuild => (buildColumn_ok hbuild).2.1
    virtual := by
      rw [hlength, List.drop_left]
      exact virtualColumns_virtual hvirtual
    identifier := ⟨id, hfilter, by simp only [hfilter, List.map_cons, List.map_nil], rfl⟩
    relational := hrelational
    refersTo := hrefs
    keys := congrArg some hkeys
    checks := hchecks
    dependencies := by
      intro p
      simp only [PathSet.contains_ofList_iff, htargets, List.mem_cons, List.mem_map]
      constructor
      · rintro ⟨q, rfl | ⟨r, hr, rfl⟩, hsame⟩
        · exact Or.inl hsame
        · exact Or.inr ⟨r, hr, hsame⟩
      · rintro (hsame | ⟨r, hr, hsame⟩)
        · exact ⟨_, Or.inl rfl, hsame⟩
        · exact ⟨_, Or.inr ⟨r, hr, rfl⟩, hsame⟩ }

/-- An order has several items, a note that is not published and one customer. -/
def orderClass : Class := { name := "Order", slots := ["items", "id", "note", "customer"] }

def orderSchema : Schema where
  name := "orders"
  classPrefix := some "ex"
  prefixes := [("ex", "https://example.org/")]
  types := [{ name := "string" }]
  classes := [orderClass, { name := "Customer", slots := ["id"] }]
  slots := [{ name := "items", range := "Item", required := true, multivalued := true, uri := some "ex:item" },
    { name := "id", required := true, identifier := true, uri := some "ex:id" }, { name := "note" },
    { name := "customer", range := "Customer", required := true, uri := some "ex:customer" }]

def orderJob : Job where
  view := ⟨orderSchema, [("Order", orderSchema.slots), ("Customer", [orderSchema.slots[1]])]⟩
  options := { syntheticTables := [{ name := "Item", path := ⟨"items.csv"⟩ }] }

theorem compileTable_follows_order : View.ofSchema orderSchema = .ok orderJob.view ∧
    ∃ t relations, orderJob.compileTable orderClass = .ok t ∧
      orderJob.Follows orderClass orderSchema.slots relations t ∧
      relations.map (fun r => r.1.name) = ["items", "customer"] := by
  obtain ⟨t, ht⟩ : ∃ t, orderJob.compileTable orderClass = .ok t := ⟨_, rfl⟩
  obtain ⟨slots, relations, hslots, hfollows⟩ := compileTable_follows ht
  obtain rfl := Except.ok.inj hslots
  refine ⟨rfl, t, relations, ht, hfollows, ?_⟩
  have hnames := congrArg (List.map Slot.name) hfollows.relational
  rwa [List.map_map] at hnames

end SchemaTables.Job
