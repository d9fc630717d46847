import PolicyEngine.Config
import PolicyEngine.Proofs.Json.Record
import PolicyEngine.Review.Result
import PolicyEngine.Template

/-!
# Reading back what is written

Templates, constraints, review results and settings are written as objects that leave out what is
empty, absent or null. All that was once read, from an object or from an array, is read again from
what is written, as the value it was.

Not every value is kept by writing it: a null schema of a template and a null match specification
of a constraint are read as absent. Neither is null in what was read, so what was read is kept. Its
form is not: fields that an array or an object spells out are left out where they have their
default, a blank enforcement action is written as the default one, and a policy is written as its
name.

## Main definitions

* `PolicyEngine.Json.ReadsBack` — what was read once is read again from what is written.

## Main results

* `PolicyEngine.Template.ofJson_toJson`, `PolicyEngine.Constraint.ofJson_toJson`,
  `PolicyEngine.ReviewResult.ofJson_toJson`, `PolicyEngine.ClientConfig.ofJson_toJson`,
  `PolicyEngine.CacheConfig.ofJson_toJson` — which values are read from what is written.
* `PolicyEngine.Json.readsBack_toJson` — all that was read is.
-/

namespace PolicyEngine

/-! ### Names -/

theorem TemplateKind.ofJson_text (kind : TemplateKind) : ofJson (.str kind.text) = .ok kind :=
  Outcome.mapError_eq_ok.2 (dif_pos kind.accepted)

theorem ConstraintName.ofJson_text (name : ConstraintName) : ofJson (.str name.text) = .ok name :=
  Outcome.mapError_eq_ok.2 (dif_pos name.accepted)

theorem TargetName.decodeIdentifier_text (name : TargetName) :
    decodeIdentifier ofString name.text = .ok name :=
  Outcome.mapError_eq_ok.2 (dif_pos name.accepted)

theorem TargetName.ofJson_text (name : TargetName) : ofJson (.str name.text) = .ok name :=
  name.decodeIdentifier_text

theorem EnforcementAction.ofJson_label (action : EnforcementAction) :
    ofJson (.str action.label) = .ok action :=
  congrArg Except.ok (dif_neg action.not_blank)

theorem CompilePolicy.ofJson_name (policy : CompilePolicy) :
    ofJson (.str policy.name) = .ok policy := by
  cases policy <;> rfl

theorem OrphanPolicy.ofJson_name (policy : OrphanPolicy) :
    ofJson (.str policy.name) = .ok policy := by
  cases policy <;> rfl

theorem ConstraintKey.ofJson_toJson (key : ConstraintKey) : ofJson key.toJson = .ok key := by
  have hkind : kindField.Holds key.toJson key.kind := .of_get key.kind.ofJson_text
  have hname : nameField.Holds key.toJson key.name := .of_get key.name.ofJson_text
  have hfits : ∀ slot ∈ [kindField.slot, nameField.slot], slot.Fits key.toJson := by
    simp [hkind.fits, hname.fits]
  refine Outcome.bind_eq_ok.2 ⟨_, Json.recordMembers_ofMembers hfits, ?_⟩
  rw [hkind.get_eq, hname.get_eq]
  rfl

/-! ### Templates -/

theorem TargetRule.ofJson_toJson (rule : TargetRule) : ofJson rule.toJson = .ok rule := by
  have hrego : regoField.Holds rule.toJson rule.rego :=
    .append (.of_get rfl) (by simp [regoField])
  have hlibs : libsField.Holds rule.toJson rule.libs := Json.holds_list (by simp) fun _ _ => rfl
  have hfits : ∀ slot ∈ [regoField.slot, libsField.slot], slot.Fits rule.toJson := by
    simp [hrego.fits, hlibs.fits]
  refine Outcome.bind_eq_ok.2 ⟨_, Json.recordMembers_ofMembers hfits, ?_⟩
  rw [hrego.get_eq, hlibs.get_eq]
  rfl

/-- A validation is read back unless its schema is null. -/
theorem Validation.ofJson_toJson {validation : Validation} (h : validation.schema ≠ some .null) :
    ofJson validation.toJson = .ok validation := by
  have hlegacy : legacyField.Holds validation.toJson validation.legacySchema :=
    .append (.of_get rfl) (by simp [legacyField])
  have hschema : schemaField.Holds validation.toJson validation.schema :=
    Json.holds_option (by simp) fun document hdocument =>
      ⟨fun hnull => h (hnull ▸ hdocument), rfl⟩
  have hfits : ∀ slot ∈ [legacyField.slot, schemaField.slot], slot.Fits validation.toJson := by
    simp [hlegacy.fits, hschema.fits]
  refine Outcome.bind_eq_ok.2 ⟨_, Json.recordMembers_ofMembers hfits, ?_⟩
  rw [hlegacy.get_eq, hschema.get_eq]
  rfl

/-- A template is read back unless its schema is null. -/
theorem Template.ofJson_toJson {t : Template} (h : t.validation.schema ≠ some .null) :
    ofJson t.toJson = .ok t := by
  have hkind : kindField.Holds t.toJson t.kind :=
    .append (.of_get t.kind.ofJson_text) (by simp [kindField])
  have hnames : shortNamesField.Holds t.toJson t.shortNames :=
    Json.holds_list (by simp) fun _ _ => rfl
  have hvalidation : validationField.Holds t.toJson t.validation :=
    .append (.of_get (Validation.ofJson_toJson h)) (by simp [validationField])
  have hrules := Json.decodeMap_map t.targets TargetName.decodeIdentifier_text
    TargetRule.ofJson_toJson
  have htargets : targetsField.Holds t.toJson t.targets :=
    .append (.of_get hrules) (by simp [targetsField])
  have hfits : ∀ slot ∈ [kindField.slot, shortNamesField.slot, validationField.slot,
      targetsField.slot], slot.Fits t.toJson := by
    simp [hkind.fits, hnames.fits, hvalidation.fits, htargets.fits]
  refine Outcome.bind_eq_ok.2 ⟨_, Json.recordMembers_ofMembers hfits, ?_⟩
  rw [hkind.get_eq, hnames.get_eq, hvalidation.get_eq, htargets.get_eq]
  rfl

/-- The schema of a template that was read is not null. -/
theorem Validation.schema_ne_null {v : Json} {validation : Validation}
    (h : ofJson v = .ok validation) : validation.schema ≠ some .null := by
  obtain ⟨r, -, h⟩ := Outcome.bind_eq_ok.1 h
  obtain ⟨legacySchema, -, h⟩ := Outcome.bind_eq_ok.1 h
  obtain ⟨schema, hschema, h⟩ := Outcome.bind_eq_ok.1 h
  obtain rfl := Except.ok.inj h
  exact Json.ne_null_of_get hschema

theorem Template.schema_ne_null {v : Json} {t : Template} (h : ofJson v = .ok t) :
    t.validation.schema ≠ some .null := by
  obtain ⟨r, -, h⟩ := Outcome.bind_eq_ok.1 h
  obtain ⟨kind, -, h⟩ := Outcome.bind_eq_ok.1 h
  obtain ⟨shortNames, -, h⟩ := Outcome.bind_eq_ok.1 h
  obtain ⟨validation, hvalidation, h⟩ := Outcome.bind_eq_ok.1 h
  obtain ⟨targets, -, h⟩ := Outcome.bind_eq_ok.1 h
  obtain rfl := Except.ok.inj h
  exact Json.Field.forall_get (f := validationField) Validation.schema_ne_null
    (fun hdefault => Option.some.inj hdefault ▸ (Option.some_ne_none _).symm) hvalidation

/-! ### Constraints -/

/-- A constraint is read back unless its match specification is null. -/
theorem Constraint.ofJson_toJson {c : Constraint} (h : c.matchSpec ≠ some .null) :
    ofJson c.toJson = .ok c := by
  have hkind : kindField.Holds c.toJson c.kind :=
    .append (.append (.of_get c.kind.ofJson_text) (by simp [kindField]))
      (by simp [kindField])
  have hname : nameField.Holds c.toJson c.name :=
    .append (.append (.of_get c.name.ofJson_text) (by simp [nameField]))
      (by simp [nameField])
  have haction : actionField.Holds c.toJson c.action :=
    .append (.append (.of_get c.action.ofJson_label) (by simp [actionField]))
      (by simp [actionField])
  have hparameters : parametersField.Holds c.toJson c.parameters := by
    refine .append (.of_get ?_) (by simp [parametersField])
    -- Null is both what is left out and what stands for it.
    cases c.parameters <;> rfl
  have hmatch : matchField.Holds c.toJson c.matchSpec :=
    Json.holds_option (by simp [or_imp, forall_and]) fun spec hspec =>
      ⟨fun hnull => h (hnull ▸ hspec), rfl⟩
  have hfits : ∀ slot ∈ [kindField.slot, nameField.slot, parametersField.slot, actionField.slot,
      matchField.slot], slot.Fits c.toJson := by
    simp [hkind.fits, hname.fits, hparameters.fits, haction.fits, hmatch.fits]
  refine Outcome.bind_eq_ok.2 ⟨_, Json.recordMembers_ofMembers hfits, ?_⟩
  rw [hkind.get_eq, hname.get_eq, hparameters.get_eq, haction.get_eq, hmatch.get_eq]
  rfl

/-- The match specification of a constraint that was read is not null. -/
theorem Constraint.matchSpec_ne_null {v : Json} {c : Constraint} (h : ofJson v = .ok c) :
    c.matchSpec ≠ some .null := by
  obtain ⟨r, -, h⟩ := Outcome.bind_eq_ok.1 h
  obtain ⟨kind, -, h⟩ := Outcome.bind_eq_ok.1 h
  obtain ⟨name, -, h⟩ := Outcome.bind_eq_ok.1 h
  obtain ⟨parameters, -, h⟩ := Outcome.bind_eq_ok.1 h
  obtain ⟨action, -, h⟩ := Outcome.bind_eq_ok.1 h
  obtain ⟨matchSpec, hmatch, h⟩ := Outcome.bind_eq_ok.1 h
  obtain rfl := Except.ok.inj h
  exact Json.ne_null_of_get hmatch

/-! ### Review results -/

theorem Violation.ofJson_toJson (x : Violation) : ofJson x.toJson = .ok x := by
  have hconstraint : constraintField.Holds x.toJson x.constraint :=
    .of_get x.constraint.ofJson_toJson
  have htarget : targetField.Holds x.toJson x.target := .of_get x.target.ofJson_text
  have haction : actionField.Holds x.toJson x.action := .of_get x.action.ofJson_label
  have hmessage : messageField.Holds x.toJson x.message := .of_get rfl
  have hdetails : detailsField.Holds x.toJson x.details := .of_get rfl
  have hfits : ∀ slot ∈ [constraintField.slot, targetField.slot, actionField.slot,
      messageField.slot, detailsField.slot], slot.Fits x.toJson := by
    simp [hconstraint.fits, htarget.fits, haction.fits, hmessage.fits, hdetails.fits]
  refine Outcome.bind_eq_ok.2 ⟨_, Json.recordMembers_ofMembers hfits, ?_⟩
  rw [hconstraint.get_eq, htarget.get_eq, haction.get_eq, hmessage.get_eq, hdetails.get_eq]
  rfl

theorem ReviewError.ofJson_toJson (e : ReviewError) : ofJson e.toJson = .ok e := by
  have htarget : targetField.Holds e.toJson e.target :=
    .append (.of_get e.target.ofJson_text) (by simp [targetField])
  have hkind : kindField.Holds e.toJson e.kind :=
    Json.holds_option (by simp) fun kind _ => ⟨by simp, kind.ofJson_text⟩
  have hmessage : messageField.Holds e.toJson e.message :=
    .append (.of_get rfl) (by simp [messageField])
  have hfits : ∀ slot ∈ [targetField.slot, kindField.slot, messageField.slot],
      slot.Fits e.toJson := by
    simp [htarget.fits, hkind.fits, hmessage.fits]
  refine Outcome.bind_eq_ok.2 ⟨_, Json.recordMembers_ofMembers hfits, ?_⟩
  rw [htarget.get_eq, hkind.get_eq, hmessage.get_eq]
  rfl

theorem ReviewResult.ofJson_toJson (r : ReviewResult) : ofJson r.toJson = .ok r := by
  have hlist := Json.decodeList_map (l := r.violations) fun x _ => x.ofJson_toJson
  have hviolations : violationsField.Holds r.toJson r.violations :=
    .append (.of_get hlist) (by simp [violationsField])
  have herrors : errorsField.Holds r.toJson r.errors :=
    Json.holds_list (by simp) fun e _ => e.ofJson_toJson
  have hfits : ∀ slot ∈ [violationsField.slot, errorsField.slot], slot.Fits r.toJson := by
    simp [hviolations.fits, herrors.fits]
  refine Outcome.bind_eq_ok.2 ⟨_, Json.recordMembers_ofMembers hfits, ?_⟩
  rw [hviolations.get_eq, herrors.get_eq]
  rfl

/-! ### Settings -/

theorem ClientConfig.ofJson_toJson (config : ClientConfig) :
    ofJson config.toJson = .ok config := by
  have htimeout : timeoutField.Holds config.toJson config.queryTimeoutMs :=
    .of_get (Json.decodeNat_ofNat "u64" _)
  have hcompile : compilePolicyField.Holds config.toJson config.compilePolicy :=
    .of_get config.compilePolicy.ofJson_name
  have horphan : orphanPolicyField.Holds config.toJson config.orphanPolicy :=
    .of_get config.orphanPolicy.ofJson_name
  have hmax : maxEvaluationsField.Holds config.toJson config.maxEvaluations :=
    .of_get (Json.decodeNat_ofNat "usize" _)
  have hfits : ∀ slot ∈ [timeoutField.slot, compilePolicyField.slot, orphanPolicyField.slot,
      maxEvaluationsField.slot], slot.Fits config.toJson := by
    simp [htimeout.fits, hcompile.fits, horphan.fits, hmax.fits]
  refine Outcome.bind_eq_ok.2 ⟨_, Json.recordMembers_ofMembers hfits, ?_⟩
  rw [htimeout.get_eq, hcompile.get_eq, horphan.get_eq, hmax.get_eq]
  rfl

theorem CacheConfig.ofJson_toJson (config : CacheConfig) : ofJson config.toJson = .ok config := by
  have horphan : orphanPolicyField.Holds config.toJson config.orphanPolicy :=
    .of_get config.orphanPolicy.ofJson_name
  have hstripes : lockStripesField.Holds config.toJson config.lockStripes :=
    .of_get (Json.decodeNat_ofNat "usize" _)
  have hfits : ∀ slot ∈ [orphanPolicyField.slot, lockStripesField.slot],
      slot.Fits config.toJson := by
    simp [horphan.fits, hstripes.fits]
  refine Outcome.bind_eq_ok.2 ⟨_, Json.recordMembers_ofMembers hfits, ?_⟩
  rw [horphan.get_eq, hstripes.get_eq]
  rfl

/-! ### What was read -/

/-- What was read once is read again from what is written. -/
def Json.ReadsBack {α : Type} (read : Json → Decoded α) (write : α → Json) : Prop :=
  ∀ {v x}, read v = .ok x → read (write x) = .ok x

theorem Json.ReadsBack.exists_of_toBool {α : Type} {read : Json → Decoded α} {write : α → Json}
    (h : ReadsBack read write) {v : Json} (hv : (read v).toBool = true) :
    ∃ x, read v = .ok x ∧ read (write x) = .ok x := by
  cases hx : read v with
  | error e =>
    rw [hx] at hv
    cases hv
  | ok x => exact ⟨x, rfl, h hx⟩

/-- **Reading back what is written.** A template, a constraint, a review result or settings that are
read from any JSON value, an object or an array of fields, are read again from what they are written
as, and are the same. -/
theorem Json.readsBack_toJson :
    ReadsBack Template.ofJson Template.toJson ∧ ReadsBack Constraint.ofJson Constraint.toJson ∧
      ReadsBack ReviewResult.ofJson ReviewResult.toJson ∧
      ReadsBack ClientConfig.ofJson ClientConfig.toJson ∧
      ReadsBack CacheConfig.ofJson CacheConfig.toJson :=
  ⟨fun h => Template.ofJson_toJson (Template.schema_ne_null h),
    fun h => Constraint.ofJson_toJson (Constraint.matchSpec_ne_null h),
    fun {_ r} _ => r.ofJson_toJson, fun {_ config} _ => config.ofJson_toJson,
    fun {_ config} _ => config.ofJson_toJson⟩

/-! ### Instances -/

namespace Listed

/-- A template as an array, with a schema of null. -/
def template : Json :=
  .arr [.str "Lamp", .arr [], .arr [.bool true, .null], .obj [("shop", .arr [.str "package p"])]]

/-- A constraint as an array, with a blank action and without a match specification. -/
def constraint : Json := .arr [.str "Lamp", .str "desk", .null, .str " "]

/-- A result as an array, with a violation without details and without errors. -/
def result : Json :=
  .arr [.arr [.arr [.arr [.str "Lamp", .str "desk"], .str "shop", .str "warn", .str "dark"]]]

/-- Settings of a client as an array, with a policy as an object. -/
def clientConfig : Json := .arr [.ofNat 0, .obj [("strict", .null)]]

/-- Settings of a cache as an empty array. -/
def cacheConfig : Json := .arr []

end Listed

/-- Arrays that leave out their last fields are read, and read again from what is written. -/
theorem Json.readsBack_toJson_listed :
    (∃ t, Template.ofJson Listed.template = .ok t ∧ Template.ofJson t.toJson = .ok t) ∧
      (∃ c, Constraint.ofJson Listed.constraint = .ok c ∧ Constraint.ofJson c.toJson = .ok c) ∧
      (∃ r, ReviewResult.ofJson Listed.result = .ok r ∧ ReviewResult.ofJson r.toJson = .ok r) ∧
      (∃ config, ClientConfig.ofJson Listed.clientConfig = .ok config ∧
        ClientConfig.ofJson config.toJson = .ok config) ∧
      ∃ config, CacheConfig.ofJson Listed.cacheConfig = .ok config ∧
        CacheConfig.ofJson config.toJson = .ok config := by
  obtain ⟨htemplate, hconstraint, hresult, hclient, hcache⟩ := readsBack_toJson
  exact ⟨htemplate.exists_of_toBool (by decide +kernel),
    hconstraint.exists_of_toBool (by decide +kernel), hresult.exists_of_toBool (by decide +kernel),
    hclient.exists_of_toBool (by decide +kernel), hcache.exists_of_toBool (by decide +kernel)⟩

end PolicyEngine
