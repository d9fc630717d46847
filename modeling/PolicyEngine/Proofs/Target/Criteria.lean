import Mathlib.Data.Set.List
import PolicyEngine.Proofs.Schema.Acceptance
import PolicyEngine.Proofs.Target.Audit
import PolicyEngine.Store.Inventory

/-!
# What match specifications demand

The criteria of a match specification are read leniently: a list that is none restricts nothing, and
what is no string in a list is passed over. The strict match schema leaves no room for that. Every
member of a specification that it accepts is one of the six criteria and has the shape that the
criterion is read in, down to the expressions of label selectors. So the specification covers a
request exactly if the request meets each criterion that the specification has.

## Main definitions

* `PolicyEngine.Target.Glob` — the texts of a pattern.
* `PolicyEngine.Admission.Request.Reads` — what a request says, in its own parts and in those of the
  object that it carries.
* `PolicyEngine.Admission.Request.Meets` — a request meets every criterion of a specification.

## Main results

* `PolicyEngine.Admission.Request.satisfies_iff_meets` — an accepted specification is satisfied if
  all its criteria are met.
* `PolicyEngine.Admission.covers_iff_meets` — no criterion of an accepted specification is ignored.
-/

namespace PolicyEngine

/-! ### Patterns -/

/-- A text has a pattern if it is the pattern, or if the pattern is one of its beginnings with an
asterisk. -/
inductive Target.Glob : (pattern text : String) → Prop
  | exact (text : String) : Glob text text
  | beginning (stem rest : String) : Glob (stem ++ "*") (stem ++ rest)

theorem Target.matchesGlob_iff {pattern text : String} :
    matchesGlob pattern text = true ↔ Glob pattern text := by
  constructor
  · intro h
    rw [matchesGlob] at h
    split at h
    · rename_i stem hstem
      obtain ⟨rest, hrest⟩ := List.isPrefixOf_iff_prefix.1 h
      have hpattern : pattern = String.ofList stem.reverse ++ "*" := by
        apply String.toList_injective
        rw [← List.reverse_reverse pattern.toList, hstem]
        simp
      have htext : text = String.ofList stem.reverse ++ String.ofList rest := by
        apply String.toList_injective
        simp [← hrest]
      rw [hpattern, htext]
      exact .beginning _ _
    · rw [beq_iff_eq.1 h]
      exact .exact _
  · rintro (_ | ⟨stem, rest⟩)
    · rw [matchesGlob]
      split
      · rename_i stem hstem
        have hpattern : pattern.toList = stem.reverse ++ ['*'] := by
          rw [← List.reverse_reverse pattern.toList, hstem, List.reverse_cons]
        rw [hpattern, List.isPrefixOf_iff_prefix]
        exact List.prefix_append _ _
      · exact beq_self_eq_true pattern
    · simp [matchesGlob]

/-! ### Lists of strings -/

namespace Json

theorem isNull_eq_false_iff {v : Json} : v.isNull = false ↔ v ≠ .null := by
  cases v <;> simp [isNull]

theorem text?_eq_some_iff {v : Json} {text : String} : v.text? = some text ↔ v = .str text := by
  cases v <;> simp [text?]

theorem bind_text?_eq_some_iff {o : Option Json} {text : String} :
    o.bind text? = some text ↔ o = some (.str text) := by
  cases o <;> simp [text?_eq_some_iff]

end Json

namespace Admission

/-- The strings that a value lists under a key; none if it has no such member. -/
inductive Lists (v : Json) (key : String) : List String → Prop
  | absent (h : v.get? key = none) : Lists v key []
  | array {texts : List String} (h : v.get? key = some (.arr (texts.map .str))) : Lists v key texts

namespace Lists

variable {v : Json} {key : String} {texts : List String}

theorem strings?_eq (h : Lists v key texts) : (v.strings? key).getD [] = texts := by
  have hfilter : (texts.map Json.str).filterMap Json.text? = texts := by
    rw [List.filterMap_map]
    exact List.filterMap_some
  cases h with
  | absent h => simp [Json.strings?, h]
  | array h => simp [Json.strings?, h, Json.elements?, hfilter]

/-- What is listed has a property if it is read so. -/
theorem exists_and_iff (h : ∃ texts, Lists v key texts) {P : List String → Prop} :
    (∃ texts, Lists v key texts ∧ P texts) ↔ P ((v.strings? key).getD []) := by
  obtain ⟨texts, htexts⟩ := h
  constructor
  · rintro ⟨texts', htexts', hP⟩
    rwa [htexts'.strings?_eq]
  · intro hP
    exact ⟨texts, htexts, htexts.strings?_eq ▸ hP⟩

end Lists

/-- An accepted array of strings is one. -/
theorem exists_eq_map_of_accepts {v : Json} (h : stringsSchema.accepts v = true) :
    ∃ texts : List String, v = .arr (texts.map .str) := by
  obtain ⟨elements, rfl, helements⟩ := Schema.accepts_arrayOf_iff.1 h
  have hrange : elements ∈ Set.range (List.map Json.str) := by
    rw [Set.range_list_map]
    intro e he
    obtain ⟨text, rfl⟩ := Schema.accepts_string_iff.1 (helements e he)
    exact ⟨text, rfl⟩
  obtain ⟨texts, rfl⟩ := hrange
  exact ⟨texts, rfl⟩

theorem exists_lists {v : Json} {key : String}
    (h : ∀ w, v.get? key = some w → stringsSchema.accepts w = true) :
    ∃ texts, Lists v key texts := by
  cases hget : v.get? key with
  | none => exact ⟨[], .absent hget⟩
  | some w =>
    obtain ⟨texts, rfl⟩ := exists_eq_map_of_accepts (h w hget)
    exact ⟨texts, .array hget⟩

/-! ### Requests -/

/-- The text at a path of member names, or the empty text. -/
def textAt (path : List String) (v : Json) : String :=
  ((Inventory.lookup? path v).bind Json.text?).getD ""

namespace Request

/-- What a request says. Its object is the one that it carries as such, or else the old one; its
name and its namespace are its own, or where these are empty those of the metadata of the object. -/
structure Reads (r : Request) (review : Json) : Prop where
  group : r.group = textAt ["kind", "group"] review
  kind : r.kind = textAt ["kind", "kind"] review
  object : ∀ object, r.object = some object ↔ object ≠ .null ∧
    (review.get? "object" = some object ∨ review.get? "oldObject" = some object ∧
      (review.get? "object" = none ∨ review.get? "object" = some .null))
  name : r.name = if textAt ["name"] review ≠ "" then textAt ["name"] review
    else (r.object.map (textAt ["metadata", "name"])).getD ""
  ns : r.ns = if textAt ["namespace"] review ≠ "" then textAt ["namespace"] review
    else (r.object.map (textAt ["metadata", "namespace"])).getD ""

/-- The object has a label with a text. -/
def HasLabel (r : Request) (key text : String) : Prop :=
  ∃ object, r.object = some object ∧
    Inventory.lookup? ["metadata", "labels", key] object = some (.str text)

/-- The object has a namespace: that of its own name if it is a namespace itself, and else the one
of the request, unless that is empty. -/
inductive LiesIn (r : Request) : String → Prop
  | itself (hgroup : r.group = "") (hkind : r.kind = "Namespace") : LiesIn r r.name
  | request (hother : ¬(r.group = "" ∧ r.kind = "Namespace")) (hns : r.ns ≠ "") : LiesIn r r.ns

/-! ### Criteria -/

/-- An entry of `kinds` names the group and the kind of the object, by name or by an asterisk. -/
structure IsNamedBy (r : Request) (entry : Json) : Prop where
  group : ∃ groups, Lists entry "apiGroups" groups ∧ ("*" ∈ groups ∨ r.group ∈ groups)
  kind : ∃ kinds, Lists entry "kinds" kinds ∧ ("*" ∈ kinds ∨ r.kind ∈ kinds)

/-- What the operators of label selectors demand of the label under a key. -/
inductive Obeys (r : Request) (key : String) (values : List String) : (operator : String) → Prop
  | among {text : String} (hlabel : r.HasLabel key text) (h : text ∈ values) :
      Obeys r key values "In"
  | notAmong (h : ∀ text, r.HasLabel key text → text ∉ values) : Obeys r key values "NotIn"
  | present {text : String} (hlabel : r.HasLabel key text) : Obeys r key values "Exists"
  | absent (h : ∀ text, ¬r.HasLabel key text) : Obeys r key values "DoesNotExist"

/-- The object's labels are as an expression of a label selector demands. -/
def Fulfils (r : Request) (expression : Json) : Prop :=
  ∃ key operator values, expression.get? "key" = some (.str key) ∧
    expression.get? "operator" = some (.str operator) ∧ Lists expression "values" values ∧
    r.Obeys key values operator

/-- The object's labels are as a label selector demands. -/
structure IsSelectedBy (r : Request) (selector : Json) : Prop where
  matchLabels : ∀ labels, selector.get? "matchLabels" = some labels →
    ∃ pairs, labels = .obj pairs ∧
      ∀ pair ∈ pairs, ∃ text, pair.2 = .str text ∧ r.HasLabel pair.1 text
  matchExpressions : ∀ expressions, selector.get? "matchExpressions" = some expressions →
    ∃ demands, expressions = .arr demands ∧ ∀ expression ∈ demands, r.Fulfils expression

/-- A request meets every criterion of a match specification. A criterion that has not the shape in
which it is read is met by no request. -/
structure Meets (r : Request) (spec : Json) : Prop where
  kinds : ∀ kinds, spec.get? "kinds" = some kinds →
    ∃ entries, kinds = .arr entries ∧ (entries = [] ∨ ∃ entry ∈ entries, r.IsNamedBy entry)
  scope : ∀ scope, spec.get? "scope" = some scope → scope = .str "*" ∨
    scope = .str "Cluster" ∧ r.ns = "" ∨ scope = .str "Namespaced" ∧ r.ns ≠ ""
  namespaces : ∀ ns, r.LiesIn ns → ∃ patterns, Lists spec "namespaces" patterns ∧
    (patterns = [] ∨ ∃ pattern ∈ patterns, Target.Glob pattern ns)
  excludedNamespaces : ∀ ns, r.LiesIn ns → ∃ patterns,
    Lists spec "excludedNamespaces" patterns ∧ ∀ pattern ∈ patterns, ¬Target.Glob pattern ns
  name : ∀ name, spec.get? "name" = some name →
    ∃ pattern, name = .str pattern ∧ Target.Glob pattern r.name
  labelSelector : ∀ selector, spec.get? "labelSelector" = some selector → r.IsSelectedBy selector

/-! ### What a request says -/

theorem textAt_cons (key : String) (path : List String) (v : Json) :
    textAt (key :: path) v = ((v.get? key).map (textAt path)).getD "" := by
  cases hget : v.get? key <;> simp [textAt, Inventory.lookup?, hget]

theorem textAt_singleton (key : String) : textAt [key] = textOf key := by
  funext v
  simp [textAt, textOf, Inventory.lookup?]

theorem ownOrMetadata_eq_ite (review : Json) (key : String) : ownOrMetadata review key =
    if textAt [key] review ≠ "" then textAt [key] review
    else ((carriedObject review).map (textAt ["metadata", key])).getD "" := by
  have hmetadata : ((carriedObject review).map (textAt ["metadata", key])).getD "" =
      (((carriedObject review).bind (·.get? "metadata")).map (textOf key)).getD "" := by
    cases carriedObject review with
    | none => rfl
    | some object => simp [textAt_cons, textAt_singleton]
  rw [ownOrMetadata, hmetadata, textAt_singleton]
  split
  · rename_i hown
    rw [if_neg (not_not_intro hown)]
  · rename_i hown
    rw [if_pos hown]

theorem carriedObject_eq_some_iff {review object : Json} : carriedObject review = some object ↔
    object ≠ .null ∧ (review.get? "object" = some object ∨ review.get? "oldObject" = some object ∧
      (review.get? "object" = none ∨ review.get? "object" = some .null)) := by
  have hsome : ∀ {o : Option Json} {v}, o.filter (fun v => !v.isNull) = some v ↔
      v ≠ .null ∧ o = some v := by
    simp [Option.filter_eq_some_iff, Json.isNull_eq_false_iff, and_comm]
  rw [carriedObject]
  split
  · rename_i new hnew
    obtain ⟨hnull, hnew⟩ := hsome.1 hnew
    rw [hnew]
    grind
  · rename_i hnone
    have habsent : review.get? "object" = none ∨ review.get? "object" = some .null := by
      cases hget : review.get? "object" <;> simp_all [Json.isNull_eq_false_iff]
    rw [hsome]
    grind

theorem reads_ofReview (review : Json) : (ofReview review).Reads review where
  group := by simp [ofReview, textAt_cons, textAt_singleton]
  kind := by simp [ofReview, textAt_cons, textAt_singleton]
  object _ := carriedObject_eq_some_iff
  name := ownOrMetadata_eq_ite review "name"
  ns := ownOrMetadata_eq_ite review "namespace"

variable {r : Request}

/-- A request says one thing only. -/
theorem Reads.unique {r' : Request} {review : Json} (h : r.Reads review) (h' : r'.Reads review) :
    r = r' := by
  have hobject : r.object = r'.object := by
    ext object
    exact (h.object object).trans (h'.object object).symm
  obtain ⟨_, _, _, _, _⟩ := r
  obtain ⟨_, _, _, _, _⟩ := r'
  obtain rfl := hobject
  rw [Request.mk.injEq]
  exact ⟨h.group.trans h'.group.symm, h.kind.trans h'.kind.symm, h.name.trans h'.name.symm,
    h.ns.trans h'.ns.symm, rfl⟩

theorem reads_iff {review : Json} : r.Reads review ↔ r = ofReview review :=
  ⟨fun h => h.unique (reads_ofReview review), fun h => h ▸ reads_ofReview review⟩

theorem hasLabel_iff {key text : String} : r.HasLabel key text ↔ r.label? key = some text := by
  rw [HasLabel, label?]
  rw [Json.bind_text?_eq_some_iff]
  cases r.object <;> simp [Inventory.lookup?, Option.bind_assoc]

theorem effectiveNamespace?_eq_some_iff {ns : String} :
    r.effectiveNamespace? = some ns ↔ r.LiesIn ns := by
  have hnamespace : r.isNamespace = true ↔ r.group = "" ∧ r.kind = "Namespace" := by
    simp [isNamespace]
  rw [effectiveNamespace?]
  constructor
  · intro h
    split at h
    · rename_i hself
      obtain ⟨hgroup, hkind⟩ := hnamespace.1 hself
      obtain rfl := Option.some.inj h
      exact .itself hgroup hkind
    · rename_i hother
      split at h
      · cases h
      · rename_i hns
        obtain rfl := Option.some.inj h
        exact .request (mt hnamespace.2 hother) (by simpa using hns)
  · rintro (⟨hgroup, hkind⟩ | ⟨hother, hns⟩)
    · rw [if_pos (hnamespace.2 ⟨hgroup, hkind⟩)]
    · rw [if_neg (mt hnamespace.1 hother), if_neg (by simpa using hns)]

/-! ### Accepted specifications -/

/-- The schema of an entry of `kinds`. -/
def entrySchema : Schema := .record [("apiGroups", stringsSchema), ("kinds", stringsSchema)]

theorem exists_lists_apiGroups {entry : Json} (h : entrySchema.accepts entry = true) :
    ∃ groups, Lists entry "apiGroups" groups :=
  exists_lists fun _ => Schema.accepts_of_declared [] (by simp) h rfl

theorem exists_lists_kinds {entry : Json} (h : entrySchema.accepts entry = true) :
    ∃ kinds, Lists entry "kinds" kinds :=
  exists_lists fun _ => Schema.accepts_of_declared [] (by simp) h rfl

theorem any_eq_asterisk_or_iff {texts : List String} {text : String} :
    texts.any (fun t => t == "*" || t == text) = true ↔ "*" ∈ texts ∨ text ∈ texts := by
  simp only [List.any_eq_true, Bool.or_eq_true, beq_iff_eq]
  constructor
  · rintro ⟨_, hmem, rfl | rfl⟩
    · exact .inl hmem
    · exact .inr hmem
  · rintro (hmem | hmem)
    · exact ⟨_, hmem, .inl rfl⟩
    · exact ⟨_, hmem, .inr rfl⟩

theorem isNamedBy_iff {entry : Json} (h : entrySchema.accepts entry = true) :
    r.IsNamedBy entry ↔
      (((entry.strings? "apiGroups").getD []).any (fun g => g == "*" || g == r.group) &&
        ((entry.strings? "kinds").getD []).any fun k => k == "*" || k == r.kind) = true := by
  have hgroup := Lists.exists_and_iff (exists_lists_apiGroups h)
    (P := fun texts => "*" ∈ texts ∨ r.group ∈ texts)
  have hkind := Lists.exists_and_iff (exists_lists_kinds h)
    (P := fun texts => "*" ∈ texts ∨ r.kind ∈ texts)
  rw [Bool.and_eq_true, any_eq_asterisk_or_iff, any_eq_asterisk_or_iff, ← hgroup, ← hkind]
  exact ⟨fun h => ⟨h.group, h.kind⟩, fun h => ⟨h.1, h.2⟩⟩

/-- The schema of an expression of a label selector. -/
def expressionSchema : Schema :=
  .withRequired ["key", "operator"] <| .record [
    ("key", .string),
    ("operator", .withAllowed
      [.str "In", .str "NotIn", .str "Exists", .str "DoesNotExist"] .string),
    ("values", stringsSchema)]

/-- An accepted expression has a key and one of the operators, and lists values if any. -/
theorem exists_of_accepts_expression {expression : Json}
    (h : expressionSchema.accepts expression = true) :
    ∃ key operator texts, expression.get? "key" = some (.str key) ∧
      expression.get? "operator" = some (.str operator) ∧ Lists expression "values" texts := by
  have hproperty : ∀ key {w} {s : Schema}, _ → expression.get? key = some w →
      s.accepts w = true :=
    fun _ => Schema.accepts_of_declared ["key", "operator"] (by simp) h
  have hrequired : ∀ key ∈ ["key", "operator"], ∃ w, expression.get? key = some w :=
    fun _ => Schema.exists_get?_of_accepts _ (by simp) h
  obtain ⟨w, hw⟩ := hrequired "key" (by simp)
  obtain ⟨key, rfl⟩ := Schema.accepts_string_iff.1 (hproperty "key" rfl hw)
  obtain ⟨w, hw'⟩ := hrequired "operator" (by simp)
  obtain ⟨operator, -, rfl⟩ := (Schema.accepts_listed_iff
    ["In", "NotIn", "Exists", "DoesNotExist"]).1 (hproperty "operator" rfl hw')
  obtain ⟨texts, hvalues⟩ := exists_lists fun _ => hproperty "values" rfl
  exact ⟨key, operator, texts, hw, hw', hvalues⟩

theorem obeys_in_iff {key : String} {values : List String} :
    r.Obeys key values "In" ↔ ∃ text, r.HasLabel key text ∧ text ∈ values := by
  constructor
  · intro h
    -- the case split needs an operator that is not yet known
    generalize hoperator : "In" = operator at h
    rcases h with ⟨hlabel, htext⟩ | _ | _ | _
    · exact ⟨_, hlabel, htext⟩
    all_goals simp at hoperator
  · rintro ⟨text, hlabel, htext⟩
    exact .among hlabel htext

theorem expressionHolds_iff_obeys {expression : Json} {key operator : String}
    {values : List String} (hkey : expression.get? "key" = some (.str key))
    (hoperator : expression.get? "operator" = some (.str operator))
    (hvalues : Lists expression "values" values) :
    r.expressionHolds expression = true ↔ r.Obeys key values operator := by
  have hany : (r.label? key).any values.contains = true ↔
      ∃ text, r.HasLabel key text ∧ text ∈ values := by
    simp [hasLabel_iff, Option.any_eq_true]
  have hsome : (r.label? key).isSome = true ↔ ∃ text, r.HasLabel key text := by
    simp [hasLabel_iff, Option.isSome_iff_exists]
  simp only [expressionHolds, textOf, hkey, hoperator, hvalues.strings?_eq, Option.bind_some,
    Json.text?, Option.getD_some]
  constructor
  · intro h
    split at h
    · rename_i heq
      obtain rfl := Option.some.inj heq
      obtain ⟨text, hlabel, htext⟩ := hany.1 h
      exact .among hlabel htext
    · rename_i heq
      obtain rfl := Option.some.inj heq
      rw [Bool.not_eq_true', ← Bool.not_eq_true, hany] at h
      exact .notAmong fun text hlabel htext => h ⟨text, hlabel, htext⟩
    · rename_i heq
      obtain rfl := Option.some.inj heq
      obtain ⟨text, hlabel⟩ := hsome.1 h
      exact .present hlabel
    · rename_i heq
      obtain rfl := Option.some.inj heq
      rw [← Option.not_isSome, Bool.not_eq_true', ← Bool.not_eq_true, hsome] at h
      exact .absent fun text hlabel => h ⟨text, hlabel⟩
    · cases h
  · rintro (⟨hlabel, htext⟩ | h | hlabel | h)
    · exact hany.2 ⟨_, hlabel, htext⟩
    · change (!(r.label? key).any values.contains) = true
      rw [Bool.not_eq_true', ← Bool.not_eq_true, hany]
      rintro ⟨text, hlabel, htext⟩
      exact h text hlabel htext
    · exact hsome.2 ⟨_, hlabel⟩
    · change (r.label? key).isNone = true
      rw [← Option.not_isSome, Bool.not_eq_true', ← Bool.not_eq_true, hsome]
      rintro ⟨text, hlabel⟩
      exact h text hlabel

theorem expressionHolds_iff {expression : Json} (h : expressionSchema.accepts expression = true) :
    r.expressionHolds expression = true ↔ r.Fulfils expression := by
  constructor
  · intro hholds
    obtain ⟨key, operator, values, hkey, hoperator, hvalues⟩ := exists_of_accepts_expression h
    exact ⟨key, operator, values, hkey, hoperator, hvalues,
      (expressionHolds_iff_obeys hkey hoperator hvalues).1 hholds⟩
  · rintro ⟨key, operator, values, hkey, hoperator, hvalues, hobeys⟩
    exact (expressionHolds_iff_obeys hkey hoperator hvalues).2 hobeys

/-- The schema of label selectors. -/
def selectorSchema : Schema :=
  .record [("matchLabels", .mapOf .string), ("matchExpressions", .arrayOf expressionSchema)]

/-- Whether the labels are as a label selector demands. -/
def selects (r : Request) (selector : Json) : Bool :=
  (((selector.get? "matchLabels").map members).getD []).all
      (fun (key, value) => r.label? key == value.text?) &&
    (((selector.get? "matchExpressions").bind Json.elements?).getD []).all r.expressionHolds

theorem labelsMatch_eq_all (spec : Json) :
    labelsMatch spec r = (spec.get? "labelSelector").all r.selects := by
  rw [labelsMatch]
  cases spec.get? "labelSelector" <;> rfl

theorem selects_iff {selector : Json} (h : selectorSchema.accepts selector = true) :
    r.selects selector = true ↔ r.IsSelectedBy selector := by
  have hpart : ∀ {key w} {s : Schema}, _ → selector.get? key = some w → s.accepts w = true :=
    Schema.accepts_of_declared [] (by simp) h
  have hlabels : (((selector.get? "matchLabels").map members).getD []).all
      (fun (key, value) => r.label? key == value.text?) = true ↔
        ∀ labels, selector.get? "matchLabels" = some labels → ∃ pairs, labels = .obj pairs ∧
          ∀ pair ∈ pairs, ∃ text, pair.2 = .str text ∧ r.HasLabel pair.1 text := by
    cases hget : selector.get? "matchLabels" with
    | none => simp
    | some labels =>
      obtain ⟨pairs, rfl, hpairs⟩ := Schema.accepts_mapOf_iff.1 (hpart rfl hget)
      have hpair : ∀ pair ∈ pairs, (r.label? pair.1 == pair.2.text?) = true ↔
          ∃ text, pair.2 = .str text ∧ r.HasLabel pair.1 text := by
        intro pair hmem
        obtain ⟨text, htext⟩ := Schema.accepts_string_iff.1 (hpairs pair hmem)
        simp [htext, Json.text?, hasLabel_iff]
      have hall := List.all_eq_true.trans (forall₂_congr hpair)
      simpa [members] using hall
  have hexpressions : (((selector.get? "matchExpressions").bind Json.elements?).getD []).all
      r.expressionHolds = true ↔
        ∀ expressions, selector.get? "matchExpressions" = some expressions →
          ∃ demands, expressions = .arr demands ∧ ∀ expression ∈ demands, r.Fulfils expression := by
    cases hget : selector.get? "matchExpressions" with
    | none => simp
    | some expressions =>
      obtain ⟨demands, rfl, hdemands⟩ := Schema.accepts_arrayOf_iff.1 (hpart rfl hget)
      have hall := List.all_eq_true.trans (forall₂_congr fun expression hmem =>
        expressionHolds_iff (r := r) (hdemands expression hmem))
      simpa [Json.elements?] using hall
  rw [selects, Bool.and_eq_true, hlabels, hexpressions]
  exact ⟨fun h => ⟨h.1, h.2⟩, fun h => ⟨h.matchLabels, h.matchExpressions⟩⟩

/-- The criteria of match specifications with their schemas. -/
def criteria : List (String × Schema) :=
  [("kinds", .arrayOf entrySchema), ("namespaces", stringsSchema),
    ("excludedNamespaces", stringsSchema), ("labelSelector", selectorSchema),
    ("scope", .withAllowed [.str "*", .str "Cluster", .str "Namespaced"] .string),
    ("name", .string)]

theorem matchSchema_eq : matchSchema = .withRequired [] (.record criteria) := rfl

theorem nodup_criteria : (criteria.map Prod.fst).Nodup := by simp [criteria]

section Criteria

variable {spec : Json} (h : matchSchema.accepts spec = true)

include h

/-- A criterion of an accepted specification is what it is declared to be. -/
theorem accepts_criterion {key : String} {w : Json} {s : Schema}
    (hs : Assoc.get? key criteria = some s) (hw : spec.get? key = some w) :
    s.accepts w = true :=
  Schema.accepts_of_declared _ nodup_criteria (matchSchema_eq ▸ h) hs hw

theorem kindsMatch_iff : kindsMatch spec r = true ↔ ∀ kinds, spec.get? "kinds" = some kinds →
    ∃ entries, kinds = .arr entries ∧ (entries = [] ∨ ∃ entry ∈ entries, r.IsNamedBy entry) := by
  rw [kindsMatch]
  cases hget : spec.get? "kinds" with
  | none => simp
  | some kinds =>
    obtain ⟨entries, rfl, hentries⟩ := Schema.accepts_arrayOf_iff.1
      (accepts_criterion h (s := .arrayOf entrySchema) rfl hget)
    have hany : (∃ entry ∈ entries, r.IsNamedBy entry) ↔ entries.any (fun entry =>
        ((entry.strings? "apiGroups").getD []).any (fun g => g == "*" || g == r.group) &&
          ((entry.strings? "kinds").getD []).any fun k => k == "*" || k == r.kind) = true := by
      rw [List.any_eq_true]
      exact exists_congr fun entry =>
        and_congr_right fun hmem => isNamedBy_iff (hentries entry hmem)
    cases entries with
    | nil => simp [Json.elements?]
    | cons entry rest =>
      rw [Option.bind_some, Json.elements?]
      dsimp only
      rw [← hany]
      simp

theorem scopeMatches_iff : scopeMatches spec r = true ↔
    ∀ scope, spec.get? "scope" = some scope → scope = .str "*" ∨
      scope = .str "Cluster" ∧ r.ns = "" ∨ scope = .str "Namespaced" ∧ r.ns ≠ "" := by
  rw [scopeMatches]
  cases hget : spec.get? "scope" with
  | none => simp
  | some scope =>
    obtain ⟨text, htext, rfl⟩ := (Schema.accepts_listed_iff
      ["*", "Cluster", "Namespaced"]).1 (accepts_criterion h rfl hget)
    simp only [List.mem_cons, List.not_mem_nil, or_false] at htext
    rcases htext with rfl | rfl | rfl <;> simp [Json.text?]

theorem exists_lists_namespaces : ∃ patterns, Lists spec "namespaces" patterns :=
  exists_lists fun _ => accepts_criterion h rfl

theorem exists_lists_excludedNamespaces : ∃ patterns, Lists spec "excludedNamespaces" patterns :=
  exists_lists fun _ => accepts_criterion h rfl

theorem namespacesMatch_iff : namespacesMatch spec r = true ↔
    (∀ ns, r.LiesIn ns → ∃ patterns, Lists spec "namespaces" patterns ∧
      (patterns = [] ∨ ∃ pattern ∈ patterns, Target.Glob pattern ns)) ∧
    ∀ ns, r.LiesIn ns → ∃ patterns, Lists spec "excludedNamespaces" patterns ∧
      ∀ pattern ∈ patterns, ¬Target.Glob pattern ns := by
  simp only [Lists.exists_and_iff (exists_lists_namespaces h),
    Lists.exists_and_iff (exists_lists_excludedNamespaces h), ← effectiveNamespace?_eq_some_iff,
    ← Target.matchesGlob_iff, ← forall_and]
  rw [namespacesMatch]
  cases r.effectiveNamespace? with
  | none => simp
  | some ns => simp

theorem nameMatches_iff : nameMatches spec r = true ↔ ∀ name, spec.get? "name" = some name →
    ∃ pattern, name = .str pattern ∧ Target.Glob pattern r.name := by
  rw [nameMatches]
  cases hget : spec.get? "name" with
  | none => simp
  | some name =>
    obtain ⟨pattern, rfl⟩ := Schema.accepts_string_iff.1 (accepts_criterion h rfl hget)
    simp [Json.text?, Target.matchesGlob_iff]

theorem labelsMatch_iff : labelsMatch spec r = true ↔
    ∀ selector, spec.get? "labelSelector" = some selector → r.IsSelectedBy selector := by
  rw [labelsMatch_eq_all]
  cases hget : spec.get? "labelSelector" with
  | none => simp
  | some selector =>
    simpa using selects_iff (r := r) (accepts_criterion h rfl hget)

/-- An accepted specification is satisfied if all its criteria are met. -/
theorem satisfies_iff_meets : r.satisfies spec = true ↔ r.Meets spec := by
  simp only [satisfies, Bool.and_eq_true, kindsMatch_iff h, scopeMatches_iff h,
    namespacesMatch_iff h, nameMatches_iff h, labelsMatch_iff h]
  constructor
  · rintro ⟨⟨⟨⟨hkinds, hscope⟩, hnamespaces, hexcluded⟩, hname⟩, hlabels⟩
    exact ⟨hkinds, hscope, hnamespaces, hexcluded, hname, hlabels⟩
  · intro h
    exact ⟨⟨⟨⟨h.kinds, h.scope⟩, h.namespaces, h.excludedNamespaces⟩, h.name⟩, h.labelSelector⟩

end Criteria

/-! ### Labels as expressions -/

/-- A label selector with pairs and expressions. -/
def selector (pairs : List (String × Json)) (expressions : List Json) : Json :=
  .obj [("matchExpressions", .arr expressions), ("matchLabels", .obj pairs)]

/-- The expression that a label has one of some texts. -/
def amongTexts (key : String) (texts : List String) : Json :=
  .obj [("key", .str key), ("operator", .str "In"), ("values", .arr (texts.map .str))]

/-- A pair of `matchLabels` demands what the expression with the single text demands. -/
theorem selects_amongTexts (key text : String) (front back : List (String × Json))
    (expressions : List Json) :
    r.selects (selector (front ++ (key, .str text) :: back) expressions) =
      r.selects (selector (front ++ back) (amongTexts key [text] :: expressions)) := by
  have hholds : r.expressionHolds (amongTexts key [text]) = (r.label? key == some text) := by
    have hvalues : Lists (amongTexts key [text]) "values" [text] := .array rfl
    rw [Bool.eq_iff_iff, expressionHolds_iff_obeys rfl rfl hvalues, beq_iff_eq, ← hasLabel_iff,
      obeys_in_iff]
    simp
  change ((front ++ (key, .str text) :: back).all _ && expressions.all _) =
    ((front ++ back).all _ && (r.expressionHolds (amongTexts key [text]) && expressions.all _))
  rw [hholds, List.all_append, List.all_append, List.all_cons]
  change (_ && ((r.label? key == some text) && _) && _) = _
  rw [Bool.eq_iff_iff]
  simp only [Bool.and_eq_true]
  tauto

/-- Specifications that differ in selectors only of which both or none select the object. -/
theorem satisfies_congr {front back : List (String × Json)} {selector selector' : Json}
    (h : r.selects selector = r.selects selector') :
    r.satisfies (.obj (front ++ ("labelSelector", selector) :: back)) =
      r.satisfies (.obj (front ++ ("labelSelector", selector') :: back)) := by
  have hget : ∀ key, key ≠ "labelSelector" →
      (Json.obj (front ++ ("labelSelector", selector) :: back)).get? key =
        (Json.obj (front ++ ("labelSelector", selector') :: back)).get? key := by
    intro key hkey
    simp only [Json.get?, Assoc.get?_append, Assoc.get?_cons, if_neg hkey]
  have hlabels : labelsMatch (.obj (front ++ ("labelSelector", selector) :: back)) r =
      labelsMatch (.obj (front ++ ("labelSelector", selector') :: back)) r := by
    simp only [labelsMatch_eq_all, Json.get?, Assoc.get?_append, Assoc.get?_cons, if_pos]
    cases Assoc.get? "labelSelector" front with
    | none => simp [h]
    | some own => rfl
  simp only [satisfies, kindsMatch, scopeMatches, namespacesMatch, nameMatches, Json.strings?,
    hlabels, hget "kinds" (by simp), hget "scope" (by simp), hget "namespaces" (by simp),
    hget "excludedNamespaces" (by simp), hget "name" (by simp)]

end Request

/-! ### Coverage -/

/-- **No criterion is ignored.** A match specification that the strict match schema accepts has no
members but the six criteria. It covers exactly those requests, read as what they say of themselves
and of the object that they carry, which meet each of its criteria. And in every specification a
pair of `matchLabels` may be written as the expression that the label is among its text alone. -/
theorem covers_iff_meets {spec : Json} (h : (target.matchSchema.resolve false).accepts spec = true)
    (review : Json) :
    (∀ key value, spec.get? key = some value → key ∈
      ["kinds", "namespaces", "excludedNamespaces", "labelSelector", "scope", "name"]) ∧
    (∃ r : Request, (∀ r' : Request, r'.Reads review ↔ r' = r) ∧
      (target.covers (some spec) review = true ↔ r.Meets spec)) ∧
    ∀ key text front back front' back' expressions,
      target.covers (some (.obj (front ++ ("labelSelector",
        Request.selector (front' ++ (key, .str text) :: back') expressions) :: back))) review =
      target.covers (some (.obj (front ++ ("labelSelector",
        Request.selector (front' ++ back') (Request.amongTexts key [text] :: expressions)) ::
          back))) review := by
  have haccepts : matchSchema.accepts spec = true := by
    rwa [Schema.accepts_resolve_false] at h
  refine ⟨fun key value hget => ?_, ⟨_, fun _ => Request.reads_iff,
    Request.satisfies_iff_meets haccepts⟩, fun key text front back front' back' expressions =>
      Request.satisfies_congr (Request.selects_amongTexts key text front' back' expressions)⟩
  obtain ⟨s, hs, -⟩ := Schema.exists_declared_of_accepts _ Request.nodup_criteria
    (Request.matchSchema_eq ▸ haccepts) hget
  exact List.mem_map_of_mem (f := Prod.fst) (Assoc.mem_of_get?_eq_some hs)

/-- A specification of what belongs to applications, apart from their databases, outside of the
namespaces of the system. -/
def applications : Json :=
  .obj [("excludedNamespaces", .arr [.str "kube-*"]),
    ("kinds", .arr [.obj [("apiGroups", .arr [.str "apps"]), ("kinds", .arr [.str "*"])]]),
    ("labelSelector", .obj [("matchExpressions", .arr [.obj [("key", .str "tier"),
      ("operator", .str "NotIn"), ("values", .arr [.str "db", .str "cache"])]])]),
    ("scope", .str "Namespaced")]

theorem covers_iff_meets_applications :
    (target.matchSchema.resolve false).accepts applications = true ∧
      target.covers (some applications) deletion = true ∧
      ∃ r : Request, r.Reads deletion ∧ r.Meets applications := by
  have haccepts : (target.matchSchema.resolve false).accepts applications = true := by
    decide +kernel
  have hcovers : target.covers (some applications) deletion = true := by decide +kernel
  obtain ⟨-, ⟨r, hreads, hmeets⟩, -⟩ := covers_iff_meets haccepts deletion
  exact ⟨haccepts, hcovers, r, (hreads r).2 rfl, hmeets.1 hcovers⟩

end Admission

end PolicyEngine
