import PolicyEngine.Proofs.SortedMap
import PolicyEngine.Target.Admission

/-!
# Bare objects and requests about them

A bare object is audited as a request that is wrapped around it, and the same object is admitted by
requests that others have written: to create or change it, with the object itself, or to delete it,
with the object under `oldObject`. Such a request may leave out the name and the namespace, which
then stand in the metadata of the object. The criteria of match specifications see through these
forms. What they look at is the kind, and the object: its name, its namespace and its labels.

## Main definitions

* `PolicyEngine.Admission.Concerns` — a request that carries an object and names it.

## Main results

* `PolicyEngine.Admission.concerns_of_wrap?` — a wrapped object is carried and named.
* `PolicyEngine.Admission.Concerns.ofReview_eq` — what criteria look at of a request that concerns
  an object.
* `PolicyEngine.Admission.covers_eq_of_concerns` — audit and admission come to the same decision.
-/

namespace PolicyEngine.Admission

/-! ### Requests about an object -/

/-- A text of the kind of a request, or the empty text. -/
def kindText (key : String) (review : Json) : String :=
  ((review.get? "kind").map (textOf key)).getD ""

/-- A text of the metadata of an object, or the empty text. -/
def metadataText (key : String) (object : Json) : String :=
  ((object.get? "metadata").map (textOf key)).getD ""

/-- A request that carries an object, as such or as the one that is to be deleted. Its own name and
namespace are empty or those of the object. -/
structure Concerns (review object : Json) : Prop where
  carries : review.get? "object" = some object ∨ review.get? "oldObject" = some object ∧
    (review.get? "object" = none ∨ review.get? "object" = some .null)
  name : textOf "name" review = "" ∨ textOf "name" review = metadataText "name" object
  ns : textOf "namespace" review = "" ∨
    textOf "namespace" review = metadataText "namespace" object

namespace Concerns

variable {review object : Json}

theorem carriedObject_eq (h : Concerns review object) (hobject : object.isNull = false) :
    carriedObject review = some object := by
  have hfound : (some object).filter (fun v => !v.isNull) = some object := by
    rw [Option.filter_some, hobject]
    rfl
  rw [carriedObject]
  rcases h.carries with hcarried | ⟨hold, habsent⟩
  · rw [hcarried, hfound]
  · have hnone : (review.get? "object").filter (fun v => !v.isNull) = none := by
      rcases habsent with habsent | habsent <;> rw [habsent] <;> rfl
    rw [hnone, hold, hfound]

/-- A text that is empty or that of the metadata is read as that of the metadata. -/
theorem ownOrMetadata_eq (h : Concerns review object) (hobject : object.isNull = false)
    {key : String} (hown : textOf key review = "" ∨ textOf key review = metadataText key object) :
    ownOrMetadata review key = metadataText key object := by
  rw [ownOrMetadata, h.carriedObject_eq hobject, Option.bind_some]
  split
  · rfl
  · rename_i own hne
    exact hown.resolve_left hne

/-- What criteria look at of a request that concerns an object: the kind, and the object. -/
theorem ofReview_eq (h : Concerns review object) (hobject : object.isNull = false) :
    Request.ofReview review =
      { group := kindText "group" review
        kind := kindText "kind" review
        name := metadataText "name" object
        ns := metadataText "namespace" object
        object := some object } := by
  rw [Request.ofReview, h.ownOrMetadata_eq hobject h.name, h.ownOrMetadata_eq hobject h.ns,
    h.carriedObject_eq hobject]
  rfl

end Concerns

/-! ### Wrapped objects -/

/-- The members of a request that is wrapped around an object. -/
def wrappedMembers (object kind metadata : Json) : List (String × Json) :=
  [("kind", kind), ("operation", .str ""), ("object", object)] ++
    (metadata.get? "name").toList.map (fun name => ("name", name)) ++
    (metadata.get? "namespace").toList.map (fun ns => ("namespace", ns))

theorem get?_ofMembers_wrappedMembers (object kind metadata : Json) (key : String) :
    (Json.ofMembers (wrappedMembers object kind metadata)).get? key =
      Assoc.get? key (wrappedMembers object kind metadata) := by
  refine Assoc.get?_ofList ?_ key
  rw [wrappedMembers]
  cases metadata.get? "name" <;> cases metadata.get? "namespace" <;> simp

theorem exists_wrappedMembers {object wrapped : Json} (h : wrap? object = some wrapped) :
    ∃ kind metadata, object.get? "metadata" = some metadata ∧
      wrapped = .ofMembers (wrappedMembers object kind metadata) := by
  rw [wrap?] at h
  obtain ⟨apiVersion, -, h⟩ := Option.bind_eq_some_iff.1 h
  obtain ⟨kind, -, h⟩ := Option.bind_eq_some_iff.1 h
  obtain ⟨metadata, hmetadata, h⟩ := Option.bind_eq_some_iff.1 h
  exact ⟨_, metadata, (Option.filter_eq_some_iff.1 hmetadata).1, (Option.some.inj h).symm⟩

/-- A wrapped object's name and namespace are repeated as they stand in its metadata. -/
theorem textOf_wrappedMembers {object metadata : Json}
    (hmetadata : object.get? "metadata" = some metadata) (kind : Json) {key : String}
    (hkey : key = "name" ∨ key = "namespace") :
    textOf key (.ofMembers (wrappedMembers object kind metadata)) = metadataText key object := by
  rw [textOf, get?_ofMembers_wrappedMembers, metadataText, hmetadata, Option.map_some, textOf,
    wrappedMembers]
  rcases hkey with rfl | rfl <;> cases metadata.get? "name" <;>
    cases metadata.get? "namespace" <;> rfl

/-- A wrapped object is carried by the request, which repeats its name and its namespace. -/
theorem concerns_of_wrap? {object wrapped : Json} (h : wrap? object = some wrapped) :
    Concerns wrapped object ∧ object.isNull = false := by
  obtain ⟨kind, metadata, hmetadata, rfl⟩ := exists_wrappedMembers h
  have hnotNull : object.isNull = false := by
    cases object with
    | obj => rfl
    | null | bool | num | str | arr => cases hmetadata
  have hcarried : (Json.ofMembers (wrappedMembers object kind metadata)).get? "object" =
      some object := get?_ofMembers_wrappedMembers object kind metadata "object"
  exact ⟨⟨.inl hcarried, .inr (textOf_wrappedMembers hmetadata kind (.inl rfl)),
    .inr (textOf_wrappedMembers hmetadata kind (.inr rfl))⟩, hnotNull⟩

/-! ### Decisions -/

/-- **Audit and admission agree.** A bare object that is wrapped into a request is covered by the
same match specifications as every request of its kind that concerns the object: one that carries it
as the object, or as the old one without a new one, and gives no name and no namespace but those of
the object. -/
theorem covers_eq_of_concerns {object wrapped review : Json} (hbare : isRequest object = false)
    (hshape : target.shape? object = some wrapped) (h : Concerns review object)
    (hgroup : kindText "group" review = kindText "group" wrapped)
    (hkind : kindText "kind" review = kindText "kind" wrapped) (spec : Option Json) :
    target.covers spec wrapped = target.covers spec review := by
  have hwrapped : wrap? object = some wrapped := by
    change (if isRequest object then some object else wrap? object) = some wrapped at hshape
    rwa [hbare] at hshape
  obtain ⟨hconcerns, hobject⟩ := concerns_of_wrap? hwrapped
  have hrequest : Request.ofReview wrapped = Request.ofReview review := by
    rw [hconcerns.ofReview_eq hobject, h.ofReview_eq hobject, hgroup, hkind]
  exact congrArg (fun request => spec.all request.satisfies) hrequest

/-- A deployment of the production namespace. -/
def deployment : Json :=
  .obj [("apiVersion", .str "apps/v1"), ("kind", .str "Deployment"),
    ("metadata", .obj [("labels", .obj [("tier", .str "web")]), ("name", .str "shop"),
      ("namespace", .str "prod")])]

/-- A request to delete the deployment, which leaves the name to the object. -/
def deletion : Json :=
  .obj [("kind", .obj [("group", .str "apps"), ("kind", .str "Deployment")]), ("name", .str ""),
    ("namespace", .str "prod"), ("object", .null), ("oldObject", deployment),
    ("operation", .str "DELETE")]

/-- A specification of what is named for shops and has a tier. -/
def tieredShops : Json :=
  .obj [("labelSelector", .obj [("matchExpressions",
    .arr [.obj [("key", .str "tier"), ("operator", .str "Exists")]])]), ("name", .str "shop*")]

theorem covers_eq_of_concerns_deletion :
    isRequest deployment = false ∧ Concerns deletion deployment ∧
      ∃ wrapped, target.shape? deployment = some wrapped ∧
        kindText "group" deletion = kindText "group" wrapped ∧
        kindText "kind" deletion = kindText "kind" wrapped ∧
        target.covers (some tieredShops) wrapped = target.covers (some tieredShops) deletion ∧
        target.covers (some tieredShops) wrapped = true := by
  have hconcerns : Concerns deletion deployment :=
    ⟨.inr ⟨rfl, .inr rfl⟩, .inl (by decide +kernel), .inr (by decide +kernel)⟩
  obtain ⟨wrapped, hshape⟩ := Option.isSome_iff_exists.1
    (by decide +kernel : (target.shape? deployment).isSome = true)
  have hkinds : (target.shape? deployment).all (fun wrapped =>
      kindText "group" deletion = kindText "group" wrapped ∧
        kindText "kind" deletion = kindText "kind" wrapped ∧
          target.covers (some tieredShops) wrapped = true) = true := by
    decide +kernel
  rw [hshape] at hkinds
  obtain ⟨hgroup, hkind, hcovered⟩ := of_decide_eq_true hkinds
  exact ⟨rfl, hconcerns, wrapped, hshape, hgroup, hkind,
    covers_eq_of_concerns rfl hshape hconcerns hgroup hkind _, hcovered⟩

end PolicyEngine.Admission
