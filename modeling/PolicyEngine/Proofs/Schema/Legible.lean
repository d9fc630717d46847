import PolicyEngine.Proofs.Outcome
import PolicyEngine.Proofs.SortedMap
import PolicyEngine.Schema.Document

/-!
# Trees that documents describe

Not every schema tree is read from a document. Where the type of a node is not stated it is inferred
from the keywords, so a scalar always states its type, an unrestricted node states none, and an
array that states none describes its elements. All nodes of a tree that was read are of this kind,
and resolving a tree keeps them so.

## Main definitions

* `PolicyEngine.Schema.Legible` — trees whose nodes state their types where they have to.
* `PolicyEngine.Schema.Part.Legible` — parts of documents that are read as such trees.

## Main results

* `PolicyEngine.Schema.legible_of_readNode` — nodes with such parts are read as such trees.
* `PolicyEngine.Schema.legible_of_ofJson` — every tree that is read is legible.
* `PolicyEngine.Schema.Legible.resolve` — resolving a tree keeps it legible.
-/

namespace PolicyEngine.Schema

/-! ### Legible trees -/

mutual

/-- Scalar nodes state their type, unrestricted nodes state none, and array nodes that state none
describe their elements. -/
def Legible : Schema → Prop
  | .object _ properties _ unknown => LegibleProperties properties ∧ LegibleUnknown unknown
  | .array notes items => (notes.explicitType = false → items.isSome) ∧ LegibleItems items
  | .scalar notes _ => notes.explicitType = true
  | .any notes => notes.explicitType = false

/-- The schema of every property is legible. -/
def LegibleProperties : List (String × Schema) → Prop
  | [] => True
  | (_, s) :: rest => Legible s ∧ LegibleProperties rest

/-- The schema of undeclared members is legible, if there is one. -/
def LegibleUnknown : UnknownFields Schema → Prop
  | .validate s => Legible s
  | _ => True

/-- The schema of elements is legible, if there is one. -/
def LegibleItems : Option Schema → Prop
  | none => True
  | some s => Legible s

end

/-! ### Reading a node -/

/-- What a part is read as is legible. -/
structure Part.Legible (p : Part) : Prop where
  schema : ∀ {path s}, p.schema path = .ok s → s.Legible
  members : ∀ {path l}, p.members path = .ok l → LegibleProperties l

section Nodes

variable {ps : List (String × Part)} {path : Pointer}

theorem legibleProperties_of_readProperties (hps : ∀ m ∈ ps, m.2.Legible)
    {properties : List (String × Schema)} (h : readProperties ps path = .ok properties) :
    LegibleProperties properties := by
  rw [readProperties] at h
  split at h
  · obtain rfl := Except.ok.inj h
    trivial
  · rename_i p hp
    dsimp only at h
    split at h
    · exact (hps _ (Assoc.mem_of_get?_eq_some hp)).members h
    · cases h

theorem legibleUnknown_of_readUnknown (hps : ∀ m ∈ ps, m.2.Legible) {preserve : Bool}
    {unknown : UnknownFields Schema} (h : readUnknown ps path preserve = .ok unknown) :
    LegibleUnknown unknown := by
  rw [readUnknown] at h
  split at h
  · obtain rfl := Except.ok.inj h
    trivial
  · split at h
    · obtain rfl := Except.ok.inj h
      trivial
    · rename_i p hp
      dsimp only at h
      split at h
      · obtain rfl := Except.ok.inj h
        trivial
      · obtain rfl := Except.ok.inj h
        trivial
      · obtain ⟨s, hs, rfl⟩ := Outcome.map_eq_ok.1 h
        exact (hps _ (Assoc.mem_of_get?_eq_some hp)).schema hs
      · cases h

theorem legible_of_readObject (hps : ∀ m ∈ ps, m.2.Legible) {preserve : Bool} {notes : Annotations}
    {s : Schema} (h : readObject ps path preserve notes = .ok s) : s.Legible := by
  rw [readObject] at h
  obtain ⟨properties, hproperties, h⟩ := Outcome.bind_eq_ok.1 h
  obtain ⟨names, -, h⟩ := Outcome.bind_eq_ok.1 h
  obtain ⟨required, -, h⟩ := Outcome.bind_eq_ok.1 h
  obtain ⟨unknown, hunknown, h⟩ := Outcome.bind_eq_ok.1 h
  obtain rfl := Except.ok.inj h
  exact ⟨legibleProperties_of_readProperties hps hproperties,
    legibleUnknown_of_readUnknown hps hunknown⟩

theorem legible_of_readArray (hps : ∀ m ∈ ps, m.2.Legible) {notes : Annotations} {s : Schema}
    (h : readArray ps path notes = .ok s)
    (hitems : notes.explicitType = false → Assoc.contains "items" ps = true) : s.Legible := by
  obtain ⟨items, hread, rfl⟩ := Outcome.map_eq_ok.1 h
  rw [readItems] at hread
  split at hread
  · rename_i hnone
    obtain rfl := Except.ok.inj hread
    refine ⟨fun hexplicit => ?_, trivial⟩
    rw [Assoc.contains, hnone] at hitems
    exact hitems hexplicit
  · rename_i p hp
    dsimp only at hread
    split at hread
    · obtain ⟨s, hs, rfl⟩ := Outcome.map_eq_ok.1 hread
      exact ⟨fun _ => rfl, (hps _ (Assoc.mem_of_get?_eq_some hp)).schema hs⟩
    · cases hread
    · cases hread

theorem legible_of_readNode (hps : ∀ m ∈ ps, m.2.Legible) {s : Schema}
    (h : readNode ps path = .ok s) : s.Legible := by
  rw [readNode] at h
  obtain ⟨type, -, h⟩ := Outcome.bind_eq_ok.1 h
  obtain ⟨preserve, -, h⟩ := Outcome.bind_eq_ok.1 h
  obtain ⟨nullable, -, h⟩ := Outcome.bind_eq_ok.1 h
  obtain ⟨description, -, h⟩ := Outcome.bind_eq_ok.1 h
  obtain ⟨allowed, -, h⟩ := Outcome.bind_eq_ok.1 h
  dsimp only at h
  split at h
  · exact legible_of_readObject hps h
  · exact legible_of_readArray hps h fun hexplicit => nomatch hexplicit
  · obtain rfl := Except.ok.inj h
    rfl
  · obtain rfl := Except.ok.inj h
    rfl
  · obtain rfl := Except.ok.inj h
    rfl
  · obtain rfl := Except.ok.inj h
    rfl
  · cases h
  · split at h
    · exact legible_of_readObject hps h
    · split at h
      · rename_i hitems
        exact legible_of_readArray hps h fun _ => hitems
      · obtain rfl := Except.ok.inj h
        rfl

theorem legibleProperties_of_readMembers (hps : ∀ m ∈ ps, m.2.Legible)
    {properties : List (String × Schema)} (h : readMembers ps path = .ok properties) :
    LegibleProperties properties := by
  induction ps generalizing properties with
  | nil =>
    obtain rfl := Except.ok.inj h
    trivial
  | cons m rest ih =>
    obtain ⟨hfirst, hrest⟩ := List.forall_mem_cons.1 hps
    rw [readMembers] at h
    obtain ⟨s, hs, h⟩ := Outcome.bind_eq_ok.1 h
    obtain ⟨others, hothers, h⟩ := Outcome.bind_eq_ok.1 h
    obtain rfl := Except.ok.inj h
    exact ⟨hfirst.schema hs, ih hrest hothers⟩

end Nodes

/-! ### Reading a document -/

mutual

/-- A part of a document is read as a legible tree. -/
theorem legible_part : ∀ document : Json, (part document).Legible
  | .obj members =>
    ⟨legible_of_readNode (legible_parts members),
      legibleProperties_of_readMembers (legible_parts members)⟩
  | .null => ⟨(nomatch ·), (nomatch ·)⟩
  | .bool _ => ⟨(nomatch ·), (nomatch ·)⟩
  | .num _ => ⟨(nomatch ·), (nomatch ·)⟩
  | .str _ => ⟨(nomatch ·), (nomatch ·)⟩
  | .arr _ => ⟨(nomatch ·), (nomatch ·)⟩

theorem legible_parts : ∀ members : List (String × Json), ∀ m ∈ parts members, m.2.Legible
  | [] => List.forall_mem_nil _
  | (_, v) :: rest => List.forall_mem_cons.2 ⟨legible_part v, legible_parts rest⟩

end

/-- Every tree that is read is legible. -/
theorem legible_of_ofJson {document : Json} {s : Schema} (h : ofJson document = .ok s) :
    s.Legible :=
  (legible_part document).schema h

/-! ### Resolving -/

mutual

/-- Resolving a tree keeps it legible. -/
theorem Legible.resolve {s : Schema} (h : s.Legible) (legacy : Bool) : (s.resolve legacy).Legible :=
  match s, h with
  | .object .., h => ⟨h.1.resolve legacy, h.2.resolve legacy⟩
  | .array _ none, h => h
  | .array _ (some _), h => ⟨fun _ => rfl, Legible.resolve h.2 legacy⟩
  | .scalar .., h => h
  | .any _, h => h

theorem LegibleProperties.resolve {properties : List (String × Schema)}
    (h : LegibleProperties properties) (legacy : Bool) :
    LegibleProperties (resolveProperties legacy properties) :=
  match properties, h with
  | [], _ => trivial
  | _ :: _, h => ⟨h.1.resolve legacy, h.2.resolve legacy⟩

theorem LegibleUnknown.resolve {unknown : UnknownFields Schema} (h : LegibleUnknown unknown)
    (legacy : Bool) : LegibleUnknown (resolveUnknown legacy unknown) :=
  match unknown, h with
  | .unset, _ => by cases legacy <;> trivial
  | .reject, _ => trivial
  | .preserve, _ => trivial
  | .validate _, h => Legible.resolve h legacy

end

end PolicyEngine.Schema
