import PolicyEngine.Json.Decode
import PolicyEngine.Proofs.Outcome
import PolicyEngine.Proofs.SortedMap

/-!
# Records read from objects

A written record is an object that lists some of the fields of the record and leaves out the others.
It is read back as soon as every field is listed with a text of its value, or has that value when it
is left out. What is read from an array of fields is only known through the values that the fields
were read as or have when they are left out.

## Main definitions

* `PolicyEngine.Json.Field.Holds` — an object gives a field a value.
* `PolicyEngine.Json.Slot.Fits` — an object lists a field as one of its kind, or may leave it out.

## Main results

* `PolicyEngine.Json.recordMembers_ofMembers` — an object that fits every field is read as a record.
* `PolicyEngine.Json.Field.Holds.get_eq` — the value that the field then has.
* `PolicyEngine.Json.Field.forall_get` — what holds of the values of a field in any form of record.
* `PolicyEngine.Json.decodeList_map`, `PolicyEngine.Json.decodeMap_map` — lists and maps are read
  back if their parts are.
* `PolicyEngine.Json.holds_list`, `PolicyEngine.Json.holds_option` — what may be left out is left
  out for the default.
-/

namespace PolicyEngine.Json

variable {α : Type}

theorem get?_ofMembers (key : String) (ms : List (String × Json)) :
    (ofMembers ms).get? key = Assoc.get? key ms.reverse :=
  Assoc.get?_ofList_eq_reverse key ms

/-! ### Fields -/

@[simp]
theorem name_required (name : String) (read : Json → Decoded α) :
    (required name read).name = name := rfl

@[simp]
theorem name_optional (name : String) (read : Json → Decoded α) (default : α) :
    (optional name read default).name = name := rfl

/-- An object gives a field a value: it lists the field with a text that is read so, or leaves it
out and the value is its default. -/
inductive Field.Holds (f : Field α) (v : Json) (x : α) : Prop where
  | listed {value : Json} (h : v.get? f.name = some value) (hread : f.read value = .ok x)
  | omitted (h : v.get? f.name = none) (hdefault : f.default? = some x)

/-- An object lists a field with a value of the field, or leaves out a field that has a default. -/
inductive Slot.Fits (slot : Slot) (v : Json) : Prop where
  | listed {value : Json} (h : v.get? slot.name = some value) (hcheck : slot.check value = .ok ())
  | omitted (h : v.get? slot.name = none) (hoptional : slot.isOptional = true)

namespace Field

variable {f : Field α} {x : α}

theorem Holds.fits {v : Json} (h : f.Holds v x) : f.slot.Fits v := by
  cases h with
  | listed h hread => exact .listed h (Outcome.map_eq_ok.2 ⟨x, hread, rfl⟩)
  | omitted h hdefault => exact .omitted h (Option.isSome_of_eq_some hdefault)

theorem Holds.get_eq {ms : List (String × Json)} (h : f.Holds (ofMembers ms) x) :
    f.get (Assoc.ofList ms) = .ok x := by
  rw [get]
  cases h with
  | listed h hread =>
    have hlisted : Assoc.get? f.name (Assoc.ofList ms) = _ := h
    rw [hlisted]
    exact hread
  | omitted h hdefault =>
    have homitted : Assoc.get? f.name (Assoc.ofList ms) = none := h
    rw [homitted, hdefault]

theorem Holds.of_get {ms : List (String × Json)} (h : f.get ms.reverse = .ok x) :
    f.Holds (ofMembers ms) x := by
  rw [get] at h
  split at h
  · rename_i value hvalue
    exact .listed ((get?_ofMembers _ _).trans hvalue) h
  · rename_i hnone hdefault
    rw [Except.ok.inj h] at hdefault
    exact .omitted ((get?_ofMembers _ _).trans hnone) hdefault
  · cases h

/-- Members of other names do not matter to a field. -/
theorem Holds.append {front back : List (String × Json)} (h : f.Holds (ofMembers front) x)
    (hback : ∀ e ∈ back, e.1 ≠ f.name) : f.Holds (ofMembers (front ++ back)) x := by
  have hnone : Assoc.get? f.name back.reverse = none :=
    Assoc.get?_eq_none_iff.2 fun e he => hback e (List.mem_reverse.1 he)
  have hget : (ofMembers (front ++ back)).get? f.name = (ofMembers front).get? f.name := by
    rw [get?_ofMembers, get?_ofMembers, List.reverse_append, Assoc.get?_append, hnone,
      Option.none_or]
  cases h with
  | listed h hread => exact .listed (hget.trans h) hread
  | omitted h hdefault => exact .omitted (hget.trans h) hdefault

/-- What holds of all that a field is read as, and of its default, holds of its value in a
record. -/
theorem forall_get {P : α → Prop} {ms : List (String × Json)}
    (hread : ∀ {value x}, f.read value = .ok x → P x) (hdefault : ∀ {x}, f.default? = some x → P x)
    (h : f.get ms = .ok x) : P x := by
  rw [get] at h
  split at h
  · exact hread h
  · rename_i hsome
    rw [← Except.ok.inj h]
    exact hdefault hsome
  · cases h

end Field

/-! ### Records -/

section

variable {slots : List Slot} {ms : List (String × Json)} {record : String}

theorem checkMembers_ofList (h : ∀ slot ∈ slots, slot.Fits (ofMembers ms)) :
    checkMembers slots (Assoc.ofList ms) = .ok () := by
  refine Outcome.forM_eq_ok.2 ?_
  rintro ⟨name, value⟩ hmem
  have hvalue : (ofMembers ms).get? name = some value :=
    (Assoc.get?_eq_some_iff (Assoc.nodup_ofList ms)).2 hmem
  dsimp only
  cases hfind : slots.find? (·.name == name) with
  | none => rfl
  | some slot =>
    have hfound := List.find?_some hfind
    have hname : slot.name = name := beq_iff_eq.1 hfound
    cases h slot (List.mem_of_find?_eq_some hfind) with
    | listed hlisted hcheck =>
      rw [hname, hvalue] at hlisted
      exact Option.some.inj hlisted ▸ hcheck
    | omitted homitted _ =>
      rw [hname, hvalue] at homitted
      cases homitted

/-- An object that fits every field is read as a record. -/
theorem recordMembers_ofMembers (h : ∀ slot ∈ slots, slot.Fits (ofMembers ms)) :
    (ofMembers ms).recordMembers record slots = .ok (Assoc.ofList ms) := by
  have hcomplete : slots.find?
      (fun slot => !slot.isOptional && !Assoc.contains slot.name (Assoc.ofList ms)) = none := by
    refine List.find?_eq_none.2 fun slot hslot => ?_
    cases h slot hslot with
    | listed hlisted _ =>
      have hcontains : Assoc.contains slot.name (Assoc.ofList ms) = true :=
        Option.isSome_iff_exists.2 ⟨_, hlisted⟩
      simp [hcontains]
    | omitted _ hoptional => simp [hoptional]
  rw [ofMembers, recordMembers]
  refine Outcome.bind_eq_ok.2 ⟨(), checkMembers_ofList h, ?_⟩
  rw [hcomplete]
  rfl

end

/-! ### Values -/

theorem decodeNat_ofNat (expected : String) (n : Nat) :
    decodeNat expected (ofNat n) = .ok n := by
  rw [ofNat, ofInt, decodeNat, if_neg (by omega), Int.toNat_natCast]

/-- A list is read back if its elements are. -/
theorem decodeList_map {read : Json → Decoded α} {write : α → Json} {l : List α}
    (h : ∀ x ∈ l, read (write x) = .ok x) : decodeList read (.arr (l.map write)) = .ok l := by
  rw [decodeList, List.mapM_map]
  exact (Outcome.mapM_eq_ok h).trans (by rw [List.map_id'])

/-- A map is read back if its keys and values are. -/
theorem decodeMap_map {κ : Type} [DecidableEq κ] [Ord κ] [Std.TransOrd κ] [Std.LawfulEqOrd κ]
    {readKey : String → Decoded κ} {read : Json → Decoded α} {keyText : κ → String}
    {write : α → Json} (m : SortedMap κ α) (hkey : ∀ k, readKey (keyText k) = .ok k)
    (h : ∀ x, read (write x) = .ok x) :
    decodeMap readKey read (.obj (m.entries.map fun (k, x) => (keyText k, write x))) = .ok m := by
  have hentries : ∀ e ∈ m.entries, (do
      let k ← readKey (keyText e.1)
      let x ← read (write e.2)
      return (k, x) : Decoded (κ × α)) = .ok e := by
    rintro ⟨k, x⟩ -
    rw [hkey, h]
    rfl
  rw [decodeMap, List.mapM_map]
  refine Outcome.map_eq_ok.2 ⟨m.entries, ?_, m.ofList_entries⟩
  exact (Outcome.mapM_eq_ok hentries).trans (by rw [List.map_id'])

/-- Where null stands for nothing, nothing is read as null. -/
theorem ne_null_of_get {name : String} {ms : List (String × Json)} {o : Option Json}
    (h : (optional name (decodeOption decodeAny) none).get ms = .ok o) : o ≠ some .null := by
  refine Field.forall_get (P := fun o => o ≠ some .null) (fun {v o} hread => ?_) ?_ h
  · cases v with
    | null =>
      rw [← Except.ok.inj hread]
      exact (Option.some_ne_none _).symm
    | _ =>
      rw [← Except.ok.inj hread]
      rintro ⟨⟩
  · rintro o ⟨⟩
    exact (Option.some_ne_none _).symm

/-! ### Members that are left out -/

section

variable {name : String} {read : Json → Decoded α} {write : α → Json}
  {front : List (String × Json)}

theorem get?_ofMembers_append_nil (hfront : ∀ e ∈ front, e.1 ≠ name) :
    (ofMembers (front ++ [])).get? name = none := by
  rw [List.append_nil, get?_ofMembers, Assoc.get?_eq_none_iff]
  exact fun e he => hfront e (List.mem_reverse.1 he)

theorem get?_ofMembers_concat (value : Json) :
    (ofMembers (front ++ [(name, value)])).get? name = some value := by
  rw [get?_ofMembers, List.reverse_append]
  exact if_pos rfl

/-- A list that is left out when it is empty is read back if its elements are. -/
theorem holds_list {l : List α} (hfront : ∀ e ∈ front, e.1 ≠ name)
    (h : ∀ x ∈ l, read (write x) = .ok x) :
    (optional name (decodeList read) []).Holds
      (ofMembers (front ++ if l.isEmpty then [] else [(name, .arr (l.map write))])) l := by
  cases l with
  | nil => exact .omitted (get?_ofMembers_append_nil hfront) rfl
  | cons x rest => exact .listed (get?_ofMembers_concat _) (decodeList_map h)

/-- A value that may be absent is read back if it is not written as null. -/
theorem holds_option {o : Option α} (hfront : ∀ e ∈ front, e.1 ≠ name)
    (h : ∀ x ∈ o, write x ≠ .null ∧ read (write x) = .ok x) :
    (optional name (decodeOption read) none).Holds
      (ofMembers (front ++ o.toList.map fun x => (name, write x))) o := by
  cases o with
  | none => exact .omitted (get?_ofMembers_append_nil hfront) rfl
  | some x =>
    obtain ⟨hne, hread⟩ := h x rfl
    refine .listed (get?_ofMembers_concat _) ?_
    change decodeOption read (write x) = _
    rw [decodeOption.eq_2 _ _ hne, hread]
    rfl

end

end PolicyEngine.Json
