import PolicyEngine.Proofs.RuleText.Edits

/-!
# Texts as bytes

The characters that matter to a search for code are ASCII characters, and each of them is one byte.
Every other character is two bytes or more, all of them beyond ASCII. So a search over bytes sees
the same as one over characters, and a place behind an ASCII byte never falls within a character.

## Main definitions

* `PolicyEngine.RuleText.encode` — the bytes of characters.
* `PolicyEngine.RuleText.asciiBytes` — the bytes of ASCII characters.
* `PolicyEngine.RuleText.ReadsAs` — a byte and a character that are the same to a search.

## Main results

* `PolicyEngine.RuleText.utf8EncodeChar_cases` — a character is one byte of ASCII or has none.
* `PolicyEngine.RuleText.countP_encode` — characters of ASCII can be counted among the bytes.
* `PolicyEngine.RuleText.encode_prefix_iff` — texts begin with texts as their bytes do.
* `PolicyEngine.RuleText.exists_encode_eq_take` — a place behind an ASCII byte is a place between
  characters.
-/

namespace PolicyEngine.RuleText

/-! ### Encoded characters -/

/-- The bytes of characters. -/
def encode (cs : List Char) : List UInt8 := cs.flatMap String.utf8EncodeChar

theorem encode_cons (c : Char) (cs : List Char) :
    encode (c :: cs) = String.utf8EncodeChar c ++ encode cs :=
  List.flatMap_cons

theorem encode_append (cs ds : List Char) : encode (cs ++ ds) = encode cs ++ encode ds :=
  List.flatMap_append

theorem bytes_eq_encode (text : String) : bytes text = encode text.toList := by
  rw [encode, ← bytes_ofList, String.ofList_toList]

/-- Texts begin with texts as their bytes do. -/
theorem encode_prefix_iff {cs ds : List Char} : encode cs <+: encode ds ↔ cs <+: ds := by
  constructor
  · rintro ⟨rest, hrest⟩
    refine List.isPrefix_of_utf8Encode_append_eq_utf8Encode rest.toByteArray ?_
    rw [List.utf8Encode, List.utf8Encode, ← List.toByteArray_append]
    exact congrArg List.toByteArray hrest
  · rintro ⟨rest, rfl⟩
    rw [encode_append]
    exact List.prefix_append _ _

/-! ### ASCII -/

/-- A character is one byte of ASCII, or it has only bytes beyond ASCII. -/
theorem utf8EncodeChar_cases (c : Char) :
    (c.toNat < 128 ∧ String.utf8EncodeChar c = [c.toUInt8]) ∨
      (128 ≤ c.toNat ∧ ∀ b ∈ String.utf8EncodeChar c, 128 ≤ b.toNat) := by
  have hbeyond : ∀ n, 128 ≤ n → n < 256 → 128 ≤ (UInt8.ofNat n).toNat := by
    intro n hn hlt
    rwa [UInt8.toNat_ofNat_of_lt' hlt]
  rcases Nat.lt_or_ge c.toNat 128 with hc | hc
  · refine .inl ⟨hc, ?_⟩
    have hle : c.val.toNat ≤ 127 := Nat.le_of_lt_succ hc
    simp only [String.utf8EncodeChar, if_pos hle]
    rfl
  · refine .inr ⟨hc, fun b hb => ?_⟩
    have hgt : ¬c.val.toNat ≤ 127 := Nat.not_le.2 hc
    simp only [String.utf8EncodeChar, if_neg hgt] at hb
    split at hb
    · simp only [List.mem_cons, List.not_mem_nil, or_false] at hb
      rcases hb with rfl | rfl <;> exact hbeyond _ (by omega) (by omega)
    · split at hb
      · simp only [List.mem_cons, List.not_mem_nil, or_false] at hb
        rcases hb with rfl | rfl | rfl <;> exact hbeyond _ (by omega) (by omega)
      · simp only [List.mem_cons, List.not_mem_nil, or_false] at hb
        rcases hb with rfl | rfl | rfl | rfl <;> exact hbeyond _ (by omega) (by omega)

/-- Characters of ASCII are told apart by their bytes. -/
theorem toUInt8_inj {c d : Char} (hc : c.toNat < 128) (hd : d.toNat < 128) :
    c.toUInt8 = d.toUInt8 ↔ c = d := by
  constructor
  · intro h
    have hmod : c.toNat % 256 = d.toNat % 256 := congrArg UInt8.toNat h
    exact Char.toNat_inj.1 (by omega)
  · rintro rfl
    rfl

/-- A byte and a character are the same to a search, which asks for characters of ASCII only. -/
def ReadsAs (b : UInt8) (c : Char) : Prop :=
  ∀ d : Char, d.toNat < 128 → (b = d.toUInt8 ↔ c = d)

/-- Each byte of a character reads as the character. -/
theorem readsAs_of_mem {b : UInt8} {c : Char} (hb : b ∈ String.utf8EncodeChar c) :
    ReadsAs b c := by
  intro d hd
  rcases utf8EncodeChar_cases c with ⟨hc, henc⟩ | ⟨hc, hbytes⟩
  · rw [henc, List.mem_singleton] at hb
    rw [hb, toUInt8_inj hc hd]
  · have hwide := hbytes b hb
    refine iff_of_false ?_ ?_
    · rintro rfl
      have hmod : d.toUInt8.toNat = d.toNat % 256 := rfl
      omega
    · rintro rfl
      omega

/-- The bytes of ASCII characters. -/
def asciiBytes (cs : List Char) : List UInt8 := cs.map Char.toUInt8

section Classes

variable {cs : List Char} (hcs : ∀ d ∈ cs, d.toNat < 128)

include hcs

theorem ReadsAs.mem_asciiBytes_iff {b : UInt8} {c : Char} (h : ReadsAs b c) :
    b ∈ asciiBytes cs ↔ c ∈ cs := by
  rw [asciiBytes, List.mem_map]
  constructor
  · rintro ⟨d, hd, heq⟩
    rwa [(h d (hcs d hd)).1 heq.symm]
  · exact fun hmem => ⟨c, hmem, ((h c (hcs c hmem)).2 rfl).symm⟩

/-- Characters of ASCII can be counted among the bytes. -/
theorem countP_encode (ds : List Char) :
    (encode ds).countP (· ∈ asciiBytes cs) = ds.countP (· ∈ cs) := by
  induction ds with
  | nil => rfl
  | cons c rest ih =>
    have hmem : ∀ b ∈ String.utf8EncodeChar c, (b ∈ asciiBytes cs ↔ c ∈ cs) :=
      fun b hb => (readsAs_of_mem hb).mem_asciiBytes_iff hcs
    rw [encode_cons, List.countP_append, ih, List.countP_cons, Nat.add_comm]
    rcases utf8EncodeChar_cases c with ⟨-, henc⟩ | ⟨hc, -⟩
    · rw [henc] at hmem ⊢
      rw [List.countP_singleton]
      simp only [hmem _ (List.mem_singleton_self _)]
    · have hnot : c ∉ cs := fun h => absurd (hcs c h) (Nat.not_lt.2 hc)
      have hnone : (String.utf8EncodeChar c).countP (· ∈ asciiBytes cs) = 0 := by
        rw [List.countP_eq_zero]
        intro b hb
        simpa [hmem b hb] using hnot
      rw [hnone]
      simp [hnot]

end Classes

/-- A place behind an ASCII byte is a place between characters. -/
theorem exists_encode_eq_take {cs : List Char} {i : Nat} (hi : i ≤ (encode cs).length)
    (h : ∀ b ∈ ((encode cs).take i).getLast?, b.toNat < 128) :
    ∃ front rest, cs = front ++ rest ∧ encode front = (encode cs).take i := by
  induction cs generalizing i with
  | nil => exact ⟨[], [], rfl, by simp [encode]⟩
  | cons c rest ih =>
    rcases Nat.eq_zero_or_pos i with rfl | hpos
    · exact ⟨[], c :: rest, rfl, rfl⟩
    rw [encode_cons] at hi h ⊢
    rw [List.length_append] at hi
    rcases Nat.lt_or_ge i (String.utf8EncodeChar c).length with hlt | hge
    · -- A place within a character is behind a byte beyond ASCII.
      exfalso
      rw [List.take_append_of_le_length (Nat.le_of_lt hlt)] at h
      rcases utf8EncodeChar_cases c with ⟨-, henc⟩ | ⟨-, hbytes⟩
      · rw [henc, List.length_singleton] at hlt
        omega
      · have hne : (String.utf8EncodeChar c).take i ≠ [] := by
          rw [← List.length_pos_iff, List.length_take]
          omega
        have hlast := List.getLast_mem hne
        have hascii := h _ (List.getLast?_eq_some_getLast hne)
        have hwide := hbytes _ (List.mem_of_mem_take hlast)
        omega
    · rw [List.take_append, List.take_of_length_le hge] at h ⊢
      obtain ⟨front, back, rfl, hfront⟩ := ih (i := i - (String.utf8EncodeChar c).length) (by omega)
        fun b hb => h b (by rw [List.getLast?_append, Option.mem_def.1 hb, Option.some_or]; rfl)
      exact ⟨c :: front, back, rfl, by rw [encode_cons, hfront]⟩

end PolicyEngine.RuleText
