import PolicyEngine.Proofs.RuleText.Bytes
import PolicyEngine.Proofs.RuleText.Definition

/-!
# Heads of rules

A source defines a rule where the head of the rule stands in its code view: at a byte before which
nothing stands on the line but spaces and tabs, and as many brackets open as close in all that comes
before. The name stands at this byte, and what follows it can go on the head. The search finds such
a place in one pass, which carries the nesting of brackets and whether a line has begun.

## Main definitions

* `PolicyEngine.RuleText.IsIndented` — bytes behind the last line end of which stand only spaces and
  tabs.
* `PolicyEngine.RuleText.IsHeadAt` — the head of a rule stands at a byte of a code view.

## Main results

* `PolicyEngine.RuleText.definesFrom_iff` — what the search carries is said of all that it has
  passed.
* `PolicyEngine.RuleText.isIndented_encode_iff`, `PolicyEngine.RuleText.foldl_depthAfter` — whether
  a line has begun, and the nesting of brackets, behind a text.
* `PolicyEngine.RuleText.definesRule_iff` — a rule is defined where its head stands.
-/

namespace PolicyEngine.RuleText

/-! ### One pass -/

/-- A rule is defined in a text if the search comes to a place where it is outside all brackets, no
line has begun, and a head begins. -/
theorem definesFrom_iff {name cs : List Char} {depth : Int} {lineStart : Bool} :
    definesFrom name depth lineStart cs = true ↔
      ∃ front rest, cs = front ++ rest ∧ rest ≠ [] ∧ lineStartAfter lineStart front = true ∧
        front.foldl depthAfter depth = 0 ∧ beginsHead name rest = true := by
  induction cs generalizing depth lineStart with
  | nil =>
    refine iff_of_false Bool.false_ne_true ?_
    rintro ⟨front, rest, hcs, hne, -⟩
    exact hne (List.append_eq_nil_iff.1 hcs.symm).2
  | cons c cs ih =>
    rw [definesFrom, Bool.or_eq_true, ih, Bool.and_eq_true, Bool.and_eq_true, beq_iff_eq]
    constructor
    · rintro (⟨⟨hline, hdepth⟩, hbegins⟩ | ⟨front, rest, rfl, hne, hline, hdepth, hbegins⟩)
      · exact ⟨[], c :: cs, rfl, List.cons_ne_nil _ _, hline, hdepth, hbegins⟩
      · exact ⟨c :: front, rest, rfl, hne, hline, hdepth, hbegins⟩
    · rintro ⟨front, rest, hcs, hne, hline, hdepth, hbegins⟩
      cases front with
      | nil =>
        rw [List.nil_append] at hcs
        rw [hcs]
        exact .inl ⟨⟨hline, hdepth⟩, hbegins⟩
      | cons d front =>
        obtain ⟨rfl, rfl⟩ := List.cons.inj hcs
        exact .inr ⟨front, rest, rfl, hne, hline, hdepth, hbegins⟩

/-- The brackets that open, of the three kinds. -/
def openings : List Char := ['(', '[', '\x7b']

/-- The brackets that close. -/
def closings : List Char := [')', ']', '\x7d']

theorem isAscii_openings : ∀ c ∈ openings, c.toNat < 128 := by simp [openings]

theorem isAscii_closings : ∀ c ∈ closings, c.toNat < 128 := by simp [closings]

/-- The nesting behind a text counts the brackets that open and those that close. -/
theorem foldl_depthAfter (depth : Int) (cs : List Char) :
    cs.foldl depthAfter depth = depth + cs.countP (· ∈ openings) - cs.countP (· ∈ closings) := by
  induction cs generalizing depth with
  | nil => simp
  | cons c rest ih =>
    have hopen : c ∈ openings ↔ c = '(' ∨ c = '[' ∨ c = '\x7b' := by simp [openings]
    have hclose : c ∈ closings ↔ c = ')' ∨ c = ']' ∨ c = '\x7d' := by simp [closings]
    rw [List.foldl_cons, ih, depthAfter, List.countP_cons, List.countP_cons]
    simp only [hopen, hclose, decide_eq_true_eq]
    split
    · rename_i h
      have hnot : ¬(c = ')' ∨ c = ']' ∨ c = '\x7d') := by
        rcases h with rfl | rfl | rfl <;> decide
      rw [if_neg hnot]
      omega
    · split <;> omega

/-! ### Indentation -/

/-- Bytes that end in spaces and tabs which stand at their beginning or behind a line end. -/
def IsIndented (bs : List UInt8) : Prop :=
  ∃ before indent, bs = before ++ indent ∧
    (before = [] ∨ before.getLast? = some '\n'.toUInt8) ∧
    ∀ b ∈ indent, b = ' '.toUInt8 ∨ b = '\t'.toUInt8

theorem isIndented_nil : IsIndented [] := ⟨[], [], rfl, .inl rfl, List.forall_mem_nil _⟩

theorem isIndented_append_singleton {bs : List UInt8} {b : UInt8} :
    IsIndented (bs ++ [b]) ↔
      b = '\n'.toUInt8 ∨ IsIndented bs ∧ (b = ' '.toUInt8 ∨ b = '\t'.toUInt8) := by
  constructor
  · rintro ⟨before, indent, heq, hbefore, hindent⟩
    rcases List.eq_nil_or_concat indent with rfl | ⟨init, last, rfl⟩
    · rw [List.append_nil] at heq
      rw [← heq, List.getLast?_concat] at hbefore
      exact .inl (Option.some.inj (hbefore.resolve_left (by simp)))
    · rw [List.concat_eq_append] at heq hindent
      rw [← List.append_assoc] at heq
      obtain ⟨rfl, hlast⟩ := List.append_inj' heq rfl
      obtain rfl := List.singleton_inj.1 hlast
      exact .inr ⟨⟨before, init, rfl, hbefore, fun d hd => hindent d (List.mem_append_left _ hd)⟩,
        hindent b (List.mem_append_right _ (List.mem_singleton_self b))⟩
  · rintro (rfl | ⟨⟨before, indent, rfl, hbefore, hindent⟩, hb⟩)
    · exact ⟨bs ++ ['\n'.toUInt8], [], (List.append_nil _).symm, .inr List.getLast?_concat,
        List.forall_mem_nil _⟩
    · exact ⟨before, indent ++ [b], List.append_assoc _ _ _, hbefore,
        List.forall_mem_append.2 ⟨hindent, List.forall_mem_singleton.2 hb⟩⟩

/-- Indentation ends in ASCII. -/
theorem IsIndented.lt_of_mem_getLast? {bs : List UInt8} (h : IsIndented bs) :
    ∀ b ∈ bs.getLast?, b.toNat < 128 := by
  intro b hb
  obtain ⟨init, rfl⟩ := List.getLast?_eq_some_iff.1 hb
  rcases isIndented_append_singleton.1 h with rfl | ⟨-, rfl | rfl⟩ <;> decide

/-- Only spaces and tabs stand on a line behind a text if no more stands behind its bytes. -/
theorem isIndented_encode_iff {cs : List Char} :
    IsIndented (encode cs) ↔ lineStartAfter true cs = true := by
  induction cs using List.reverseRecOn with
  | nil => exact iff_of_true isIndented_nil rfl
  | append_singleton cs c ih =>
    have hstep : lineStartAfter true (cs ++ [c]) = true ↔
        c = '\n' ∨ lineStartAfter true cs = true ∧ (c = ' ' ∨ c = '\t') := by
      rw [lineStartAfter_append]
      simp [lineStartAfter]
    have hsingle : encode [c] = String.utf8EncodeChar c := List.append_nil _
    rw [hstep, encode_append, hsingle]
    rcases utf8EncodeChar_cases c with ⟨hc, henc⟩ | ⟨hc, hbytes⟩
    · rw [henc, isIndented_append_singleton, ih, toUInt8_inj hc (by decide),
        toUInt8_inj hc (by decide), toUInt8_inj hc (by decide)]
    · refine iff_of_false (fun h => ?_) ?_
      · have hne := String.utf8EncodeChar_ne_nil (c := c)
        have hlast := h.lt_of_mem_getLast? _ (by
          rw [List.getLast?_append_of_ne_nil _ hne]
          exact List.getLast?_eq_some_getLast hne)
        exact absurd (hbytes _ (List.getLast_mem hne)) (Nat.not_le.2 hlast)
      · rintro (rfl | ⟨-, rfl | rfl⟩) <;> exact absurd hc (by decide)

/-! ### Heads -/

/-- What can follow the name of a rule in its head. -/
def continuations : List Char := ['[', '\x7b', '=', ':', ' ', '\t', '\r', '\n']

theorem continuesHead_iff {c : Char} : continuesHead c = true ↔ c ∈ continuations := by
  simp [continuesHead, continuations, or_assoc]

theorem isAscii_continuations : ∀ c ∈ continuations, c.toNat < 128 := by simp [continuations]

/-- A head begins with the name and with nothing behind it, or with what can follow it. -/
theorem beginsHead_iff {name cs : List Char} :
    beginsHead name cs = true ↔
      ∃ tail, cs = name ++ tail ∧ ∀ c ∈ tail.head?, c ∈ continuations := by
  rw [beginsHead, Bool.and_eq_true, List.isPrefixOf_iff_prefix, Option.all_eq_true]
  simp only [continuesHead_iff]
  constructor
  · rintro ⟨⟨tail, rfl⟩, htail⟩
    rw [List.drop_left] at htail
    exact ⟨tail, rfl, htail⟩
  · rintro ⟨tail, rfl, htail⟩
    rw [List.drop_left]
    exact ⟨List.prefix_append _ _, htail⟩

/-- The head of a rule stands at a byte of a code view. That there is such a byte follows from the
name that occurs there, unless the name is empty. -/
structure IsHeadAt (name view : List UInt8) (i : Nat) : Prop where
  lt_length : i < view.length
  indented : IsIndented (view.take i)
  balanced : (view.take i).countP (· ∈ asciiBytes openings) =
    (view.take i).countP (· ∈ asciiBytes closings)
  occurs : name <+: view.drop i
  continues : ∀ b ∈ view[i + name.length]?, b ∈ asciiBytes continuations

theorem length_encode_pos {cs : List Char} : 0 < (encode cs).length ↔ cs ≠ [] := by
  cases cs with
  | nil => exact iff_of_false (Nat.lt_irrefl 0) fun hne => hne rfl
  | cons c cs =>
    refine iff_of_true ?_ (List.cons_ne_nil _ _)
    rw [encode_cons, List.length_append, String.length_utf8EncodeChar]
    exact Nat.add_pos_left c.utf8Size_pos _

/-- The first byte of a text continues a head if the first character does. -/
theorem forall_mem_head?_encode {cs : List Char} :
    (∀ b ∈ (encode cs)[0]?, b ∈ asciiBytes continuations) ↔
      ∀ c ∈ cs.head?, c ∈ continuations := by
  cases cs with
  | nil => exact iff_of_true (fun b hb => by cases hb) fun c hc => by cases hc
  | cons c cs =>
    obtain ⟨b, bs, henc⟩ := List.exists_cons_of_ne_nil (String.utf8EncodeChar_ne_nil (c := c))
    have hreads : ReadsAs b c := readsAs_of_mem (henc ▸ List.mem_cons_self)
    rw [encode_cons, henc]
    simp [hreads.mem_asciiBytes_iff isAscii_continuations]

/-- A head begins a text if its bytes begin so. -/
theorem beginsHead_iff_encode {name cs : List Char} :
    beginsHead name cs = true ↔ encode name <+: encode cs ∧
      ∀ b ∈ (encode cs)[(encode name).length]?, b ∈ asciiBytes continuations := by
  have hnext : ∀ tail, (encode (name ++ tail))[(encode name).length]? = (encode tail)[0]? := by
    intro tail
    rw [encode_append, List.getElem?_append_right (Nat.le_refl _), Nat.sub_self]
  rw [beginsHead_iff, encode_prefix_iff]
  constructor
  · rintro ⟨tail, rfl, htail⟩
    rw [hnext, forall_mem_head?_encode]
    exact ⟨List.prefix_append _ _, htail⟩
  · rintro ⟨⟨tail, rfl⟩, htail⟩
    rw [hnext, forall_mem_head?_encode] at htail
    exact ⟨tail, rfl, htail⟩

/-- Between characters, a head stands in the bytes of a text where the search finds one. -/
theorem isHeadAt_encode_iff {name front rest : List Char} :
    IsHeadAt (encode name) (encode (front ++ rest)) (encode front).length ↔
      rest ≠ [] ∧ lineStartAfter true front = true ∧ front.foldl depthAfter 0 = 0 ∧
        beginsHead name rest = true := by
  have hview : encode (front ++ rest) = encode front ++ encode rest := encode_append front rest
  have hlt : (encode front).length < (encode front ++ encode rest).length ↔ rest ≠ [] := by
    rw [List.length_append, Nat.lt_add_right_iff_pos, length_encode_pos]
  have hnext : (encode front ++ encode rest)[(encode front).length + (encode name).length]? =
      (encode rest)[(encode name).length]? := by
    rw [List.getElem?_append_right (Nat.le_add_right _ _), Nat.add_sub_cancel_left]
  have hbalanced : (encode front).countP (· ∈ asciiBytes openings) =
      (encode front).countP (· ∈ asciiBytes closings) ↔ front.foldl depthAfter 0 = 0 := by
    rw [countP_encode isAscii_openings, countP_encode isAscii_closings, foldl_depthAfter]
    omega
  rw [hview, ← hlt, ← isIndented_encode_iff, ← hbalanced, beginsHead_iff_encode, ← hnext]
  constructor
  · rintro ⟨hlength, hindented, hcount, hoccurs, hcontinues⟩
    rw [List.take_left] at hindented hcount
    rw [List.drop_left] at hoccurs
    exact ⟨hlength, hindented, hcount, hoccurs, hcontinues⟩
  · rintro ⟨hlength, hindented, hcount, hoccurs, hcontinues⟩
    refine ⟨hlength, ?_, ?_, ?_, hcontinues⟩
    · rwa [List.take_left]
    · rwa [List.take_left]
    · rwa [List.drop_left]

/-- A head stands in the bytes of a text only between characters. -/
theorem IsHeadAt.exists_append {name cs : List Char} {i : Nat}
    (h : IsHeadAt (encode name) (encode cs) i) :
    ∃ front rest, cs = front ++ rest ∧ i = (encode front).length := by
  have hi := Nat.le_of_lt h.lt_length
  obtain ⟨front, rest, hcs, hfront⟩ := exists_encode_eq_take hi h.indented.lt_of_mem_getLast?
  refine ⟨front, rest, hcs, ?_⟩
  rw [hfront, List.length_take, Nat.min_eq_left hi]

/-- **Where a rule is defined.** A source defines a rule at its top level if and only if there is a
byte of its code view at which the head of the rule stands: nothing but spaces and tabs stands
before it on its line, as many brackets open as close before it, the name stands there, and the byte
behind the name can go on a head, or there is none. -/
theorem definesRule_iff (source name : String) :
    definesRule source name = true ↔ ∃ i, IsHeadAt (bytes name) (bytes (codeView source)) i := by
  rw [definesRule, definesFrom_iff, bytes_eq_encode, bytes_eq_encode]
  constructor
  · rintro ⟨front, rest, hview, hhead⟩
    rw [hview]
    exact ⟨_, isHeadAt_encode_iff.2 hhead⟩
  · rintro ⟨i, hi⟩
    obtain ⟨front, rest, hview, rfl⟩ := hi.exists_append
    rw [hview] at hi
    exact ⟨front, rest, hview, isHeadAt_encode_iff.1 hi⟩

end PolicyEngine.RuleText
