import PolicyEngine.Proofs.RuleText.Bytes

/-!
# The bytes of the code view

The code view is made byte by byte. Outside literals and comments a byte is copied, and within them
it becomes a space, line ends excepted. A loop does so that goes on within each literal up to its
end, and takes two bytes at a time behind a backslash. It agrees with an automaton that takes one
byte at a time: what a backslash takes with it is a character, and of a character with several bytes
no byte but the first could be taken for anything else. So the bytes that come out are again those
of a text.

## Main definitions

* `PolicyEngine.RuleText.scanCode` — the bytes of the code view, literal by literal.
* `PolicyEngine.RuleText.Context.nextByte`, `PolicyEngine.RuleText.Context.showsByte` — the
  automaton that takes one byte at a time.
* `PolicyEngine.RuleText.blanked` — the bytes that the automaton shows, and blanks for others.
* `PolicyEngine.RuleText.ShowsCode` — what bytes with literals and comments blanked are like.

## Main results

* `PolicyEngine.RuleText.scanCode_eq_blanked` — the loop agrees with the automaton.
* `PolicyEngine.RuleText.blanked_encode` — the automaton over bytes agrees with the scan of
  characters.
* `PolicyEngine.RuleText.codeView_showsCode` — the code view is what the loop makes of a source.
-/

namespace PolicyEngine.RuleText

/-- What takes the place of a byte that is not code. -/
def blankByte (b : UInt8) : UInt8 := if b = '\n'.toUInt8 then '\n'.toUInt8 else ' '.toUInt8

/-! ### Literal by literal -/

mutual

/-- The view of bytes that begin in code. -/
def scanCode : List UInt8 → List UInt8
  | [] => []
  | b :: rest =>
    if b = '#'.toUInt8 then ' '.toUInt8 :: scanComment rest
    else if b = '"'.toUInt8 then ' '.toUInt8 :: scanString rest
    else if b = rawQuote.toUInt8 then ' '.toUInt8 :: scanRaw rest
    else b :: scanCode rest

/-- The view of bytes that begin in a comment. The line end behind it is code. -/
def scanComment : List UInt8 → List UInt8
  | [] => []
  | b :: rest =>
    if b = '\n'.toUInt8 then b :: scanCode rest else ' '.toUInt8 :: scanComment rest

/-- The view of bytes that begin in a string. A backslash takes the next byte with it, if there is
one. -/
def scanString : List UInt8 → List UInt8
  | [] => []
  | [b] => [blankByte b]
  | b :: e :: rest =>
    if b = '\\'.toUInt8 then ' '.toUInt8 :: blankByte e :: scanString rest
    else if b = '"'.toUInt8 ∨ b = '\n'.toUInt8 then blankByte b :: scanCode (e :: rest)
    else blankByte b :: scanString (e :: rest)

/-- The view of bytes that begin in a raw string. -/
def scanRaw : List UInt8 → List UInt8
  | [] => []
  | b :: rest =>
    if b = rawQuote.toUInt8 then blankByte b :: scanCode rest else blankByte b :: scanRaw rest

end

/-! ### Byte by byte -/

/-- The context after a byte. -/
def Context.nextByte (context : Context) (b : UInt8) : Context :=
  match context with
  | code =>
    if b = '#'.toUInt8 then comment
    else if b = '"'.toUInt8 then string
    else if b = rawQuote.toUInt8 then raw
    else code
  | comment => if b = '\n'.toUInt8 then code else comment
  | string =>
    if b = '\\'.toUInt8 then escape
    else if b = '"'.toUInt8 ∨ b = '\n'.toUInt8 then code
    else string
  | escape => string
  | raw => if b = rawQuote.toUInt8 then code else raw

/-- Whether a byte met in a context is code. -/
def Context.showsByte (context : Context) (b : UInt8) : Bool :=
  match context with
  | code => b ≠ '#'.toUInt8 ∧ b ≠ '"'.toUInt8 ∧ b ≠ rawQuote.toUInt8
  | comment => b = '\n'.toUInt8
  | _ => false

/-- The context in which bytes leave the automaton. -/
def Context.afterBytes (context : Context) (bs : List UInt8) : Context :=
  bs.foldl Context.nextByte context

/-- A byte met in a context, or what takes its place. -/
def Context.viewByte (context : Context) (b : UInt8) : UInt8 :=
  if context.showsByte b then b else blankByte b

/-- Bytes met from a context on, with blanks in the place of those that are not code. -/
def blanked (context : Context) : List UInt8 → List UInt8
  | [] => []
  | b :: rest => context.viewByte b :: blanked (context.nextByte b) rest

mutual

/-- The loop agrees with the automaton: in code, -/
theorem scanCode_eq_blanked : (bs : List UInt8) → scanCode bs = blanked .code bs
  | [] => rfl
  | b :: rest => by
    by_cases hhash : b = '#'.toUInt8
    · subst hhash
      exact congrArg (' '.toUInt8 :: ·) (scanComment_eq_blanked rest)
    by_cases hquote : b = '"'.toUInt8
    · subst hquote
      exact congrArg (' '.toUInt8 :: ·) (scanString_eq_blanked rest)
    by_cases hraw : b = rawQuote.toUInt8
    · subst hraw
      exact congrArg (' '.toUInt8 :: ·) (scanRaw_eq_blanked rest)
    have hshows : Context.code.showsByte b = true := decide_eq_true ⟨hhash, hquote, hraw⟩
    rw [scanCode, blanked, Context.viewByte, Context.nextByte, hshows, if_neg hhash, if_neg hquote,
      if_neg hraw, if_neg hhash, if_neg hquote, if_neg hraw, scanCode_eq_blanked rest]
    rfl

/-- in a comment, -/
theorem scanComment_eq_blanked : (bs : List UInt8) → scanComment bs = blanked .comment bs
  | [] => rfl
  | b :: rest => by
    by_cases hend : b = '\n'.toUInt8
    · subst hend
      exact congrArg ('\n'.toUInt8 :: ·) (scanCode_eq_blanked rest)
    · have hshows : Context.comment.showsByte b = false := decide_eq_false hend
      rw [scanComment, blanked, Context.viewByte, Context.nextByte, hshows, blankByte, if_neg hend,
        if_neg hend, if_neg hend, scanComment_eq_blanked rest]
      rfl

/-- in a string, where a backslash takes two steps of the automaton, -/
theorem scanString_eq_blanked : (bs : List UInt8) → scanString bs = blanked .string bs
  | [] => rfl
  | [b] => rfl
  | b :: e :: rest => by
    by_cases hescape : b = '\\'.toUInt8
    · subst hescape
      exact congrArg (fun cs => ' '.toUInt8 :: blankByte e :: cs) (scanString_eq_blanked rest)
    rw [scanString, blanked, Context.nextByte, if_neg hescape, if_neg hescape]
    split
    · exact congrArg (blankByte b :: ·) (scanCode_eq_blanked (e :: rest))
    · exact congrArg (blankByte b :: ·) (scanString_eq_blanked (e :: rest))

/-- and in a raw string. -/
theorem scanRaw_eq_blanked : (bs : List UInt8) → scanRaw bs = blanked .raw bs
  | [] => rfl
  | b :: rest => by
    rw [scanRaw, blanked, Context.nextByte]
    split
    · exact congrArg (blankByte b :: ·) (scanCode_eq_blanked rest)
    · exact congrArg (blankByte b :: ·) (scanRaw_eq_blanked rest)

end

/-! ### Bytes of characters -/

section Characters

variable {b : UInt8} {c : Char} {context : Context}

theorem ReadsAs.nextByte_eq (h : ReadsAs b c) (context : Context) :
    context.nextByte b = context.next c := by
  cases context <;>
    simp only [Context.nextByte, Context.next, h '#' (by decide), h '"' (by decide),
      h rawQuote (by decide), h '\n' (by decide), h '\\' (by decide)]

theorem ReadsAs.showsByte_eq (h : ReadsAs b c) (context : Context) :
    context.showsByte b = context.shows c := by
  cases context <;>
    simp only [Context.showsByte, Context.shows, ne_eq, h '#' (by decide), h '"' (by decide),
      h rawQuote (by decide), h '\n' (by decide)]

theorem ReadsAs.blankByte_eq (h : ReadsAs b c) :
    blankByte b = if c = '\n' then '\n'.toUInt8 else ' '.toUInt8 := by
  simp only [blankByte, h '\n' (by decide)]

/-- A character beyond ASCII ends nothing but an escape, so it is the same to meet it again. -/
theorem next_next_of_wide (hc : 128 ≤ c.toNat) (context : Context) :
    (context.next c).next c = context.next c ∧ (context.next c).shows c = context.shows c := by
  have hne : ∀ d : Char, d.toNat < 128 → c ≠ d := by
    rintro d hd rfl
    omega
  cases context <;>
    simp [Context.next, Context.shows, hne '#' (by decide), hne '"' (by decide),
      hne rawQuote (by decide), hne '\n' (by decide), hne '\\' (by decide)]

end Characters

theorem blanked_append (context : Context) (bs ds : List UInt8) :
    blanked context (bs ++ ds) = blanked context bs ++ blanked (context.afterBytes bs) ds := by
  induction bs generalizing context with
  | nil => rfl
  | cons b rest ih =>
    rw [List.cons_append, blanked, blanked, ih]
    rfl

section Wide

variable {c : Char} (hc : 128 ≤ c.toNat) {bs : List UInt8} (hbs : ∀ b ∈ bs, ReadsAs b c)

include hc hbs

/-- Behind its first byte, the bytes of a character beyond ASCII leave the automaton where it is. -/
theorem afterBytes_of_wide (context : Context) :
    (context.next c).afterBytes bs = context.next c := by
  induction bs with
  | nil => rfl
  | cons b rest ih =>
    have hb := hbs b List.mem_cons_self
    obtain ⟨hnext, -⟩ := next_next_of_wide hc context
    rw [Context.afterBytes, List.foldl_cons, hb.nextByte_eq, hnext]
    exact ih fun d hd => hbs d (List.mem_cons_of_mem _ hd)

/-- The bytes of a character beyond ASCII are kept or blanked all together. -/
theorem blanked_of_wide (context : Context) :
    blanked context bs =
      if context.shows c then bs else List.replicate bs.length ' '.toUInt8 := by
  have hline : c ≠ '\n' := by
    rintro rfl
    exact absurd hc (by decide)
  induction bs generalizing context with
  | nil => simp [blanked]
  | cons b rest ih =>
    have hb := hbs b List.mem_cons_self
    obtain ⟨-, hshows⟩ := next_next_of_wide hc context
    rw [blanked, Context.viewByte, hb.showsByte_eq, hb.nextByte_eq, hb.blankByte_eq, if_neg hline,
      ih (fun d hd => hbs d (List.mem_cons_of_mem _ hd)), hshows]
    split <;> rfl

end Wide

/-- The bytes of a character leave the automaton where the character leaves the scan. -/
theorem afterBytes_utf8EncodeChar (context : Context) (c : Char) :
    context.afterBytes (String.utf8EncodeChar c) = context.next c := by
  have hreads : ∀ b ∈ String.utf8EncodeChar c, ReadsAs b c := fun b => readsAs_of_mem
  rcases utf8EncodeChar_cases c with ⟨-, henc⟩ | ⟨hc, -⟩
  · rw [henc] at hreads ⊢
    exact (hreads _ (List.mem_singleton_self _)).nextByte_eq context
  · obtain ⟨b, bs, henc⟩ := List.exists_cons_of_ne_nil (String.utf8EncodeChar_ne_nil (c := c))
    rw [henc] at hreads ⊢
    rw [Context.afterBytes, List.foldl_cons, (hreads b List.mem_cons_self).nextByte_eq]
    exact afterBytes_of_wide hc (fun d hd => hreads d (List.mem_cons_of_mem _ hd)) context

/-- A character that is not code shows as a line end, or as a space for each of its bytes. -/
theorem shownBytes_of_not_isCode (c : Char) :
    shownBytes ⟨c, false⟩ =
      if c = '\n' then ['\n'.toUInt8]
      else List.replicate (String.utf8EncodeChar c).length ' '.toUInt8 := by
  have hspace : String.utf8EncodeChar ' ' = [' '.toUInt8] := rfl
  rw [shownBytes, Glyph.shown, if_neg Bool.false_ne_true]
  split
  · rfl
  · rw [List.flatMap_replicate, hspace, List.flatten_replicate_singleton,
      String.length_utf8EncodeChar]

/-- The bytes of a character are blanked as the character is. -/
theorem blanked_utf8EncodeChar (context : Context) (c : Char) :
    blanked context (String.utf8EncodeChar c) = shownBytes ⟨c, context.shows c⟩ := by
  have hreads : ∀ b ∈ String.utf8EncodeChar c, ReadsAs b c := fun b => readsAs_of_mem
  rcases utf8EncodeChar_cases c with ⟨-, henc⟩ | ⟨hc, -⟩
  · rw [henc] at hreads ⊢
    have hb := hreads _ (List.mem_singleton_self _)
    rw [blanked, blanked, Context.viewByte, hb.showsByte_eq, hb.blankByte_eq]
    cases context.shows c with
    | true => rw [isEncoding_shownBytes.code_eq, henc, if_pos rfl]
    | false =>
      rw [shownBytes_of_not_isCode, henc, if_neg Bool.false_ne_true]
      split <;> rfl
  · rw [blanked_of_wide hc hreads]
    cases context.shows c with
    | true => rw [isEncoding_shownBytes.code_eq, if_pos rfl]
    | false =>
      have hline : c ≠ '\n' := by
        rintro rfl
        exact absurd hc (by decide)
      rw [shownBytes_of_not_isCode, if_neg hline, if_neg Bool.false_ne_true]

/-- The automaton over bytes agrees with that over characters. -/
theorem blanked_encode (context : Context) (cs : List Char) :
    blanked context (encode cs) = (glyphsFrom context cs).flatMap shownBytes := by
  induction cs generalizing context with
  | nil => rfl
  | cons c rest ih =>
    rw [encode_cons, blanked_append, afterBytes_utf8EncodeChar, blanked_utf8EncodeChar, ih]
    rfl

/-- The code view is what the automaton makes of the bytes of a source. -/
theorem bytes_codeView (source : String) :
    bytes (codeView source) = blanked .code (bytes source) := by
  rw [bytes_eq_encode source, blanked_encode, ← flatMap_shownBytes]
  rfl

/-! ### The view of a source -/

/-- Whether a byte stands outside of literals and comments: the automaton comes to it in a context
that shows it. -/
def IsCodeAt (source : List UInt8) (i : Nat) : Prop :=
  ∃ b, source[i]? = some b ∧ (Context.code.afterBytes (source.take i)).showsByte b = true

/-- Bytes with literals and comments blanked. -/
structure ShowsCode (source view : List UInt8) : Prop where
  length_eq : view.length = source.length
  lineEnd_iff : ∀ i : Nat, view[i]? = some '\n'.toUInt8 ↔ source[i]? = some '\n'.toUInt8
  kept_or_space : ∀ i : Nat, source[i]? ≠ some '\n'.toUInt8 →
    view[i]? = source[i]? ∨ view[i]? = some ' '.toUInt8
  code_kept : ∀ i, IsCodeAt source i → view[i]? = source[i]?
  others_blanked : ∀ i, ¬IsCodeAt source i → view[i]? = source[i]?.map blankByte
  hash_notMem : '#'.toUInt8 ∉ view
  quote_notMem : '"'.toUInt8 ∉ view
  rawQuote_notMem : rawQuote.toUInt8 ∉ view

theorem length_blanked (context : Context) (bs : List UInt8) :
    (blanked context bs).length = bs.length := by
  induction bs generalizing context with
  | nil => rfl
  | cons b rest ih => rw [blanked, List.length_cons, List.length_cons, ih]

/-- A byte is viewed in the context that the automaton comes to it in. -/
theorem getElem?_blanked (context : Context) (bs : List UInt8) (i : Nat) :
    (blanked context bs)[i]? = bs[i]?.map (context.afterBytes (bs.take i)).viewByte := by
  induction bs generalizing context i with
  | nil => rfl
  | cons b rest ih =>
    cases i with
    | zero => rfl
    | succ i =>
      rw [blanked, List.getElem?_cons_succ, List.getElem?_cons_succ, ih]
      rfl

theorem blankByte_eq_lineEnd_iff {b : UInt8} : blankByte b = '\n'.toUInt8 ↔ b = '\n'.toUInt8 := by
  rw [blankByte]
  split
  · rename_i hend
    exact iff_of_true rfl hend
  · rename_i hend
    exact iff_of_false (by decide) hend

theorem viewByte_eq_lineEnd_iff {context : Context} {b : UInt8} :
    context.viewByte b = '\n'.toUInt8 ↔ b = '\n'.toUInt8 := by
  rw [Context.viewByte]
  split
  · exact Iff.rfl
  · exact blankByte_eq_lineEnd_iff

/-- No view of a byte is that of a character that begins a literal in code. -/
theorem viewByte_ne {context : Context} {b : UInt8} {c : Char} (hc : isDelimiter c = true) :
    context.viewByte b ≠ c.toUInt8 := by
  intro heq
  rw [Context.viewByte] at heq
  split at heq
  · rename_i hshows
    subst heq
    rcases isDelimiter_iff.1 hc with rfl | rfl | rfl <;> cases context <;>
      exact absurd hshows (by decide)
  · rw [blankByte] at heq
    rcases isDelimiter_iff.1 hc with rfl | rfl | rfl <;> split at heq <;>
      exact absurd heq (by decide)

/-- The automaton blanks literals and comments. -/
theorem showsCode_blanked (bs : List UInt8) : ShowsCode bs (blanked .code bs) := by
  have hview := getElem?_blanked .code bs
  have hnotMem : ∀ c, isDelimiter c = true → c.toUInt8 ∉ blanked .code bs := by
    intro c hc hmem
    obtain ⟨i, hi⟩ := List.mem_iff_getElem?.1 hmem
    rw [hview] at hi
    obtain ⟨b, -, hb⟩ := Option.map_eq_some_iff.1 hi
    exact viewByte_ne hc hb
  refine ⟨length_blanked _ _, fun i => ?_, fun i hi => ?_, fun i hi => ?_, fun i hi => ?_,
    hnotMem _ rfl, hnotMem _ rfl, hnotMem _ rfl⟩
  · rw [hview, Option.map_eq_some_iff]
    constructor
    · rintro ⟨b, hb, hend⟩
      rw [hb, viewByte_eq_lineEnd_iff.1 hend]
    · exact fun hend => ⟨_, hend, viewByte_eq_lineEnd_iff.2 rfl⟩
  · rw [hview]
    cases hb : bs[i]? with
    | none => exact .inl rfl
    | some b =>
      have hend : b ≠ '\n'.toUInt8 := fun hend => hi (hend ▸ hb)
      rw [Option.map_some, Context.viewByte, blankByte, if_neg hend]
      split
      · exact .inl rfl
      · exact .inr rfl
  · obtain ⟨b, hb, hshows⟩ := hi
    rw [hview, hb, Option.map_some, Context.viewByte, hshows, if_pos rfl]
  · rw [hview]
    refine Option.map_congr fun b hb => ?_
    have hshows : ¬(Context.code.afterBytes (bs.take i)).showsByte b = true :=
      fun hshows => hi ⟨b, hb, hshows⟩
    rw [Context.viewByte, if_neg hshows]

/-- The code view begins no literal, so making it again changes nothing. -/
theorem codeView_codeView (source : String) : codeView (codeView source) = codeView source := by
  have hplain : glyphs (codeView source) = plain (view (glyphs source)) := by
    have hcode : glyphs (codeView source) = plain (codeView source).toList :=
      glyphsFrom_code fun _ => isDelimiter_of_mem_codeView
    rw [hcode, codeView, String.toList_ofList]
  rw [codeView, hplain, view_plain]
  rfl

/-- **The code view.** The bytes that the loop makes of a source are those of a text, the code view.
It has as many bytes as the source, and line ends at the same places. At every other place it has
the byte of the source or a space: the byte wherever it is code, by an automaton that takes one byte
at a time. It has no character that begins a literal or a comment, and its own code view is
itself. -/
theorem codeView_showsCode (source : String) :
    String.fromUTF8? (scanCode (bytes source)).toByteArray = some (codeView source) ∧
      ShowsCode (bytes source) (bytes (codeView source)) ∧
      codeView (codeView source) = codeView source := by
  refine ⟨?_, ?_, codeView_codeView source⟩
  · have hbytes : (scanCode (bytes source)).toByteArray = (codeView source).toByteArray := by
      rw [scanCode_eq_blanked, ← bytes_codeView]
      exact ByteArray.ext List.data_toByteArray
    rw [hbytes, String.fromUTF8?, dif_pos (codeView source).isValidUTF8]
    rfl
  · rw [bytes_codeView]
    exact showsCode_blanked (bytes source)

end PolicyEngine.RuleText
