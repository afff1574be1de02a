import Mathlib.Data.List.Forall2
import Mathlib.Tactic.SplitIfs
import Bulwark.Json.Raw
import Bulwark.Proofs.Text.Digits

/-!
# JSON text read back

The compact text of a record of strings and natural numbers is read as the tree of that record
(`Raw.parse?_render_object`): every string with its characters, whatever they are, every number
with its digits, the fields in their order.

A string goes through two steps on its way back.  Each character is one piece of the text
(`pieces?_escape`), and pieces that stem from characters join to these characters (`join?_pieceOf`).
-/

namespace Bulwark.Json

/-! ## Strings -/

/-- The piece as which a reader finds a written character. -/
def pieceOf (c : Char) : Piece :=
  if c.toNat < 32 ∧ c ≠ '\n' ∧ c ≠ '\r' ∧ c ≠ '\t' ∧ c.toNat ≠ 8 ∧ c.toNat ≠ 12 then .unit c.toNat
  else .char c

theorem hexUnit?_hexDigits {n : Nat} (h : n < 32) :
    hexUnit? '0' '0' (hexDigit (n / 16)) (hexDigit (n % 16)) = some n := by
  revert n
  decide

theorem pieces?_plain {c : Char} (hquote : c ≠ '"') (hslash : c ≠ '\\') (h : ¬ c.toNat < 32)
    (cs : List Char) :
    pieces? (c :: cs) = (pieces? cs).map fun (ps, after) => (.char c :: ps, after) := by
  rw [pieces?.eq_def]
  split
  · exact absurd ‹c :: cs = []› (by simp)
  · exact absurd (List.cons.inj ‹_›).1 hquote
  · exact absurd (List.cons.inj ‹_›).1 hslash
  · exact absurd (List.cons.inj ‹_›).1 hslash
  · rename_i heq
    obtain ⟨rfl, rfl⟩ := List.cons.inj heq
    rw [if_neg h]

/-- An escape of one letter is one piece. -/
theorem pieces?_shortEscape {e c : Char} (h : shortEscape? e = some c) (hne : e ≠ 'u')
    (cs : List Char) :
    pieces? ('\\' :: e :: cs) = (pieces? cs).map fun (ps, after) => (.char c :: ps, after) := by
  rw [pieces?.eq_def]
  split
  · exact absurd ‹_› (by simp)
  · exact absurd (List.cons.inj ‹_›).1 (by decide)
  · exact absurd (List.cons.inj (List.cons.inj ‹_›).2).1 hne
  · rename_i heq
    obtain ⟨rfl, rfl⟩ := List.cons.inj (List.cons.inj heq).2
    rw [h]
    cases pieces? cs <;> rfl
  · rename_i hnot heq
    exact absurd (List.cons.inj heq).2.symm (hnot _ _ (List.cons.inj heq).1.symm)

/-- What an escape of one letter stands for is read as a character. -/
theorem pieceOf_shortEscape {e c : Char} (h : shortEscape? e = some c) : pieceOf c = .char c := by
  unfold shortEscape? at h
  split_ifs at h with hself
  · obtain rfl := Option.some.inj h
    rcases hself with rfl | rfl | rfl <;> rfl
  all_goals
    obtain rfl := Option.some.inj h
    rfl

/-- An escape of four hexadecimal digits is one piece. -/
theorem pieces?_unitEscape {a b c d : Char} {n : Nat} (h : hexUnit? a b c d = some n)
    (cs : List Char) :
    pieces? ('\\' :: 'u' :: a :: b :: c :: d :: cs) =
      (pieces? cs).map fun (ps, after) => (.unit n :: ps, after) := by
  rw [pieces?, h]
  cases pieces? cs <;> rfl

theorem eq_ofNat_of_toNat {c : Char} {n : Nat} (h : c.toNat = n) : c = Char.ofNat n := by
  rw [← h, Char.ofNat_toNat]

/-- Every written character is one piece. -/
theorem pieces?_escape (c : Char) (cs : List Char) :
    pieces? (escape c ++ cs) = (pieces? cs).map fun (ps, after) => (pieceOf c :: ps, after) := by
  have hshort : ∀ {e d : Char}, shortEscape? e = some d → e ≠ 'u' → pieces? ('\\' :: e :: cs) =
      (pieces? cs).map fun (ps, after) => (pieceOf d :: ps, after) := by
    intro e d h hne
    rw [pieceOf_shortEscape h]
    exact pieces?_shortEscape h hne cs
  unfold escape
  -- the seven characters that have an escape of one letter
  by_cases hquote : c = '"'
  · subst hquote
    exact hshort rfl (by decide)
  rw [if_neg hquote]
  by_cases hslash : c = '\\'
  · subst hslash
    exact hshort rfl (by decide)
  rw [if_neg hslash]
  by_cases hn : c = '\n'
  · subst hn
    exact hshort rfl (by decide)
  rw [if_neg hn]
  by_cases hr : c = '\r'
  · subst hr
    exact hshort rfl (by decide)
  rw [if_neg hr]
  by_cases ht : c = '\t'
  · subst ht
    exact hshort rfl (by decide)
  rw [if_neg ht]
  by_cases h8 : c.toNat = 8
  · obtain rfl := eq_ofNat_of_toNat h8
    exact hshort rfl (by decide)
  rw [if_neg h8]
  by_cases h12 : c.toNat = 12
  · obtain rfl := eq_ofNat_of_toNat h12
    exact hshort rfl (by decide)
  rw [if_neg h12]
  -- the other control characters, and what is written as it is
  by_cases hlt : c.toNat < 32
  · rw [if_pos hlt, pieceOf, if_pos ⟨hlt, hn, hr, ht, h8, h12⟩]
    exact pieces?_unitEscape (hexUnit?_hexDigits hlt) cs
  · rw [if_neg hlt, pieceOf, if_neg fun h => hlt h.1]
    exact pieces?_plain hquote hslash hlt cs

/-- A unit below the surrogates is a character of its own. -/
theorem join?_unit {n : Nat} (h : n < 0xD800) (ps : List Piece) :
    join? (.unit n :: ps) = (join? ps).map (Char.ofNat n :: ·) := by
  rw [join?.eq_def]
  split
  · exact absurd ‹_› (by simp)
  · exact absurd (List.cons.inj ‹_›).1 (by simp)
  · rename_i heq
    obtain ⟨hunit, rfl⟩ := List.cons.inj heq
    obtain rfl := Piece.unit.inj hunit
    rw [if_neg (by omega), if_neg (by omega)]
  · rename_i heq
    obtain ⟨hunit, rfl⟩ := List.cons.inj heq
    obtain rfl := Piece.unit.inj hunit
    rw [if_neg (by omega)]

/-- Pieces that stem from characters are these characters. -/
theorem join?_pieceOf (cs : List Char) : join? (cs.map pieceOf) = some cs := by
  induction cs with
  | nil => rfl
  | cons c rest ih =>
    have hpiece : (pieceOf c = .unit c.toNat ∧ c.toNat < 32) ∨ pieceOf c = .char c := by
      unfold pieceOf
      split
      · exact .inl ⟨rfl, (‹_ ∧ _› : _ ∧ _).1⟩
      · exact .inr rfl
    rw [List.map_cons]
    rcases hpiece with ⟨hunit, hlt⟩ | hchar
    · rw [hunit, join?_unit (by omega), ih, Option.map_some, Char.ofNat_toNat]
    · rw [hchar, join?, ih, Option.map_some]

/-- A string is read as it was written, up to its closing quote. -/
theorem string?_quote (s : String) (rest : List Char) :
    string? (s.toList.flatMap escape ++ '"' :: rest) = some (some s, rest) := by
  have hpieces : ∀ cs : List Char, pieces? (cs.flatMap escape ++ '"' :: rest) =
      some (cs.map pieceOf, rest) := by
    intro cs
    induction cs with
    | nil => rw [List.flatMap_nil, List.nil_append, pieces?, List.map_nil]
    | cons c cs ih =>
      rw [List.flatMap_cons, List.append_assoc, pieces?_escape, ih, Option.map_some, List.map_cons]
  unfold string?
  rw [hpieces, Option.map_some]
  simp only [join?_pieceOf, Option.map_some, String.ofList_toList]

theorem toList_quote (s : String) :
    (quote s).toList = '"' :: (s.toList.flatMap escape ++ ['"']) := by
  unfold quote
  rw [String.toList_ofList, List.cons_append]

/-! ## Numbers -/

/-- The spelling of a natural number. -/
def natural (n : Nat) : Numeral := ⟨false, Nat.toDigits 10 n, none, none⟩

/-- What may follow a number without belonging to it. -/
def EndsNumber (rest : List Char) : Prop :=
  ∀ c ∈ rest.head?, c.isDigit = false ∧ c ≠ '.' ∧ c ≠ 'e' ∧ c ≠ 'E'

theorem digits?_toDigits (n : Nat) {rest : List Char} (h : EndsNumber rest) :
    digits? (Nat.toDigits 10 n ++ rest) = some (Nat.toDigits 10 n, rest) := by
  have hdigits : ∀ c ∈ Nat.toDigits 10 n, c.isDigit = true :=
    fun c hc => Text.isDigit_of_mem_toDigits hc
  unfold digits?
  rw [Text.takeWhile_digits hdigits fun c hc => (h c hc).1,
    Text.dropWhile_digits hdigits fun c hc => (h c hc).1]
  exact if_neg (by simp [Nat.toDigits_ne_nil])

/-- The first digit of a number. -/
theorem exists_digit (n : Nat) :
    ∃ c cs, Nat.toDigits 10 n = c :: cs ∧ c.isDigit = true := by
  obtain ⟨c, cs, h⟩ := List.exists_cons_of_ne_nil (@Nat.toDigits_ne_nil n 10)
  have hmem : c ∈ Nat.toDigits 10 n := h ▸ List.mem_cons_self
  exact ⟨c, cs, h, Text.isDigit_of_mem_toDigits hmem⟩

theorem fractionPart?_none {rest : List Char} (h : EndsNumber rest) :
    fractionPart? rest = some (none, rest) := by
  unfold fractionPart?
  split
  · exact absurd rfl (h _ rfl).2.1
  · rfl

theorem exponentPart?_none {rest : List Char} (h : EndsNumber rest) :
    exponentPart? rest = some (none, rest) := by
  unfold exponentPart?
  split
  · exact absurd rfl (h _ rfl).2.2.1
  · exact absurd rfl (h _ rfl).2.2.2
  · rfl

/-- A number is read as it was written, up to what ends it. -/
theorem numeral?_toDigits (n : Nat) {rest : List Char} (h : EndsNumber rest) :
    numeral? (Nat.toDigits 10 n ++ rest) = some (natural n, rest) := by
  have hzero : ¬ ((Nat.toDigits 10 n).head? = some '0' ∧ (Nat.toDigits 10 n).length ≠ 1) := by
    rintro ⟨hhead, hlength⟩
    rcases Nat.eq_zero_or_pos n with rfl | hpos
    · exact hlength rfl
    · exact Text.head_toDigits_ne_zero hpos hhead
  unfold numeral?
  split
  rename_i negative cs hsign
  -- a natural number has no sign
  have hplain : negative = false ∧ cs = Nat.toDigits 10 n ++ rest := by
    obtain ⟨c, ds, hds, hdigit⟩ := exists_digit n
    split at hsign
    · rename_i heq
      rw [hds, List.cons_append] at heq
      rw [(List.cons.inj heq).1] at hdigit
      exact absurd hdigit (by decide)
    · exact ⟨(Prod.mk.inj hsign).1.symm, (Prod.mk.inj hsign).2.symm⟩
  obtain ⟨rfl, rfl⟩ := hplain
  simp only [digits?_toDigits n h, Option.bind_eq_bind, Option.bind_some, if_neg hzero,
    fractionPart?_none h, exponentPart?_none h]
  rfl

/-- The value of the spelling of a number that fits into 64 bits. -/
theorem value?_natural {n : Nat} (h : n ≤ Text.maxUnsigned) :
    (natural n).value? = some (.int n) := by
  have hvalue : Text.natOfDigits (natural n).whole = n := Text.natOfDigits_toDigits n
  unfold Numeral.value?
  rw [if_pos ⟨rfl, rfl⟩, hvalue]
  exact (if_neg Bool.false_ne_true).trans (if_pos h)

/-! ## Values -/

/-- A string or a natural number, and the tree as which it is read. -/
inductive Reads : Json → Raw → Prop
  | string (s : String) : Reads (.string s) (.string (some s))
  | nat (n : Nat) : Reads (.nat n) (.number (natural n))

theorem skipSpaces_of_head {cs : List Char} (h : ∀ c ∈ cs.head?, isSpace c = false) :
    skipSpaces cs = cs := by
  cases cs with
  | nil => rfl
  | cons c rest =>
    have hc : ¬ isSpace c = true := by rw [h c rfl]; decide
    exact List.dropWhile_cons_of_neg hc

theorem isSpace_of_isDigit {c : Char} (h : c.isDigit = true) : isSpace c = false := by
  unfold isSpace
  simp only [Bool.or_eq_false_iff, decide_eq_false_iff_not]
  refine ⟨⟨⟨?_, ?_⟩, ?_⟩, ?_⟩ <;> (rintro rfl; exact absurd h (by decide))

/-- A text that starts with a digit is read as a number. -/
theorem Raw.value_digit {c : Char} (h : c.isDigit = true) (fuel : Nat) (cs : List Char) :
    Raw.value (fuel + 1) (c :: cs) = (numeral? (c :: cs)).map fun (n, r) => (.number n, r) := by
  have hskip : skipSpaces (c :: cs) = c :: cs :=
    skipSpaces_of_head (by rintro _ ⟨⟩; exact isSpace_of_isDigit h)
  have hne : ∀ d : Char, d.isDigit = false → c ≠ d := by
    rintro d hd rfl
    exact absurd h (by rw [hd]; decide)
  rw [Raw.value, hskip]
  split
  · exact absurd (List.cons.inj ‹_›).1 (hne _ (by decide))
  · exact absurd (List.cons.inj ‹_›).1 (hne _ (by decide))
  · exact absurd (List.cons.inj ‹_›).1 (hne _ (by decide))
  · exact absurd (List.cons.inj ‹_›).1 (hne _ (by decide))
  · exact absurd (List.cons.inj ‹_›).1 (hne _ (by decide))
  · exact absurd (List.cons.inj ‹_›).1 (hne _ (by decide))
  · rfl

/-- A string or a natural number is read as it was written, up to what ends it. -/
theorem Raw.value_render {v : Json} {r : Raw} (h : Reads v r) (fuel : Nat) {rest : List Char}
    (hrest : EndsNumber rest) :
    Raw.value (fuel + 1) (v.render.toList ++ rest) = some (r, rest) := by
  cases h with
  | string s =>
    rw [Json.render, toList_quote, List.cons_append, Raw.value,
      skipSpaces_of_head (by rintro _ ⟨⟩; decide)]
    simp only [List.append_assoc, List.cons_append, List.nil_append, string?_quote, Option.map_some]
  | nat n =>
    have hrender : (Json.render (.nat n)).toList = Nat.toDigits 10 n := by
      unfold Json.nat
      rw [Json.render]
      exact Nat.toList_repr
    obtain ⟨c, cs, hcs, hdigit⟩ := exists_digit n
    rw [hrender, hcs, List.cons_append, Raw.value_digit hdigit, ← List.cons_append, ← hcs,
      numeral?_toDigits n hrest, Option.map_some]

/-! ## Records -/

/-- A field of a record, and the field as which it is read. -/
def ReadsField (field : String × Json) (raw : Option String × Raw) : Prop :=
  raw.1 = some field.1 ∧ Reads field.2 raw.2

/-- The written form of a field. -/
theorem toList_field (key : String) (v : Json) (rest : List Char) :
    (quote key ++ ":" ++ v.render).toList ++ rest =
      '"' :: (key.toList.flatMap escape ++ '"' :: ':' :: (v.render.toList ++ rest)) := by
  simp only [String.toList_append, String.reduceToList, toList_quote, List.append_assoc,
    List.cons_append, List.nil_append]

/-- The fields of a record are read as they were written, up to the brace that closes it. -/
theorem Raw.fields_render {rest : List Char} :
    ∀ {fields : List (String × Json)} {raws : List (Option String × Raw)},
      List.Forall₂ ReadsField fields raws → fields ≠ [] → ∀ fuel, fields.length < fuel →
      Raw.fields fuel ((",".intercalate (renderFields fields)).toList ++ '\x7d' :: rest) =
        some (raws, rest) := by
  intro fields
  induction fields with
  | nil =>
    intro _ _ hne
    exact absurd rfl hne
  | cons field others ih =>
    rintro raws hfields - fuel hfuel
    obtain ⟨key, v⟩ := field
    cases hfields with
    | @cons _ raw _ rawsLeft hfield hothers =>
      obtain ⟨_, r⟩ := raw
      obtain ⟨rfl, hreads⟩ := hfield
      -- one unit of fuel is for the field and one for its value
      obtain ⟨fuel, rfl⟩ : ∃ n, fuel = n + 2 := ⟨fuel - 2, by rw [List.length_cons] at hfuel; omega⟩
      have hspaces : ∀ c : Char, isSpace c = false → ∀ cs, skipSpaces (c :: cs) = c :: cs :=
        fun c hc cs => skipSpaces_of_head (by rintro _ ⟨⟩; exact hc)
      cases hothers with
      | nil =>
        have hbrace : EndsNumber ('\x7d' :: rest) := by
          rintro _ ⟨⟩
          decide
        rw [renderFields, renderFields, String.intercalate_singleton, toList_field, Raw.fields,
          hspaces _ (by decide)]
        simp only [string?_quote, Option.bind_eq_bind, Option.bind_some, hspaces ':' (by decide),
          Raw.value_render hreads fuel hbrace, hspaces '\x7d' (by decide)]
      | @cons next rawNext others rawsLast hnext hlast =>
        have hcomma : ∀ cs, EndsNumber (',' :: cs) := by
          rintro cs _ ⟨⟩
          decide
        have hrest := ih (.cons hnext hlast) (List.cons_ne_nil _ _) (fuel + 1)
          (by rw [List.length_cons] at hfuel; omega)
        -- the text of the first field, a comma, and the text of the other fields
        have hsplit : ((",".intercalate (renderFields ((key, v) :: next :: others))).toList ++
            '\x7d' :: rest) = (quote key ++ ":" ++ v.render).toList ++
              ',' ::
                ((",".intercalate (renderFields (next :: others))).toList ++ '\x7d' :: rest) := by
          rw [renderFields, renderFields, String.intercalate_cons_cons, ← renderFields]
          simp only [String.toList_append, String.reduceToList, List.append_assoc, List.cons_append,
            List.nil_append]
        rw [hsplit, toList_field, Raw.fields, hspaces _ (by decide)]
        simp only [string?_quote, Option.bind_eq_bind, Option.bind_some, hspaces ':' (by decide),
          Raw.value_render hreads fuel (hcomma _), hspaces ',' (by decide), hrest, Option.map_some]

/-- A record has a character at least for each of its fields. -/
theorem length_le_renderFields (fields : List (String × Json)) :
    fields.length ≤ (",".intercalate (renderFields fields)).toList.length := by
  induction fields with
  | nil => exact Nat.zero_le _
  | cons field others ih =>
    obtain ⟨key, v⟩ := field
    have hquote : 1 ≤ (quote key ++ ":" ++ v.render).toList.length := by
      rw [← List.append_nil (quote key ++ ":" ++ v.render).toList, toList_field]
      exact Nat.le_add_left _ _
    cases others with
    | nil =>
      rw [renderFields, renderFields, String.intercalate_singleton]
      exact hquote
    | cons next others =>
      have hne : renderFields (next :: others) ≠ [] := by
        rw [renderFields]
        exact List.cons_ne_nil _ _
      rw [renderFields, String.intercalate_cons_of_ne_nil hne, String.toList_append,
        List.length_append, String.toList_append, List.length_append, List.length_cons]
      omega

/-- A record of strings and natural numbers is read as the tree of that record. -/
theorem Raw.parse?_render_object {fields : List (String × Json)}
    {raws : List (Option String × Raw)} (h : List.Forall₂ ReadsField fields raws)
    (hne : fields ≠ []) : Raw.parse? (Json.object fields).render = some (.object raws) := by
  have hlist : (Json.object fields).render.toList =
      '\x7b' :: ((",".intercalate (renderFields fields)).toList ++ '\x7d' :: []) := by
    rw [Json.render]
    simp only [String.toList_append, String.reduceToList, List.cons_append, List.nil_append]
  have hfuel : fields.length < (Json.object fields).render.toList.length := by
    have hle := length_le_renderFields fields
    rw [hlist, List.length_cons, List.length_append]
    omega
  have hread := @Raw.fields_render [] _ _ h hne _ hfuel
  -- the record does not close at once, since a field opens with a quote
  have hopen : ∃ cs,
      (",".intercalate (renderFields fields)).toList ++ '\x7d' :: [] = '"' :: cs := by
    obtain ⟨⟨key, v⟩, others, rfl⟩ := List.exists_cons_of_ne_nil hne
    cases others with
    | nil =>
      rw [renderFields, renderFields, String.intercalate_singleton, toList_field]
      exact ⟨_, rfl⟩
    | cons next others =>
      rw [renderFields, renderFields, String.intercalate_cons_cons, String.toList_append,
        String.toList_append, List.append_assoc, List.append_assoc, toList_field]
      exact ⟨_, rfl⟩
  obtain ⟨cs, hcs⟩ := hopen
  have hquote : skipSpaces ('"' :: cs) = '"' :: cs :=
    skipSpaces_of_head (by rintro _ ⟨⟩; decide)
  unfold Raw.parse?
  simp only []
  generalize (Json.object fields).render.toList.length = fuel at hread
  rw [hcs] at hread
  rw [hlist, hcs, Raw.value, skipSpaces_of_head (by rintro _ ⟨⟩; decide)]
  simp only [hquote, hread, Option.map_some]
  show (if skipSpaces [] = [] then some (Raw.object raws) else none) = _
  exact if_pos rfl

end Bulwark.Json
