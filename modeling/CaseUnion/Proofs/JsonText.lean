import CaseUnion.Datum.Json

/-!
# Printed data reads back

Data that is written (`Datum.IsExact`) is read back from its printed text (`parse?_pretty`). A
reading goes over a text token by token and passes over blanks (`Reading.Covers`); the scanner takes
exactly one token off the front of a printed scalar, whatever follows it (`scanToken_quote`,
`scanToken_toString`), and printed lists and tables are covered element by element.
-/

namespace CaseUnion

/-- Data that is written without loss: integers have 64 bits, and no word leaves its type open. -/
inductive Datum.IsExact : Datum → Prop
  | null : IsExact .null
  | bool (value : Bool) : IsExact (.bool value)
  | int {value : Int} (h : IsSigned64 value ∨ IsUnsigned64 value) : IsExact (.int value)
  | text (value : String) : IsExact (.text value)
  | list {items : List Datum} (h : ∀ d ∈ items, IsExact d) : IsExact (.list items)
  | table {entries : List (String × Datum)} (h : ∀ e ∈ entries, IsExact e.2) :
      IsExact (.table entries)

namespace Json

variable {cs rest : List Char} {t : Token} {r next last : Reading} {opened : List Opened}

/-- A reading goes over all of a text and ends as another. -/
inductive Reading.Covers : Reading → List Char → Reading → Prop
  | done (r : Reading) : Covers r [] r
  | blank {c : Char} {cs : List Char} {r last : Reading} (hc : isSpace c)
      (h : Covers r cs last) : Covers r (c :: cs) last
  | token {cs rest : List Char} {t : Token} {r next last : Reading}
      (hscan : scanToken cs = some (t, rest)) (hlen : rest.length < cs.length)
      (hstep : r.step t = some next) (h : Covers next rest last) : Covers r cs last

theorem scanToken_of_isSpace {c : Char} (h : isSpace c) : scanToken (c :: cs) = none := by
  simp only [isSpace, Bool.or_eq_true, beq_iff_eq] at h
  rcases h with ((rfl | rfl) | rfl) | rfl <;> rfl

theorem dropWhile_isSpace_of_scanToken (h : scanToken cs = some (t, rest)) :
    cs.dropWhile isSpace = cs := by
  cases cs with
  | nil => rfl
  | cons c cs =>
    refine List.dropWhile_cons_of_neg fun hc => ?_
    rw [scanToken_of_isSpace hc] at h
    cases h

/-- The bound on the number of tokens is never met. -/
theorem Reading.Covers.exists_tokens (h : r.Covers cs last) {count : Nat}
    (hcount : cs.length < count) :
    ∃ tokens, scanUpTo count cs = some tokens ∧ r.run tokens = some last := by
  induction h generalizing count with
  | done r =>
    obtain ⟨count, rfl⟩ := Nat.exists_eq_add_one.2 hcount
    exact ⟨[], rfl, rfl⟩
  | blank hc _ ih =>
    obtain ⟨count, rfl⟩ := Nat.exists_eq_add_one.2 (Nat.zero_lt_of_lt hcount)
    obtain ⟨tokens, htokens, hrun⟩ := ih (Nat.lt_of_succ_lt hcount)
    refine ⟨tokens, ?_, hrun⟩
    rw [scanUpTo] at htokens ⊢
    rwa [List.dropWhile_cons_of_pos hc]
  | @token cs rest t r next last hscan hlen hstep _ ih =>
    obtain ⟨count, rfl⟩ := Nat.exists_eq_add_one.2 (Nat.zero_lt_of_lt hcount)
    obtain ⟨tokens, htokens, hrun⟩ := ih (Nat.lt_of_lt_of_le hlen (Nat.le_of_lt_succ hcount))
    refine ⟨t :: tokens, ?_, ?_⟩
    · rw [scanUpTo, dropWhile_isSpace_of_scanToken hscan]
      cases cs with
      | nil => cases hscan
      | cons c cs => simp [hscan, htokens]
    · rw [Reading.run, hstep]
      exact hrun

theorem parse?_eq_some {text : String} {d : Datum}
    (h : Reading.start.Covers text.toList ⟨[], .next d⟩) : parse? text = some d := by
  obtain ⟨tokens, htokens, hrun⟩ := h.exists_tokens (Nat.lt_succ_self _)
  rw [parse?, scan, htokens, Option.bind_some, ofTokens?, hrun]
  rfl

theorem covers_newLine (depth : Nat) (h : r.Covers rest last) :
    r.Covers (newLine depth ++ rest) last := by
  refine .blank rfl ?_
  induction 2 * depth with
  | zero => exact h
  | succ n ih => exact .blank rfl ih

/-! ### Texts -/

theorem hexValue?_hexDigit {n : Nat} (h : n < 16) : hexValue? (hexDigit n) = some n := by
  have hall : ∀ n < 16, hexValue? (hexDigit n) = some n := by decide
  exact hall n h

theorem scanText_of_hex4?_eq_none {a b c d : Char} (h : hex4? a b c d = none) :
    scanText ('\\' :: 'u' :: a :: b :: c :: d :: rest) = none := by
  by_cases hpair : ∃ e f g h more, rest = '\\' :: 'u' :: e :: f :: g :: h :: more
  · obtain ⟨e, f, g, h', more, rfl⟩ := hpair
    rw [scanText, h]
    rfl
  · rw [scanText, h]
    · rfl
    · exact fun e f g h' more hrest => hpair ⟨e, f, g, h', more, hrest⟩

/-- A code below the surrogates is read as its character, whatever follows it. A code that follows
is only looked at to see whether it is the other half. -/
theorem scanText_code {a b c d : Char} {code : Nat} {chars after : List Char}
    (hcode : hex4? a b c d = some code) (hlow : code < 0xD800)
    (hrest : scanText rest = some (some chars, after)) :
    scanText ('\\' :: 'u' :: a :: b :: c :: d :: rest) =
      some (some (Char.ofNat code :: chars), after) := by
  have hvalid : code.isValidChar := .inl hlow
  have hhigh : ¬ 0xD800 ≤ code := by omega
  by_cases hpair : ∃ e f g h more, rest = '\\' :: 'u' :: e :: f :: g :: h :: more
  · obtain ⟨e, f, g, h, more, rfl⟩ := hpair
    cases hsecond : hex4? e f g h with
    | none =>
      rw [scanText_of_hex4?_eq_none hsecond] at hrest
      cases hrest
    | some low =>
      rw [scanText, hcode, hsecond]
      simp [hhigh, hrest, hvalid, prepend]
  · rw [scanText, hcode]
    · simp [hrest, hvalid, prepend]
    · exact fun e f g h more hrest => hpair ⟨e, f, g, h, more, hrest⟩

theorem scanText_of_ne {c : Char} (hquote : c ≠ '"') (hslash : c ≠ '\\')
    (hcontrol : ¬ c.toNat < 0x20) : scanText (c :: rest) = prepend c <$> scanText rest := by
  rw [scanText, if_neg (by simpa [hslash] using hcontrol)]
  all_goals simp [hquote, hslash]

theorem scanText_escape (c : Char) {chars after : List Char}
    (h : scanText rest = some (some chars, after)) :
    scanText (escape c ++ rest) = some (some (c :: chars), after) := by
  rw [escape.eq_def]
  split
  case h_8 hquote hslash _ _ _ _ _ =>
    split
    · rename_i hcontrol
      have hcode : hex4? '0' '0' (hexDigit (c.toNat / 16)) (hexDigit (c.toNat % 16)) =
          some c.toNat := by
        rw [hex4?, hexValue?_hexDigit (by omega), hexValue?_hexDigit (by omega)]
        simp [hexValue?]
        omega
      have hchar := scanText_code hcode (by omega) h
      rwa [Char.ofNat_toNat] at hchar
    · rename_i hprintable
      simp [scanText_of_ne hquote hslash hprintable, h, prepend]
  all_goals simp [scanText, unescape?, h, prepend]

theorem scanText_flatMap_escape (chars : List Char) :
    scanText (chars.flatMap escape ++ '"' :: rest) = some (some chars, rest) := by
  induction chars with
  | nil => simp [scanText]
  | cons c chars ih =>
    rw [List.flatMap_cons, List.append_assoc]
    exact scanText_escape c ih

/-- A printed text is one token, whatever follows it. -/
theorem scanToken_quote (s : String) :
    scanToken (quote s ++ rest) = some (.text (some s), rest) := by
  have hscan : scanText (s.toList.flatMap escape ++ '"' :: rest) = some (some s.toList, rest) :=
    scanText_flatMap_escape s.toList
  rw [quote, List.cons_append, List.append_assoc, List.singleton_append, scanToken, hscan]
  simp

/-! ### Integers -/

/-- Nothing that continues a number. -/
def EndsNumber (rest : List Char) : Prop :=
  ∀ c ∈ rest.head?, c.isDigit = false ∧ c ≠ '.' ∧ c ≠ 'e' ∧ c ≠ 'E'

theorem takeDigits_append {digits : List Char} (hdigits : ∀ c ∈ digits, c.isDigit)
    (hrest : EndsNumber rest) : takeDigits (digits ++ rest) = (digits, rest) := by
  rw [takeDigits, List.takeWhile_append_of_pos hdigits, List.dropWhile_append_of_pos hdigits]
  cases rest with
  | nil => simp
  | cons c rest => simp [(hrest c rfl).1]

theorem scanFraction_of_endsNumber (hrest : EndsNumber rest) :
    scanFraction rest = some (none, rest) := by
  cases rest with
  | nil => rfl
  | cons c rest =>
    rw [scanFraction]
    rintro _ h
    exact (hrest c rfl).2.1 (List.cons.inj h).1

theorem scanExponent_of_endsNumber (hrest : EndsNumber rest) :
    scanExponent rest = some (none, rest) := by
  cases rest with
  | nil => rfl
  | cons c rest =>
    obtain ⟨-, -, he, hE⟩ := hrest c rfl
    simp [scanExponent, he, hE]

theorem digitsValue_toDigits (n : Nat) : digitsValue (Nat.toDigits 10 n) = n := by
  have h := Nat.ofDigitChars_ten_toDigits (n := n)
  rw [Nat.ofDigitChars_eq_foldl] at h
  rw [digitsValue]
  simpa [Nat.mul_comm] using h

theorem head?_toDigits_ne_zero {n : Nat} (h : n ≠ 0) : (Nat.toDigits 10 n).head? ≠ some '0' := by
  induction n using Nat.strongRecOn with
  | ind n ih =>
    rw [Nat.toDigits_eq_if (by decide)]
    split
    · rename_i hlt
      have hall : ∀ n < 10, n ≠ 0 → n.digitChar ≠ '0' := by decide
      simpa using hall n hlt h
    · have hfirst := ih (n / 10) (by omega) (by omega)
      cases hcs : Nat.toDigits 10 (n / 10) with
      | nil => exact absurd hcs Nat.toDigits_ne_nil
      | cons c cs => simpa [hcs] using hfirst

theorem scanUnsigned_toDigits (isNegative : Bool) (n : Nat) (hrest : EndsNumber rest) :
    scanUnsigned isNegative (Nat.toDigits 10 n ++ rest) =
      some ((Numeral.mk isNegative (Nat.toDigits 10 n) none none).datum, rest) := by
  have hdigits : ∀ c ∈ Nat.toDigits 10 n, c.isDigit := fun c hc =>
    Nat.isDigit_of_mem_toDigits (by decide) (by decide) hc
  rw [scanUnsigned, takeDigits_append hdigits hrest]
  by_cases hzero : n = 0
  · subst hzero
    simp [Nat.toDigits_zero, scanFraction_of_endsNumber hrest, scanExponent_of_endsNumber hrest]
  · have hhead := head?_toDigits_ne_zero hzero
    cases hcs : Nat.toDigits 10 n with
    | nil => exact absurd hcs Nat.toDigits_ne_nil
    | cons c cs =>
      rw [hcs] at hhead
      have hc : c ≠ '0' := fun hc => hhead (congrArg some hc)
      simp only [Option.bind_eq_bind]
      split
      · contradiction
      · rename_i h
        exact absurd (List.cons.inj h).1 hc
      · simp [scanFraction_of_endsNumber hrest, scanExponent_of_endsNumber hrest]

theorem datum_of_unsigned {whole : List Char} {n : Int} (hvalue : digitsValue whole = n)
    (h : IsUnsigned64 n) : (Numeral.mk false whole none none).datum = .int n := by
  subst hvalue
  simp [Numeral.datum, h]

theorem datum_of_negative {whole : List Char} {n : Int} (hvalue : digitsValue whole = -n)
    (hneg : n < 0) (h : IsSigned64 n) : (Numeral.mk true whole none none).datum = .int n := by
  obtain rfl : n = -(digitsValue whole : Int) := by omega
  have hpos : 0 < digitsValue whole := by omega
  simp [Numeral.datum, hpos, h]

theorem scanToken_of_isDigit {c : Char} (h : c.isDigit) :
    scanToken (c :: cs) =
      (scanUnsigned false (c :: cs)).map fun (d, after) => (.scalar d, after) := by
  rw [scanToken]
  case x_1 => exact List.cons_ne_nil c cs
  all_goals
    rintro _ hcs
    obtain ⟨rfl, -⟩ := List.cons.inj hcs
    cases h

/-- A printed integer is one token, unless what follows continues the number. -/
theorem scanToken_toString {n : Int} (h : IsSigned64 n ∨ IsUnsigned64 n) (hrest : EndsNumber rest) :
    scanToken ((toString n).toList ++ rest) = some (.scalar (.int n), rest) := by
  rw [Int.toString_eq_repr, Int.repr_eq_if]
  by_cases hn : 0 ≤ n
  · rw [if_pos hn, Nat.toList_repr]
    have hvalue : digitsValue (Nat.toDigits 10 n.toNat) = n := by
      rw [digitsValue_toDigits, Int.toNat_of_nonneg hn]
    have hscan := scanUnsigned_toDigits false n.toNat hrest
    rw [datum_of_unsigned hvalue (by omega)] at hscan
    have hdigits : ∀ c ∈ Nat.toDigits 10 n.toNat, c.isDigit := fun c hc =>
      Nat.isDigit_of_mem_toDigits (by decide) (by decide) hc
    cases hcs : Nat.toDigits 10 n.toNat with
    | nil => exact absurd hcs Nat.toDigits_ne_nil
    | cons c cs =>
      rw [hcs] at hscan hdigits
      rw [List.cons_append] at hscan ⊢
      rw [scanToken_of_isDigit (hdigits c List.mem_cons_self), hscan]
      rfl
  · rw [if_neg hn, String.toList_append, Nat.toList_repr]
    have hvalue : digitsValue (Nat.toDigits 10 (-n).toNat) = -n := by
      rw [digitsValue_toDigits, Int.toNat_of_nonneg (by omega)]
    have hscan := scanUnsigned_toDigits true (-n).toNat hrest
    rw [datum_of_negative hvalue (by omega) (by omega)] at hscan
    change scanToken ('-' :: (Nat.toDigits 10 (-n).toNat ++ rest)) = _
    rw [scanToken, hscan]
    rfl

/-! ### Values -/

/-- The reading takes the next token for the beginning of a value, unless it ends a list. -/
def Reading.AwaitsValue (r : Reading) (opened : List Opened) : Prop :=
  ∀ t, t ≠ .closeList → r.step t = Reading.stepValue opened t

theorem awaitsValue_value : Reading.AwaitsValue ⟨opened, .value⟩ opened := fun _ _ => rfl

theorem awaitsValue_element : Reading.AwaitsValue ⟨opened, .element⟩ opened := by
  intro t ht
  cases t <;> first | rfl | exact absurd rfl ht

/-- A printed value is read wherever a value may stand. -/
structure Reads (d : Datum) : Prop where
  covers : ∀ {depth : Nat} {opened : List Opened} {rest : List Char} {r last : Reading},
    r.AwaitsValue opened → EndsNumber rest → Reading.Covers ⟨opened, .next d⟩ rest last →
      r.Covers (prettyChars depth d ++ rest) last

theorem endsNumber_cons {c : Char} (h : c = ',' ∨ c = '\n') : EndsNumber (c :: rest) := by
  intro d hd
  obtain rfl : c = d := Option.some.inj hd
  rcases h with rfl | rfl <;> decide

theorem endsNumber_prettyItems {depth inner : Nat} (items : List Datum) :
    EndsNumber (prettyItems inner items ++ (newLine depth ++ rest)) := by
  cases items with
  | nil => exact endsNumber_cons (.inr rfl)
  | cons _ _ =>
    rw [prettyItems]
    exact endsNumber_cons (.inl rfl)

theorem endsNumber_prettyEntries {depth inner : Nat} (entries : List (String × Datum)) :
    EndsNumber (prettyEntries inner entries ++ (newLine depth ++ rest)) := by
  cases entries with
  | nil => exact endsNumber_cons (.inr rfl)
  | cons _ _ =>
    rw [prettyEntries]
    exact endsNumber_cons (.inl rfl)

/-- The rest of a list is read behind its first elements. -/
theorem covers_prettyItems {items done : List Datum} {d : Datum} {depth inner : Nat}
    (h : ∀ d ∈ items, Reads d)
    (hlast : Reading.Covers ⟨opened, .next (.list ((d :: done).reverse ++ items))⟩ rest last) :
    Reading.Covers ⟨.list done :: opened, .next d⟩
      (prettyItems inner items ++ (newLine depth ++ ']' :: rest)) last := by
  induction items generalizing d done with
  | nil =>
    rw [List.append_nil] at hlast
    exact covers_newLine depth (.token rfl (Nat.lt_succ_self _) rfl hlast)
  | cons next items ih =>
    obtain ⟨hnext, hlater⟩ := List.forall_mem_cons.1 h
    rw [prettyItems]
    simp only [List.cons_append, List.append_assoc]
    refine .token rfl (Nat.lt_succ_self _) rfl (covers_newLine inner ?_)
    refine hnext.covers awaitsValue_value (endsNumber_prettyItems items) ?_
    exact ih hlater (by simpa using hlast)

theorem covers_quote {s : String} (hstep : r.step (.text (some s)) = some next)
    (h : next.Covers rest last) : r.Covers (quote s ++ rest) last := by
  refine .token (scanToken_quote s) ?_ hstep h
  simp only [quote, List.cons_append, List.length_cons, List.length_append]
  omega

/-- A name and its value are read where a name may stand. -/
theorem covers_entry {done : Members} {name : String} {d : Datum} {depth : Nat}
    (hname : r.step (.text (some name)) = some ⟨opened, .colon done (some name)⟩) (hd : Reads d)
    (hrest : EndsNumber rest)
    (h : Reading.Covers ⟨.table done (some name) :: opened, .next d⟩ rest last) :
    r.Covers (quote name ++ (':' :: ' ' :: (prettyChars depth d ++ rest))) last := by
  refine covers_quote hname (.token rfl ?_ rfl (.blank rfl (hd.covers awaitsValue_value hrest h)))
  exact Nat.lt_succ_self _

/-- Entries whose names could all be read, last first. -/
def readMembers (entries : List (String × Datum)) : Members :=
  (entries.map fun e => (some e.1, e.2)).reverse

theorem datum_readMembers (entries : List (String × Datum)) :
    (readMembers entries).datum = .table entries := by
  have hnames {f : Option String × Datum → Option (String × Datum)}
      (hf : ∀ e : String × Datum, f (some e.1, e.2) = some e) :
      (entries.map fun e => (some e.1, e.2)).mapM f = some entries := by
    induction entries with
    | nil => rfl
    | cons entry entries ih => simp [hf, ih]
  rw [Members.datum, readMembers, List.reverse_reverse, hnames fun _ => rfl]

theorem readMembers_concat (before : List (String × Datum)) (name : String) (d : Datum) :
    readMembers (before ++ [(name, d)]) = (some name, d) :: readMembers before := by
  simp [readMembers]

/-- The rest of a table is read behind its first entries. -/
theorem covers_prettyEntries {before entries : List (String × Datum)} {name : String} {d : Datum}
    {depth inner : Nat} (h : ∀ e ∈ entries, Reads e.2)
    (hlast : Reading.Covers ⟨opened, .next (.table (before ++ (name, d) :: entries))⟩ rest last) :
    Reading.Covers ⟨.table (readMembers before) (some name) :: opened, .next d⟩
      (prettyEntries inner entries ++ (newLine depth ++ '\x7d' :: rest)) last := by
  induction entries generalizing before name d with
  | nil =>
    rw [← datum_readMembers, readMembers_concat] at hlast
    exact covers_newLine depth (.token rfl (Nat.lt_succ_self _) rfl hlast)
  | cons entry entries ih =>
    obtain ⟨nextName, next⟩ := entry
    obtain ⟨hnext, hlater⟩ := List.forall_mem_cons.1 h
    rw [prettyEntries]
    simp only [List.cons_append, List.append_assoc, List.nil_append]
    refine .token rfl (Nat.lt_succ_self _) rfl (covers_newLine inner ?_)
    refine covers_entry rfl hnext (endsNumber_prettyEntries entries) ?_
    rw [← readMembers_concat]
    exact ih hlater (by simpa using hlast)

theorem reads_of_token {d : Datum} (ht : t ≠ .closeList)
    (hstep : ∀ opened, Reading.stepValue opened t = some ⟨opened, .next d⟩)
    (hscan : ∀ depth rest, EndsNumber rest →
      scanToken (prettyChars depth d ++ rest) = some (t, rest))
    (hpos : ∀ depth, 0 < (prettyChars depth d).length) : Reads d where
  covers {depth opened rest r last} hr hrest hlast := by
    refine .token (hscan depth rest hrest) ?_ ((hr t ht).trans (hstep opened)) hlast
    rw [List.length_append]
    exact Nat.lt_add_of_pos_left (hpos depth)

theorem reads_list {items : List Datum} (h : ∀ d ∈ items, Reads d) : Reads (.list items) where
  covers {depth opened rest r last} hr hrest hlast := by
    have hopen := hr .openList (by simp)
    cases items with
    | nil =>
      rw [prettyChars]
      exact .token rfl (Nat.lt_succ_self _) hopen (.token rfl (Nat.lt_succ_self _) rfl hlast)
    | cons first items =>
      obtain ⟨hfirst, hlater⟩ := List.forall_mem_cons.1 h
      rw [prettyChars]
      simp only [List.cons_append, List.append_assoc, List.nil_append]
      refine .token rfl (Nat.lt_succ_self _) hopen (covers_newLine _ ?_)
      refine hfirst.covers awaitsValue_element (endsNumber_prettyItems items) ?_
      exact covers_prettyItems hlater hlast

theorem reads_table {entries : List (String × Datum)} (h : ∀ e ∈ entries, Reads e.2) :
    Reads (.table entries) where
  covers {depth opened rest r last} hr hrest hlast := by
    have hopen := hr .openTable (by simp)
    cases entries with
    | nil =>
      rw [prettyChars]
      exact .token rfl (Nat.lt_succ_self _) hopen (.token rfl (Nat.lt_succ_self _) rfl hlast)
    | cons entry entries =>
      obtain ⟨name, first⟩ := entry
      obtain ⟨hfirst, hlater⟩ := List.forall_mem_cons.1 h
      rw [prettyChars]
      simp only [List.cons_append, List.append_assoc, List.nil_append]
      refine .token rfl (Nat.lt_succ_self _) hopen (covers_newLine _ ?_)
      refine covers_entry rfl hfirst (endsNumber_prettyEntries entries) ?_
      exact @covers_prettyEntries rest last opened [] entries name first depth _ hlater hlast

theorem length_toString_pos (n : Int) : 0 < (toString n).toList.length := by
  rw [Int.toString_eq_repr, Int.repr_eq_if]
  split
  · rw [Nat.toList_repr]
    exact Nat.length_toDigits_pos
  · rw [String.toList_append, List.length_append]
    exact Nat.add_pos_left (by decide) _

theorem reads_of_isExact {d : Datum} (h : d.IsExact) : Reads d := by
  induction h with
  | null =>
    exact reads_of_token (t := .scalar .null) nofun (fun _ => rfl) (fun _ _ _ => rfl)
      fun _ => Nat.succ_pos _
  | bool value =>
    refine reads_of_token (t := .scalar (.bool value)) nofun (fun _ => rfl) ?_ ?_
    · cases value <;> exact fun _ _ _ => rfl
    · cases value <;> exact fun _ => Nat.succ_pos _
  | @int value h =>
    refine reads_of_token (t := .scalar (.int value)) nofun (fun _ => rfl) ?_ ?_
    · exact fun _ _ hrest => scanToken_toString h hrest
    · exact fun _ => length_toString_pos value
  | text value =>
    refine reads_of_token (t := .text (some value)) nofun (fun _ => rfl) ?_ ?_
    · exact fun _ _ _ => scanToken_quote value
    · exact fun _ => Nat.succ_pos _
  | list _ ih => exact reads_list ih
  | table _ ih => exact reads_table ih

/-- Printed data reads back as it was. -/
theorem parse?_pretty {d : Datum} (h : d.IsExact) : parse? (pretty d) = some d := by
  apply parse?_eq_some
  rw [pretty, String.toList_ofList, ← List.append_nil (prettyChars 0 d)]
  exact (reads_of_isExact h).covers awaitsValue_value (fun c hc => nomatch hc) (.done _)

end Json
end CaseUnion
