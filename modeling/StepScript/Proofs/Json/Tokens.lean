import StepScript.Proofs.Json.Scalars

/-!
# Strings in JSON texts

Which texts are strings, and that the scanner takes those and no others. Escapes by code unit must not
stand for half a pair alone.
-/

namespace StepScript.Json

/-! ## Blanks -/

def Blanks (text : List Char) : Prop := ∀ c ∈ text, isSpace c = true

theorem Blanks.nil : Blanks [] := List.forall_mem_nil _

theorem Blanks.append {first second : List Char} (hfirst : Blanks first) (hsecond : Blanks second) :
    Blanks (first ++ second) :=
  List.forall_mem_append.2 ⟨hfirst, hsecond⟩

theorem Blanks.dropSpace_append {blanks : List Char} (h : Blanks blanks) (text : List Char) :
    dropSpace (blanks ++ text) = dropSpace text :=
  List.dropWhile_append_of_pos h

theorem exists_blanks (text : List Char) :
    ∃ blanks, Blanks blanks ∧ text = blanks ++ dropSpace text :=
  ⟨text.takeWhile isSpace, forall_mem_takeWhile text, List.takeWhile_append_dropWhile.symm⟩

/-- Numbers do not go on into blanks. -/
theorem Blanks.endsNumber_append {blanks rest : List Char} (h : Blanks blanks)
    (hrest : EndsNumber rest) : EndsNumber (blanks ++ rest) := by
  cases blanks with
  | nil => exact hrest
  | cons c blanks =>
    rintro _ _ ⟨⟩
    have hspace : isSpace c = true := h c (List.mem_cons_self ..)
    have hblank : ((c = ' ' ∨ c = '\n') ∨ c = '\t') ∨ c = '\r' := by
      simpa only [isSpace, Bool.or_eq_true, beq_iff_eq] using hspace
    rcases hblank with ((rfl | rfl) | rfl) | rfl <;> decide

/-! ## Escapes -/

inductive HexText : Nat → List Char → Prop where
  | digits {a b c d : Char} {i j k l : Nat} (ha : hexValue? a = some i) (hb : hexValue? b = some j)
      (hc : hexValue? c = some k) (hd : hexValue? d = some l) :
      HexText (((i * 16 + j) * 16 + k) * 16 + l) [a, b, c, d]

/-- An escape without its backslash: a short one, a code unit that is a character, or two code units
that are one together. -/
inductive EscapeText : Char → List Char → Prop where
  | short {c d : Char} (h : shortEscape? c = some d) : EscapeText d [c]
  | unit {n : Nat} {digits : List Char} (h : HexText n digits) (htrailing : isTrailing n = false)
      (hleading : isLeading n = false) : EscapeText (Char.ofNat n) ('u' :: digits)
  | pair {leading trailing : Nat} {first second : List Char} (hfirst : HexText leading first)
      (hsecond : HexText trailing second) (hleading : isLeading leading = true)
      (htrailing : isTrailing trailing = true) :
      EscapeText (Char.ofNat ((leading - 0xD800) * 0x400 + (trailing - 0xDC00) + 0x10000))
        ('u' :: (first ++ '\\' :: 'u' :: second))

section

variable {n : Nat} {c : Char} {text rest : List Char}

theorem HexText.scanHex_append (h : HexText n text) (rest : List Char) :
    scanHex (text ++ rest) = .ok (n, rest) := by
  cases h with
  | digits ha hb hc hd =>
    simp only [scanHex, List.cons_append, List.nil_append, ha, hb, hc, hd]

theorem exists_of_scanHex (h : scanHex text = .ok (n, rest)) :
    ∃ digits, text = digits ++ rest ∧ HexText n digits := by
  unfold scanHex at h
  dsimp only at h
  split at h
  · split at h
    · next ha hb hc hd =>
      cases h
      exact ⟨_, rfl, .digits ha hb hc hd⟩
    · cases h
  · cases h

/-- No code unit is both halves of a pair. -/
theorem isTrailing_of_isLeading (h : isLeading n = true) : isTrailing n = false := by
  simp only [isLeading, Bool.and_eq_true, decide_eq_true_eq] at h
  simp only [isTrailing, Bool.and_eq_false_iff, decide_eq_false_iff_not]
  omega

theorem EscapeText.scanEscape_append (h : EscapeText c text) (rest : List Char) :
    scanEscape (text ++ rest) = .ok (c, rest) := by
  cases h with
  | @short d _ hshort =>
    have hu : d ≠ 'u' := by
      rintro rfl
      cases hshort
    rw [List.cons_append, List.nil_append, scanEscape]
    · rw [hshort]
    · exact fun h => hu h
  | unit hdigits htrailing hleading =>
    have hscan := hdigits.scanHex_append rest
    simp [scanEscape, scanUnicode, hscan, htrailing, hleading, bind, Except.bind, pure, Except.pure]
  | @pair leading trailing first second hfirst hsecond hleading htrailing =>
    have hscan := hfirst.scanHex_append ('\\' :: 'u' :: (second ++ rest))
    have hnext := hsecond.scanHex_append rest
    have hother := isTrailing_of_isLeading hleading
    simp [scanEscape, scanUnicode, scanTrailing, hscan, hnext, htrailing, hleading, hother, bind,
      Except.bind, pure, Except.pure]

theorem exists_of_scanTrailing {leading : Nat} (h : scanTrailing leading text = .ok (c, rest)) :
    ∃ second trailing, text = '\\' :: 'u' :: (second ++ rest) ∧ HexText trailing second ∧
      isTrailing trailing = true ∧
      Char.ofNat ((leading - 0xD800) * 0x400 + (trailing - 0xDC00) + 0x10000) = c := by
  unfold scanTrailing at h
  split at h
  · cases h
  · cases h
  · obtain ⟨⟨trailing, after⟩, hscan, hpair⟩ := exists_of_bind_eq_ok h
    obtain ⟨second, rfl, hsecond⟩ := exists_of_scanHex hscan
    dsimp only at hpair
    split at hpair
    · next htrailing =>
      obtain ⟨rfl, rfl⟩ := Prod.mk.inj (Except.ok.inj hpair)
      exact ⟨second, trailing, rfl, hsecond, htrailing, rfl⟩
    · cases hpair
  · cases h

theorem exists_of_scanEscape (h : scanEscape text = .ok (c, rest)) :
    ∃ escape, text = escape ++ rest ∧ EscapeText c escape := by
  unfold scanEscape at h
  split at h
  · cases h
  · obtain ⟨⟨n, after⟩, hscan, hunit⟩ := exists_of_bind_eq_ok h
    obtain ⟨digits, rfl, hdigits⟩ := exists_of_scanHex hscan
    cases htrailing : isTrailing n with
    | true =>
      simp only [htrailing] at hunit
      cases hunit
    | false =>
      cases hleading : isLeading n with
      | true =>
        simp only [htrailing, hleading, Bool.false_eq_true, if_false, if_true] at hunit
        obtain ⟨second, trailing, rfl, hsecond, hpair, rfl⟩ := exists_of_scanTrailing hunit
        exact ⟨'u' :: (digits ++ '\\' :: 'u' :: second), by simp,
          .pair hdigits hsecond hleading hpair⟩
      | false =>
        simp only [htrailing, hleading, Bool.false_eq_true, if_false] at hunit
        obtain ⟨rfl, rfl⟩ := Prod.mk.inj (Except.ok.inj hunit)
        exact ⟨'u' :: digits, rfl, .unit hdigits htrailing hleading⟩
  · split at h
    · next hshort =>
      cases h
      exact ⟨[_], rfl, .short hshort⟩
    · cases h

end

/-! ## Strings -/

inductive StringText : List Char → List Char → Prop where
  | close : StringText [] ['"']
  | plain {c : Char} {value text : List Char} (hquote : c ≠ '"') (hbackslash : c ≠ '\\')
      (hcontrol : 0x20 ≤ c.toNat) (h : StringText value text) : StringText (c :: value) (c :: text)
  | escape {c : Char} {escape value text : List Char} (hescape : EscapeText c escape)
      (h : StringText value text) : StringText (c :: value) ('\\' :: (escape ++ text))

/-- Whether a character stands for itself in a string. -/
def isPlain (c : Char) : Bool := c != '"' && c != '\\' && decide (0x20 ≤ c.toNat)

theorem StringText.of_plain {value : List Char} (h : value.all isPlain = true) :
    StringText value (value ++ ['"']) := by
  induction value with
  | nil => exact .close
  | cons c value ih =>
    obtain ⟨hc, hvalue⟩ := Bool.and_eq_true_iff.1 (List.all_cons.symm.trans h)
    obtain ⟨⟨hquote, hbackslash⟩, hcontrol⟩ :
        (c ≠ '"' ∧ c ≠ '\\') ∧ 0x20 ≤ c.toNat := by simpa [isPlain] using hc
    exact .plain hquote hbackslash hcontrol (ih hvalue)

theorem StringText.scanString_append {value text : List Char} (h : StringText value text)
    {fuel : Nat} (hfuel : text.length ≤ fuel) (before rest : List Char) :
    scanString fuel before (text ++ rest) = .ok (String.ofList (before.reverse ++ value), rest) := by
  induction h generalizing fuel before with
  | close =>
    obtain ⟨fuel, rfl⟩ := Nat.exists_eq_add_of_le' (show 1 ≤ fuel from hfuel)
    simp [scanString]
  | @plain c value text hquote hbackslash hcontrol _ ih =>
    rw [List.length_cons] at hfuel
    obtain ⟨fuel, rfl⟩ := Nat.exists_eq_add_of_le' (show 1 ≤ fuel by omega)
    rw [List.cons_append, scanString, if_neg hquote, if_neg hbackslash,
      if_neg (Nat.not_lt.2 hcontrol), ih (by omega)]
    simp
  | @escape c escape value text hescape _ ih =>
    rw [List.length_cons, List.length_append] at hfuel
    obtain ⟨fuel, rfl⟩ := Nat.exists_eq_add_of_le' (show 1 ≤ fuel by omega)
    have hscan := hescape.scanEscape_append (text ++ rest)
    have hmore := ih (show text.length ≤ fuel by omega) (c :: before)
    simp only [List.cons_append, List.append_assoc, scanString]
    simp [hscan, hmore, bind, Except.bind]

theorem exists_of_scanString {fuel : Nat} {before text rest : List Char} {value : String}
    (h : scanString fuel before text = .ok (value, rest)) :
    ∃ read chars, text = read ++ rest ∧ StringText chars read ∧
      value = String.ofList (before.reverse ++ chars) := by
  induction fuel generalizing before text with
  | zero => cases h
  | succ fuel ih =>
    cases text with
    | nil => cases h
    | cons c text =>
      rw [scanString] at h
      split at h
      · next hquote =>
        cases h
        exact ⟨['"'], [], by rw [hquote]; rfl, .close, by rw [List.append_nil]⟩
      · next hquote =>
        split at h
        · next hbackslash =>
          obtain ⟨⟨d, after⟩, hscan, hlater⟩ := exists_of_bind_eq_ok h
          obtain ⟨escape, rfl, hescape⟩ := exists_of_scanEscape hscan
          obtain ⟨read, chars, rfl, hread, rfl⟩ := ih hlater
          exact ⟨'\\' :: (escape ++ read), d :: chars, by simp [hbackslash],
            .escape hescape hread, by simp⟩
        · next hbackslash =>
          split at h
          · cases h
          · next hcontrol =>
            obtain ⟨read, chars, rfl, hread, rfl⟩ := ih h
            exact ⟨c :: read, c :: chars, rfl,
              .plain hquote hbackslash (Nat.not_lt.1 hcontrol) hread, by simp⟩

end StepScript.Json
