import StepScript.Proofs.Json.Tokens
import Mathlib.Data.List.DropRight
import Mathlib.Data.List.Forall2

/-!
# Lists and objects in JSON texts

Items of lists and members of objects are read in one way: the first of them is taken off the text,
then, behind a comma each, the others, up to the bracket or brace that closes the list or object.
-/

namespace StepScript.Json

/-! ## Commas -/

/-- Texts with commas between them, from the first comma on. -/
def laterTexts (texts : List (List Char)) : List Char := texts.flatMap (',' :: ·)

theorem intercalate_cons (text : List Char) (texts : List (List Char)) :
    [','].intercalate (text :: texts) = text ++ laterTexts texts := by
  induction texts generalizing text with
  | nil => simp [laterTexts]
  | cons next texts ih =>
    rw [List.intercalate_cons_cons, ih next]
    simp [laterTexts]

theorem mem_intercalate {texts : List (List Char)} {c : Char} (h : c ∈ [','].intercalate texts) :
    c = ',' ∨ ∃ text ∈ texts, c ∈ text := by
  cases texts with
  | nil => cases h
  | cons text texts =>
    rw [intercalate_cons, List.mem_append, laterTexts, List.mem_flatMap] at h
    rcases h with h | ⟨next, hnext, h⟩
    · exact .inr ⟨text, List.mem_cons_self .., h⟩
    · exact (List.mem_cons.1 h).imp_right fun h => ⟨next, List.mem_cons_of_mem _ hnext, h⟩

theorem endsNumber_laterTexts {texts : List (List Char)} {c : Char} (hc : c = ']' ∨ c = '\x7d')
    (rest : List Char) : EndsNumber (laterTexts texts ++ c :: rest) := by
  cases texts with
  | nil => exact .cons (.inr hc)
  | cons text texts => exact .cons (.inl rfl)

/-! ## Blanks -/

theorem dropSpace_dropSpace (text : List Char) : dropSpace (dropSpace text) = dropSpace text :=
  List.dropWhile_idempotent _ _

theorem scanValue_dropSpace (fuel levels : Nat) (text : List Char) :
    scanValue fuel levels (dropSpace text) = scanValue fuel levels text := by
  cases fuel with
  | zero => simp [scanValue]
  | succ fuel => rw [scanValue, scanValue, dropSpace_dropSpace]

theorem scanItems_dropSpace (fuel levels : Nat) (first : Bool) (text : List Char) :
    scanItems fuel levels first (dropSpace text) = scanItems fuel levels first text := by
  cases fuel with
  | zero => simp [scanItems]
  | succ fuel => rw [scanItems, scanItems, dropSpace_dropSpace]

theorem scanMembers_dropSpace (fuel levels : Nat) (first : Bool) (text : List Char) :
    scanMembers fuel levels first (dropSpace text) = scanMembers fuel levels first text := by
  cases fuel with
  | zero => simp [scanMembers]
  | succ fuel => rw [scanMembers, scanMembers, dropSpace_dropSpace]

theorem scanKnownMembers_dropSpace (known : List String) (fuel : Nat) (first : Bool)
    (text : List Char) :
    scanKnownMembers known fuel first (dropSpace text) =
      scanKnownMembers known fuel first text := by
  cases fuel with
  | zero => simp [scanKnownMembers]
  | succ fuel => rw [scanKnownMembers, scanKnownMembers, dropSpace_dropSpace]

/-! ## What the scanner finds -/

/-- The scanner finds the document in front of each text that ends numbers, up to blanks. -/
def IsScanned (levels : Nat) (document : Document) (text : List Char) : Prop :=
  -- Three calls for each character are what `enoughFuel` grants, and no call needs more.
  ∀ fuel rest, 3 * (text ++ rest).length ≤ fuel + 1 → EndsNumber rest →
    ∃ after, dropSpace after = dropSpace rest ∧
      scanValue (fuel + 1) levels (text ++ rest) = (document, some after)

/-- The scanner finds the key, and behind it the colon, up to blanks. -/
def IsScannedKey (key : String) (text : List Char) : Prop :=
  ∀ fuel body, (text ++ ':' :: body).length ≤ fuel + 1 →
    ∃ inner after, dropSpace (text ++ ':' :: body) = '"' :: inner ∧
      scanString fuel [] inner = .ok (key, after) ∧ dropSpace after = ':' :: body

def IsScannedMember (levels : Nat) (member : String × Document) (text : List Char) : Prop :=
  ∃ keyText valueText, text = keyText ++ ':' :: valueText ∧ IsScannedKey member.1 keyText ∧
    IsScanned levels member.2 valueText

/-- A document that is found in a whole text. -/
theorem IsScanned.scan_eq {document : Document} {text : String}
    (h : IsScanned nestingLimit document text.toList) : scan text = ⟨document, none⟩ := by
  obtain ⟨after, hafter, hscan⟩ := h (3 * text.toList.length + 2) [] (by simp; omega) .nil
  rw [List.append_nil] at hscan
  rw [scan, enoughFuel, hscan]
  simp only [faultAfter, hafter]
  rfl

/-! ## Elements -/

/-- A scanner of elements that reads each from a text of its own. Whether it is at the first element
or behind one says the flag. -/
structure ReadsElements {α : Type} (IsText : α → List Char → Prop) (close : Char)
    (scan : Nat → Bool → List Char → List α × Option Malformed × Option (List Char)) : Prop where
  closes : close = ']' ∨ close = '\x7d'
  skips : ∀ fuel first text, scan fuel first (dropSpace text) = scan fuel first text
  ends : ∀ fuel first rest, scan (fuel + 1) first (close :: rest) = ([], none, some rest)
  element : ∀ {value text later values rest fuel}, IsText value text → EndsNumber later →
    later ≠ [] →
    (∀ fuel, 3 * later.length ≤ fuel → scan fuel false later = (values, none, some rest)) →
    3 * (text ++ later).length + 2 ≤ fuel →
      scan fuel true (text ++ later) = (value :: values, none, some rest) ∧
        scan fuel false (',' :: (text ++ later)) = (value :: values, none, some rest)

section

variable {α : Type} {IsText : α → List Char → Prop} {close : Char}
  {scan : Nat → Bool → List Char → List α × Option Malformed × Option (List Char)}
  {values : List α} {texts : List (List Char)} {blanks rest : List Char}

theorem ReadsElements.scan_laterTexts (hscan : ReadsElements IsText close scan)
    (h : List.Forall₂ IsText values texts) :
    ∀ fuel, 3 * (laterTexts texts ++ close :: rest).length ≤ fuel →
      scan fuel false (laterTexts texts ++ close :: rest) = (values, none, some rest) := by
  induction h with
  | nil =>
    intro fuel hfuel
    obtain ⟨fuel, rfl⟩ := Nat.exists_eq_add_of_le' (show 1 ≤ fuel by simp at hfuel; omega)
    exact hscan.ends fuel false rest
  | @cons value text values texts hvalue _ ih =>
    intro fuel hfuel
    have htext : laterTexts (text :: texts) ++ close :: rest =
        ',' :: (text ++ (laterTexts texts ++ close :: rest)) := by
      simp [laterTexts]
    rw [htext] at hfuel ⊢
    rw [List.length_cons] at hfuel
    exact (hscan.element hvalue (endsNumber_laterTexts hscan.closes rest) (by simp) ih
      (by omega)).2

theorem ReadsElements.scan_texts (hscan : ReadsElements IsText close scan)
    (h : List.Forall₂ IsText values texts) (hblanks : Blanks blanks) {fuel : Nat}
    (hfuel : 3 * (blanks ++ ([','].intercalate texts ++ close :: rest)).length + 2 ≤ fuel) :
    scan fuel true (blanks ++ ([','].intercalate texts ++ close :: rest)) =
      (values, none, some rest) := by
  rw [List.length_append] at hfuel
  rw [← hscan.skips, hblanks.dropSpace_append, hscan.skips]
  cases h with
  | nil =>
    obtain ⟨fuel, rfl⟩ := Nat.exists_eq_add_of_le' (show 1 ≤ fuel by omega)
    exact hscan.ends fuel true rest
  | cons hvalue hlater =>
    rw [intercalate_cons, List.append_assoc] at hfuel ⊢
    exact (hscan.element hvalue (endsNumber_laterTexts hscan.closes rest) (by simp)
      (hscan.scan_laterTexts hlater) (by omega)).1

end

/-! ### Items -/

/-- Where a value is found, no list or object ends. -/
theorem exists_cons_of_scanValue {fuel levels : Nat} {text rest : List Char} {value : Document}
    (h : scanValue fuel levels text = (value, some rest)) :
    ∃ c tail, dropSpace text = c :: tail ∧ c ≠ ']' := by
  cases fuel with
  | zero => simp [scanValue] at h
  | succ fuel =>
    rw [scanValue] at h
    cases htext : dropSpace text with
    | nil => simp [htext] at h
    | cons c tail =>
      refine ⟨c, tail, rfl, ?_⟩
      rintro rfl
      simp [htext] at h

theorem readsElements_scanItems (levels : Nat) :
    ReadsElements (IsScanned levels) ']' (fun fuel => scanItems fuel levels) where
  closes := .inl rfl
  skips fuel := scanItems_dropSpace fuel levels
  ends fuel first rest := by simp [scanItems, dropSpace, isSpace]
  element {document text later documents rest fuel} h hends hne hlater hfuel := by
    have hsome := List.length_pos_of_ne_nil hne
    rw [List.length_append] at hfuel
    -- One call opens the list or passes the comma, one is for the item, one for its value.
    obtain ⟨fuel, rfl⟩ := Nat.exists_eq_add_of_le' (show 3 ≤ fuel by omega)
    obtain ⟨after, hafter, hvalue⟩ := h fuel later (by rw [List.length_append]; omega) hends
    have hitems : scanItems (fuel + 1) levels false after = (documents, none, some rest) := by
      rw [← scanItems_dropSpace, hafter, scanItems_dropSpace]
      exact hlater (fuel + 1) (by omega)
    -- The blanks are gone when the value is scanned, and what comes then does not end the list.
    obtain ⟨c, tail, htext, hc⟩ := exists_cons_of_scanValue hvalue
    rw [← scanValue_dropSpace, htext] at hvalue
    have hitem : scanItem (fuel + 2) levels (c :: tail) =
        (document :: documents, none, some rest) := by
      rw [scanItem, hvalue]
      simp [hitems]
    have hcomma : dropSpace (',' :: (text ++ later)) = ',' :: (text ++ later) := rfl
    constructor
    · rw [scanItems, htext]
      simp [hc, hitem]
    · rw [scanItems, hcomma]
      simp [htext, hc, hitem]

/-! ### Members -/

theorem readsElements_scanMembers (levels : Nat) :
    ReadsElements (IsScannedMember levels) '\x7d' (fun fuel => scanMembers fuel levels) where
  closes := .inr rfl
  skips fuel := scanMembers_dropSpace fuel levels
  ends fuel first rest := by simp [scanMembers, dropSpace, isSpace]
  element {member text later members rest fuel} h hends _ hlater hfuel := by
    obtain ⟨keyText, valueText, rfl, hkey, hvalue⟩ := h
    rw [List.append_assoc, List.cons_append] at hfuel ⊢
    simp only [List.length_append, List.length_cons] at hfuel
    obtain ⟨fuel, rfl⟩ := Nat.exists_eq_add_of_le' (show 3 ≤ fuel by omega)
    obtain ⟨inner, afterKey, hquote, hstring, hcolon⟩ := hkey (fuel + 1) (valueText ++ later)
      (by simp only [List.length_append, List.length_cons]; omega)
    obtain ⟨after, hafter, hfound⟩ := hvalue fuel later (by rw [List.length_append]; omega) hends
    have hmembers : scanMembers (fuel + 1) levels false after = (members, none, some rest) := by
      rw [← scanMembers_dropSpace, hafter, scanMembers_dropSpace]
      exact hlater (fuel + 1) (by omega)
    have hmember : scanMember (fuel + 2) levels ('"' :: inner) =
        (member :: members, none, some rest) := by
      simp [scanMember, hstring, hcolon, hfound, hmembers]
    have hcomma : ∀ text, dropSpace (',' :: text) = ',' :: text := fun _ => rfl
    constructor
    · rw [scanMembers, hquote]
      simp [hmember]
    · rw [scanMembers, hcomma]
      simp [hquote, hmember]

theorem readsElements_scanKnownMembers (known : List String) :
    ReadsElements
      (fun member text => member.1 ∈ known ∧ IsScannedMember (nestingLimit - 1) member text) '\x7d'
      (scanKnownMembers known) where
  closes := .inr rfl
  skips := scanKnownMembers_dropSpace known
  ends fuel first rest := by simp [scanKnownMembers, dropSpace, isSpace]
  element {member text later members rest fuel} h hends _ hlater hfuel := by
    obtain ⟨hknown, keyText, valueText, rfl, hkey, hvalue⟩ := h
    rw [List.append_assoc, List.cons_append] at hfuel ⊢
    simp only [List.length_append, List.length_cons] at hfuel
    obtain ⟨fuel, rfl⟩ := Nat.exists_eq_add_of_le' (show 2 ≤ fuel by omega)
    obtain ⟨inner, afterKey, hquote, hstring, hcolon⟩ := hkey (fuel + 1) (valueText ++ later)
      (by simp only [List.length_append, List.length_cons]; omega)
    obtain ⟨after, hafter, hfound⟩ := hvalue fuel later (by rw [List.length_append]; omega) hends
    have hmembers : scanKnownMembers known (fuel + 1) false after =
        (members, none, some rest) := by
      rw [← scanKnownMembers_dropSpace, hafter, scanKnownMembers_dropSpace]
      exact hlater (fuel + 1) (by omega)
    have hcomma : ∀ text, dropSpace (',' :: text) = ',' :: text := fun _ => rfl
    constructor
    · rw [scanKnownMembers, hquote]
      simp [hstring, hcolon, hknown, hfound, hmembers]
    · rw [scanKnownMembers, hcomma]
      simp [hquote, hstring, hcolon, hknown, hfound, hmembers]

end StepScript.Json
