import StepScript.Proofs.Json.Numbers
import StepScript.Proofs.Json.Tokens

/-!
# The grammar of JSON texts

Which texts are values, and of which documents. The scanner finds in each text of the grammar the
document that it is a text of, and no fault.
-/

namespace StepScript.Json

/-! ## Texts -/

/-- A key of an object between blanks. -/
inductive KeyText (key : String) : List Char → Prop where
  | quoted {before text after : List Char} (hbefore : Blanks before) (hafter : Blanks after)
      (h : StringText key.toList text) : KeyText key (before ++ '"' :: (text ++ after))

structure MemberText where
  key : String
  keyText : List Char
  value : Document
  valueText : List Char

namespace MemberText

def text (member : MemberText) : List Char := member.keyText ++ ':' :: member.valueText

def entry (member : MemberText) : String × Document := (member.key, member.value)

end MemberText

/-- A text is a value, and this is its document. At most `levels` lists and objects are open at
once, and there may be blanks around the value. -/
inductive ValueText : Nat → Document → List Char → Prop where
  | null {levels : Nat} : ValueText levels .null ['n', 'u', 'l', 'l']
  | trueWord {levels : Nat} : ValueText levels (.bool true) ['t', 'r', 'u', 'e']
  | falseWord {levels : Nat} : ValueText levels (.bool false) ['f', 'a', 'l', 's', 'e']
  | number {levels : Nat} {n : Number} {text : List Char} (h : NumberText n text) :
      ValueText levels (.number n) text
  | string {levels : Nat} {value text : List Char} (h : StringText value text) :
      ValueText levels (.string (String.ofList value)) ('"' :: text)
  | array {levels : Nat} {items : List (Document × List Char)} {blanks : List Char}
      (hblanks : Blanks blanks) (h : ∀ item ∈ items, ValueText levels item.1 item.2) :
      ValueText (levels + 1) (.array (items.map (·.1)) none)
        ('[' :: (blanks ++ ([','].intercalate (items.map (·.2)) ++ [']'])))
  | object {levels : Nat} {members : List MemberText} {blanks : List Char}
      (hblanks : Blanks blanks) (hkeys : ∀ member ∈ members, KeyText member.key member.keyText)
      (hvalues : ∀ member ∈ members, ValueText levels member.value member.valueText) :
      ValueText (levels + 1) (.object (members.map (·.entry)) none)
        ('\x7b' :: (blanks ++ ([','].intercalate (members.map (·.text)) ++ ['\x7d'])))
  | padded {levels : Nat} {document : Document} {before text after : List Char}
      (hbefore : Blanks before) (hafter : Blanks after) (h : ValueText levels document text) :
      ValueText levels document (before ++ (text ++ after))

/-- The texts of the key and the value are in the grammar. -/
def MemberText.IsSpelled (levels : Nat) (member : MemberText) : Prop :=
  KeyText member.key member.keyText ∧ ValueText levels member.value member.valueText

/-- A member of an object as it is spelled, in whose value at most `levels` lists and objects are open
at once. -/
structure Member (levels : Nat) extends MemberText where
  spelled : toMemberText.IsSpelled levels

/-- A text is an object with the members, in their order. -/
inductive ObjectText {levels : Nat} (members : List (Member levels)) : List Char → Prop where
  | braces {before blanks after : List Char} (hbefore : Blanks before) (hblanks : Blanks blanks)
      (hafter : Blanks after) :
      ObjectText members (before ++ ('\x7b' ::
        (blanks ++ ([','].intercalate (members.map (·.text)) ++ ['\x7d'])) ++ after))

def entries {levels : Nat} (members : List (Member levels)) : List (String × Document) :=
  members.map (·.entry)

theorem ObjectText.valueText {levels : Nat} {members : List (Member levels)} {text : List Char}
    (h : ObjectText members text) : ValueText (levels + 1) (.object (entries members) none) text := by
  cases h with
  | braces hbefore hblanks hafter =>
    have hobject : ValueText (levels + 1)
        (.object ((members.map (·.toMemberText)).map (·.entry)) none) _ := .object hblanks
      (by simpa using fun member _ => member.spelled.1)
      (by simpa using fun member _ => member.spelled.2)
    simpa [entries, Function.comp_def] using ValueText.padded hbefore hafter hobject

/-! ## Scanning texts of the grammar -/

section

variable {levels : Nat}

theorem isScanned_null : IsScanned levels .null ['n', 'u', 'l', 'l'] := by
  intro fuel rest _ _
  exact ⟨rest, rfl, by simp [scanValue, dropSpace, isSpace, scanNamed, scanWord]⟩

theorem isScanned_true : IsScanned levels (.bool true) ['t', 'r', 'u', 'e'] := by
  intro fuel rest _ _
  exact ⟨rest, rfl, by simp [scanValue, dropSpace, isSpace, scanNamed, scanWord]⟩

theorem isScanned_false : IsScanned levels (.bool false) ['f', 'a', 'l', 's', 'e'] := by
  intro fuel rest _ _
  exact ⟨rest, rfl, by simp [scanValue, dropSpace, isSpace, scanNamed, scanWord]⟩

theorem UnsignedText.exists_cons {numeral : Numeral} {text : List Char}
    (h : UnsignedText numeral text) : ∃ c tail, text = c :: tail ∧ c.isDigit = true := by
  obtain @⟨whole, _, _, _, _, ⟨hne, hdigits⟩, -, -⟩ := h.number
  obtain ⟨c, tail, rfl⟩ := List.exists_cons_of_ne_nil hne
  exact ⟨c, _, rfl, hdigits c (List.mem_cons_self ..)⟩

theorem NumberText.isScanned {n : Number} {text : List Char} (h : NumberText n text) :
    IsScanned levels (.number n) text := by
  intro fuel rest _ hrest
  refine ⟨rest, rfl, ?_⟩
  cases h with
  | unsigned h hread =>
    have hscan := h.scanUnsigned_append hrest false
    rw [hread, Except.map] at hscan
    obtain ⟨c, tail, rfl, hc⟩ := h.exists_cons
    have hminus : c ≠ '-' := by
      rintro rfl
      exact absurd hc (by decide)
    exact scanValue_number (.inr hc) (by simpa [hminus] using hscan)
  | negative h hread =>
    have hscan := h.scanUnsigned_append hrest true
    rw [hread, Except.map] at hscan
    exact scanValue_number (.inl rfl) hscan

theorem StringText.isScanned {value text : List Char} (h : StringText value text) :
    IsScanned levels (.string (String.ofList value)) ('"' :: text) := by
  intro fuel rest hfuel _
  rw [List.cons_append, List.length_cons, List.length_append] at hfuel
  have hscan : scanString fuel [] (text ++ rest) = .ok (String.ofList value, rest) :=
    h.scanString_append (by omega) [] rest
  refine ⟨rest, rfl, ?_⟩
  rw [List.cons_append, scanValue]
  simp [dropSpace, isSpace, hscan]

theorem IsScanned.padded {document : Document} {before text after : List Char}
    (h : IsScanned levels document text) (hbefore : Blanks before) (hafter : Blanks after) :
    IsScanned levels document (before ++ (text ++ after)) := by
  intro fuel rest hfuel hrest
  simp only [List.length_append] at hfuel
  obtain ⟨left, hleft, hscan⟩ := h fuel (after ++ rest) (by simp only [List.length_append]; omega)
    (hafter.endsNumber_append hrest)
  refine ⟨left, hleft.trans (hafter.dropSpace_append rest), ?_⟩
  rw [List.append_assoc, List.append_assoc, ← scanValue_dropSpace, hbefore.dropSpace_append,
    scanValue_dropSpace]
  exact hscan

/-- A list is found if its items are. -/
theorem isScanned_array {items : List (Document × List Char)} {blanks : List Char}
    (hblanks : Blanks blanks) (h : ∀ item ∈ items, IsScanned levels item.1 item.2) :
    IsScanned (levels + 1) (.array (items.map (·.1)) none)
      ('[' :: (blanks ++ ([','].intercalate (items.map (·.2)) ++ [']']))) := by
  intro fuel rest hfuel _
  refine ⟨rest, rfl, ?_⟩
  have htext : '[' :: (blanks ++ ([','].intercalate (items.map (·.2)) ++ [']'])) ++ rest =
      '[' :: (blanks ++ ([','].intercalate (items.map (·.2)) ++ ']' :: rest)) := by
    simp
  rw [htext] at hfuel ⊢
  rw [List.length_cons] at hfuel
  have htexts : List.Forall₂ (IsScanned levels) (items.map (·.1)) (items.map (·.2)) := by
    rw [List.forall₂_map_left_iff, List.forall₂_map_right_iff, List.forall₂_same]
    exact h
  have hitems : scanItems fuel levels true
      (blanks ++ ([','].intercalate (items.map (·.2)) ++ ']' :: rest)) =
        (items.map (·.1), none, some rest) :=
    (readsElements_scanItems levels).scan_texts htexts hblanks (by omega)
  rw [scanValue]
  simp [dropSpace, isSpace, hitems]

theorem KeyText.isScannedKey {key : String} {text : List Char} (h : KeyText key text) :
    IsScannedKey key text := by
  intro fuel body hfuel
  cases h with
  | @quoted before chars after hbefore hafter h =>
    simp only [List.length_append, List.length_cons] at hfuel
    refine ⟨chars ++ (after ++ ':' :: body), after ++ ':' :: body, ?_, ?_, ?_⟩
    · rw [List.append_assoc, hbefore.dropSpace_append]
      simp [dropSpace, isSpace]
    · have hscan := h.scanString_append (show chars.length ≤ fuel by omega) []
        (after ++ ':' :: body)
      rw [hscan]
      simp
    · rw [hafter.dropSpace_append]
      rfl

/-- An object is found if the values of its members are. -/
theorem isScanned_object {members : List MemberText} {blanks : List Char} (hblanks : Blanks blanks)
    (hkeys : ∀ member ∈ members, KeyText member.key member.keyText)
    (h : ∀ member ∈ members, IsScanned levels member.value member.valueText) :
    IsScanned (levels + 1) (.object (members.map (·.entry)) none)
      ('\x7b' :: (blanks ++ ([','].intercalate (members.map (·.text)) ++ ['\x7d']))) := by
  intro fuel rest hfuel _
  refine ⟨rest, rfl, ?_⟩
  have htext : '\x7b' :: (blanks ++ ([','].intercalate (members.map (·.text)) ++ ['\x7d'])) ++ rest =
      '\x7b' :: (blanks ++ ([','].intercalate (members.map (·.text)) ++ '\x7d' :: rest)) := by
    simp
  rw [htext] at hfuel ⊢
  rw [List.length_cons] at hfuel
  have htexts : List.Forall₂ (IsScannedMember levels) (members.map (·.entry))
      (members.map (·.text)) := by
    rw [List.forall₂_map_left_iff, List.forall₂_map_right_iff, List.forall₂_same]
    exact fun member hmember =>
      ⟨_, _, rfl, (hkeys member hmember).isScannedKey, h member hmember⟩
  have hmembers : scanMembers fuel levels true
      (blanks ++ ([','].intercalate (members.map (·.text)) ++ '\x7d' :: rest)) =
        (members.map (·.entry), none, some rest) :=
    (readsElements_scanMembers levels).scan_texts htexts hblanks (by omega)
  rw [scanValue]
  simp [dropSpace, isSpace, hmembers]

end

/-- The scanner finds the document of each text of the grammar. -/
theorem ValueText.isScanned {levels : Nat} {document : Document} {text : List Char}
    (h : ValueText levels document text) : IsScanned levels document text := by
  induction h with
  | null => exact isScanned_null
  | trueWord => exact isScanned_true
  | falseWord => exact isScanned_false
  | number h => exact h.isScanned
  | string h => exact h.isScanned
  | array hblanks _ ih => exact isScanned_array hblanks ih
  | object hblanks hkeys _ ih => exact isScanned_object hblanks hkeys ih
  | padded hbefore hafter _ ih => exact ih.padded hbefore hafter

/-- A text of the grammar is scanned as its document, and nothing is wrong behind it. -/
theorem ValueText.scan_eq {document : Document} {text : String}
    (h : ValueText nestingLimit document text.toList) : scan text = ⟨document, none⟩ :=
  h.isScanned.scan_eq

/-- There is no fault in the document of a text of the grammar. -/
theorem ValueText.isSound {levels : Nat} {document : Document} {text : List Char}
    (h : ValueText levels document text) : document.IsSound := by
  induction h with
  | null | trueWord | falseWord | number | string => exact ⟨_, rfl⟩
  | array _ _ ih =>
    refine Document.isSound_array_iff.2 ⟨rfl, fun document hdocument => ?_⟩
    obtain ⟨item, hitem, rfl⟩ := List.mem_map.1 hdocument
    exact ih item hitem
  | object _ _ _ ih =>
    refine Document.isSound_object_iff.2 ⟨rfl, fun entry hentry => ?_⟩
    obtain ⟨member, hmember, rfl⟩ := List.mem_map.1 hentry
    exact ih member hmember
  | padded _ _ _ ih => exact ih

end StepScript.Json
