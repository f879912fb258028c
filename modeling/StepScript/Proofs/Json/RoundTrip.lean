import StepScript.Proofs.Json.Elements

/-!
# Values are read back from their texts

The scanner finds a value where its text begins, with the document that has no fault, and stands
behind the text then.
-/

namespace StepScript.Json

/-- Integers have 64 bits, and real numbers are read back from a text of their own. -/
def IsLegible : Json → Prop
  | .number (.integer n) => leastInteger ≤ n ∧ n < wordLimit
  | .number (.real x) => parse (Json.number (.real x)).render = .ok (.number (.real x))
  | _ => True

/-- The scanner finds the value in front of each text that ends numbers. -/
def Scans (value : Json) : Prop :=
  -- Three calls for each character are what `enoughFuel` grants, and no call needs more.
  ∀ fuel levels rest, 3 * (value.chars ++ rest).length ≤ fuel + 1 → value.depth ≤ levels →
    EndsNumber rest →
    scanValue (fuel + 1) levels (value.chars ++ rest) = (.ofJson value, some rest)

def ScansTo (value : Json) (document : Document) : Prop :=
  ∀ fuel levels rest, 3 * (value.chars ++ rest).length ≤ fuel + 1 → value.depth ≤ levels →
    EndsNumber rest → scanValue (fuel + 1) levels (value.chars ++ rest) = (document, some rest)

def MemberScansTo (member : String × Json) (document : String × Document) : Prop :=
  document.1 = member.1 ∧ member.2.ScansTo document.2

/-! ## Scalars -/

theorem scans_null : Scans .null := by
  intro fuel levels rest _ _ _
  simp [scanValue, dropSpace, isSpace, chars, scanNamed, scanWord, Document.ofJson]

theorem scans_bool (b : Bool) : Scans (.bool b) := by
  intro fuel levels rest _ _ _
  cases b <;> simp [scanValue, dropSpace, isSpace, chars, scanNamed, scanWord, Document.ofJson]

theorem scans_string (text : String) : Scans (.string text) := by
  intro fuel levels rest hfuel _ _
  obtain ⟨body, hbody⟩ : ∃ body, quote text ++ rest = '"' :: body := ⟨_, rfl⟩
  rw [chars, hbody, List.length_cons] at hfuel
  have hscan : scanString fuel [] body = .ok (text, rest) := scanString_quote hbody (by omega)
  rw [chars, hbody, scanValue]
  simp [dropSpace, isSpace, hscan, Document.ofJson]

theorem scanValue_number {fuel levels : Nat} {c : Char} {text rest : List Char} {n : Number}
    (hc : c = '-' ∨ c.isDigit = true)
    (h : scanUnsigned (c = '-') (if c = '-' then text else c :: text) = .ok (n, rest)) :
    scanValue (fuel + 1) levels (c :: text) = (.number n, some rest) := by
  have hother : c ≠ 'n' ∧ c ≠ 't' ∧ c ≠ 'f' ∧ c ≠ '"' := by
    refine ⟨?_, ?_, ?_, ?_⟩ <;> rintro rfl <;> revert hc <;> decide
  have hspace : isSpace c = false := by
    rcases hc with rfl | hdigit
    · rfl
    · exact IsNumberChar.not_space (.inl hdigit)
  rw [scanValue]
  simp only [dropSpace, List.dropWhile_cons, hspace, Bool.false_eq_true, hother, if_false, hc,
    if_true, h]

theorem scansTo_number {n read : Number} (h : n.IsReadAs read) :
    ScansTo (.number n) (.number read) := by
  intro fuel levels rest _ _ hrest
  obtain ⟨c, tail, hchars, hc, hscan⟩ := h
  have hmore := (isLocal_scanUnsigned _ _ _ _ hscan).2 rest hrest
  have htext : (if c = '-' then tail else c :: tail) ++ rest =
      if c = '-' then tail ++ rest else c :: (tail ++ rest) := by
    split <;> rfl
  rw [htext] at hmore
  rw [chars, hchars]
  exact scanValue_number hc hmore

theorem scans_number {n : Number} (h : n.IsFound) : Scans (.number n) := scansTo_number h

theorem scans_legible_number {n : Number} (h : IsLegible (.number n)) : Scans (.number n) := by
  cases n with
  | integer n => exact scans_number (Number.isFound_integer h.1 h.2)
  | real x => exact scans_number (Number.isFound_real h)

/-! ## Lists -/

theorem itemsChars_eq (items : List Json) :
    itemsChars items = [','].intercalate (items.map chars) := by
  induction items with
  | nil => rfl
  | cons item items ih =>
    cases items with
    | nil => simp [itemsChars]
    | cons next items =>
      rw [itemsChars, ih]
      simp [List.intercalate_cons_cons]

theorem ScansTo.isScanned {value : Json} {document : Document} {levels : Nat}
    (h : value.ScansTo document) (hdepth : value.depth ≤ levels) :
    IsScanned levels document value.chars :=
  fun fuel rest hfuel hrest => ⟨rest, rfl, h fuel levels rest hfuel hdepth hrest⟩

theorem forall₂_isScanned {items : List Json} {documents : List Document} {levels : Nat}
    (h : List.Forall₂ ScansTo items documents) (hdepth : ∀ item ∈ items, item.depth ≤ levels) :
    List.Forall₂ (IsScanned levels) documents (items.map chars) := by
  induction h with
  | nil => exact .nil
  | cons hitem _ ih =>
    obtain ⟨hfirst, hothers⟩ := List.forall_mem_cons.1 hdepth
    exact .cons (hitem.isScanned hfirst) (ih hothers)

theorem scansTo_array {items : List Json} {documents : List Document}
    (h : List.Forall₂ ScansTo items documents) :
    ScansTo (.array items) (.array documents none) := by
  intro fuel levels rest hfuel hdepth _
  obtain ⟨levels, rfl⟩ := Nat.exists_eq_add_of_le' (show 1 ≤ levels by rw [depth] at hdepth; omega)
  have htext : (Json.array items).chars ++ rest = '[' :: (itemsChars items ++ ']' :: rest) := by
    simp [chars]
  rw [htext] at hfuel ⊢
  rw [List.length_cons] at hfuel
  have hitems : scanItems fuel levels true (itemsChars items ++ ']' :: rest) =
      (documents, none, some rest) := by
    rw [itemsChars_eq] at hfuel ⊢
    exact (readsElements_scanItems levels).scan_texts
      (forall₂_isScanned h (depth_array_le_iff.1 hdepth)) .nil (by rw [List.nil_append]; omega)
  simp [scanValue, dropSpace, isSpace, hitems]

theorem scans_array {items : List Json} (h : ∀ item ∈ items, item.Scans) :
    Scans (.array items) := by
  have hitems : List.Forall₂ ScansTo items (Document.ofItems items) := by
    induction items with
    | nil => exact .nil
    | cons item items ih =>
      obtain ⟨hitem, hitems⟩ := List.forall_mem_cons.1 h
      exact .cons hitem (ih hitems)
  exact scansTo_array hitems

/-! ## Objects -/

def memberChars (member : String × Json) : List Char := quote member.1 ++ ':' :: member.2.chars

theorem membersChars_eq (members : List (String × Json)) :
    membersChars members = [','].intercalate (members.map memberChars) := by
  induction members with
  | nil => rfl
  | cons member members ih =>
    obtain ⟨key, value⟩ := member
    cases members with
    | nil => simp [membersChars, memberChars]
    | cons next members =>
      rw [membersChars, ih]
      simp [List.intercalate_cons_cons, memberChars]

theorem isScannedKey_quote (key : String) : IsScannedKey key (quote key) := by
  intro fuel body hfuel
  obtain ⟨inner, hinner⟩ : ∃ inner, quote key ++ ':' :: body = '"' :: inner := ⟨_, rfl⟩
  rw [hinner, List.length_cons] at hfuel
  exact ⟨inner, ':' :: body, by rw [hinner]; rfl, scanString_quote hinner (by omega), rfl⟩

theorem MemberScansTo.isScannedMember {member : String × Json} {entry : String × Document}
    {levels : Nat} (h : MemberScansTo member entry) (hdepth : member.2.depth ≤ levels) :
    IsScannedMember levels entry (memberChars member) := by
  obtain ⟨hkey, hvalue⟩ := h
  exact ⟨_, _, rfl, hkey ▸ isScannedKey_quote member.1, hvalue.isScanned hdepth⟩

theorem forall₂_isScannedMember {members : List (String × Json)}
    {entries : List (String × Document)} {levels : Nat}
    (h : List.Forall₂ MemberScansTo members entries)
    (hdepth : ∀ member ∈ members, member.2.depth ≤ levels) :
    List.Forall₂ (IsScannedMember levels) entries (members.map memberChars) := by
  induction h with
  | nil => exact .nil
  | cons hmember _ ih =>
    obtain ⟨hfirst, hothers⟩ := List.forall_mem_cons.1 hdepth
    exact .cons (hmember.isScannedMember hfirst) (ih hothers)

theorem scansTo_object {members : List (String × Json)} {documents : List (String × Document)}
    (h : List.Forall₂ MemberScansTo members documents) :
    ScansTo (.object members) (.object documents none) := by
  intro fuel levels rest hfuel hdepth _
  obtain ⟨levels, rfl⟩ := Nat.exists_eq_add_of_le' (show 1 ≤ levels by rw [depth] at hdepth; omega)
  have htext : (Json.object members).chars ++ rest =
      '\x7b' :: (membersChars members ++ '\x7d' :: rest) := by
    simp [chars]
  rw [htext] at hfuel ⊢
  rw [List.length_cons] at hfuel
  have hmembers : scanMembers fuel levels true (membersChars members ++ '\x7d' :: rest) =
      (documents, none, some rest) := by
    rw [membersChars_eq] at hfuel ⊢
    exact (readsElements_scanMembers levels).scan_texts
      (forall₂_isScannedMember h (depth_object_le_iff.1 hdepth)) .nil
      (by rw [List.nil_append]; omega)
  simp [scanValue, dropSpace, isSpace, hmembers]

theorem forall₂_ofMembers {members : List (String × Json)}
    (h : ∀ member ∈ members, member.2.Scans) :
    List.Forall₂ MemberScansTo members (Document.ofMembers members) := by
  induction members with
  | nil => exact .nil
  | cons member members ih =>
    obtain ⟨hmember, hmembers⟩ := List.forall_mem_cons.1 h
    exact .cons ⟨rfl, hmember⟩ (ih hmembers)

theorem scans_object {members : List (String × Json)} (h : ∀ member ∈ members, member.2.Scans) :
    Scans (.object members) :=
  scansTo_object (forall₂_ofMembers h)

/-! ## Whole texts -/

/-- The scanner finds each value of which it finds the numbers. -/
theorem scans_of_legible {value : Json} (h : value.Every IsLegible) : value.Scans := by
  induction value using Json.induction with
  | null => exact scans_null
  | bool b => exact scans_bool b
  | number n => exact scans_legible_number h
  | string text => exact scans_string text
  | array items ih =>
    exact scans_array fun item hitem => ih item hitem ((every_array.1 h).2 item hitem)
  | object members ih =>
    exact scans_object fun member hmember =>
      ih member hmember ((every_object.1 h).2 member hmember)

/-- The text of a value is scanned as the document that is found, if the value is not too deep. -/
theorem ScansTo.scan_render {value : Json} {document : Document} (h : value.ScansTo document)
    (hdepth : value.depth ≤ nestingLimit) : scan value.render = ⟨document, none⟩ := by
  have htext : value.render.toList = value.chars := String.toList_ofList
  exact IsScanned.scan_eq (by rw [htext]; exact h.isScanned hdepth)

theorem Scans.scan_render {value : Json} (h : value.Scans) (hdepth : value.depth ≤ nestingLimit) :
    scan value.render = ⟨.ofJson value, none⟩ :=
  ScansTo.scan_render h hdepth

theorem scanKnown_render {known : List String} {members : List (String × Json)}
    (hknown : ∀ member ∈ members, member.1 ∈ known) (h : ∀ member ∈ members, member.2.Scans)
    (hdepth : (Json.object members).depth ≤ nestingLimit) :
    scanKnown known (Json.object members).render = ⟨.ofJson (.object members), none⟩ := by
  have htext : (Json.object members).render.toList = '\x7b' :: (membersChars members ++ ['\x7d']) :=
    String.toList_ofList
  have hentries : ∀ entry ∈ Document.ofMembers members, entry.1 ∈ known := by
    rw [Document.ofMembers_eq_map]
    exact List.forall_mem_map.2 hknown
  have hmembers : scanKnownMembers known (enoughFuel (membersChars members ++ ['\x7d'])) true
      (membersChars members ++ ['\x7d']) = (Document.ofMembers members, none, some []) := by
    rw [membersChars_eq]
    exact (readsElements_scanKnownMembers known).scan_texts
      ((List.forall₂_and_left ..).2 ⟨hentries, forall₂_isScannedMember (forall₂_ofMembers h)
        (depth_object_le_iff.1 hdepth)⟩) .nil (by rw [List.nil_append, enoughFuel]; omega)
  have hopen : ∀ text, dropSpace ('\x7b' :: text) = '\x7b' :: text := fun _ => rfl
  rw [scanKnown, htext, hopen]
  simp [hmembers, Document.ofJson, faultAfter, dropSpace]

/-- A value is read back from its text if the scanner finds it, the objects in it are in the order
of their keys and it is not too deep. -/
theorem Scans.parse_render {value : Json} (h : value.Scans) (hkeys : value.Every HasAscendingKeys)
    (hdepth : value.depth ≤ nestingLimit) : parse value.render = .ok value := by
  rw [parse, h.scan_render hdepth]
  simp only [Document.toJson_ofJson hkeys]
  rfl

/-- A real number is read back from its own text exactly if it is found there. -/
theorem isLegible_real_iff {x : Binary64.Finite} :
    IsLegible (.number (.real x)) ↔ Number.IsFound (.real x) :=
  ⟨Number.isFound_real, fun h => (scans_number h).parse_render trivial (by simp [depth])⟩

end StepScript.Json
