import StepScript.Proofs.Json.Reals
import StepScript.Proofs.Json.RoundTrip
import Mathlib.Data.List.Forall2

/-!
# Readable values

The text of a value stands on one line, and it is read as a value again if its integers have 64 bits
and it is not too deep. Real numbers and the order of members may differ then, the shape does not.
-/

namespace StepScript.Json

/-! ## Lines -/

theorem forall_mem_le {chars : List Char} (h : chars.all (' ' ≤ ·) = true) :
    ∀ c ∈ chars, ' ' ≤ c :=
  fun c hc => of_decide_eq_true (List.all_eq_true.1 h c hc)

theorem le_of_mem_escapeChar {c d : Char} (h : d ∈ escapeChar c) : ' ' ≤ d := by
  have hdigit : ∀ n < 16, ' ' ≤ n.digitChar := by decide
  unfold escapeChar at h
  by_cases hshort : c = '"' ∨ c = '\\' ∨ c = '\n' ∨ c = '\r' ∨ c = '\t' ∨ c = '\x08' ∨ c = '\x0c'
  · rcases hshort with rfl | rfl | rfl | rfl | rfl | rfl | rfl
    all_goals exact forall_mem_le (by decide) d h
  · simp only [not_or] at hshort
    simp only [hshort, if_false] at h
    split at h
    · simp only [hexPair, List.mem_append, List.mem_cons, List.not_mem_nil, or_false] at h
      rcases h with (rfl | rfl | rfl | rfl) | rfl | rfl
      · decide
      · decide
      · decide
      · decide
      · exact hdigit _ (Nat.mod_lt _ (by decide))
      · exact hdigit _ (Nat.mod_lt _ (by decide))
    · next hlarge =>
      obtain rfl := List.mem_singleton.1 h
      exact Char.le_def.2 (UInt32.le_iff_toNat_le.2 (Nat.le_of_not_lt hlarge))

theorem le_of_mem_quote {text : String} {c : Char} (h : c ∈ quote text) : ' ' ≤ c := by
  unfold quote at h
  simp only [List.cons_append, List.mem_cons, List.mem_append, List.mem_flatMap,
    List.not_mem_nil, or_false] at h
  rcases h with rfl | ⟨_, -, hc⟩ | rfl
  · decide
  · exact le_of_mem_escapeChar hc
  · decide

theorem IsNumberChar.le {c : Char} (h : IsNumberChar c) : ' ' ≤ c := by
  rcases h with hdigit | hmark
  · simp only [Char.isDigit, Bool.and_eq_true, decide_eq_true_eq] at hdigit
    exact UInt32.le_trans (by decide) hdigit.1
  · exact forall_mem_le (by decide) c hmark

theorem Number.isNumberChar_of_mem_chars {n : Number} : ∀ c ∈ n.chars, IsNumberChar c := by
  cases n with
  | integer n =>
    intro c hc
    have hc : c ∈ integerChars n := hc
    unfold integerChars at hc
    split at hc
    · rcases List.mem_cons.1 hc with rfl | hc
      · exact .inr (by decide)
      · exact .inl (isDigit_of_mem_digitsOfNat c hc)
    · exact .inl (isDigit_of_mem_digitsOfNat c hc)
  | real x => exact isNumberChar_of_mem_render

theorem mem_itemsChars {items : List Json} {c : Char} (h : c ∈ itemsChars items) :
    c = ',' ∨ ∃ item ∈ items, c ∈ item.chars := by
  rw [itemsChars_eq] at h
  refine (mem_intercalate h).imp_right fun ⟨text, htext, hc⟩ => ?_
  obtain ⟨item, hitem, rfl⟩ := List.mem_map.1 htext
  exact ⟨item, hitem, hc⟩

theorem mem_membersChars {members : List (String × Json)} {c : Char}
    (h : c ∈ membersChars members) :
    c = ',' ∨ c = ':' ∨ ∃ member ∈ members, c ∈ quote member.1 ∨ c ∈ member.2.chars := by
  rw [membersChars_eq] at h
  refine (mem_intercalate h).imp_right fun ⟨text, htext, hc⟩ => ?_
  obtain ⟨member, hmember, rfl⟩ := List.mem_map.1 htext
  rw [memberChars, List.mem_append, List.mem_cons] at hc
  rcases hc with hc | hc | hc
  · exact .inr ⟨member, hmember, .inl hc⟩
  · exact .inl hc
  · exact .inr ⟨member, hmember, .inr hc⟩

/-- There are no control characters in the text of a value, and so no line breaks. -/
theorem le_of_mem_chars {value : Json} : ∀ c ∈ value.chars, ' ' ≤ c := by
  induction value using Json.induction with
  | null => exact forall_mem_le (by decide)
  | bool b => cases b <;> exact forall_mem_le (by decide)
  | number n => exact fun c hc => (Number.isNumberChar_of_mem_chars c hc).le
  | string text => exact fun c => le_of_mem_quote
  | array items ih =>
    intro c hc
    simp only [chars, List.cons_append, List.mem_cons, List.mem_append, List.not_mem_nil,
      or_false] at hc
    rcases hc with rfl | hc | rfl
    · decide
    · rcases mem_itemsChars hc with rfl | ⟨item, hitem, hc⟩
      · decide
      · exact ih item hitem c hc
    · decide
  | object members ih =>
    intro c hc
    simp only [chars, List.cons_append, List.mem_cons, List.mem_append, List.not_mem_nil,
      or_false] at hc
    rcases hc with rfl | hc | rfl
    · decide
    · rcases mem_membersChars hc with rfl | rfl | ⟨member, hmember, hc | hc⟩
      · decide
      · decide
      · exact le_of_mem_quote hc
      · exact ih member hmember c hc
    · decide

/-! ## Values -/

/-- Integers have 64 bits. -/
def HasWords : Json → Prop
  | .number (.integer n) => leastInteger ≤ n ∧ n < wordLimit
  | _ => True

/-- Integers have 64 bits, and at most so many lists and objects are open at once. -/
def IsBounded (levels : Nat) (value : Json) : Prop := value.Every HasWords ∧ value.depth ≤ levels

theorem IsBounded.mono {value : Json} {levels more : Nat} (h : value.IsBounded levels)
    (hle : levels ≤ more) : value.IsBounded more :=
  ⟨h.1, Nat.le_trans h.2 hle⟩

theorem isBounded_array {items : List Json} {levels : Nat}
    (h : ∀ item ∈ items, item.IsBounded levels) : (Json.array items).IsBounded (levels + 1) :=
  ⟨every_array.2 ⟨trivial, fun item hitem => (h item hitem).1⟩,
    depth_array_le_iff.2 fun item hitem => (h item hitem).2⟩

theorem isBounded_object {members : List (String × Json)} {levels : Nat}
    (h : ∀ member ∈ members, member.2.IsBounded levels) :
    (Json.object members).IsBounded (levels + 1) :=
  ⟨every_object.2 ⟨trivial, fun member hmember => (h member hmember).1⟩,
    depth_object_le_iff.2 fun member hmember => (h member hmember).2⟩

theorem IsBounded.of_array {items : List Json} {levels : Nat}
    (h : (Json.array items).IsBounded levels) :
    ∃ inner, levels = inner + 1 ∧ ∀ item ∈ items, item.IsBounded inner := by
  obtain ⟨hwords, hdepth⟩ := h
  cases levels with
  | zero => exact absurd hdepth (Nat.not_succ_le_zero _)
  | succ inner =>
    exact ⟨inner, rfl, fun item hitem =>
      ⟨(every_array.1 hwords).2 item hitem, depth_array_le_iff.1 hdepth item hitem⟩⟩

theorem IsBounded.of_object {members : List (String × Json)} {levels : Nat}
    (h : (Json.object members).IsBounded levels) :
    ∃ inner, levels = inner + 1 ∧ ∀ member ∈ members, member.2.IsBounded inner := by
  obtain ⟨hwords, hdepth⟩ := h
  cases levels with
  | zero => exact absurd hdepth (Nat.not_succ_le_zero _)
  | succ inner =>
    exact ⟨inner, rfl, fun member hmember =>
      ⟨(every_object.1 hwords).2 member hmember, depth_object_le_iff.1 hdepth member hmember⟩⟩

def Document.IsSound (document : Document) : Prop := ∃ read, document.toJson = .ok read

namespace Document

theorem exists_itemsToJson_iff {items : List Document} :
    (∃ reads, itemsToJson items = .ok reads) ↔ ∀ item ∈ items, item.IsSound := by
  induction items with
  | nil => exact ⟨fun _ => List.forall_mem_nil _, fun _ => ⟨[], rfl⟩⟩
  | cons item items ih =>
    rw [List.forall_mem_cons, ← ih]
    constructor
    · rintro ⟨reads, h⟩
      rw [itemsToJson] at h
      obtain ⟨read, hread, h⟩ := exists_of_bind_eq_ok h
      obtain ⟨others, hothers, -⟩ := exists_of_bind_eq_ok h
      exact ⟨⟨read, hread⟩, others, hothers⟩
    · rintro ⟨⟨read, hread⟩, others, hothers⟩
      exact ⟨read :: others, by rw [itemsToJson, hread, hothers]; rfl⟩

theorem exists_membersToJson_iff {members : List (String × Document)} :
    (∃ reads, membersToJson members = .ok reads) ↔ ∀ member ∈ members, member.2.IsSound := by
  induction members with
  | nil => exact ⟨fun _ => List.forall_mem_nil _, fun _ => ⟨[], rfl⟩⟩
  | cons member members ih =>
    obtain ⟨key, value⟩ := member
    rw [List.forall_mem_cons, ← ih]
    constructor
    · rintro ⟨reads, h⟩
      rw [membersToJson] at h
      obtain ⟨read, hread, h⟩ := exists_of_bind_eq_ok h
      obtain ⟨others, hothers, -⟩ := exists_of_bind_eq_ok h
      exact ⟨⟨read, hread⟩, others, hothers⟩
    · rintro ⟨⟨read, hread⟩, others, hothers⟩
      exact ⟨(key, read) :: others, by rw [membersToJson, hread, hothers]; rfl⟩

theorem isSound_array_iff {items : List Document} {fault : Option Malformed} :
    (array items fault).IsSound ↔ fault = none ∧ ∀ item ∈ items, item.IsSound := by
  rw [← exists_itemsToJson_iff]
  constructor
  · rintro ⟨read, h⟩
    rw [toJson] at h
    obtain ⟨reads, hreads, h⟩ := exists_of_bind_eq_ok h
    cases fault with
    | none => exact ⟨rfl, reads, hreads⟩
    | some cause => cases h
  · rintro ⟨rfl, reads, hreads⟩
    exact ⟨.array reads, by rw [toJson, hreads]; rfl⟩

theorem isSound_object_iff {members : List (String × Document)} {fault : Option Malformed} :
    (object members fault).IsSound ↔ fault = none ∧ ∀ member ∈ members, member.2.IsSound := by
  rw [← exists_membersToJson_iff]
  constructor
  · rintro ⟨read, h⟩
    rw [toJson] at h
    obtain ⟨reads, hreads, h⟩ := exists_of_bind_eq_ok h
    cases fault with
    | none => exact ⟨rfl, reads, hreads⟩
    | some cause => cases h
  · rintro ⟨rfl, reads, hreads⟩
    exact ⟨.ofMembers reads, by rw [toJson, hreads]; rfl⟩

theorem not_isSound_broken (cause : Malformed) : ¬ (broken cause).IsSound := by
  rintro ⟨read, h⟩
  cases h

end Document

/-- A value in whose place the scanner finds a document without faults. -/
def ScansSoundly (value : Json) (document : Document) : Prop :=
  value.ScansTo document ∧ document.IsSound

theorem exists_forall₂ {α β : Type} {R : α → β → Prop} {items : List α}
    (h : ∀ item ∈ items, ∃ other, R item other) : ∃ others, List.Forall₂ R items others := by
  induction items with
  | nil => exact ⟨[], .nil⟩
  | cons item items ih =>
    obtain ⟨⟨other, hitem⟩, hitems⟩ := List.forall_mem_cons.1 h
    obtain ⟨others, hothers⟩ := ih hitems
    exact ⟨other :: others, .cons hitem hothers⟩

theorem forall_mem_of_forall₂ {α β : Type} {R : α → β → Prop} {P : β → Prop} {items : List α}
    {others : List β} (h : List.Forall₂ R items others) (hP : ∀ item other, R item other → P other) :
    ∀ other ∈ others, P other := by
  induction h with
  | nil => exact List.forall_mem_nil _
  | cons hitem _ ih => exact List.forall_mem_cons.2 ⟨hP _ _ hitem, ih⟩

/-- An object is found if the values of its members are, and it is read as an object. -/
theorem exists_object {members : List (String × Json)}
    (h : ∀ member ∈ members, ∃ document, ScansSoundly member.2 document) :
    ∃ documents reads, ScansTo (.object members) (.object documents none) ∧
      (Document.object documents none).toJson = .ok (.object reads) := by
  have hmembers : ∀ member ∈ members, ∃ document : String × Document,
      MemberScansTo member document ∧ document.2.IsSound := by
    intro member hmember
    obtain ⟨document, hscans, hsound⟩ := h member hmember
    exact ⟨(member.1, document), ⟨rfl, hscans⟩, hsound⟩
  obtain ⟨documents, hdocuments⟩ := exists_forall₂ hmembers
  obtain ⟨reads, hreads⟩ :=
    Document.exists_membersToJson_iff.2 (forall_mem_of_forall₂ hdocuments fun _ _ h => h.2)
  refine ⟨documents, Dictionary.ofList reads, scansTo_object (hdocuments.imp fun _ _ h => h.1), ?_⟩
  rw [Document.toJson, hreads]
  rfl

/-- The scanner finds a document without faults in place of each value whose integers have 64
bits. -/
theorem exists_scansSoundly {value : Json} (h : value.Every HasWords) :
    ∃ document, ScansSoundly value document := by
  induction value using Json.induction with
  | null => exact ⟨_, scans_null, _, rfl⟩
  | bool b => exact ⟨_, scans_bool b, _, rfl⟩
  | number n =>
    cases n with
    | integer n => exact ⟨_, scans_number (Number.isFound_integer h.1 h.2), _, rfl⟩
    | real x =>
      obtain ⟨y, hy⟩ := Number.exists_isReadAs x
      exact ⟨_, scansTo_number hy, _, rfl⟩
  | string text => exact ⟨_, scans_string text, _, rfl⟩
  | array items ih =>
    obtain ⟨documents, hdocuments⟩ :=
      exists_forall₂ fun item hitem => ih item hitem ((every_array.1 h).2 item hitem)
    refine ⟨_, scansTo_array (hdocuments.imp fun _ _ h => h.1),
      Document.isSound_array_iff.2 ⟨rfl, ?_⟩⟩
    exact forall_mem_of_forall₂ hdocuments fun _ _ h => h.2
  | object members ih =>
    obtain ⟨documents, reads, hscans, hreads⟩ :=
      exists_object fun member hmember => ih member hmember ((every_object.1 h).2 member hmember)
    exact ⟨_, hscans, _, hreads⟩

/-- The text of an object is read as an object. -/
theorem exists_parse_render {members : List (String × Json)}
    (h : (Json.object members).IsBounded nestingLimit) :
    ∃ reads, parse (Json.object members).render = .ok (.object reads) := by
  obtain ⟨documents, reads, hscans, hreads⟩ := exists_object fun member hmember =>
    exists_scansSoundly ((every_object.1 h.1).2 member hmember)
  refine ⟨reads, ?_⟩
  rw [parse, hscans.scan_render h.2]
  simp only [hreads]
  rfl

end StepScript.Json
