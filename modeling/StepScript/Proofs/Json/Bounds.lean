import StepScript.Proofs.Json.Readable

/-!
# Bounds on what is read

The scanner counts the lists and objects that are open, and it makes an integer only of what has 64
bits. So the values that are read from a text are bounded.
-/

namespace StepScript.Json

/-- Integers have 64 bits, and at most so many lists and objects are open at once. -/
inductive Document.Within : Nat → Document → Prop where
  | null {levels : Nat} : Within levels .null
  | bool {levels : Nat} (b : Bool) : Within levels (.bool b)
  | number {levels : Nat} {n : Number} (h : HasWords (.number n)) : Within levels (.number n)
  | string {levels : Nat} (text : String) : Within levels (.string text)
  | array {levels : Nat} {items : List Document} {fault : Option Malformed}
      (h : ∀ item ∈ items, Within levels item) : Within (levels + 1) (.array items fault)
  | object {levels : Nat} {members : List (String × Document)} {fault : Option Malformed}
      (h : ∀ member ∈ members, Within levels member.2) : Within (levels + 1) (.object members fault)
  | broken {levels : Nat} (cause : Malformed) : Within levels (.broken cause)
  | skipped {levels : Nat} : Within levels .skipped

/-! ## Numbers -/

theorem accumulate_lt {coefficient : Nat} (h : coefficient < wordLimit) (digits : List Char) :
    (accumulate coefficient digits).1 < wordLimit := by
  induction digits generalizing coefficient with
  | nil => exact h
  | cons digit digits ih =>
    rw [accumulate]
    split
    · next hnext => exact ih hnext
    · exact h

section

variable {negative : Bool} {coefficient : Nat} {n : Number} {text rest : List Char}

theorem hasWords_of_realOfParts {exponent : Int}
    (h : realOfParts negative coefficient exponent = .ok n) : HasWords (.number n) := by
  unfold realOfParts at h
  dsimp only at h
  split at h
  · cases h
    trivial
  · cases h

theorem hasWords_of_scanRealEnd {scale : Int}
    (h : scanRealEnd negative coefficient scale text = .ok (n, rest)) : HasWords (.number n) := by
  rw [scanRealEnd_eq] at h
  dsimp only at h
  split at h
  · obtain ⟨⟨exponent, after⟩, -, h⟩ := exists_of_bind_eq_ok h
    obtain ⟨number, hnumber, h⟩ := exists_of_bind_eq_ok h
    cases h
    exact hasWords_of_realOfParts hnumber
  · obtain ⟨number, hnumber, h⟩ := exists_of_bind_eq_ok h
    cases h
    exact hasWords_of_realOfParts hnumber

theorem hasWords_of_wholeNumber {scale : Nat} (hcoefficient : coefficient < wordLimit)
    (h : wholeNumber negative coefficient scale = .ok n) : HasWords (.number n) := by
  rw [wholeNumber] at h
  by_cases hwhole : scale = 0 ∧
      leastInteger ≤ (if negative then -(coefficient : Int) else coefficient) ∧
        ¬ (negative = true ∧ coefficient = 0)
  · rw [if_pos hwhole] at h
    cases h
    refine ⟨hwhole.2.1, ?_⟩
    split <;> omega
  · rw [if_neg hwhole] at h
    exact hasWords_of_realOfParts h

theorem hasWords_of_scanUnsigned (h : scanUnsigned negative text = .ok (n, rest)) :
    HasWords (.number n) := by
  rw [scanUnsigned_eq] at h
  obtain ⟨⟨digits, after⟩, -, h⟩ := exists_of_bind_eq_ok h
  have hcoefficient := accumulate_lt (show 0 < wordLimit by decide) digits
  unfold scanWhole at h
  dsimp only at h
  split at h
  · cases h
  split at h
  · rw [scanFraction_eq] at h
    obtain ⟨⟨places, behind⟩, -, h⟩ := exists_of_bind_eq_ok h
    exact hasWords_of_scanRealEnd h
  split at h
  · exact hasWords_of_scanRealEnd h
  · obtain ⟨number, hnumber, h⟩ := exists_of_bind_eq_ok h
    cases h
    exact hasWords_of_wholeNumber hcoefficient hnumber

end

/-! ## Documents -/

/-- What the scanners find with some number of calls is within the limit. -/
structure ScansWithin (fuel : Nat) : Prop where
  value : ∀ levels text, (scanValue fuel levels text).1.Within levels
  items : ∀ levels first text, ∀ item ∈ (scanItems fuel levels first text).1, item.Within levels
  item : ∀ levels text, ∀ item ∈ (scanItem fuel levels text).1, item.Within levels
  members : ∀ levels first text, ∀ member ∈ (scanMembers fuel levels first text).1,
    member.2.Within levels
  member : ∀ levels text, ∀ member ∈ (scanMember fuel levels text).1, member.2.Within levels

theorem within_scanNamed {value : Document} {levels : Nat} (h : value.Within levels)
    (word text : List Char) : (scanNamed value word text).1.Within levels := by
  unfold scanNamed
  split
  · exact h
  · exact .broken _

section

variable {fuel : Nat}

theorem ScansWithin.value_succ (h : ScansWithin fuel) (levels : Nat) (text : List Char) :
    (scanValue (fuel + 1) levels text).1.Within levels := by
  unfold scanValue
  split
  · exact .broken _
  · next c rest _ =>
    split
    · exact within_scanNamed .null _ _
    split
    · exact within_scanNamed (.bool true) _ _
    split
    · exact within_scanNamed (.bool false) _ _
    split
    · split
      · exact .string _
      · exact .broken _
    split
    · split
      · next hscan => exact .number (hasWords_of_scanUnsigned hscan)
      · exact .broken _
    split
    · split
      · exact .broken _
      · next levels => exact .array (h.items levels true rest)
    split
    · split
      · exact .broken _
      · next levels => exact .object (h.members levels true rest)
    · exact .broken _

theorem ScansWithin.items_succ (h : ScansWithin fuel) (levels : Nat) (first : Bool)
    (text : List Char) :
    ∀ item ∈ (scanItems (fuel + 1) levels first text).1, item.Within levels := by
  unfold scanItems
  split
  · exact List.forall_mem_nil _
  split
  · exact List.forall_mem_nil _
  split
  · exact h.item levels _
  split
  · split
    · exact List.forall_mem_singleton.2 (.broken _)
    · exact List.forall_mem_nil _
    · exact h.item levels _
  · exact List.forall_mem_nil _

theorem ScansWithin.item_succ (h : ScansWithin fuel) (levels : Nat) (text : List Char) :
    ∀ item ∈ (scanItem (fuel + 1) levels text).1, item.Within levels := by
  have hvalue := h.value levels text
  unfold scanItem
  split
  · next hscan =>
    rw [hscan] at hvalue
    exact List.forall_mem_singleton.2 hvalue
  · next rest hscan =>
    rw [hscan] at hvalue
    exact List.forall_mem_cons.2 ⟨hvalue, h.items levels false rest⟩

theorem ScansWithin.members_succ (h : ScansWithin fuel) (levels : Nat) (first : Bool)
    (text : List Char) :
    ∀ member ∈ (scanMembers (fuel + 1) levels first text).1, member.2.Within levels := by
  unfold scanMembers
  split
  · exact List.forall_mem_nil _
  split
  · exact List.forall_mem_nil _
  split
  · exact h.member levels _
  split
  · split
    · exact List.forall_mem_nil _
    · exact List.forall_mem_nil _
    · exact h.member levels _
  · exact List.forall_mem_nil _

theorem ScansWithin.member_succ (h : ScansWithin fuel) (levels : Nat) (text : List Char) :
    ∀ member ∈ (scanMember (fuel + 1) levels text).1, member.2.Within levels := by
  unfold scanMember
  split
  · split
    · exact List.forall_mem_nil _
    · split
      · exact List.forall_mem_singleton.2 (.broken _)
      · next rest _ =>
        have hvalue := h.value levels rest
        split
        · next hscan =>
          rw [hscan] at hvalue
          exact List.forall_mem_singleton.2 hvalue
        · next rest hscan =>
          rw [hscan] at hvalue
          exact List.forall_mem_cons.2 ⟨hvalue, h.members levels false rest⟩
      · exact List.forall_mem_singleton.2 (.broken _)
  · exact List.forall_mem_nil _

theorem scansWithin (fuel : Nat) : ScansWithin fuel := by
  induction fuel with
  | zero =>
    constructor
    case value =>
      intro levels text
      rw [scanValue]
      exact .broken _
    case items | item | members | member => simp [scanItems, scanItem, scanMembers, scanMember]
  | succ fuel ih =>
    exact ⟨ih.value_succ, ih.items_succ, ih.item_succ, ih.members_succ, ih.member_succ⟩

end

theorem within_scan (text : String) : (scan text).document.Within nestingLimit :=
  (scansWithin _).value nestingLimit text.toList

/-- The value of a document within the limit is bounded. -/
theorem Document.Within.isBounded {document : Document} {levels : Nat}
    (h : document.Within levels) {value : Json} (hvalue : document.toJson = .ok value) :
    value.IsBounded levels := by
  induction h generalizing value with
  | null | bool | string | skipped =>
    rw [toJson, Except.ok.injEq] at hvalue
    subst hvalue
    exact ⟨trivial, Nat.zero_le _⟩
  | number hn =>
    rw [toJson, Except.ok.injEq] at hvalue
    subst hvalue
    exact ⟨hn, Nat.zero_le _⟩
  | broken => simp [toJson] at hvalue
  | @array levels items fault _ ih =>
    obtain ⟨values, rfl, hitems⟩ := Document.exists_of_toJson_array hvalue
    refine isBounded_array fun item hitem => ?_
    obtain ⟨found, hfound, hread⟩ := hitems item hitem
    exact ih found hfound hread
  | @object levels members fault _ ih =>
    obtain ⟨values, rfl, -, hmembers⟩ := Document.exists_of_toJson_object hvalue
    refine isBounded_object fun member hmember => ?_
    obtain ⟨found, hfound, hread⟩ := hmembers member hmember
    exact ih found hfound hread

/-- What has been read from a text is read again from the text that is written for it. -/
theorem parse_render_of_parse {text : String} {value : Json} (h : parse text = .ok value)
    (hlegible : value.Every IsLegible) : parse value.render = .ok value := by
  obtain ⟨read, hread, hafter⟩ := exists_of_bind_eq_ok h
  obtain rfl : read = value := by
    split at hafter
    · cases hafter
    · exact Except.ok.inj hafter
  exact (scans_of_legible hlegible).parse_render (Document.hasAscendingKeys_of_toJson hread)
    ((within_scan text).isBounded hread).2

end StepScript.Json
