import StepScript.Json.Document
import StepScript.Proofs.Basic

/-!
# The parts of a JSON value

Lists and objects nest. What is said of a whole value is said of all the values that stand in it,
and proved along the same nesting.
-/

namespace StepScript

/-! ## Dictionaries -/

namespace Dictionary

variable {α : Type}

/-- Each key is less than those behind it. -/
def Ascending (entries : List (String × α)) : Prop :=
  entries.Pairwise fun earlier later => earlier.1 < later.1

instance (entries : List (String × α)) : Decidable (Ascending entries) :=
  inferInstanceAs (Decidable (List.Pairwise _ entries))

/-- A key that is greater than all others comes last. -/
theorem insert_of_greatest {d : Dictionary α} {key : String} {value : α}
    (h : ∀ entry ∈ d, entry.1 < key) : d.insert key value = d ++ [(key, value)] := by
  induction d with
  | nil => rfl
  | cons entry d ih =>
    obtain ⟨hentry, hrest⟩ := List.forall_mem_cons.1 h
    have hne : key ≠ entry.1 := by
      rintro rfl
      exact String.lt_irrefl _ hentry
    rw [insert, if_neg (String.lt_asymm hentry), if_neg hne, ih hrest]
    rfl

theorem foldl_insert_of_ascending {front entries : List (String × α)}
    (h : Ascending (front ++ entries)) :
    entries.foldl (fun d entry => insert d entry.1 entry.2) front = front ++ entries := by
  induction entries generalizing front with
  | nil => simp
  | cons entry entries ih =>
    have hgreatest : ∀ other ∈ front, other.1 < entry.1 := fun other hother =>
      (List.pairwise_append.1 h).2.2 other hother entry (List.mem_cons_self ..)
    rw [List.foldl_cons, insert_of_greatest hgreatest, ih (by simpa using h)]
    simp

/-- Entries in the order of their keys are the dictionary of themselves. -/
theorem ofList_of_ascending {entries : List (String × α)} (h : Ascending entries) :
    ofList entries = entries :=
  foldl_insert_of_ascending (show Ascending ([] ++ entries) from h)

/-- Setting a key changes what is found under that key only. -/
theorem get?_insert (d : Dictionary α) (key : String) (value : α) (name : String) :
    (d.insert key value).get? name = if key = name then some value else d.get? name := by
  induction d with
  | nil => rfl
  | cons entry rest ih =>
    obtain ⟨k, v⟩ := entry
    simp only [insert]
    split
    · rfl
    · split
      · next hsame =>
        simp only [get?, ← hsame]
        split <;> rfl
      · next hother =>
        simp only [get?, ih]
        by_cases hname : k = name
        · have hkey : key ≠ name := fun hkey => hother (hkey.trans hname.symm)
          rw [if_pos hname, if_pos hname, if_neg hkey]
        · rw [if_neg hname, if_neg hname]

/-- What is set twice under a key is what was set last. -/
theorem insert_insert (d : Dictionary α) (key : String) (first second : α) :
    (d.insert key first).insert key second = d.insert key second := by
  induction d with
  | nil => simp [insert]
  | cons entry rest ih =>
    obtain ⟨k, v⟩ := entry
    by_cases hbefore : key < k
    · simp [insert, hbefore]
    · by_cases hsame : key = k
      · simp [insert, hsame]
      · simp [insert, hbefore, hsame, ih]

theorem mem_insert {d : Dictionary α} {key : String} {value : α} :
    ∀ entry ∈ d.insert key value, entry = (key, value) ∨ entry ∈ d := by
  induction d with
  | nil => simp [insert]
  | cons first d ih =>
    intro entry hentry
    unfold insert at hentry
    split at hentry
    · simpa using hentry
    · split at hentry
      · rcases List.mem_cons.1 hentry with rfl | hentry
        · exact .inl rfl
        · exact .inr (List.mem_cons_of_mem _ hentry)
      · rcases List.mem_cons.1 hentry with rfl | hentry
        · exact .inr (List.mem_cons_self ..)
        · exact (ih entry hentry).imp_right (List.mem_cons_of_mem _)

theorem Ascending.insert {d : Dictionary α} (h : Ascending d) (key : String) (value : α) :
    Ascending (d.insert key value) := by
  induction d with
  | nil => exact List.pairwise_singleton _ _
  | cons first d ih =>
    obtain ⟨hfirst, hrest⟩ := List.pairwise_cons.1 h
    unfold Dictionary.insert
    split
    · next hlt =>
      refine List.pairwise_cons.2 ⟨List.forall_mem_cons.2 ⟨hlt, fun entry hentry => ?_⟩, h⟩
      exact String.lt_trans hlt (hfirst entry hentry)
    · next hge =>
      split
      · next heq => exact List.pairwise_cons.2 ⟨fun entry hentry => heq ▸ hfirst entry hentry, hrest⟩
      · next hne =>
        refine List.pairwise_cons.2 ⟨fun entry hentry => ?_, ih hrest⟩
        rcases mem_insert entry hentry with rfl | hentry
        · by_contra hle
          exact hne (String.le_antisymm (String.not_lt.1 hle) (String.not_lt.1 hge))
        · exact hfirst entry hentry

/-- A dictionary is in the order of its keys, in whatever order the entries were given, and has no
others. -/
theorem ofList_spec (entries : List (String × α)) :
    Ascending (ofList entries) ∧ ∀ entry ∈ ofList entries, entry ∈ entries := by
  have hfold : ∀ front : Dictionary α, Ascending front →
      Ascending (entries.foldl (fun d entry => Dictionary.insert d entry.1 entry.2) front) ∧
        ∀ entry ∈ entries.foldl (fun d entry => Dictionary.insert d entry.1 entry.2) front,
          entry ∈ front ∨ entry ∈ entries := by
    induction entries with
    | nil => exact fun front hfront => ⟨hfront, fun _ => .inl⟩
    | cons first entries ih =>
      intro front hfront
      obtain ⟨hascending, hmem⟩ := ih _ (hfront.insert first.1 first.2)
      refine ⟨hascending, fun entry hentry => ?_⟩
      rcases hmem entry hentry with hentry | hentry
      · rcases mem_insert entry hentry with rfl | hentry
        · exact .inr (List.mem_cons_self ..)
        · exact .inl hentry
      · exact .inr (List.mem_cons_of_mem _ hentry)
  obtain ⟨hascending, hmem⟩ := hfold [] List.Pairwise.nil
  exact ⟨hascending, fun entry hentry => (hmem entry hentry).resolve_left nofun⟩

end Dictionary

namespace Json

/-! ## Induction -/

/-- A property of values holds of all of them if it holds of a list whose items have it and of an
object whose members have it. -/
@[elab_as_elim]
theorem induction {motive : Json → Prop} (null : motive .null) (bool : ∀ b, motive (.bool b))
    (number : ∀ n, motive (.number n)) (string : ∀ text, motive (.string text))
    (array : ∀ items, (∀ item ∈ items, motive item) → motive (.array items))
    (object : ∀ members, (∀ member ∈ members, motive member.2) → motive (.object members)) :
    ∀ value, motive value :=
  @Json.rec motive (fun items => ∀ item ∈ items, motive item)
    (fun members => ∀ member ∈ members, motive member.2) (fun member => motive member.2)
    null bool number string array object nofun
    (fun _ _ hitem hitems => List.forall_mem_cons.2 ⟨hitem, hitems⟩) nofun
    (fun _ _ hmember hmembers => List.forall_mem_cons.2 ⟨hmember, hmembers⟩)
    (fun _ _ hvalue => hvalue)

/-- The same for documents. -/
@[elab_as_elim]
theorem Document.induction {motive : Document → Prop} (null : motive .null)
    (bool : ∀ b, motive (.bool b)) (number : ∀ n, motive (.number n))
    (string : ∀ text, motive (.string text))
    (array : ∀ items fault, (∀ item ∈ items, motive item) → motive (.array items fault))
    (object : ∀ members fault, (∀ member ∈ members, motive member.2) →
      motive (.object members fault))
    (broken : ∀ cause, motive (.broken cause)) (skipped : motive .skipped) :
    ∀ document, motive document :=
  @Document.rec motive (fun items => ∀ item ∈ items, motive item)
    (fun members => ∀ member ∈ members, motive member.2) (fun member => motive member.2)
    null bool number string (fun items fault => array items fault)
    (fun members fault => object members fault) broken skipped (List.forall_mem_nil _)
    (fun _ _ hitem hitems => List.forall_mem_cons.2 ⟨hitem, hitems⟩) (List.forall_mem_nil _)
    (fun _ _ hmember hmembers => List.forall_mem_cons.2 ⟨hmember, hmembers⟩)
    (fun _ _ hvalue => hvalue)

/-! ## What holds of all values in a value -/

mutual

/-- Whether `p` holds of a value and of all values that stand in it. -/
def Every (p : Json → Prop) : Json → Prop
  | .array items => p (.array items) ∧ EveryItem p items
  | .object members => p (.object members) ∧ EveryMember p members
  | value => p value

def EveryItem (p : Json → Prop) : List Json → Prop
  | [] => True
  | item :: rest => item.Every p ∧ EveryItem p rest

def EveryMember (p : Json → Prop) : List (String × Json) → Prop
  | [] => True
  | (_, value) :: rest => value.Every p ∧ EveryMember p rest

end

section

variable {p : Json → Prop} {items : List Json} {members : List (String × Json)}

theorem everyItem_iff : EveryItem p items ↔ ∀ item ∈ items, item.Every p := by
  induction items with
  | nil => simp [EveryItem]
  | cons item items ih => simp [EveryItem, ih]

theorem everyMember_iff : EveryMember p members ↔ ∀ member ∈ members, member.2.Every p := by
  induction members with
  | nil => simp [EveryMember]
  | cons member members ih => simp [EveryMember, ih]

@[simp] theorem every_null : Json.null.Every p ↔ p .null := Iff.rfl

@[simp] theorem every_bool {b : Bool} : (Json.bool b).Every p ↔ p (.bool b) := Iff.rfl

@[simp] theorem every_number {n : Number} : (Json.number n).Every p ↔ p (.number n) := Iff.rfl

@[simp] theorem every_string {text : String} : (Json.string text).Every p ↔ p (.string text) :=
  Iff.rfl

@[simp] theorem every_array :
    (Json.array items).Every p ↔ p (.array items) ∧ ∀ item ∈ items, item.Every p := by
  rw [Every, everyItem_iff]

@[simp] theorem every_object :
    (Json.object members).Every p ↔
      p (.object members) ∧ ∀ member ∈ members, member.2.Every p := by
  rw [Every, everyMember_iff]

end

/-! ## Nesting -/

mutual

/-- How many lists and objects are open at once in the text of a value. -/
def depth : Json → Nat
  | .array items => itemsDepth items + 1
  | .object members => membersDepth members + 1
  | _ => 0

def itemsDepth : List Json → Nat
  | [] => 0
  | item :: rest => max item.depth (itemsDepth rest)

def membersDepth : List (String × Json) → Nat
  | [] => 0
  | (_, value) :: rest => max value.depth (membersDepth rest)

end

theorem depth_array_le_iff {items : List Json} {levels : Nat} :
    (Json.array items).depth ≤ levels + 1 ↔ ∀ item ∈ items, item.depth ≤ levels := by
  rw [depth, Nat.add_le_add_iff_right]
  induction items with
  | nil => simp [itemsDepth]
  | cons item items ih => rw [itemsDepth, Nat.max_le, ih, List.forall_mem_cons]

theorem depth_object_le_iff {members : List (String × Json)} {levels : Nat} :
    (Json.object members).depth ≤ levels + 1 ↔ ∀ member ∈ members, member.2.depth ≤ levels := by
  rw [depth, Nat.add_le_add_iff_right]
  induction members with
  | nil => simp [membersDepth]
  | cons member members ih => rw [membersDepth, Nat.max_le, ih, List.forall_mem_cons]

/-! ## The document of a value -/

def HasAscendingKeys : Json → Prop
  | .object members => Dictionary.Ascending members
  | _ => True

theorem Document.ofMembers_eq_map (members : List (String × Json)) :
    ofMembers members = members.map fun member => (member.1, ofJson member.2) := by
  induction members with
  | nil => rfl
  | cons member members ih => rw [ofMembers, ih]; rfl

theorem Document.itemsToJson_ofItems {items : List Json}
    (h : ∀ item ∈ items, (ofJson item).toJson = .ok item) :
    itemsToJson (ofItems items) = .ok items := by
  induction items with
  | nil => rfl
  | cons item items ih =>
    obtain ⟨hitem, hitems⟩ := List.forall_mem_cons.1 h
    rw [ofItems, itemsToJson, hitem, ih hitems]
    rfl

theorem Document.membersToJson_ofMembers {members : List (String × Json)}
    (h : ∀ member ∈ members, (ofJson member.2).toJson = .ok member.2) :
    membersToJson (ofMembers members) = .ok members := by
  induction members with
  | nil => rfl
  | cons member members ih =>
    obtain ⟨hmember, hmembers⟩ := List.forall_mem_cons.1 h
    rw [ofMembers, membersToJson, hmember, ih hmembers]
    rfl

/-- The document of a value has no fault, and is read as that value if the objects in it are in the
order of their keys. -/
theorem Document.toJson_ofJson {value : Json} (h : value.Every HasAscendingKeys) :
    (ofJson value).toJson = .ok value := by
  induction value using Json.induction with
  | null | bool | number | string => rfl
  | array items ih =>
    have hitems := (every_array.1 h).2
    rw [ofJson, toJson, itemsToJson_ofItems fun item hitem => ih item hitem (hitems item hitem)]
    rfl
  | object members ih =>
    obtain ⟨hkeys, hmembers⟩ := every_object.1 h
    rw [ofJson, toJson, membersToJson_ofMembers fun member hmember =>
      ih member hmember (hmembers member hmember)]
    show Except.ok (Json.object (Dictionary.ofList members)) = _
    rw [Dictionary.ofList_of_ascending hkeys]

theorem Document.mem_of_itemsToJson {items : List Document} {values : List Json}
    (h : itemsToJson items = .ok values) :
    ∀ value ∈ values, ∃ item ∈ items, item.toJson = .ok value := by
  induction items generalizing values with
  | nil =>
    obtain rfl := Except.ok.inj h
    exact List.forall_mem_nil _
  | cons item items ih =>
    rw [itemsToJson] at h
    obtain ⟨value, hvalue, h⟩ := exists_of_bind_eq_ok h
    obtain ⟨others, hothers, h⟩ := exists_of_bind_eq_ok h
    obtain rfl := Except.ok.inj h
    refine List.forall_mem_cons.2 ⟨⟨item, List.mem_cons_self .., hvalue⟩, fun other hother => ?_⟩
    obtain ⟨found, hfound, hread⟩ := ih hothers other hother
    exact ⟨found, List.mem_cons_of_mem _ hfound, hread⟩

theorem Document.mem_of_membersToJson {members : List (String × Document)} {values : List (String × Json)}
    (h : membersToJson members = .ok values) :
    ∀ value ∈ values, ∃ member ∈ members, member.2.toJson = .ok value.2 := by
  induction members generalizing values with
  | nil =>
    obtain rfl := Except.ok.inj h
    exact List.forall_mem_nil _
  | cons member members ih =>
    obtain ⟨key, document⟩ := member
    rw [membersToJson] at h
    obtain ⟨value, hvalue, h⟩ := exists_of_bind_eq_ok h
    obtain ⟨others, hothers, h⟩ := exists_of_bind_eq_ok h
    obtain rfl := Except.ok.inj h
    refine List.forall_mem_cons.2 ⟨⟨_, List.mem_cons_self .., hvalue⟩, fun other hother => ?_⟩
    obtain ⟨found, hfound, hread⟩ := ih hothers other hother
    exact ⟨found, List.mem_cons_of_mem _ hfound, hread⟩

/-- A list is read if it has no fault, and then its items are read. -/
theorem Document.exists_of_toJson_array {items : List Document} {fault : Option Malformed}
    {value : Json} (h : (array items fault).toJson = .ok value) :
    ∃ values, value = .array values ∧ ∀ item ∈ values, ∃ found ∈ items, found.toJson = .ok item := by
  rw [toJson] at h
  obtain ⟨values, hvalues, h⟩ := exists_of_bind_eq_ok h
  cases fault with
  | some cause => cases h
  | none =>
    obtain rfl := Except.ok.inj h
    exact ⟨values, rfl, Document.mem_of_itemsToJson hvalues⟩

/-- An object is read if it has no fault, and then the values of its members are read. Of members with
one key the last stays. -/
theorem Document.exists_of_toJson_object {members : List (String × Document)}
    {fault : Option Malformed} {value : Json} (h : (object members fault).toJson = .ok value) :
    ∃ values, value = .object values ∧ Dictionary.Ascending values ∧
      ∀ member ∈ values, ∃ found ∈ members, found.2.toJson = .ok member.2 := by
  rw [toJson] at h
  obtain ⟨values, hvalues, h⟩ := exists_of_bind_eq_ok h
  cases fault with
  | some cause => cases h
  | none =>
    obtain rfl := Except.ok.inj h
    obtain ⟨hascending, hmem⟩ := Dictionary.ofList_spec values
    exact ⟨_, rfl, hascending, fun member hmember =>
      Document.mem_of_membersToJson hvalues member (hmem member hmember)⟩

/-- Whatever is read out of a document keeps its objects in the order of their keys. -/
theorem Document.hasAscendingKeys_of_toJson {document : Document} {value : Json}
    (h : document.toJson = .ok value) : value.Every HasAscendingKeys := by
  induction document using Document.induction generalizing value with
  | null | skipped | bool | number | string =>
    rw [toJson, Except.ok.injEq] at h
    subst h
    trivial
  | broken => simp [toJson] at h
  | array items fault ih =>
    obtain ⟨values, rfl, hitems⟩ := Document.exists_of_toJson_array h
    refine every_array.2 ⟨trivial, fun item hitem => ?_⟩
    obtain ⟨found, hfound, hread⟩ := hitems item hitem
    exact ih found hfound hread
  | object members fault ih =>
    obtain ⟨values, rfl, hascending, hmembers⟩ := Document.exists_of_toJson_object h
    refine every_object.2 ⟨hascending, fun member hmember => ?_⟩
    obtain ⟨found, hfound, hread⟩ := hmembers member hmember
    exact ih found hfound hread

end Json

end StepScript
